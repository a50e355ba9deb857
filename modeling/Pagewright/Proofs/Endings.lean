import Pagewright.Proofs.Faults

/-!
# How replacements end

A run of a program any of whose operations may fail `Ends` with an answer and a tree. Such runs are
peeled apart from the front (`FileProgram.ends_bind_iff`, `FileProgram.ends_run_bind_iff`). For a
replacement this is done once: `ReplaceEnding` has one constructor for each place at which it can
end, with what was done until then and what it answers, and there is no other way to end
(`replaceFile_ends`).
-/

namespace Pagewright

open Text

namespace FileProgram

variable {α β ε : Type} {t t' t'' : FileTree}

/-- A run that starts with a tree and may fail anywhere ends with an answer and a tree. -/
inductive Ends : FileTree → FileProgram α → α → FileTree → Prop
  | done {t : FileTree} (a : α) : Ends t (.done a) a t
  | next {t t' t'' : FileTree} {op : FileOp} {answer : op.Answer} {k : op.Answer → FileProgram α}
      {a : α} (outcome : op.Outcome t answer t') (rest : Ends t' (k answer) a t'') :
      Ends t (.step op k) a t''

/-- A run in which nothing fails. -/
theorem ends_run (t : FileTree) (prog : FileProgram α) :
    Ends t prog (prog.run t).1 (prog.run t).2 := by
  induction prog generalizing t with
  | done a => exact .done a
  | step op k ih => exact .next (.works op) (ih _ _)

theorem ends_of_run {prog : FileProgram α} {a : α} (h : prog.run t = (a, t')) :
    Ends t prog a t' := by
  have hends := ends_run t prog
  rwa [h] at hends

def diskFull : FileError :=
  .other "No space left on device (os error 28)"

/-- A run on a full disk: every write fails without effect, and nothing else fails. -/
def runFull (t : FileTree) : FileProgram α → α × FileTree
  | .done a => (a, t)
  | .step (.write _ _) next => (next (.error diskFull)).runFull t
  | .step op next => (next (op.perform t).1).runFull (op.perform t).2

theorem ends_runFull (t : FileTree) (prog : FileProgram α) :
    Ends t prog (prog.runFull t).1 (prog.runFull t).2 := by
  induction prog generalizing t with
  | done a => exact .done a
  | step op k ih =>
    cases op with
    | write p content => exact .next (.writeFails p content _) (ih _ _)
    | _ => exact .next (.works _) (ih _ _)

/-- What a program keeps holds at the end of its run, and so does what it is to end with. -/
theorem Keeps.of_ends {I : FileTree → Prop} {Q : α → FileTree → Prop} {prog : FileProgram α}
    {a : α} (h : prog.Keeps I Q t) (hends : Ends t prog a t') : I t' ∧ Q a t' := by
  induction hends with
  | done a => exact h
  | next outcome rest ih => exact ih (h.2 _ _ outcome)

theorem ends_pure_iff {a b : α} : Ends t (pure b) a t' ↔ a = b ∧ t' = t := by
  constructor
  · intro h
    cases h with
    | done => exact ⟨rfl, rfl⟩
  · rintro ⟨rfl, rfl⟩
    exact .done a

theorem ends_bind_iff {prog : FileProgram β} {k : β → FileProgram α} {a : α} :
    Ends t (prog >>= k) a t'' ↔ ∃ b t', Ends t prog b t' ∧ Ends t' (k b) a t'' := by
  constructor
  · intro h
    induction prog generalizing t with
    | done b => exact ⟨b, t, .done b, h⟩
    | step op next ih =>
      change Ends t (.step op fun answer => next answer >>= k) a t'' at h
      cases h with
      | next outcome rest =>
        obtain ⟨b, t', hfirst, hsecond⟩ := ih _ rest
        exact ⟨b, t', .next outcome hfirst, hsecond⟩
  · rintro ⟨b, t', hfirst, hsecond⟩
    induction hfirst with
    | done b => exact hsecond
    | next outcome rest ih => exact .next outcome (ih hsecond)

theorem ends_perform_iff {op : FileOp} {answer : op.Answer} :
    Ends t (perform op) answer t' ↔ op.Outcome t answer t' := by
  constructor
  · intro h
    cases h with
    | next outcome rest =>
      cases rest with
      | done => exact outcome
  · intro h
    exact .next h (.done answer)

theorem ends_inspect {p : Path} {kind : Option EntryKind} (h : Ends t (inspect p) kind t') :
    kind = t.inspect p ∧ t' = t :=
  (ends_perform_iff.1 h).inspect

theorem ends_exists? {p : Path} {b : Bool} (h : Ends t (exists? p) b t') :
    b = (t.inspect p).isSome ∧ t' = t := by
  obtain ⟨kind, t₁, hinspect, hpure⟩ := ends_bind_iff.1 h
  obtain ⟨rfl, rfl⟩ := ends_inspect hinspect
  exact ends_pure_iff.1 hpure

/-! Programs with errors of their own. -/

theorem ends_run_bind_iff {m : ExceptT ε FileProgram β} {f : β → ExceptT ε FileProgram α}
    {r : Except ε α} : Ends t (m >>= f).run r t'' ↔
      (∃ b t', Ends t m.run (.ok b) t' ∧ Ends t' (f b).run r t'') ∨
        ∃ e, r = .error e ∧ Ends t m.run (.error e) t'' := by
  rw [ExceptT.run_bind, ends_bind_iff]
  constructor
  · rintro ⟨result, t', hfirst, hsecond⟩
    cases result with
    | ok b => exact .inl ⟨b, t', hfirst, hsecond⟩
    | error e =>
      obtain ⟨rfl, rfl⟩ := ends_pure_iff.1 hsecond
      exact .inr ⟨e, rfl, hfirst⟩
  · rintro (⟨b, t', hfirst, hsecond⟩ | ⟨e, rfl, hfirst⟩)
    · exact ⟨.ok b, t', hfirst, hsecond⟩
    · exact ⟨.error e, t'', hfirst, .done _⟩

theorem ends_run_pure {a : α} {r : Except ε α}
    (h : Ends t (pure a : ExceptT ε FileProgram α).run r t') : r = .ok a ∧ t' = t :=
  ends_pure_iff.1 h

theorem ends_run_throw {e : ε} {r : Except ε α}
    (h : Ends t (throw e : ExceptT ε FileProgram α).run r t') : r = .error e ∧ t' = t :=
  ends_pure_iff.1 h

/-- A program without errors of its own goes on to what follows it. -/
theorem ends_lift_bind {prog : FileProgram β} {f : β → ExceptT ε FileProgram α} {r : Except ε α}
    (h : Ends t ((prog : ExceptT ε FileProgram β) >>= f).run r t'') :
    ∃ b t', Ends t prog b t' ∧ Ends t' (f b).run r t'' := by
  rcases ends_run_bind_iff.1 h with ⟨b, t', hfirst, hsecond⟩ | ⟨e, -, hfirst⟩
  · obtain ⟨_, t₁, hprog, hpure⟩ := ends_bind_iff.1 hfirst
    obtain ⟨heq, rfl⟩ := ends_pure_iff.1 hpure
    cases heq
    exact ⟨b, t', hprog, hsecond⟩
  · obtain ⟨_, t₁, -, hpure⟩ := ends_bind_iff.1 hfirst
    cases (ends_pure_iff.1 hpure).1

end FileProgram

open FileProgram (Ends ends_bind_iff ends_pure_iff ends_perform_iff ends_run_bind_iff ends_run_pure
  ends_run_throw ends_lift_bind ends_inspect ends_exists?)

/-- There is nothing at a path, or what is there is removed. -/
def FileTree.Clears (t : FileTree) (p : Path) (t' : FileTree) : Prop :=
  t.inspect p = none ∧ t' = t ∨ t.remove p = .ok t'

namespace Replacing

variable {α : Type} {t t' : FileTree} {p q target : Path} {f : Unit → Replacing α}
  {r : Except ReplaceError α}

theorem ends_attempt {op : FileProgram (Except FileError α)}
    (h : Ends t (attempt p op).run r t') :
    ∃ answer, Ends t op answer t' ∧ r = answer.mapError (.file p) := by
  unfold attempt at h
  rw [ExceptT.run_mk] at h
  obtain ⟨answer, t₁, hop, hrest⟩ := ends_bind_iff.1 h
  cases answer with
  | ok a =>
    obtain ⟨rfl, rfl⟩ := ends_pure_iff.1 hrest
    exact ⟨.ok a, hop, rfl⟩
  | error e =>
    obtain ⟨rfl, rfl⟩ := ends_pure_iff.1 hrest
    exact ⟨.error e, hop, rfl⟩

/-- A change that has no effect when it fails, and what follows it. -/
theorem ends_change_bind {op : FileProgram (Except FileError Unit)}
    {change : Except FileError FileTree}
    (hop : ∀ answer t', Ends t op answer t' →
      ((∃ e, answer = .error e) ∧ t' = t) ∨ answer = .ok () ∧ change = .ok t')
    (h : Ends t (attempt p op >>= f).run r t') :
    (∃ t₁, change = .ok t₁ ∧ Ends t₁ (f ()).run r t') ∨ (∃ e, r = .error (.file p e)) ∧ t' = t := by
  rcases ends_run_bind_iff.1 h with ⟨_, t₁, hfirst, hrest⟩ | ⟨e, rfl, hfirst⟩
  · obtain ⟨answer, hanswer, heq⟩ := ends_attempt hfirst
    rcases hop answer t₁ hanswer with ⟨⟨e, rfl⟩, -⟩ | ⟨-, hchange⟩
    · cases heq
    · exact .inl ⟨t₁, hchange, hrest⟩
  · obtain ⟨answer, hanswer, heq⟩ := ends_attempt hfirst
    rcases hop answer t' hanswer with ⟨⟨e', rfl⟩, rfl⟩ | ⟨rfl, -⟩
    · cases heq
      exact .inr ⟨⟨e', rfl⟩, rfl⟩
    · cases heq

theorem ends_rename_bind (h : Ends t (attempt p (.rename p q) >>= f).run r t') :
    (∃ t₁, t.rename p q = .ok t₁ ∧ Ends t₁ (f ()).run r t') ∨
      (∃ e, r = .error (.file p e)) ∧ t' = t :=
  ends_change_bind (fun _ _ hop => (ends_perform_iff.1 hop).rename) h

theorem ends_removeIfPresent_bind (h : Ends t (removeIfPresent p >>= f).run r t') :
    (∃ t₁, t.Clears p t₁ ∧ Ends t₁ (f ()).run r t') ∨
      (∃ e, r = .error (.file p e)) ∧ t' = t := by
  unfold removeIfPresent at h
  rw [bind_assoc] at h
  obtain ⟨present, t₁, hexists, hrest⟩ := ends_lift_bind h
  obtain ⟨rfl, rfl⟩ := ends_exists? hexists
  cases hkind : t₁.inspect p with
  | none =>
    rw [hkind] at hrest
    exact .inl ⟨t₁, .inl ⟨hkind, rfl⟩, hrest⟩
  | some kind =>
    rw [hkind] at hrest
    refine (ends_change_bind (fun _ _ hop => (ends_perform_iff.1 hop).remove) hrest).imp_left ?_
    rintro ⟨t₂, hremove, hend⟩
    exact ⟨t₂, .inr hremove, hend⟩

theorem ends_checkDirectories_bind {ps : List Path}
    (h : Ends t (checkDirectories target ps >>= f).run r t') :
    Ends t (f ()).run r t' ∨ t' = t ∧ ∃ p ∈ ps, t.inspect p = some .file ∧
      r = .error (.blocked target p) := by
  induction ps with
  | nil => exact .inl h
  | cons p ps ih =>
    unfold checkDirectories at h
    rw [bind_assoc] at h
    obtain ⟨kind, t₁, hinspect, hrest⟩ := ends_lift_bind h
    obtain ⟨rfl, rfl⟩ := ends_inspect hinspect
    split at hrest
    · next hfile =>
      rw [bind_assoc] at hrest
      rcases ends_run_bind_iff.1 hrest with ⟨_, _, hthrow, -⟩ | ⟨e, rfl, hthrow⟩
      · cases (ends_run_throw hthrow).1
      · obtain ⟨heq, rfl⟩ := ends_run_throw hthrow
        cases heq
        exact .inr ⟨rfl, p, List.mem_cons_self, beq_iff_eq.1 hfile, rfl⟩
    · refine (ih hrest).imp_right ?_
      rintro ⟨rfl, q, hq, hblocked⟩
      exact ⟨rfl, q, List.mem_cons_of_mem p hq, hblocked⟩

/-- Making the ancestors fails before the first change when one of them is a file, and otherwise
with an error for the parent. -/
theorem ends_makeAncestors {r : Except ReplaceError Unit}
    (h : Ends t (makeAncestors target).run r t') :
    r = .ok () ∨ (∃ p, r = .error (.blocked target p)) ∧ t' = t ∨
      ∃ parent e, target.parent? = some parent ∧ r = .error (.file parent e) := by
  unfold makeAncestors at h
  split at h
  · exact .inl (ends_run_pure h).1
  · next parent hparent =>
    split at h
    · exact .inl (ends_run_pure h).1
    · rcases ends_checkDirectories_bind h with hrest | ⟨rfl, p, -, -, rfl⟩
      · obtain ⟨present, t₁, -, hmake⟩ := ends_lift_bind hrest
        split at hmake
        · exact .inl (ends_run_pure hmake).1
        · obtain ⟨answer, -, rfl⟩ := ends_attempt hmake
          cases answer with
          | ok _ => exact .inl rfl
          | error e => exact .inr (.inr ⟨parent, e, hparent, rfl⟩)
      · exact .inr (.inl ⟨⟨p, rfl⟩, rfl⟩)

end Replacing

open Replacing

/-! ## The endings of a replacement -/

section Endings

variable {t t' td : FileTree} {target backup : Path} {text : String} {content : Bytes}
  {verify : Bool} {options : ReplaceOptions} {r : Except ReplaceError Replaced}

/-- What is done before the new content is written: the target is free, and the flag says whether
it had a previous version, which is then at the backup. -/
inductive MakesRoom (target backup : Path) (t : FileTree) : Bool → FileTree → Prop
  | absent {ta t' : FileTree} (ancestors : Ends t (makeAncestors target).run (.ok ()) ta)
      (nothing : ta.inspect target = none) (cleared : ta.Clears backup t') :
      MakesRoom target backup t false t'
  | moved {ta tb t' : FileTree} {kind : EntryKind}
      (ancestors : Ends t (makeAncestors target).run (.ok ()) ta)
      (there : ta.inspect target = some kind) (cleared : ta.Clears backup tb)
      (renamed : tb.rename target backup = .ok t') : MakesRoom target backup t true t'

/-- How a comparison of new content with the previous version ends. -/
inductive CompareEnding (target backup : Path) (content : Bytes) (options : ReplaceOptions)
    (td : FileTree) : Except ReplaceError Replaced → FileTree → Prop
  | gone : CompareEnding target backup content options td (.error (.backupGone backup)) td
  | unread {e : FileError} :
      CompareEnding target backup content options td (.error (.file backup e)) td
  | sideStays {previous : Bytes} {e : FileError} (read : td.read backup = .ok previous) :
      CompareEnding target backup content options td
        (.error (.file (target.sibling options.newSuffix) e)) td
  | same {t' : FileTree} (read : td.read backup = .ok content)
      (cleared : td.Clears (target.sibling options.newSuffix) t') :
      CompareEnding target backup content options td
        (.ok { target, backup := some backup, verified := true }) t'
  | newStays {previous : Bytes} {te : FileTree} {e : FileError}
      (read : td.read backup = .ok previous)
      (cleared : td.Clears (target.sibling options.newSuffix) te) :
      CompareEnding target backup content options td (.error (.file target e)) te
  | oldStays {previous : Bytes} {te tf : FileTree} {e : FileError}
      (read : td.read backup = .ok previous)
      (cleared : td.Clears (target.sibling options.newSuffix) te)
      (aside : te.rename target (target.sibling options.newSuffix) = .ok tf) :
      CompareEnding target backup content options td (.error (.file backup e)) tf
  | putBack {previous : Bytes} {te tf t' : FileTree} {offset : Nat}
      (read : td.read backup = .ok previous)
      (cleared : td.Clears (target.sibling options.newSuffix) te)
      (aside : te.rename target (target.sibling options.newSuffix) = .ok tf)
      (back : tf.rename backup target = .ok t')
      (differs : firstMismatch previous content = some offset) :
      CompareEnding target backup content options td
        (.error (.changed target (target.sibling options.newSuffix) offset
          (excerpt previous offset options.contextBytes)
          (excerpt content offset options.contextBytes))) t'

/-- How a replacement of a file ends. -/
inductive ReplaceEnding (target backup : Path) (content : Bytes) (verify : Bool)
    (options : ReplaceOptions) (t : FileTree) : Except ReplaceError Replaced → FileTree → Prop
  | noAncestors {e : ReplaceError} {t' : FileTree}
      (ancestors : Ends t (makeAncestors target).run (.error e) t') :
      ReplaceEnding target backup content verify options t (.error e) t'
  | backupStays {ta : FileTree} {e : FileError}
      (ancestors : Ends t (makeAncestors target).run (.ok ()) ta) :
      ReplaceEnding target backup content verify options t (.error (.file backup e)) ta
  | targetStays {ta tb : FileTree} {kind : EntryKind} {e : FileError}
      (ancestors : Ends t (makeAncestors target).run (.ok ()) ta)
      (there : ta.inspect target = some kind) (cleared : ta.Clears backup tb) :
      ReplaceEnding target backup content verify options t (.error (.file target e)) tb
  | unwritten {had : Bool} {tc t' : FileTree} {e : FileError}
      (room : MakesRoom target backup t had tc)
      (left : t' = tc ∨ tc.remove target = .ok t' ∨
        ∃ part, part <+: content ∧ tc.write target part = .ok t') :
      ReplaceEnding target backup content verify options t (.error (.file target e)) t'
  | written {had : Bool} {tc t' : FileTree} (room : MakesRoom target backup t had tc)
      (plain : (verify && had) = false) (wrote : tc.write target content = .ok t') :
      ReplaceEnding target backup content verify options t
        (.ok { target, backup := if had then some backup else none, verified := false }) t'
  | compared {tc td t' : FileTree} {r : Except ReplaceError Replaced}
      (room : MakesRoom target backup t true tc) (verified : verify = true)
      (wrote : tc.write target content = .ok td)
      (rest : CompareEnding target backup content options td r t') :
      ReplaceEnding target backup content verify options t r t'

theorem ends_readBackup {r : Except ReplaceError Bytes} (h : Ends t (readBackup backup).run r t') :
    t' = t ∧ (r = .error (.backupGone backup) ∨ (∃ e, r = .error (.file backup e)) ∨
      ∃ previous, r = .ok previous ∧ t.read backup = .ok previous) := by
  unfold readBackup at h
  rw [ExceptT.run_mk] at h
  obtain ⟨answer, t₁, hread, hrest⟩ := ends_bind_iff.1 h
  obtain ⟨rfl, ⟨e, rfl⟩ | rfl⟩ := (ends_perform_iff.1 hread).read
  · split at hrest
    · next heq => cases heq
    · obtain ⟨rfl, rfl⟩ := ends_pure_iff.1 hrest
      exact ⟨rfl, .inl rfl⟩
    · obtain ⟨rfl, rfl⟩ := ends_pure_iff.1 hrest
      exact ⟨rfl, .inr (.inl ⟨_, rfl⟩)⟩
  · split at hrest
    · next previous hok =>
      obtain ⟨rfl, rfl⟩ := ends_pure_iff.1 hrest
      exact ⟨rfl, .inr (.inr ⟨previous, rfl, hok⟩)⟩
    · obtain ⟨rfl, rfl⟩ := ends_pure_iff.1 hrest
      exact ⟨rfl, .inl rfl⟩
    · obtain ⟨rfl, rfl⟩ := ends_pure_iff.1 hrest
      exact ⟨rfl, .inr (.inl ⟨_, rfl⟩)⟩

theorem verifyReplaced_ends
    (h : Ends td (verifyReplaced target backup content options).run r t') :
    CompareEnding target backup content options td r t' := by
  unfold verifyReplaced at h
  rcases ends_run_bind_iff.1 h with ⟨previous, t₁, hread, hrest⟩ | ⟨e, rfl, hread⟩
  · obtain ⟨rfl, heq | ⟨e, heq⟩ | ⟨_, heq, hprevious⟩⟩ := ends_readBackup hread
    · cases heq
    · cases heq
    cases heq
    rcases ends_removeIfPresent_bind hrest with ⟨te, hcleared, hmatch⟩ | ⟨⟨e, rfl⟩, rfl⟩
    · split at hmatch
      · next hnone =>
        obtain rfl := firstMismatch_eq_none_iff.1 hnone
        obtain ⟨rfl, rfl⟩ := ends_run_pure hmatch
        exact .same hprevious hcleared
      · next offset hdiffers =>
        rcases ends_rename_bind hmatch with ⟨tf, haside, hrest⟩ | ⟨⟨e, rfl⟩, rfl⟩
        · rcases ends_rename_bind hrest with ⟨tg, hback, hthrow⟩ | ⟨⟨e, rfl⟩, rfl⟩
          · obtain ⟨rfl, rfl⟩ := ends_run_throw hthrow
            exact .putBack hprevious hcleared haside hback hdiffers
          · exact .oldStays hprevious hcleared haside
        · exact .newStays hprevious hcleared
    · exact .sideStays hprevious
  · obtain ⟨rfl, heq | ⟨e, heq⟩ | ⟨_, heq, -⟩⟩ := ends_readBackup hread
    · cases heq
      exact .gone
    · cases heq
      exact .unread
    · cases heq

/-- The new content is written, and compared with the previous version when that is asked for. -/
theorem write_ends {had : Bool} {tc : FileTree} (room : MakesRoom target backup t had tc)
    (h : Ends tc (do
      attempt target (.write target content)
      if verify && had then verifyReplaced target backup content options
      else return { target, backup := if had then some backup else none, verified := false } :
        Replacing Replaced).run r t') :
    ReplaceEnding target backup content verify options t r t' := by
  rcases ends_run_bind_iff.1 h with ⟨_, td, hfirst, hrest⟩ | ⟨e, rfl, hfirst⟩
  · obtain ⟨answer, hanswer, heq⟩ := ends_attempt hfirst
    rcases (ends_perform_iff.1 hanswer).write with ⟨-, hwrote⟩ | ⟨⟨e, rfl⟩, -⟩
    · split at hrest
      · next hboth =>
        obtain ⟨hverify, rfl⟩ := Bool.and_eq_true_iff.1 hboth
        exact .compared room hverify hwrote (verifyReplaced_ends hrest)
      · next hplain =>
        obtain ⟨rfl, rfl⟩ := ends_run_pure hrest
        exact .written room (by simpa using hplain) hwrote
    · cases heq
  · obtain ⟨answer, hanswer, heq⟩ := ends_attempt hfirst
    rcases (ends_perform_iff.1 hanswer).write with ⟨rfl, -⟩ | ⟨⟨e, rfl⟩, hleft⟩
    · cases heq
    · cases heq
      exact .unwritten room hleft

/-- **Every run of a replacement** ends in one of these ways. -/
theorem replaceFile_ends (h : Ends t (replaceFile target text verify options).run r t') :
    ReplaceEnding target (target.sibling options.backupSuffix) (Utf8.encode text) verify options t
      r t' := by
  unfold replaceFile at h
  rcases ends_run_bind_iff.1 h with ⟨_, ta, hancestors, hrest⟩ | ⟨e, rfl, hancestors⟩
  · obtain ⟨had, t₁, hexists, hrest⟩ := ends_lift_bind hrest
    obtain ⟨rfl, rfl⟩ := ends_exists? hexists
    rcases ends_removeIfPresent_bind hrest with ⟨tb, hcleared, hrest⟩ | ⟨⟨e, rfl⟩, rfl⟩
    · cases hkind : t₁.inspect target with
      | none =>
        rw [hkind] at hrest
        exact write_ends (.absent hancestors hkind hcleared) hrest
      | some kind =>
        rw [hkind] at hrest
        rcases ends_rename_bind hrest with ⟨tc, hrename, hrest⟩ | ⟨⟨e, rfl⟩, rfl⟩
        · exact write_ends (.moved hancestors hkind hcleared hrename) hrest
        · exact .targetStays hancestors hkind hcleared
    · exact .backupStays hancestors
  · exact .noAncestors hancestors

end Endings

end Pagewright
