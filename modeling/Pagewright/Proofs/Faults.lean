import Pagewright.File.Replace

/-!
# Programs on files that fail

Any operation may fail. A failed one has no effect, but for a failed write, which may have removed
the file or left any part of the content in it from the front (`FileOp.Outcome`). A run of a program
`Reaches` every tree between two of its operations, and it may be interrupted there. To show
something of all these trees there is `FileProgram.Keeps`, which goes through a program from the
front and asks for it before and after every operation (`Keeps.of_reaches`).
-/

namespace Pagewright

open Text

/-- What may come of an operation: its answer and the tree after it. -/
inductive FileOp.Outcome (t : FileTree) : (op : FileOp) → op.Answer → FileTree → Prop
  | works (op : FileOp) : Outcome t op (op.perform t).1 (op.perform t).2
  | readFails (p : Path) (e : FileError) : Outcome t (.read p) (.error e) t
  | listFails (p : Path) (e : FileError) : Outcome t (.list p) (.error e) t
  | removeFails (p : Path) (e : FileError) : Outcome t (.remove p) (.error e) t
  | renameFails (p q : Path) (e : FileError) : Outcome t (.rename p q) (.error e) t
  | makeDirectoryFails (p : Path) (e : FileError) : Outcome t (.makeDirectory p) (.error e) t
  | writeFails (p : Path) (content : Bytes) (e : FileError) :
      Outcome t (.write p content) (.error e) t
  /-- The write breaks off. -/
  | writeStops (p : Path) (content : Bytes) (e : FileError) {part : Bytes} {t' : FileTree}
      (front : part <+: content) (written : t.write p part = .ok t') :
      Outcome t (.write p content) (.error e) t'
  /-- The write takes the file away. -/
  | writeLoses (p : Path) (content : Bytes) (e : FileError) {t' : FileTree}
      (removed : t.remove p = .ok t') : Outcome t (.write p content) (.error e) t'

namespace FileOp.Outcome

variable {t t' : FileTree} {p q : Path} {content : Bytes}

theorem inspect {a : Option EntryKind} (h : Outcome t (.inspect p) a t') :
    a = t.inspect p ∧ t' = t := by
  cases h
  exact ⟨rfl, rfl⟩

theorem read {a : Except FileError Bytes} (h : Outcome t (.read p) a t') :
    t' = t ∧ ((∃ e, a = .error e) ∨ a = t.read p) := by
  cases h with
  | works => exact ⟨rfl, .inr rfl⟩
  | readFails _ e => exact ⟨rfl, .inl ⟨e, rfl⟩⟩

theorem of_settle {r : Except FileError FileTree} :
    ((∃ e, (settle t r).1 = .error e) ∧ (settle t r).2 = t) ∨
      (settle t r).1 = .ok () ∧ r = .ok (settle t r).2 := by
  cases r with
  | ok t' => exact .inr ⟨rfl, rfl⟩
  | error e => exact .inl ⟨⟨e, rfl⟩, rfl⟩

theorem remove {a : Except FileError Unit} (h : Outcome t (.remove p) a t') :
    ((∃ e, a = .error e) ∧ t' = t) ∨ a = .ok () ∧ t.remove p = .ok t' := by
  cases h with
  | works => exact of_settle
  | removeFails _ e => exact .inl ⟨⟨e, rfl⟩, rfl⟩

theorem rename {a : Except FileError Unit} (h : Outcome t (.rename p q) a t') :
    ((∃ e, a = .error e) ∧ t' = t) ∨ a = .ok () ∧ t.rename p q = .ok t' := by
  cases h with
  | works => exact of_settle
  | renameFails _ _ e => exact .inl ⟨⟨e, rfl⟩, rfl⟩

theorem makeDirectory {a : Except FileError Unit} (h : Outcome t (.makeDirectory p) a t') :
    ((∃ e, a = .error e) ∧ t' = t) ∨ a = .ok () ∧ t.makeDirectory p = .ok t' := by
  cases h with
  | works => exact of_settle
  | makeDirectoryFails _ e => exact .inl ⟨⟨e, rfl⟩, rfl⟩

/-- After a write the file holds the content, or the write fails with the tree as it was, the file
removed or a front part of the content in it. -/
theorem write {a : Except FileError Unit} (h : Outcome t (.write p content) a t') :
    a = .ok () ∧ t.write p content = .ok t' ∨
      (∃ e, a = .error e) ∧
        (t' = t ∨ t.remove p = .ok t' ∨ ∃ part, part <+: content ∧ t.write p part = .ok t') := by
  cases h with
  | works =>
    rcases of_settle (t := t) (r := t.write p content) with ⟨ha, ht⟩ | ⟨ha, ht⟩
    · exact .inr ⟨ha, .inl ht⟩
    · exact .inl ⟨ha, ht⟩
  | writeFails _ _ e => exact .inr ⟨⟨e, rfl⟩, .inl rfl⟩
  | writeStops _ _ e front written => exact .inr ⟨⟨e, rfl⟩, .inr (.inr ⟨_, front, written⟩)⟩
  | writeLoses _ _ e removed => exact .inr ⟨⟨e, rfl⟩, .inr (.inl removed)⟩

end FileOp.Outcome

namespace FileProgram

variable {α β : Type}

/-- A run of a program that starts with a tree and may fail anywhere comes through another tree. -/
inductive Reaches : FileTree → FileProgram α → FileTree → Prop
  | here {t : FileTree} (prog : FileProgram α) : Reaches t prog t
  | next {t t' t'' : FileTree} {op : FileOp} {answer : op.Answer} {k : op.Answer → FileProgram α}
      (outcome : op.Outcome t answer t') (rest : Reaches t' (k answer) t'') :
      Reaches t (.step op k) t''

/-- The tree when a run in which nothing fails is interrupted after so many operations. -/
def interrupted : Nat → FileTree → FileProgram α → FileTree
  | 0, t, _ => t
  | _ + 1, t, .done _ => t
  | n + 1, t, .step op k => (k (op.perform t).1).interrupted n (op.perform t).2

theorem reaches_interrupted (n : Nat) (t : FileTree) (prog : FileProgram α) :
    Reaches t prog (prog.interrupted n t) := by
  induction prog generalizing n t with
  | done a => cases n <;> exact .here _
  | step op k ih =>
    cases n with
    | zero => exact .here _
    | succ n => exact .next (.works op) (ih _ n _)

/-- Every tree that a run of the program comes through has the property `I`, and every run ends
with an answer and a tree of which `Q` holds. -/
def Keeps (I : FileTree → Prop) : FileProgram α → (α → FileTree → Prop) → FileTree → Prop
  | .done a, Q, t => I t ∧ Q a t
  | .step op k, Q, t => I t ∧ ∀ answer t', op.Outcome t answer t' → (k answer).Keeps I Q t'

variable {I : FileTree → Prop} {Q Q' : α → FileTree → Prop} {t t' : FileTree}

/-- **What a program keeps** holds wherever its run is interrupted. -/
theorem Keeps.of_reaches {prog : FileProgram α} (h : prog.Keeps I Q t)
    (hreaches : Reaches t prog t') : I t' := by
  induction hreaches with
  | here prog => cases prog <;> exact h.1
  | next outcome rest ih => exact ih (h.2 _ _ outcome)

theorem Keeps.mono {prog : FileProgram α} (h : prog.Keeps I Q t)
    (hQ : ∀ a t', Q a t' → Q' a t') : prog.Keeps I Q' t := by
  induction prog generalizing t with
  | done a => exact ⟨h.1, hQ a t h.2⟩
  | step op k ih => exact ⟨h.1, fun answer t' hout => ih answer (h.2 answer t' hout)⟩

theorem Keeps.bind {R : β → FileTree → Prop} {prog : FileProgram β} {k : β → FileProgram α}
    (h : prog.Keeps I R t) (hk : ∀ b t', I t' → R b t' → (k b).Keeps I Q t') :
    (prog.bind k).Keeps I Q t := by
  induction prog generalizing t with
  | done b => exact hk b t h.1 h.2
  | step op next ih => exact ⟨h.1, fun answer t' hout => ih answer (h.2 answer t' hout)⟩

theorem keeps_inspect {p : Path} {Q : Option EntryKind → FileTree → Prop} (hI : I t)
    (h : Q (t.inspect p) t) : (inspect p).Keeps I Q t := by
  refine ⟨hI, fun answer t' hout => ?_⟩
  obtain ⟨rfl, rfl⟩ := hout.inspect
  exact ⟨hI, h⟩

theorem keeps_exists? {p : Path} {Q : Bool → FileTree → Prop} (hI : I t)
    (h : Q (t.inspect p).isSome t) : (exists? p).Keeps I Q t := by
  refine ⟨hI, fun answer t' hout => ?_⟩
  obtain ⟨rfl, rfl⟩ := hout.inspect
  exact ⟨hI, h⟩

theorem keeps_read {p : Path} {Q : Except FileError Bytes → FileTree → Prop} (hI : I t)
    (hfail : ∀ e, Q (.error e) t) (h : Q (t.read p) t) : (read p).Keeps I Q t := by
  refine ⟨hI, fun answer t' hout => ?_⟩
  obtain ⟨rfl, ⟨e, rfl⟩ | rfl⟩ := hout.read
  · exact ⟨hI, hfail e⟩
  · exact ⟨hI, h⟩

section Change

variable {Q : Except FileError Unit → FileTree → Prop}

/-- A change that fails has no effect. -/
theorem of_change {a : Except FileError Unit} {change : Except FileError FileTree}
    (hout : ((∃ e, a = .error e) ∧ t' = t) ∨ a = .ok () ∧ change = .ok t') (hI : I t)
    (hfail : ∀ e, Q (.error e) t) (h : ∀ t', change = .ok t' → I t' ∧ Q (.ok ()) t') :
    I t' ∧ Q a t' := by
  rcases hout with ⟨⟨e, rfl⟩, rfl⟩ | ⟨rfl, hok⟩
  · exact ⟨hI, hfail e⟩
  · exact h t' hok

theorem keeps_remove {p : Path} (hI : I t) (hfail : ∀ e, Q (.error e) t)
    (h : ∀ t', t.remove p = .ok t' → I t' ∧ Q (.ok ()) t') : (remove p).Keeps I Q t :=
  ⟨hI, fun _ _ hout => of_change hout.remove hI hfail h⟩

theorem keeps_rename {p q : Path} (hI : I t) (hfail : ∀ e, Q (.error e) t)
    (h : ∀ t', t.rename p q = .ok t' → I t' ∧ Q (.ok ()) t') : (rename p q).Keeps I Q t :=
  ⟨hI, fun _ _ hout => of_change hout.rename hI hfail h⟩

theorem keeps_makeDirectory {p : Path} (hI : I t) (hfail : ∀ e, Q (.error e) t)
    (h : ∀ t', t.makeDirectory p = .ok t' → I t' ∧ Q (.ok ()) t') :
    (makeDirectory p).Keeps I Q t :=
  ⟨hI, fun _ _ hout => of_change hout.makeDirectory hI hfail h⟩

theorem keeps_write {p : Path} {content : Bytes} (hI : I t) (hfail : ∀ e, Q (.error e) t)
    (h : ∀ part t', t.write p part = .ok t' → I t' ∧ ∀ a, Q a t')
    (hlose : ∀ t', t.remove p = .ok t' → I t' ∧ ∀ e, Q (.error e) t') :
    (write p content).Keeps I Q t := by
  refine ⟨hI, fun answer t' hout => ?_⟩
  rcases hout.write with ⟨rfl, hok⟩ | ⟨⟨e, rfl⟩, rfl | hok | ⟨part, -, hok⟩⟩
  · exact ⟨(h _ t' hok).1, (h _ t' hok).2 _⟩
  · exact ⟨hI, hfail e⟩
  · exact ⟨(hlose t' hok).1, (hlose t' hok).2 e⟩
  · exact ⟨(h part t' hok).1, (h part t' hok).2 _⟩

end Change

section MakeDirectories

variable {J : FileTree → Prop} (hI : ∀ t, J t → I t)

include hI

theorem keeps_settleExisting {p : Path} {result : Except FileError Unit} (h : J t) :
    (makeDirectories.settleExisting p result).Keeps I (fun _ => J) t := by
  unfold makeDirectories.settleExisting
  cases result with
  | ok _ => exact ⟨hI t h, h⟩
  | error e =>
    exact Keeps.bind (R := fun _ => J) (keeps_inspect (hI t h) h) fun _ t' _ h' => ⟨hI t' h', h'⟩

/-- What making one directory keeps is kept when all missing ones are made, which are the path and
others to which it leads from parent to parent. -/
theorem keeps_makeDirectories {S : Path → Prop}
    (hparent : ∀ p q : Path, S p → p.parent? = some q → S q)
    (hmake : ∀ t t' p, S p → J t → t.makeDirectory p = .ok t' → J t') (fuel : Nat) (p : Path)
    (hp : S p) (h : J t) : (makeDirectories fuel p).Keeps I (fun _ => J) t := by
  have hone : ∀ {t} p, S p → J t → (makeDirectory p).Keeps I (fun _ => J) t := fun {t} p hp h =>
    keeps_makeDirectory (hI t h) (fun _ => h) fun t' hok =>
      ⟨hI t' (hmake t t' p hp h hok), hmake t t' p hp h hok⟩
  induction fuel generalizing p t with
  | zero => exact ⟨hI t h, h⟩
  | succ fuel ih =>
    unfold makeDirectories
    split
    · exact ⟨hI t h, h⟩
    · refine (hone p hp h).bind fun result t₁ _ h₁ => ?_
      split
      · exact ⟨hI t₁ h₁, h₁⟩
      · split
        · exact ⟨hI t₁ h₁, h₁⟩
        · next parent heq =>
          refine (ih parent (hparent p parent hp heq) h₁).bind fun result t₂ _ h₂ => ?_
          cases result with
          | error e => exact ⟨hI t₂ h₂, h₂⟩
          | ok _ => exact (hone p hp h₂).bind fun _ t₃ _ h₃ => keeps_settleExisting hI h₃
      · exact keeps_settleExisting hI h₁

end MakeDirectories

end FileProgram

namespace Replacing

variable {α β : Type} {I : FileTree → Prop} {Q : α → FileTree → Prop} {t : FileTree}

/-- Every tree that a run comes through has the property `I`, and a run that ends without an error
ends with an answer and a tree of which `Q` holds. -/
def Keeps (I : FileTree → Prop) (m : Replacing α) (Q : α → FileTree → Prop) (t : FileTree) : Prop :=
  FileProgram.Keeps I m.run (fun result t' => ∀ a, result = .ok a → Q a t') t

theorem keeps_pure {a : α} (hI : I t) (h : Q a t) : Keeps I (pure a : Replacing α) Q t :=
  ⟨hI, fun _ ha => Except.ok.inj ha ▸ h⟩

theorem keeps_throw {e : ReplaceError} (hI : I t) : Keeps I (throw e : Replacing α) Q t :=
  ⟨hI, nofun⟩

theorem keeps_lift {prog : FileProgram α} (h : prog.Keeps I Q t) :
    Keeps I (prog : Replacing α) Q t :=
  FileProgram.Keeps.bind h fun _ _ hI ha => ⟨hI, fun _ h => Except.ok.inj h ▸ ha⟩

theorem Keeps.bind {R : β → FileTree → Prop} {m : Replacing β} {f : β → Replacing α}
    (h : Keeps I m R t) (hf : ∀ b t', I t' → R b t' → Keeps I (f b) Q t') :
    Keeps I (m >>= f) Q t := by
  refine FileProgram.Keeps.bind h fun result t' hI hresult => ?_
  cases result with
  | ok b => exact hf b t' hI (hresult b rfl)
  | error e => exact ⟨hI, nofun⟩

/-- An operation whose failure ends the replacement. -/
theorem keeps_attempt {p : Path} {op : FileProgram (Except FileError α)}
    (h : op.Keeps I (fun result t' => ∀ a, result = .ok a → Q a t') t) :
    Keeps I (attempt p op) Q t := by
  refine FileProgram.Keeps.bind h fun result t' hI hresult => ?_
  cases result with
  | ok a => exact ⟨hI, fun _ h => Except.ok.inj h ▸ hresult a rfl⟩
  | error e => exact ⟨hI, nofun⟩

section Steps

variable {J : FileTree → Prop} (hI : ∀ t, J t → I t)

include hI

theorem keeps_removeIfPresent {p : Path} (h : J t)
    (hremove : ∀ t', t.remove p = .ok t' → J t') :
    Keeps I (removeIfPresent p) (fun _ => J) t := by
  refine Keeps.bind (R := fun _ t' => t' = t)
    (keeps_lift (FileProgram.keeps_exists? (hI t h) rfl)) fun present t' _ heq => ?_
  subst heq
  cases present with
  | false => exact keeps_pure (hI t' h) h
  | true =>
    exact keeps_attempt (FileProgram.keeps_remove (hI t' h) (fun _ => nofun) fun t'' hok =>
      ⟨hI t'' (hremove t'' hok), fun _ _ => hremove t'' hok⟩)

theorem keeps_checkDirectories (target : Path) (ps : List Path) (h : J t) :
    Keeps I (checkDirectories target ps) (fun _ => J) t := by
  induction ps generalizing t with
  | nil => exact keeps_pure (hI t h) h
  | cons p ps ih =>
    refine Keeps.bind (R := fun _ => J) (keeps_lift (FileProgram.keeps_inspect (hI t h) h))
      fun kind t' hI' h' => ?_
    split
    · exact Keeps.bind (R := fun _ _ => False) (keeps_throw hI') fun _ _ _ hf => hf.elim
    · exact ih h'

/-- What making the paths above the target keeps is kept. -/
theorem keeps_makeAncestors {S : Path → Prop}
    (hparent : ∀ p q : Path, S p → p.parent? = some q → S q)
    (hmake : ∀ t t' p, S p → J t → t.makeDirectory p = .ok t' → J t') (target : Path)
    (htarget : ∀ q, target.parent? = some q → S q) (h : J t) :
    Keeps I (makeAncestors target) (fun _ => J) t := by
  unfold makeAncestors
  split
  · exact keeps_pure (hI t h) h
  · next parent heq =>
    split
    · exact keeps_pure (hI t h) h
    · refine (keeps_checkDirectories hI target _ h).bind fun _ t₁ hI₁ h₁ => ?_
      refine Keeps.bind (R := fun _ => J) (keeps_lift (FileProgram.keeps_exists? hI₁ h₁))
        fun present t₂ hI₂ h₂ => ?_
      split
      · exact keeps_pure hI₂ h₂
      · have hmakes := FileProgram.keeps_makeDirectories hI hparent hmake
          (parent.text.length + 1) parent (htarget parent heq) h₂
        exact keeps_attempt (hmakes.mono fun _ _ h₃ _ _ => h₃)

end Steps

end Replacing

end Pagewright
