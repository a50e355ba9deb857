import Pagewright.Proofs.Endings
import Pagewright.Proofs.Reread
import Pagewright.Proofs.Survival
import Pagewright.Refresh

/-!
# What a refresh does before it writes

Reading, running the scripts and rendering change no file when the executor touches none, so every
run of a refresh ends with the tree as it was, or it comes to the replacement of the output with the
rendering of the document after all its scripts (`refresh_ends`). Hence nothing is written before
everything has succeeded, and what is at the output after a success is that rendering
(`refresh_writes_last`).
-/

namespace Pagewright

open Text FileTree Replacing
open FileProgram (Ends ends_bind_iff ends_pure_iff ends_perform_iff ends_run_bind_iff ends_run_pure
  ends_run_throw ends_lift_bind)

section Preparation

variable {σ : Type} {shapes : ShapeTable} {run : Executor.Stateful σ} {state : σ}
  {options : RefreshOptions} {source output p : Path} {verify : Bool} {doc : Document}
  {t t' : FileTree} {α ε ε' : Type}

/-! ## Scripts -/

namespace Executor

/-- Whatever a script does and whatever fails in it, the files stay as they are. -/
def Stateful.TouchesNoFile (run : Stateful σ) : Prop :=
  ∀ state script ps t outcome t', Ends t (run state script ps) outcome t' → t' = t

/-- Scripts succeed one after another and lead from slots to others, with the files of a tree. -/
inductive Stateful.Completes (run : Stateful σ) (t : FileTree) :
    σ → PageSlots → List PendingScript → PageSlots → Prop
  | nil (state : σ) (ps : PageSlots) : Completes run t state ps [] ps
  | cons {state state' : σ} {ps ps' ps'' : PageSlots} {script : PendingScript}
      {rest : List PendingScript}
      (success : Ends t (run state script ps) ((ps', .ok ()), state') t)
      (after : Completes run t state' ps' rest ps'') :
      Completes run t state ps (script :: rest) ps''

theorem touchesNoFile_pure (f : σ → PendingScript → PageSlots → ScriptOutcome × σ) :
    Stateful.TouchesNoFile fun state script ps => return f state script ps := by
  intro state script ps t outcome t' h
  exact (ends_pure_iff.1 h).2

theorem Stateful.ends_runAll (hrun : run.TouchesNoFile) {scripts : List PendingScript}
    {ps ps' : PageSlots} {result : Except ScriptFailure Unit}
    (h : Ends t (run.runAll state ps scripts) (ps', result) t') :
    t' = t ∧ (result = .ok () → run.Completes t state ps scripts ps') := by
  induction scripts generalizing state ps with
  | nil =>
    obtain ⟨heq, rfl⟩ := ends_pure_iff.1 h
    cases heq
    exact ⟨rfl, fun _ => .nil _ _⟩
  | cons script scripts ih =>
    obtain ⟨⟨⟨ps₁, outcome⟩, state₁⟩, t₁, hfirst, hrest⟩ := ends_bind_iff.1 h
    obtain rfl := hrun _ _ _ _ _ _ hfirst
    cases outcome with
    | ok _ =>
      obtain ⟨rfl, hcompletes⟩ := ih hrest
      exact ⟨rfl, fun hok => .cons hfirst (hcompletes hok)⟩
    | error cause =>
      obtain ⟨heq, rfl⟩ := ends_pure_iff.1 hrest
      cases heq
      exact ⟨rfl, nofun⟩

end Executor

theorem Document.ends_runScriptsFrom (hrun : run.TouchesNoFile) {doc' : Document}
    {result : Except ScriptFailure Unit}
    (h : Ends t (doc.runScriptsFrom run state) (doc', result) t') :
    t' = t ∧ ∃ slots, doc' = doc.withSlots slots ∧
      (result = .ok () → run.Completes t state doc.slots doc.scripts slots) := by
  obtain ⟨⟨slots, result'⟩, t₁, hall, hpure⟩ := ends_bind_iff.1 h
  obtain ⟨heq, rfl⟩ := ends_pure_iff.1 hpure
  cases heq
  obtain ⟨rfl, hcompletes⟩ := Executor.Stateful.ends_runAll hrun hall
  exact ⟨rfl, slots, rfl, hcompletes⟩

/-! ## Reading -/

/-- A document as it is parsed from the file that a path leads to. -/
inductive Document.LoadedFrom (shapes : ShapeTable) (t : FileTree) (p : Path) : Document → Prop
  | intro {path : Path} {content : Bytes} {text : String} {doc : Document}
      (absolute : p.absolute? (pathOf t.workingDirectory) = some path)
      (read : t.read path = .ok content) (decoded : Utf8.decode? content = .ok text)
      (parsed : Document.parse shapes path text = .ok doc) : LoadedFrom shapes t p doc

/-- The queue of a document that was read holds its scripts in order. -/
theorem Document.LoadedFrom.scripts_eq (h : Document.LoadedFrom shapes t p doc) :
    doc.scripts = doc.components.filterMap Component.pending? := by
  obtain ⟨-, -, -, hparsed⟩ := h
  obtain ⟨-, -, -, -, -, hpage⟩ := ofLines_eq_ok_iff.1 hparsed
  rw [Document.scripts, hpage, Page.scripts_after]
  rfl

theorem ends_workingDirectory {q : Path} (h : Ends t FileProgram.workingDirectory q t') :
    q = pathOf t.workingDirectory ∧ t' = t := by
  cases ends_perform_iff.1 h
  exact ⟨rfl, rfl⟩

theorem ends_readText {answer : Except FileError String}
    (h : Ends t (FileProgram.readText p) answer t') :
    t' = t ∧ ∀ text, answer = .ok text →
      ∃ content, t.read p = .ok content ∧ Utf8.decode? content = .ok text := by
  obtain ⟨result, t₁, hread, hrest⟩ := ends_bind_iff.1 h
  obtain ⟨rfl, hresult⟩ := (ends_perform_iff.1 hread).read
  cases result with
  | error e =>
    obtain ⟨rfl, rfl⟩ := ends_pure_iff.1 hrest
    exact ⟨rfl, nofun⟩
  | ok content =>
    have hcontent : t₁.read p = .ok content := by
      rcases hresult with ⟨e, he⟩ | hok
      · cases he
      · exact hok.symm
    simp only at hrest
    split at hrest
    · next text hdecode =>
      obtain ⟨rfl, rfl⟩ := ends_pure_iff.1 hrest
      refine ⟨rfl, fun text' heq => ⟨content, hcontent, ?_⟩⟩
      rw [hdecode, Except.ok.inj heq]
    · obtain ⟨rfl, rfl⟩ := ends_pure_iff.1 hrest
      exact ⟨rfl, nofun⟩

/-- Reading a document changes nothing and may fail as unreadable or with a fault in the text. -/
theorem Document.ends_load {r : Except RefreshError Document}
    (h : Ends t (Document.load shapes p).run r t') : t' = t ∧
      ((∃ e, r = .error (.read p e)) ∨ (∃ path e, r = .error (.parse path e)) ∨
        ∃ doc, r = .ok doc ∧ Document.LoadedFrom shapes t p doc) := by
  unfold Document.load absolutePath at h
  rw [ExceptT.run_mk] at h
  obtain ⟨result, t₁, habsolute, hrest⟩ := ends_bind_iff.1 h
  obtain ⟨q, t₂, hstart, hpure⟩ := ends_bind_iff.1 habsolute
  obtain ⟨rfl, rfl⟩ := ends_workingDirectory hstart
  obtain ⟨rfl, rfl⟩ := ends_pure_iff.1 hpure
  cases hpath : p.absolute? (pathOf t₁.workingDirectory) with
  | none =>
    rw [hpath] at hrest
    obtain ⟨rfl, rfl⟩ := ends_pure_iff.1 hrest
    exact ⟨rfl, .inl ⟨_, rfl⟩⟩
  | some path =>
    rw [hpath] at hrest
    obtain ⟨answer, t₃, htext, hrest⟩ := ends_bind_iff.1 hrest
    obtain ⟨rfl, hanswer⟩ := ends_readText htext
    cases answer with
    | error e =>
      obtain ⟨rfl, rfl⟩ := ends_pure_iff.1 hrest
      exact ⟨rfl, .inl ⟨_, rfl⟩⟩
    | ok text =>
      obtain ⟨rfl, rfl⟩ := ends_pure_iff.1 hrest
      obtain ⟨content, hread, hdecoded⟩ := hanswer text rfl
      refine ⟨rfl, .inr ?_⟩
      cases hparse : Document.parse shapes path text with
      | error e => exact .inl ⟨path, e, rfl⟩
      | ok doc => exact .inr ⟨doc, rfl, hpath, hread, hdecoded, hparse⟩

/-! ## The endings of a refresh -/

/-- Whether the guard for published renderings takes a path for that of a document. -/
def FileTree.guards (t : FileTree) (doc : Document) (p : Path) : Bool :=
  ((isPathOf doc p).run t).1

theorem ends_isPathOf {b : Bool} (h : Ends t (isPathOf doc p) b t') :
    b = t.guards doc p ∧ t' = t := by
  obtain ⟨q, t₁, hstart, hpure⟩ := ends_bind_iff.1 h
  obtain ⟨rfl, rfl⟩ := ends_workingDirectory hstart
  exact ends_pure_iff.1 hpure

/-- What is reported when the output is replaced. -/
def Document.report (doc : Document) (replaced : Replaced) : RefreshReport where
  source := doc.path
  target := replaced.target
  backup := replaced.backup
  components := doc.components.length
  scripts := doc.scripts.length
  verified := replaced.verified

/-- How a refresh ends when the executor touches no file. -/
inductive RefreshEnding (shapes : ShapeTable) (run : Executor.Stateful σ) (state : σ)
    (options : RefreshOptions) (source output : Path) (verify : Bool) (t : FileTree) :
    Except RefreshError RefreshReport → FileTree → Prop
  | unread {e : FileError} :
      RefreshEnding shapes run state options source output verify t (.error (.read source e)) t
  | unparsed {path : Path} {e : DocumentError} :
      RefreshEnding shapes run state options source output verify t (.error (.parse path e)) t
  | refused {path : Path} :
      RefreshEnding shapes run state options source output verify t
        (.error (.publishedOverSource path)) t
  | failed {path : Path} {e : ScriptFailure} :
      RefreshEnding shapes run state options source output verify t (.error (.execution path e)) t
  | replaced {doc : Document} {slots : PageSlots} {r : Except ReplaceError Replaced}
      {t' : FileTree} (loaded : Document.LoadedFrom shapes t source doc)
      (allowed : options.mode = .published → t.guards doc output = false)
      (completes : run.Completes t state doc.slots doc.scripts slots)
      (ending : Ends t (replaceFile output ((doc.withSlots slots).render options.mode) verify
        options.replace).run r t') :
      RefreshEnding shapes run state options source output verify t
        ((r.mapError .write).map doc.report) t'

theorem ends_adapt {f : ε → ε'} {m : ExceptT ε FileProgram α} {r : Except ε' α}
    (h : Ends t (ExceptT.adapt f m).run r t') : ∃ r', Ends t m.run r' t' ∧ r = r'.mapError f := by
  obtain ⟨r', t₁, hm, hpure⟩ := ends_bind_iff.1 h
  obtain ⟨rfl, rfl⟩ := ends_pure_iff.1 hpure
  exact ⟨r', hm, rfl⟩

/-- The replacement and the report on it. -/
theorem ends_replacement {doc' : Document} {text : String} {r : Except RefreshError RefreshReport}
    (h : Ends t (do
      let replaced ← ExceptT.adapt RefreshError.write
        (replaceFile output text verify options.replace)
      return doc'.report replaced : Refreshing RefreshReport).run r t') :
    ∃ r', Ends t (replaceFile output text verify options.replace).run r' t' ∧
      r = (r'.mapError .write).map doc'.report := by
  rcases ends_run_bind_iff.1 h with ⟨replaced, t₁, hreplace, hpure⟩ | ⟨e, rfl, hreplace⟩
  · obtain ⟨rfl, rfl⟩ := ends_run_pure hpure
    obtain ⟨r', hends, heq⟩ := ends_adapt hreplace
    exact ⟨r', hends, by rw [← heq]; rfl⟩
  · obtain ⟨r', hends, heq⟩ := ends_adapt hreplace
    exact ⟨r', hends, by rw [← heq]; rfl⟩

/-- Past the guard the scripts run, and the rendering is written when none of them fails. -/
theorem ends_rendering (hrun : run.TouchesNoFile)
    (hloaded : Document.LoadedFrom shapes t source doc)
    (hallowed : options.mode = .published → t.guards doc output = false)
    {r : Except RefreshError RefreshReport}
    (h : Ends t (do
      let (doc, result) ← (doc.runScriptsFrom run state : FileProgram _)
      if let .error e := result then throw (.execution doc.path e)
      let replaced ← ExceptT.adapt RefreshError.write
        (replaceFile output (doc.render options.mode) verify options.replace)
      return doc.report replaced : Refreshing RefreshReport).run r t') :
    RefreshEnding shapes run state options source output verify t r t' := by
  obtain ⟨⟨doc', result⟩, t₁, hscripts, hrest⟩ := ends_lift_bind h
  obtain ⟨rfl, slots, rfl, hcompletes⟩ := Document.ends_runScriptsFrom hrun hscripts
  cases result with
  | error e =>
    rcases ends_run_bind_iff.1 hrest with ⟨_, _, hthrow, -⟩ | ⟨e', rfl, hthrow⟩
    · cases (ends_run_throw hthrow).1
    · obtain ⟨heq, rfl⟩ := ends_run_throw hthrow
      cases heq
      exact .failed
  | ok _ =>
    obtain ⟨r', hends, rfl⟩ := ends_replacement hrest
    have hreport : (doc.withSlots slots).report = doc.report := rfl
    rw [hreport]
    exact .replaced hloaded hallowed (hcompletes rfl) hends

/-- **Every run of a refresh** ends in one of these ways. -/
theorem refresh_ends (hrun : run.TouchesNoFile) {r : Except RefreshError RefreshReport}
    (h : Ends t (refreshFrom shapes run state options source output verify).run r t') :
    RefreshEnding shapes run state options source output verify t r t' := by
  unfold refreshFrom at h
  rcases ends_run_bind_iff.1 h with ⟨doc, t₁, hload, hrest⟩ | ⟨e, rfl, hload⟩
  · obtain ⟨rfl, ⟨e, heq⟩ | ⟨path, e, heq⟩ | ⟨_, heq, hloaded⟩⟩ := Document.ends_load hload
    · cases heq
    · cases heq
    cases heq
    simp only at hrest
    split at hrest
    · obtain ⟨same, t₂, hguard, hpast⟩ := ends_lift_bind hrest
      obtain ⟨hsame, rfl⟩ := ends_isPathOf hguard
      split at hpast
      · rcases ends_run_bind_iff.1 hpast with ⟨_, _, hthrow, -⟩ | ⟨e, rfl, hthrow⟩
        · cases (ends_run_throw hthrow).1
        · obtain ⟨heq, rfl⟩ := ends_run_throw hthrow
          cases heq
          exact .refused
      · next hother =>
        refine ends_rendering hrun hloaded (fun _ => ?_) hpast
        rw [← hsame]
        exact Bool.eq_false_iff.2 hother
    · next hmode => exact ends_rendering hrun hloaded (fun heq => absurd heq hmode) hrest
  · obtain ⟨rfl, ⟨e', heq⟩ | ⟨path, e', heq⟩ | ⟨doc, heq, -⟩⟩ := Document.ends_load hload
    · cases heq
      exact .unread
    · cases heq
      exact .unparsed
    · cases heq

/-! ## What is written -/

/-- An error that comes before the first change. -/
def RefreshError.precedesWriting : RefreshError → Bool
  | .write (.blocked _ _) => true
  | .write _ => false
  | _ => true

/-- Only a file above the target blocks a replacement, and it does so before the first change. -/
theorem ReplaceEnding.eq_of_blocked {backup : Path} {content : Bytes} {options : ReplaceOptions}
    {r : Except ReplaceError Replaced} {q : Path}
    (h : ReplaceEnding output backup content verify options t r t')
    (hr : r = .error (.blocked p q)) : t' = t := by
  cases h with
  | noAncestors ancestors =>
    rcases ends_makeAncestors ancestors with hok | ⟨-, hsame⟩ | ⟨parent, e, -, hfile⟩
    · cases hok
    · exact hsame
    · cases hr
      cases hfile
  | compared room verified wrote rest => cases rest <;> cases hr
  | _ => cases hr

/-- What is cleared beside a file leaves it. -/
theorem read_of_clears {suffix : String} {content : Bytes} (hread : t.read p = .ok content)
    (hne : suffix ≠ "") (hslash : '/' ∉ suffix.toList) (h : t.Clears (p.sibling suffix) t') :
    t'.read p = .ok content := by
  rcases h with ⟨-, rfl⟩ | hremove
  · exact hread
  · obtain ⟨hcheck, hends, before, last, d, l, hsteps, hat⟩ := exists_atTarget hread
    exact (hat.remove hsteps hne hslash hremove).read_eq hsteps hcheck hends

/-- After a replacement that succeeds the target holds the new content. -/
theorem ReplaceEnding.read_eq {backup : Path} {content : Bytes} {options : ReplaceOptions}
    {r : Except ReplaceError Replaced} {replaced : Replaced}
    (h : ReplaceEnding output backup content verify options t r t') (hr : r = .ok replaced)
    (hoptions : options.Distinguishes) : t'.read output = .ok content := by
  cases h with
  | written room plain wrote => exact read_of_write wrote
  | compared room verified wrote rest =>
    cases rest with
    | same read cleared =>
      exact read_of_clears (read_of_write wrote) hoptions.new_ne hoptions.new_slash cleared
    | _ => cases hr
  | _ => cases hr

/-- **A refresh writes last.** When the executor touches no file, a refresh that ends with an error
of reading, parsing or running, with a refusal, or because of a file above the output has changed
nothing, whatever else failed. When it succeeds, the output holds the rendering of the document that
was read with the slots that its scripts left, all of them having succeeded in order. -/
theorem refresh_writes_last (hrun : run.TouchesNoFile) {r : Except RefreshError RefreshReport}
    (h : Ends t (refreshFrom shapes run state options source output verify).run r t') :
    (∀ e, r = .error e → e.precedesWriting = true → t' = t) ∧
      ∀ report, r = .ok report → options.replace.Distinguishes →
        ∃ doc slots, Document.LoadedFrom shapes t source doc ∧
          doc.scripts = doc.components.filterMap Component.pending? ∧
          run.Completes t state doc.slots doc.scripts slots ∧
          t'.read output = .ok (Utf8.encode ((doc.withSlots slots).render options.mode)) := by
  cases refresh_ends hrun h with
  | replaced loaded allowed completes ending =>
    next doc slots result =>
    have hending := replaceFile_ends ending
    cases result with
    | error e =>
      refine ⟨fun e' he' hprecedes => ?_, nofun⟩
      obtain rfl := Except.error.inj he'
      cases e with
      | blocked p q => exact hending.eq_of_blocked rfl
      | _ => cases hprecedes
    | ok replaced =>
      refine ⟨nofun, fun _ _ hoptions => ?_⟩
      exact ⟨doc, slots, loaded, loaded.scripts_eq, completes, hending.read_eq rfl hoptions⟩
  | _ => exact ⟨fun _ _ _ => rfl, nofun⟩

/-- A script that sets the title. -/
theorem refresh_writes_last_title :
    let text := "<!-- [script\n\x7b\"title\": \"New\"\x7d\nscript] -->\n<!-- [title] -->\n"
    let t : FileTree :=
      ⟨(∅ : Std.ExtTreeMap Location Entry).insert ["p"] (.file (Utf8.encode text)), []⟩
    let t' := ((refresh .standard .updates {} ⟨"p"⟩ ⟨"q"⟩ false).run.run t).2
    Executor.updates.stateful.TouchesNoFile ∧
      ∃ doc slots, Document.LoadedFrom .standard t ⟨"p"⟩ doc ∧
        doc.scripts = doc.components.filterMap Component.pending? ∧
        Executor.updates.stateful.Completes t () doc.slots doc.scripts slots ∧
        t'.read ⟨"q"⟩ = .ok (Utf8.encode ((doc.withSlots slots).render .source)) := by
  intro text t t'
  have hupdates : Executor.updates.stateful.TouchesNoFile :=
    Executor.touchesNoFile_pure fun _ script ps => (ps.updateFrom script.source, ())
  have htest : (((refresh .standard .updates {} ⟨"p"⟩ ⟨"q"⟩ false).run.run t).1.toOption.any
      fun _ => true) = true := by decide +kernel
  obtain ⟨report, hreport, -⟩ := exists_ok_of_any htest
  have hends := FileProgram.ends_run t (refresh .standard .updates {} ⟨"p"⟩ ⟨"q"⟩ false).run
  rw [hreport] at hends
  exact ⟨hupdates, (refresh_writes_last hupdates hends).2 report rfl .standard⟩

end Preparation

end Pagewright
