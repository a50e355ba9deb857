import Pagewright.Proofs.Ancestors
import Pagewright.Proofs.Preparation
import Pagewright.Proofs.Routes

/-!
# Published outputs

A published rendering is refused where the output has the route of the source, and nowhere else. For
two paths of one file without `..` in them that is always so, and the file stays as it is
(`refresh_published_refused`). A `..` may lead back to the source by another route, and then the
source is replaced (`not_refresh_published_keeps_source`).
-/

namespace Pagewright

open Text FileTree
open FileProgram (ends_run run_bind_ok run_bind_error run_lift)

section Published

variable {shapes : ShapeTable} {run : Executor} {options : RefreshOptions} {source output : Path}
  {verify : Bool} {doc : Document} {t : FileTree} {l : Location} {content : Bytes}

/-! ## Reading the source -/

theorem parse_path {path : Path} {text : String} (h : Document.parse shapes path text = .ok doc) :
    doc.path = path := by
  obtain ⟨-, -, -, -, hpath, -⟩ := ofLines_eq_ok_iff.1 h
  exact hpath

theorem workingDirectory_run (t : FileTree) :
    FileProgram.workingDirectory.run t = (pathOf t.workingDirectory, t) := rfl

/-- Reading a document changes nothing; its path is the absolute form of the one that is read. -/
theorem load_run (shapes : ShapeTable) (p : Path) (t : FileTree) : ∃ result,
    (Document.load shapes p).run.run t = (result, t) ∧ ∀ doc, result = .ok doc →
      p.absolute? (pathOf t.workingDirectory) = some doc.path := by
  obtain ⟨hkept, hload⟩ := Document.ends_load (ends_run t (Document.load shapes p).run)
  refine ⟨_, Prod.ext rfl hkept, fun doc hdoc => ?_⟩
  obtain ⟨_, heq⟩ | ⟨_, _, heq⟩ | ⟨_, heq, ⟨habsolute, -, -, hparsed⟩⟩ := hload
  · cases heq.symm.trans hdoc
  · cases heq.symm.trans hdoc
  · cases heq.symm.trans hdoc
    rw [parse_path hparsed]
    exact habsolute

/-! ## The guard -/

theorem isPathOf_run {q : Path} (h : output.absolute? (pathOf t.workingDirectory) = some q) :
    (isPathOf doc output).run t = (q.isAlike doc.path, t) := by
  unfold isPathOf
  rw [FileProgram.run_bind_eq, workingDirectory_run, h]
  rfl

/-- An error that is passed on in other words. -/
theorem adapt_run {ε ε' α : Type} (f : ε → ε') {m : ExceptT ε FileProgram α}
    {result : Except ε α} {t t' : FileTree} (h : m.run.run t = (result, t')) :
    (ExceptT.adapt f m).run.run t = (result.mapError f, t') := by
  have hrun := FileProgram.run_bind t m.run fun result =>
    (pure (result.mapError f) : FileProgram (Except ε' α))
  rw [h] at hrun
  exact hrun

section Guard

variable (hload : (Document.load shapes source).run.run t = (.ok doc, t))
  (hmode : options.mode = .published)

include hload hmode

theorem refresh_run_of_isPathOf (hsame : ((isPathOf doc output).run t).1 = true) :
    (refresh shapes run options source output verify).run.run t =
      (.error (.publishedOverSource doc.path), t) := by
  have hguard : (isPathOf doc output).run t = (true, t) := Prod.ext hsame rfl
  unfold refresh refreshFrom
  rw [run_bind_ok _ hload, if_pos hmode, run_bind_ok _ (run_lift _), hguard]
  rfl

/-- Past the guard no refusal comes. -/
theorem refresh_run_ne_of_isPathOf (hother : ((isPathOf doc output).run t).1 = false) (p : Path) :
    ((refresh shapes run options source output verify).run.run t).1 ≠
      .error (.publishedOverSource p) := by
  have hguard : (isPathOf doc output).run t = (false, t) := Prod.ext hother rfl
  unfold refresh refreshFrom
  rw [run_bind_ok _ hload, if_pos hmode, run_bind_ok _ (run_lift _), hguard]
  obtain ⟨⟨⟨doc', result⟩, t₁⟩, hscripts⟩ :
      ∃ answer, (doc.runScriptsFrom run.stateful ()).run t = answer := ⟨_, rfl⟩
  simp only
  rw [if_neg Bool.false_ne_true, run_bind_ok _ (run_lift _), hscripts]
  cases result with
  | error e =>
    have hthrow : (throw (.execution doc'.path e) : Refreshing Unit).run.run t₁ =
        (.error (.execution doc'.path e), t₁) := rfl
    simp only
    rw [run_bind_error _ hthrow]
    nofun
  | ok _ =>
    simp only
    obtain ⟨⟨result, t₂⟩, hreplace⟩ : ∃ answer,
        (replaceFile output (doc'.render options.mode) verify options.replace).run.run t₁ =
          answer := ⟨_, rfl⟩
    have hadapt := adapt_run RefreshError.write hreplace
    cases result with
    | error e =>
      rw [run_bind_error _ hadapt]
      nofun
    | ok replaced =>
      rw [run_bind_ok _ hadapt]
      nofun

end Guard

/-! ## Two paths of one file -/

/-- **A published rendering is refused exactly where the output has the route of the source**, and
then nothing changes. Of two paths of one file without a `..` that is always so. -/
theorem refresh_published_refused (hnames : ∀ n ∈ t.workingDirectory, IsPlainName n)
    (hload : ((Document.load shapes source).run.run t).1 = .ok doc)
    (hmode : options.mode = .published) (hsource : t.resolve source = .ok (l, .file content))
    (houtput : t.resolve output = .ok (l, .file content)) :
    let refused := (.error (.publishedOverSource doc.path), t)
    let result := (refresh shapes run options source output verify).run.run t
    (result = refused ↔ t.route output = t.route source) ∧
      (".." ∉ stepsOf source → ".." ∉ stepsOf output → result = refused) := by
  intro refused result
  obtain ⟨loaded, hrun, habsolute⟩ := load_run shapes source t
  rw [hrun] at hload
  obtain rfl : loaded = .ok doc := hload
  have hguard : ((isPathOf doc output).run t).1 = true ↔ t.route output = t.route source := by
    have hne : output.text ≠ "" := by
      intro hempty
      simp [resolve, checkPath, hempty] at houtput
    obtain ⟨q, hq, -⟩ := Path.exists_absolute? hne hnames
    rw [isPathOf_run hq]
    exact Path.isAlike_absolute_iff hnames hq (habsolute doc rfl)
  have hiff : result = refused ↔ t.route output = t.route source := by
    rw [← hguard]
    cases hsame : ((isPathOf doc output).run t).1 with
    | true => exact ⟨fun _ => rfl, fun _ => refresh_run_of_isPathOf hrun hmode hsame⟩
    | false =>
      refine ⟨fun hresult => ?_, fun hfalse => absurd hfalse Bool.false_ne_true⟩
      exact absurd (congrArg Prod.fst hresult)
        (refresh_run_ne_of_isPathOf hrun hmode hsame doc.path)
  refine ⟨hiff, fun hup hup' => hiff.2 ?_⟩
  rw [route_of_resolve houtput hup', route_of_resolve hsource hup]

/-- A relative path and an absolute one with a `.` and a double slash. -/
theorem refresh_published_refused_spelled :
    let t : FileTree :=
      ⟨((∅ : Std.ExtTreeMap Location Entry).insert ["w"] .directory).insert ["w", "p"]
        (.file [65, 10]), ["w"]⟩
    ∃ path, (refresh .standard .none ⟨.published, {}⟩ ⟨"p"⟩ ⟨"/w/.//p"⟩ false).run.run t =
      (.error (.publishedOverSource path), t) := by
  intro t
  have htest : (((Document.load .standard ⟨"p"⟩).run.run t).1.toOption.any fun _ => true) =
      true := by decide +kernel
  obtain ⟨doc, hload, -⟩ := exists_ok_of_any htest
  have hnames : ∀ n ∈ t.workingDirectory, IsPlainName n := by
    intro n hn
    rw [List.mem_singleton.1 hn]
    exact ⟨by decide, by decide, by decide⟩
  have hsource : t.resolve ⟨"p"⟩ = .ok (["w", "p"], .file [65, 10]) := by rfl
  have houtput : t.resolve ⟨"/w/.//p"⟩ = .ok (["w", "p"], .file [65, 10]) := by rfl
  exact ⟨doc.path, (refresh_published_refused hnames hload rfl hsource houtput).2 (by decide)
    (by decide)⟩

/-- A `..` after a directory beside the source leads back to it. -/
theorem not_refresh_published_keeps_source :
    ¬ ∀ (t : FileTree) (shapes : ShapeTable) (run : Executor) (options : RefreshOptions)
      (source output : Path) (verify : Bool) (doc : Document) (l : Location) (content : Bytes),
      (∀ n ∈ t.workingDirectory, IsPlainName n) →
        ((Document.load shapes source).run.run t).1 = .ok doc → options.mode = .published →
          t.resolve source = .ok (l, .file content) → t.resolve output = .ok (l, .file content) →
            (∃ e, ((refresh shapes run options source output verify).run.run t).1 = .error e) ∧
              ((refresh shapes run options source output verify).run.run t).2.read source =
                .ok content := by
  intro h
  let content := Utf8.encode "<!-- [title -->\nHello\n<!-- title] -->\n"
  let t : FileTree :=
    ⟨((∅ : Std.ExtTreeMap Location Entry).insert ["p"] (.file content)).insert ["d"] .directory, []⟩
  let t' := ((refresh .standard .none ⟨.published, {}⟩ ⟨"p"⟩ ⟨"d/../p"⟩ false).run.run t).2
  have htest : (((Document.load .standard ⟨"p"⟩).run.run t).1.toOption.any fun _ => true) =
      true := by decide +kernel
  obtain ⟨doc, hload, -⟩ := exists_ok_of_any htest
  have hpublished : ((t'.read ⟨"p"⟩).toOption.any fun c => decide (c = Utf8.encode "Hello\n")) =
      true := by decide +kernel
  obtain ⟨c, hread, hc⟩ := exists_ok_of_any hpublished
  obtain ⟨-, hkept⟩ := h t .standard .none ⟨.published, {}⟩ ⟨"p"⟩ ⟨"d/../p"⟩ false doc ["p"] content
    nofun hload rfl (by rfl) (by rfl)
  obtain rfl : c = content := Except.ok.inj (hread.symm.trans hkept)
  exact absurd (of_decide_eq_true hc) (by decide +kernel)

end Published

end Pagewright
