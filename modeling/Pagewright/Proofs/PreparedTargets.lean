import Pagewright.Proofs.AncestorPaths
import Pagewright.Proofs.Ancestors
import Pagewright.Proofs.Destinations
import Pagewright.Proofs.Places

/-!
# Preparing a target is all or nothing

Above a place in a tree there is at most one file, since a file has nothing below it. When there is
none above a target, its missing ancestors are made and nothing else changes. When there is one, it is
reported before anything is made, however many levels are missing below it, since the ancestors are
looked at one by one up to the file (`makeAncestors_all_or_nothing`).
-/

namespace Pagewright

open Text FileTree

/-- A target without dots all of whose ancestors the system takes: they start in a directory, their
names are not too long, and neither are the paths that lead to them. -/
structure MayPrepare (t : FileTree) (target : Path) : Prop where
  wf : t.WF
  start : t.get? (t.origin target) = some .directory
  plain : ∀ s ∈ stepsOf target, s ≠ "." ∧ s ≠ ".."
  short : ∀ s ∈ (stepsOf target).dropLast, s.utf8ByteSize ≤ maxNameBytes
  admitted : ∀ q, target.parent? = some q → q.text = "" ∨ checkPath q = .ok ()

section Above

variable {t : FileTree} {p q target parent : Path} {l m m' : Location} {n : String}
  {before : List String} {last : String} {content content' : Bytes}

/-! ## What is above a place -/

theorem ne_file_iff {entry : Option Entry} :
    (∀ content, entry ≠ some (.file content)) ↔ entry = none ∨ entry = some .directory := by
  cases entry with
  | none => simp
  | some e => cases e <;> simp

theorem destination_of_plain (h : ∀ s ∈ stepsOf p, s ≠ "." ∧ s ≠ "..") :
    t.destination p = t.origin p ++ stepsOf p := by
  rw [destination, arrival_of_plain h]

theorem FileTree.WF.get?_of_isAbove (hwf : t.WF) (hm : (t.get? m).isSome = true)
    (h : isAbove l m = true) : t.get? l = some .directory := by
  obtain ⟨hinitial, hne⟩ := isAbove_iff.1 h
  obtain ⟨e, he⟩ := Option.isSome_iff_exists.1 hm
  rcases List.eq_nil_or_concat m with rfl | ⟨m, n, rfl⟩
  · exact absurd (List.prefix_nil.1 hinitial) hne
  · rw [List.concat_eq_append] at hinitial hne he
    exact hwf.get?_of_prefix (hwf m n e he) ((List.prefix_concat_iff.1 hinitial).resolve_left hne)

/-- **There is at most one file** above a place. -/
theorem FileTree.WF.eq_of_files_above (hwf : t.WF) (hm : isAbove m l = true) (hm' : isAbove m' l = true)
    (hfile : t.get? m = some (.file content)) (hfile' : t.get? m' = some (.file content')) :
    m = m' := by
  obtain ⟨hinitial, -⟩ := isAbove_iff.1 hm
  obtain ⟨hinitial', -⟩ := isAbove_iff.1 hm'
  have hnot : ∀ {k k' : Location} {c c' : Bytes}, k <+: k' → t.get? k = some (.file c) →
      t.get? k' = some (.file c') → k = k' := by
    intro k k' c c' hkk' hk hk'
    by_cases heq : k = k'
    · exact heq
    · rw [hwf.get?_of_isAbove (by rw [hk']; rfl) (isAbove_iff.2 ⟨hkk', heq⟩)] at hk
      cases hk
  rcases List.prefix_or_prefix_of_prefix hinitial hinitial' with hmm' | hmm'
  · exact hnot hmm' hfile hfile'
  · exact (hnot hmm' hfile' hfile).symm

/-- Where a path without dots leads is below its start and, strictly, below the trail of all its
steps but the last one. -/
theorem isAbove_destination_iff (hplain : ∀ s ∈ stepsOf p, s ≠ "." ∧ s ≠ "..")
    (hsteps : stepsOf p = before ++ [last]) :
    isAbove m (t.destination p) = true ↔
      m <+: t.origin p ∨ m ∈ trail (t.origin p) before := by
  have hbefore : ∀ s ∈ before, s ≠ "." ∧ s ≠ ".." := fun s hs =>
    hplain s (hsteps ▸ List.mem_append_left _ hs)
  rw [isAbove_iff, destination_of_plain hplain, hsteps, ← List.append_assoc,
    List.prefix_concat_iff, mem_trail_iff_of_plain hbefore]
  constructor
  · rintro ⟨heq | hinitial, hne⟩
    · exact absurd heq hne
    · refine (List.prefix_or_prefix_of_prefix hinitial (List.prefix_append _ _)).imp_right ?_
      rintro ⟨ss, rfl⟩
      exact ⟨ss, (List.prefix_append_right_inj _).1 hinitial, rfl⟩
  · intro h
    have hinitial : m <+: t.origin p ++ before := by
      rcases h with h | ⟨ss, hss, rfl⟩
      · exact h.trans (List.prefix_append _ _)
      · exact (List.prefix_append_right_inj _).2 hss
    refine ⟨.inr hinitial, ?_⟩
    rintro rfl
    have hlength := hinitial.length_le
    rw [List.length_append, List.length_singleton] at hlength
    omega

/-! ## The ancestor in the way -/

theorem checkPath_of_mem_ancestors (h : q ∈ p.ancestors)
    (hp : p.text = "" ∨ checkPath p = .ok ()) : q.text = "" ∨ checkPath q = .ok () := by
  rcases Path.text_of_mem_ancestors h with rfl | ⟨rest, hrest, htext⟩
  · exact hp
  · refine hp.elim (fun hempty => ?_) (checkPath_of_append htext)
    rw [hempty] at htext
    exact absurd (List.append_eq_nil_iff.1 htext.symm).2 hrest

theorem endsInSlash_of_mem_ancestors (h : p.parent? = some parent) (hq : q ∈ parent.ancestors)
    (hsteps : stepsOf q ≠ []) : q.endsInSlash = false := by
  induction parent using Path.parent_induction generalizing p with
  | alone r hr =>
    rw [Path.ancestors_of_no_parent hr, List.mem_singleton] at hq
    exact Path.endsInSlash_of_parent? (hq ▸ h) hsteps
  | below r r' hr' ih =>
    rw [Path.ancestors_of_parent hr'] at hq
    rcases List.mem_cons.1 hq with rfl | hq
    · exact Path.endsInSlash_of_parent? h hsteps
    · exact ih hr' hq

/-- A file above a target is seen at one of its ancestors. -/
theorem MayPrepare.exists_ancestor (h : MayPrepare t target)
    (hparent : target.parent? = some parent) (hm : isAbove m (t.destination target) = true)
    (hfile : t.get? m = some (.file content)) :
    ∃ q ∈ parent.ancestors, t.inspect q = some .file := by
  have hidle : "." ∉ stepsOf target := fun hmem => (h.plain _ hmem).1 rfl
  obtain ⟨last, hsteps⟩ := Path.stepsOf_eq_of_parent? hidle hparent
  have hbefore : ∀ s ∈ stepsOf parent, s ≠ "." ∧ s ≠ ".." := fun s hs =>
    h.plain s (hsteps ▸ List.mem_append_left _ hs)
  -- The file is not above the start, which is a directory, so it is some steps further down.
  rcases (isAbove_destination_iff h.plain hsteps).1 hm with hinitial | htrail
  · rw [h.wf.get?_of_prefix h.start hinitial] at hfile
    cases hfile
  obtain ⟨ss, hss, rfl⟩ := (mem_trail_iff_of_plain hbefore).1 htrail
  rcases List.eq_nil_or_concat ss with rfl | ⟨ss, n, rfl⟩
  · rw [List.append_nil, h.start] at hfile
    cases hfile
  rw [List.concat_eq_append] at hss hfile
  obtain ⟨q, hq, hqsteps⟩ := Path.exists_mem_ancestors (fun hmem => hidle (by simp [hsteps, hmem])) hss
  obtain ⟨habsolute, -⟩ := Path.of_mem_ancestors hq
  obtain ⟨-, habsolute', -⟩ := Path.parent?_eq_some hparent
  have horigin : t.origin q = t.origin target :=
    origin_eq_of_isAbsolute (habsolute.trans habsolute')
  have hd : t.get? (t.origin target ++ ss) = some .directory :=
    h.wf _ n _ (by rw [List.append_assoc]; exact hfile)
  have hshort : ∀ s ∈ ss ++ [n], IsName s := fun s hs => by
    have hmem := hss.subset hs
    refine ⟨(hbefore s hmem).1, (hbefore s hmem).2, h.short s ?_⟩
    rw [hsteps, List.dropLast_concat]
    exact hmem
  have hnames : t.Names q (t.origin target ++ ss) n := by
    refine ⟨?_, ⟨ss, hqsteps, ?_⟩, hd, hshort n (by simp), ?_⟩
    · refine (checkPath_of_mem_ancestors hq (h.admitted parent hparent)).resolve_left fun hempty => ?_
      have hnil : stepsOf q = [] := by rw [stepsOf_eq_segments, hempty]; rfl
      simp [hnil] at hqsteps
    · have hplain : ∀ s ∈ ss, s ≠ "." ∧ s ≠ ".." := fun s hs =>
        hbefore s (hss.subset (List.mem_append_left _ hs))
      rw [horigin, ← arrival_of_plain hplain]
      refine walk_of_trail (fun s hs => .inr (.inr (hshort s (List.mem_append_left _ hs)))) ?_
      intro m hm
      obtain ⟨ss', hss', rfl⟩ := (mem_trail_iff_of_plain hplain).1 hm
      exact h.wf.get?_of_prefix hd ((List.prefix_append_right_inj _).2 hss')
    · exact endsInSlash_of_mem_ancestors hparent hq (by rw [hqsteps]; simp)
  refine ⟨q, hq, ?_⟩
  rw [hnames.inspect_eq, List.append_assoc, hfile]
  rfl

/-! ## Both endings -/

theorem checkDirectories_run_blocked (target : Path) {ps : List Path}
    (h : ∃ p ∈ ps, t.inspect p = some .file) : ∃ p ∈ ps, t.inspect p = some .file ∧
      (Replacing.checkDirectories target ps).run.run t = (.error (.blocked target p), t) := by
  induction ps with
  | nil =>
    obtain ⟨p, hp, -⟩ := h
    cases hp
  | cons p ps ih =>
    have hrun : (FileProgram.inspect p).run t = (t.inspect p, t) := rfl
    unfold Replacing.checkDirectories
    rw [FileProgram.run_bind_ok _ (FileProgram.run_lift _), hrun]
    by_cases hp : t.inspect p = some .file
    · exact ⟨p, List.mem_cons_self, hp, by simp [hp]⟩
    · obtain ⟨q, hq, hfile⟩ := h
      rcases List.mem_cons.1 hq with rfl | hq
      · exact absurd hfile hp
      · obtain ⟨r, hr, hfile', hrest⟩ := ih ⟨q, hq, hfile⟩
        refine ⟨r, List.mem_cons_of_mem _ hr, hfile', ?_⟩
        have hno : (t.inspect p == some .file) = false := by simpa using hp
        simp only [hno]
        exact hrest

theorem makeAncestors_run_blocked (hparent : target.parent? = some parent)
    (h : ∃ q ∈ parent.ancestors, t.inspect q = some .file) :
    ∃ q ∈ parent.ancestors, t.inspect q = some .file ∧
      (makeAncestors target).run.run t = (.error (.blocked target q), t) := by
  obtain ⟨q, hq, hfile, hrun⟩ := checkDirectories_run_blocked target h
  refine ⟨q, hq, hfile, ?_⟩
  have hne : parent.text.isEmpty = false := by
    rw [Bool.eq_false_iff, Ne, String.isEmpty_iff]
    intro hempty
    have hnone : parent.parent? = none := by
      refine Option.eq_none_iff_forall_ne_some.2 fun r hr => ?_
      have hlt := Path.length_lt_of_parent? hr
      simp [hempty] at hlt
    rw [Path.ancestors_of_no_parent hnone, List.mem_singleton] at hq
    simp [hq, inspect, resolve, checkPath, hempty] at hfile
  unfold makeAncestors
  rw [hparent]
  simp only [hne, Bool.false_eq_true, if_false]
  exact FileProgram.run_bind_error _ hrun

/-- The steps of a target and the directories above it, when nothing is in the way. -/
theorem MayPrepare.isOpen (h : MayPrepare t target) (hsteps : stepsOf target = before ++ [last])
    (hfree : ∀ m, isAbove m (t.destination target) = true →
      ∀ content, t.get? m ≠ some (.file content)) : IsOpen t target before where
  wf := h.wf
  start := h.start
  steps := by
    intro s hs
    obtain ⟨hhere, hup⟩ := h.plain s (hsteps ▸ List.mem_append_left _ hs)
    refine .inr (.inr ⟨hhere, hup, h.short s ?_⟩)
    rwa [hsteps, List.dropLast_concat]
  free := by
    intro l hl
    exact ne_file_iff.1 (hfree l ((isAbove_destination_iff h.plain hsteps).2 (.inr hl)))

/-- Without a file in the way the directories above a target are there or made. -/
theorem MayPrepare.run_of_free (h : MayPrepare t target)
    (hfree : ∀ m, isAbove m (t.destination target) = true →
      ∀ content, t.get? m ≠ some (.file content)) :
    ∃ t', (makeAncestors target).run.run t = (.ok (), t') ∧
      t'.workingDirectory = t.workingDirectory ∧
      (∀ m, isAbove m (t.destination target) = true → t'.get? m = some .directory) ∧
      ∀ m, isAbove m (t.destination target) = false → t'.get? m = t.get? m := by
  cases hparent : target.parent? with
  | none =>
    have hsteps : stepsOf target = [] := List.eq_nil_iff_forall_not_mem.2 fun s hs =>
      (h.plain s hs).1 (Path.parent?_eq_none hparent s hs)
    refine ⟨t, by unfold makeAncestors; rw [hparent]; rfl, rfl, fun m hm => ?_, fun _ _ => rfl⟩
    rw [destination, hsteps, arrival_nil] at hm
    exact h.wf.get?_of_prefix h.start (isAbove_iff.1 hm).1
  | some parent =>
    have hidle : "." ∉ stepsOf target := fun hmem => (h.plain _ hmem).1 rfl
    obtain ⟨last, hsteps⟩ := Path.stepsOf_eq_of_parent? hidle hparent
    have hlast : last ≠ "." := (h.plain last (hsteps ▸ List.mem_append_right _ (by simp))).1
    obtain ⟨t', hrun, hopens⟩ :=
      makeAncestors_run_of_parent hsteps hlast h.admitted (h.isOpen hsteps hfree)
    refine ⟨t', hrun, hopens.workingDirectory, fun m hm => ?_, fun m hm => ?_⟩
    · rcases (isAbove_destination_iff h.plain hsteps).1 hm with hinitial | htrail
      · exact hopens.directory (h.wf.get?_of_prefix h.start hinitial)
      · exact hopens.made m htrail
    · refine hopens.kept m fun htrail => ?_
      rw [(isAbove_destination_iff h.plain hsteps).2 (.inr htrail)] at hm
      cases hm

/-- With a file in the way it is named, and nothing changes. -/
theorem MayPrepare.run_of_file (h : MayPrepare t target)
    (hm : isAbove m (t.destination target) = true) (hfile : t.get? m = some (.file content)) :
    ∃ component ∈ target.ancestors, t.destination component = m ∧
      (makeAncestors target).run.run t = (.error (.blocked target component), t) := by
  cases hparent : target.parent? with
  | none =>
    have hsteps : stepsOf target = [] := List.eq_nil_iff_forall_not_mem.2 fun s hs =>
      (h.plain s hs).1 (Path.parent?_eq_none hparent s hs)
    rw [destination, hsteps, arrival_nil] at hm
    rw [h.wf.get?_of_prefix h.start (isAbove_iff.1 hm).1] at hfile
    cases hfile
  | some parent =>
    have hidle : "." ∉ stepsOf target := fun hmem => (h.plain _ hmem).1 rfl
    obtain ⟨last, hsteps⟩ := Path.stepsOf_eq_of_parent? hidle hparent
    obtain ⟨q, hq, hinspect, hrun⟩ :=
      makeAncestors_run_blocked hparent (h.exists_ancestor hparent hm hfile)
    refine ⟨q, Path.ancestors_of_parent hparent ▸ List.mem_cons_of_mem _ hq, ?_, hrun⟩
    obtain ⟨e, he, hkind⟩ := get?_of_inspect hinspect
    obtain ⟨content', rfl⟩ : ∃ content', e = .file content' := by
      cases e with
      | file content' => exact ⟨content', rfl⟩
      | directory => cases hkind
    obtain ⟨habsolute, hinitial⟩ := Path.of_mem_ancestors hq
    obtain ⟨-, habsolute', -⟩ := Path.parent?_eq_some hparent
    have habove : isAbove (t.destination q) (t.destination target) = true := by
      refine (isAbove_destination_iff h.plain hsteps).2 (.inr ?_)
      rw [destination, origin_eq_of_isAbsolute (habsolute.trans habsolute')]
      exact mem_trail_of_initial hinitial arrival_mem_trail
    exact h.wf.eq_of_files_above habove hm he hfile

end Above

/-- **Preparing a target is all or nothing.** It succeeds exactly when no file is above the target.
All that is above it is then a directory, and everywhere else the tree is as it was. Otherwise it
fails with the one ancestor that is a file and changes nothing. -/
theorem makeAncestors_all_or_nothing {t : FileTree} {target : Path} (h : MayPrepare t target) :
    let (result, t') := (makeAncestors target).run.run t
    let above := fun m => isAbove m (t.destination target) = true
    (result = .ok () ↔ ∀ m, above m → t.get? m = none ∨ t.get? m = some .directory) ∧
      (result = .ok () → t'.workingDirectory = t.workingDirectory ∧
        (∀ m, above m → t'.get? m = some .directory) ∧
          ∀ m, ¬ above m → t'.get? m = t.get? m) ∧
      (result ≠ .ok () → t' = t ∧ ∃ component ∈ target.ancestors,
        result = .error (.blocked target component) ∧
          ∀ m, m = t.destination component ↔
            above m ∧ ∃ content, t.get? m = some (.file content)) := by
  simp only [← ne_file_iff]
  by_cases hfree : ∀ m, isAbove m (t.destination target) = true →
      ∀ content, t.get? m ≠ some (.file content)
  · obtain ⟨t', hrun, hdirectory, hmade, hkept⟩ := h.run_of_free hfree
    rw [hrun]
    exact ⟨⟨fun _ => hfree, fun _ => rfl⟩,
      fun _ => ⟨hdirectory, hmade, fun m hm => hkept m (Bool.eq_false_iff.2 hm)⟩,
      fun hne => absurd rfl hne⟩
  · simp only [Classical.not_forall, Classical.not_not] at hfree
    obtain ⟨m, hm, content, hfile⟩ := hfree
    obtain ⟨component, hcomponent, rfl, hrun⟩ := h.run_of_file hm hfile
    rw [hrun]
    refine ⟨⟨nofun, fun hfree => absurd hfile (hfree _ hm content)⟩, nofun,
      fun _ => ⟨rfl, component, hcomponent, rfl, fun m' => ⟨?_, ?_⟩⟩⟩
    · rintro rfl
      exact ⟨hm, content, hfile⟩
    · rintro ⟨hm', content', hfile'⟩
      exact h.wf.eq_of_files_above hm' hm hfile' hfile

/-- A file is named from three levels further down, where nothing is. -/
theorem makeAncestors_all_or_nothing_blocked :
    let t : FileTree :=
      ⟨.ofList [(["w"], Entry.directory), (["w", "b"], Entry.file [])], ["w"]⟩
    MayPrepare t ⟨"b/x/y/p"⟩ ∧ ∃ component,
      (makeAncestors ⟨"b/x/y/p"⟩).run.run t = (.error (.blocked ⟨"b/x/y/p"⟩ component), t) ∧
        t.destination component = ["w", "b"] := by
  intro t
  have hsteps : stepsOf ⟨"b/x/y/p"⟩ = ["b", "x", "y", "p"] := by decide
  have hparent : Path.parent? ⟨"b/x/y/p"⟩ = some ⟨"b/x/y"⟩ := by decide
  have hmay : MayPrepare t ⟨"b/x/y/p"⟩ := by
    refine ⟨.of_keys (by decide +kernel), by decide +kernel, ?_, ?_, ?_⟩
    · rw [hsteps]
      decide
    · rw [hsteps]
      decide
    · rintro q hq
      obtain rfl := Option.some.inj (hparent.symm.trans hq)
      exact .inr (by rfl)
  obtain ⟨hfree, -, hfails⟩ := makeAncestors_all_or_nothing hmay
  have habove : isAbove ["w", "b"] (t.destination ⟨"b/x/y/p"⟩) = true := by decide +kernel
  have hthere : t.get? ["w", "b"] = some (.file []) := by decide +kernel
  obtain ⟨hkept, component, -, herror, honly⟩ := hfails fun hok => by
    rcases hfree.1 hok _ habove with hnone | hdirectory
    · rw [hthere] at hnone
      cases hnone
    · rw [hthere] at hdirectory
      cases hdirectory
  have hfile : ["w", "b"] = t.destination component :=
    (honly _).2 ⟨habove, [], hthere⟩
  exact ⟨hmay, component, Prod.ext herror hkept, hfile.symm⟩

end Pagewright
