import Pagewright.File.Replace
import Pagewright.Proofs.Parents
import Pagewright.Proofs.Trails

/-!
# Making the ancestors of a path

When no file is on the trail of a path, its missing ancestors are made, from the top down, and
nothing else changes (`makeAncestors_run`). A directory is made once those before it are there; until
then the attempt fails and the parent has to be made first (`makeDirectories_run`).
-/

namespace Pagewright

open FileTree

/-! ## Runs -/

namespace FileProgram

variable {α β : Type} {t : FileTree}

@[simp] theorem run_pure (a : α) : (pure a : FileProgram α).run t = (a, t) := rfl

theorem run_bind_eq (prog : FileProgram α) (k : α → FileProgram β) :
    (prog >>= k).run t = (k (prog.run t).1).run (prog.run t).2 :=
  run_bind t prog k

theorem run_exists? (p : Path) : (exists? p).run t = ((t.inspect p).isSome, t) := rfl

theorem run_makeDirectory (p : Path) :
    (makeDirectory p).run t = FileOp.settle t (t.makeDirectory p) := rfl

/-! Programs with errors of their own. -/

section Errors

variable {ε : Type} {t' : FileTree} {m : ExceptT ε FileProgram β}

theorem run_bind_ok {b : β} (f : β → ExceptT ε FileProgram α) (h : m.run.run t = (.ok b, t')) :
    (m >>= f).run.run t = (f b).run.run t' := by
  rw [ExceptT.run_bind, run_bind_eq, h]

theorem run_bind_error {e : ε} (f : β → ExceptT ε FileProgram α)
    (h : m.run.run t = (.error e, t')) : (m >>= f).run.run t = (.error e, t') := by
  rw [ExceptT.run_bind, run_bind_eq, h]
  rfl

theorem run_lift (prog : FileProgram α) :
    (prog : ExceptT ε FileProgram α).run.run t = (.ok (prog.run t).1, (prog.run t).2) :=
  run_bind t prog fun a => (pure (.ok a) : FileProgram (Except ε α))

end Errors

end FileProgram

namespace Replacing

variable {α β : Type} {t t' : FileTree}

@[simp] theorem run_pure (a : α) : (pure a : Replacing α).run.run t = (.ok a, t) := rfl

theorem run_attempt {p : Path} {op : FileProgram (Except FileError α)} {a : α}
    (h : op.run t = (.ok a, t')) : (attempt p op).run.run t = (.ok a, t') := by
  unfold attempt
  rw [ExceptT.run_mk, FileProgram.run_bind_eq, h]
  rfl

theorem run_attempt_change {p : Path} {op : FileProgram (Except FileError Unit)}
    {change : Except FileError FileTree} (hop : op.run t = FileOp.settle t change)
    (h : change = .ok t') : (attempt p op).run.run t = (.ok (), t') := by
  subst h
  exact run_attempt hop

/-- A change that fails ends everything and has no effect. -/
theorem run_attempt_failure {p : Path} {op : FileProgram (Except FileError Unit)}
    {change : Except FileError FileTree} {e : FileError}
    (hop : op.run t = FileOp.settle t change) (h : change = .error e) :
    (attempt p op).run.run t = (.error (.file p e), t) := by
  subst h
  unfold attempt
  rw [ExceptT.run_mk, FileProgram.run_bind_eq, hop]
  rfl

end Replacing

/-! ## Open trails -/

/-- Steps from where a path starts along which all that is missing may be made. -/
structure IsOpen (t : FileTree) (p : Path) (ss : List String) : Prop where
  wf : t.WF
  start : t.get? (t.origin p) = some .directory
  steps : ∀ s ∈ ss, IsStep s
  free : ∀ l ∈ trail (t.origin p) ss, t.get? l = none ∨ t.get? l = some .directory

/-- The tree with directories at all of some locations. -/
structure Opens (t t' : FileTree) (ls : List Location) : Prop where
  workingDirectory : t'.workingDirectory = t.workingDirectory
  made : ∀ l ∈ ls, t'.get? l = some .directory
  kept : ∀ l, l ∉ ls → t'.get? l = t.get? l

section Making

variable {t t' : FileTree} {p q : Path} {ss : List String} {s : String}

theorem Opens.refl {ls : List Location} (h : ∀ l ∈ ls, t.get? l = some .directory) :
    Opens t t ls :=
  ⟨rfl, h, fun _ _ => rfl⟩

theorem Opens.origin_eq {ls : List Location} (h : Opens t t' ls) (p : Path) :
    t'.origin p = t.origin p := by
  rw [origin, origin, h.workingDirectory]

theorem origin_eq_of_isAbsolute (h : q.isAbsolute = p.isAbsolute) : t.origin q = t.origin p := by
  rw [origin, origin, h]

theorem IsOpen.of_initial {ss' : List String} (h : IsOpen t p ss)
    (habsolute : q.isAbsolute = p.isAbsolute) (hinitial : ss' <+: ss) : IsOpen t q ss' where
  wf := h.wf
  start := origin_eq_of_isAbsolute habsolute ▸ h.start
  steps := fun s hs => h.steps s (hinitial.subset hs)
  free := fun l hl =>
    h.free l (mem_trail_of_initial hinitial (origin_eq_of_isAbsolute (t := t) habsolute ▸ hl))

theorem Opens.trans {t'' : FileTree} {ls ls' : List Location} (h : Opens t t' ls)
    (h' : Opens t' t'' ls') (hsub : ∀ l ∈ ls, l ∈ ls') : Opens t t'' ls' where
  workingDirectory := h'.workingDirectory.trans h.workingDirectory
  made := h'.made
  kept := fun l hl => (h'.kept l hl).trans (h.kept l fun hmem => hl (hsub l hmem))

theorem Opens.directory {ls : List Location} (h : Opens t t' ls) {l : Location}
    (hl : t.get? l = some .directory) : t'.get? l = some .directory := by
  by_cases hmem : l ∈ ls
  · exact h.made l hmem
  · rw [h.kept l hmem, hl]

theorem IsOpen.of_opens {ls : List Location} (h : IsOpen t p ss) (hopens : Opens t t' ls)
    (hwf : t'.WF) : IsOpen t' p ss where
  wf := hwf
  start := hopens.origin_eq p ▸ hopens.directory h.start
  steps := h.steps
  free := by
    intro l hl
    rw [hopens.origin_eq p] at hl
    by_cases hmem : l ∈ ls
    · exact .inr (hopens.made l hmem)
    · rw [hopens.kept l hmem]
      exact h.free l hl

theorem checkPath_eq_ok_iff : checkPath p = .ok () ↔
    '\x00' ∉ p.text.toList ∧ p.text ≠ "" ∧ p.text.utf8ByteSize < maxPathBytes := by
  unfold checkPath
  split
  · next hnul => exact iff_of_false nofun fun h => h.1 (by simpa using hnul)
  · next hnul =>
    split
    · next hempty => exact iff_of_false nofun fun h => h.2.1 (by simpa using hempty)
    · next hempty =>
      split
      · next hlong => exact iff_of_false nofun fun h => Nat.not_lt.2 hlong h.2.2
      · next hshort =>
        exact iff_of_true rfl ⟨by simpa using hnul, by simpa using hempty, Nat.not_le.1 hshort⟩

theorem checkPath_of_append {rest : List Char} (h : p.text.toList = q.text.toList ++ rest)
    (hcheck : checkPath p = .ok ()) : q.text = "" ∨ checkPath q = .ok () := by
  have htext : p.text = q.text ++ String.ofList rest := by
    apply String.toList_inj.1
    rw [h, String.toList_append, String.toList_ofList]
  obtain ⟨hnul, -, hshort⟩ := checkPath_eq_ok_iff.1 hcheck
  rw [h, List.mem_append, not_or] at hnul
  rw [htext, String.utf8ByteSize_append] at hshort
  by_cases hempty : q.text = ""
  · exact .inl hempty
  · exact .inr (checkPath_eq_ok_iff.2 ⟨hnul.1, hempty, by omega⟩)

/-! ## Making one directory -/

theorem settleExisting_run (hcheck : checkPath p = .ok ()) (hsteps : ∀ s ∈ stepsOf p, IsStep s)
    (h : ∀ m ∈ trail (t.origin p) (stepsOf p), t.get? m = some .directory)
    (e : FileError) :
    (FileProgram.makeDirectories.settleExisting p (.error e)).run t = (.ok (), t) := by
  have hinspect : (FileProgram.inspect p).run t = (some .directory, t) :=
    congrArg (·, t) (inspect_of_trail hcheck hsteps h)
  unfold FileProgram.makeDirectories.settleExisting
  rw [FileProgram.run_bind_eq, hinspect]
  rfl

/-- The last directory of a trail is there, or it is made. -/
theorem makeDirectory_of_trail (hcheck : checkPath p = .ok ()) (hopen : IsOpen t p (stepsOf p))
    (hlast : stepsOf p = ss ++ [s])
    (h : ∀ m ∈ trail (t.origin p) ss, t.get? m = some .directory) :
    (t.makeDirectory p = .error .alreadyExists ∧
        ∀ m ∈ trail (t.origin p) (stepsOf p), t.get? m = some .directory) ∨
      ∃ t', t.makeDirectory p = .ok t' ∧ t'.WF ∧
        Opens t t' (trail (t.origin p) (stepsOf p)) := by
  have hparent := resolveParent_of_trail hcheck hopen.steps hlast h
  have hd : t.get? (arrival (t.origin p) ss) = some .directory := h _ arrival_mem_trail
  have hstep : IsStep s := hopen.steps s (hlast ▸ List.mem_append_right _ List.mem_cons_self)
  have htrail : ∀ {m}, m ∈ trail (t.origin p) (stepsOf p) ↔
      m ∈ trail (t.origin p) ss ∨ m = stepTo (arrival (t.origin p) ss) s := by
    intro m
    rw [hlast, mem_trail_append, mem_trail_cons, mem_trail_nil]
    exact ⟨fun h => h.elim .inl fun h => h.elim (fun h => .inl (h ▸ arrival_mem_trail)) .inr,
      fun h => h.imp_right .inr⟩
  have hall : t.get? (stepTo (arrival (t.origin p) ss) s) = some .directory →
      ∀ m ∈ trail (t.origin p) (stepsOf p), t.get? m = some .directory :=
    fun hnext m hm => (htrail.1 hm).elim (h m) fun heq => heq ▸ hnext
  by_cases hdots : s = "." ∨ s = ".."
  · refine .inl ⟨by simp only [makeDirectory, hparent, if_pos hdots], hall ?_⟩
    rcases hdots with rfl | rfl
    · exact hd
    · exact hopen.wf.get?_dropLast hd
  · have hname : IsName s := by
      rcases hstep with hs | hs | hname
      · exact absurd (.inl hs) hdots
      · exact absurd (.inr hs) hdots
      · exact hname
    have hchild : t.child? (arrival (t.origin p) ss) s =
        .ok (t.get? (stepTo (arrival (t.origin p) ss) s)) := by
      rw [child?, if_neg (Nat.not_lt.2 hname.short), stepTo_of_isName hname]
    rcases hopen.free _ (htrail.2 (.inr rfl)) with hnone | hdirectory
    · rw [hnone] at hchild
      refine .inr ⟨_, by simp only [makeDirectory, hparent, if_neg hdots, hchild],
        hopen.wf.insert_directory hd s, rfl, fun m hm => ?_, fun m hm => ?_⟩
      · rw [get?_insert (by simp), ← stepTo_of_isName hname]
        split
        · rfl
        · next hne => exact ((htrail.1 hm).resolve_right (Ne.symm hne)) |> h m
      · rw [get?_insert (by simp), ← stepTo_of_isName hname, if_neg]
        exact fun heq => hm (htrail.2 (.inr heq.symm))
    · rw [hdirectory] at hchild
      exact .inl ⟨by simp only [makeDirectory, hparent, if_neg hdots, hchild], hall hdirectory⟩

/-! ## Making all of them -/

/-- Once the parent is there the directory is made, or it is there too. -/
theorem makeDirectory_run_of_parent {t₁ : FileTree} {idles : List String}
    (hcheck : checkPath p = .ok ()) (hopen : IsOpen t p (stepsOf p))
    (hsteps : stepsOf p = stepsOf q ++ idles ++ [s]) (hidles : ∀ i ∈ idles, i = ".")
    (hwf : t₁.WF) (hopens : Opens t t₁ (trail (t.origin p) (stepsOf q))) :
    ∃ t', (FileProgram.makeDirectory p >>=
          FileProgram.makeDirectories.settleExisting p).run t₁ = (.ok (), t') ∧
      t'.WF ∧ Opens t t' (trail (t.origin p) (stepsOf p)) := by
  have hopen₁ : IsOpen t₁ p (stepsOf p) := hopen.of_opens hopens hwf
  have horigin : t₁.origin p = t.origin p := hopens.origin_eq p
  have hall : ∀ m ∈ trail (t₁.origin p) (stepsOf q ++ idles), t₁.get? m = some .directory := by
    intro m hm
    rw [horigin, mem_trail_append, mem_trail_of_idle hidles] at hm
    exact hopens.made m (hm.elim id fun heq => heq ▸ arrival_mem_trail)
  have hsub : ∀ l ∈ trail (t.origin p) (stepsOf q), l ∈ trail (t.origin p) (stepsOf p) := by
    intro l hl
    rw [hsteps, List.append_assoc]
    exact mem_trail_append.2 (.inl hl)
  rw [FileProgram.run_bind_eq, FileProgram.run_makeDirectory]
  rcases makeDirectory_of_trail hcheck hopen₁ hsteps hall with
    ⟨hexists, hall⟩ | ⟨t', hmake, hwf', hopens'⟩
  · rw [hexists]
    exact ⟨t₁, settleExisting_run hcheck hopen.steps hall _, hwf,
      hopens.trans (.refl (horigin ▸ hall)) hsub⟩
  · rw [hmake]
    exact ⟨t', rfl, hwf', hopens.trans (horigin ▸ hopens') hsub⟩

/-- A path on whose way something is missing has a parent. -/
theorem exists_parent_of_walk (hopen : IsOpen t p ss) (hlast : stepsOf p = ss ++ [s])
    {e : FileError} (hmissing : t.walk (t.origin p) ss = .error e) :
    ∃ q, p.parent? = some q := by
  cases hq : p.parent? with
  | some q => exact ⟨q, rfl⟩
  | none =>
    have hidle : ∀ s ∈ ss, s = "." := fun s hs =>
      Path.parent?_eq_none hq s (hlast ▸ List.mem_append_left _ hs)
    have hwalk : t.walk (t.origin p) ss = .ok (arrival (t.origin p) ss) :=
      walk_of_trail hopen.steps fun m hm => (mem_trail_of_idle hidle).1 hm ▸ hopen.start
    rw [hmissing] at hwalk
    cases hwalk

/-- **All missing directories of a trail are made**, and nothing else changes. -/
theorem makeDirectories_run {fuel : Nat} (hfuel : p.text.length < fuel)
    (hcheck : p.text = "" ∨ checkPath p = .ok ()) (htidy : p.IsTidy)
    (hopen : IsOpen t p (stepsOf p)) :
    ∃ t', (FileProgram.makeDirectories fuel p).run t = (.ok (), t') ∧ t'.WF ∧
      Opens t t' (trail (t.origin p) (stepsOf p)) := by
  induction fuel generalizing p with
  | zero => exact absurd hfuel (Nat.not_lt_zero _)
  | succ fuel ih =>
    have hstart : stepsOf p = [] → ∀ m ∈ trail (t.origin p) (stepsOf p),
        t.get? m = some .directory := by
      intro hnil m hm
      rw [hnil, mem_trail_nil] at hm
      exact hm ▸ hopen.start
    unfold FileProgram.makeDirectories
    by_cases htext : p.text = ""
    · have hnil : stepsOf p = [] := by rw [stepsOf_eq_segments, htext]; rfl
      exact ⟨t, by simp [htext], hopen.wf, .refl (hstart hnil)⟩
    have hcheck : checkPath p = .ok () := hcheck.resolve_left htext
    have hthere : (∀ m ∈ trail (t.origin p) (stepsOf p), t.get? m = some .directory) →
        (FileProgram.makeDirectories.settleExisting p (.error .alreadyExists)).run t =
          (.ok (), t) := fun hall => settleExisting_run hcheck hopen.steps hall _
    rw [if_neg (by simpa using htext), FileProgram.run_bind_eq, FileProgram.run_makeDirectory]
    rcases List.eq_nil_or_concat (stepsOf p) with hnil | ⟨ss, s, hlast⟩
    · have hroot : t.makeDirectory p = .error .alreadyExists := by
        simp [makeDirectory, resolveParent, hcheck, hnil]
      rw [hroot]
      exact ⟨t, hthere (hstart hnil), hopen.wf, .refl (hstart hnil)⟩
    rw [List.concat_eq_append] at hlast
    have hbefore : IsOpen t p ss := hopen.of_initial rfl (hlast ▸ List.prefix_append ss [s])
    rcases walk_of_open hopen.wf hopen.start hbefore.steps hbefore.free with hall | hmissing
    · rcases makeDirectory_of_trail hcheck hopen hlast hall with ⟨hexists, hall⟩ | ⟨t', hmake, h⟩
      · rw [hexists]
        exact ⟨t, hthere hall, hopen.wf, .refl hall⟩
      · rw [hmake]
        exact ⟨t', rfl, h⟩
    -- A directory before the last step is missing, so the parent goes first.
    have hfails : t.makeDirectory p = .error .notFound := by
      have hreverse : (stepsOf p).reverse = s :: ss.reverse := by rw [hlast]; simp
      simp only [makeDirectory, resolveParent, hcheck, hreverse, List.reverse_reverse, hmissing]
    obtain ⟨q, hq⟩ := exists_parent_of_walk hbefore hlast hmissing
    obtain ⟨⟨rest, hrest, htext'⟩, habsolute, htidy', -⟩ := Path.parent?_eq_some hq
    obtain ⟨idles, s', hsteps, hidles⟩ := htidy.stepsOf_eq hq
    have hlength : q.text.length < fuel := by
      have h := congrArg List.length htext'
      rw [List.length_append, String.length_toList, String.length_toList] at h
      have hpos := List.length_pos_iff.2 hrest
      omega
    have hopen' : IsOpen t q (stepsOf q) := by
      refine hopen.of_initial habsolute ?_
      rw [hsteps, List.append_assoc]
      exact List.prefix_append _ _
    obtain ⟨t₁, hrun, hwf, hopens⟩ := ih hlength (checkPath_of_append htext' hcheck) htidy' hopen'
    rw [origin_eq_of_isAbsolute habsolute] at hopens
    rw [hfails]
    simp only [FileOp.settle, hq]
    rw [FileProgram.run_bind_eq, hrun]
    exact makeDirectory_run_of_parent hcheck hopen hsteps hidles hwf hopens

end Making

/-! ## Making the ancestors -/

section Ancestors

variable {t : FileTree} {target parent : Path} {before : List String} {last : String}

theorem checkDirectories_run {ps : List Path} (h : ∀ p ∈ ps, t.inspect p ≠ some .file) :
    (Replacing.checkDirectories target ps).run.run t = (.ok (), t) := by
  induction ps with
  | nil => rfl
  | cons p ps ih =>
    have hp : (t.inspect p == some .file) = false := by simpa using h p List.mem_cons_self
    unfold Replacing.checkDirectories
    rw [FileProgram.run_bind_ok _ (FileProgram.run_lift _)]
    have hrun : (FileProgram.inspect p).run t = (t.inspect p, t) := rfl
    simp only [hrun, hp]
    exact ih fun q hq => h q (List.mem_cons_of_mem _ hq)

theorem makeAncestors_run_eq (hparent : target.parent? = some parent)
    (hfree : ∀ q ∈ parent.ancestors, t.inspect q ≠ some .file) :
    (makeAncestors target).run.run t =
      if parent.text.isEmpty || (t.inspect parent).isSome then (.ok (), t)
      else (Replacing.attempt parent
        (.makeDirectories (parent.text.length + 1) parent)).run.run t := by
  unfold makeAncestors
  rw [hparent]
  by_cases hempty : parent.text.isEmpty = true
  · simp [hempty]
  · simp only [hempty, Bool.false_eq_true, if_false, Bool.false_or]
    rw [FileProgram.run_bind_ok _ (checkDirectories_run hfree),
      FileProgram.run_bind_ok _ (FileProgram.run_lift _), FileProgram.run_exists?]
    cases (t.inspect parent).isSome <;> rfl

variable (hsteps : stepsOf target = before ++ [last]) (hlast : last ≠ ".")

include hsteps hlast

/-- All steps of a path but the last one are those of its parent and idle ones. -/
theorem exists_parent : ∃ parent idles, target.parent? = some parent ∧
    before = stepsOf parent ++ idles ∧ ∀ i ∈ idles, i = "." := by
  have htidy : target.IsTidy := by
    intro ss hss
    exact absurd (List.singleton_inj.1 (List.append_inj' (hsteps.symm.trans hss) rfl).2) hlast
  cases hparent : target.parent? with
  | none =>
    refine absurd (Path.parent?_eq_none hparent last ?_) hlast
    exact hsteps ▸ List.mem_append_right _ List.mem_cons_self
  | some parent =>
    obtain ⟨idles, s, hsteps', hidles⟩ := htidy.stepsOf_eq hparent
    exact ⟨parent, idles, rfl, (List.append_inj' (hsteps.symm.trans hsteps') rfl).1, hidles⟩

/-- No ancestor of a path is a file when none is on its trail. -/
theorem inspect_ancestor_ne (hparent : target.parent? = some parent)
    (hfree : ∀ l ∈ trail (t.origin target) before,
      t.get? l = none ∨ t.get? l = some .directory) :
    ∀ q ∈ parent.ancestors, t.inspect q ≠ some .file := by
  intro q hq hfile
  obtain ⟨habsolute, hinitial⟩ := Path.of_mem_ancestors hq
  obtain ⟨parent', idles, hparent', hbefore, -⟩ := exists_parent hsteps hlast
  obtain rfl : parent = parent' := Option.some.inj (hparent.symm.trans hparent')
  obtain ⟨-, habsolute', -⟩ := Path.parent?_eq_some hparent
  have hmem : arrival (t.origin q) (stepsOf q) ∈ trail (t.origin target) before := by
    rw [origin_eq_of_isAbsolute (t := t) (habsolute.trans habsolute')]
    exact mem_trail_of_initial (hbefore ▸ hinitial.trans (List.prefix_append _ _)) arrival_mem_trail
  obtain ⟨e, he, hkind⟩ := get?_of_inspect hfile
  rcases hfree _ hmem with hnone | hdirectory
  · rw [he] at hnone
    cases hnone
  · rw [he] at hdirectory
    obtain rfl := Option.some.inj hdirectory
    cases hkind

/-- **All missing ancestors of a path are made**, and nothing else changes. The system has to take
the text of the parent; that of the path itself does not matter. -/
theorem makeAncestors_run_of_parent
    (hadmitted : ∀ q, target.parent? = some q → q.text = "" ∨ checkPath q = .ok ())
    (hopen : IsOpen t target before) :
    ∃ t', (makeAncestors target).run.run t = (.ok (), t') ∧
      Opens t t' (trail (t.origin target) before) := by
  obtain ⟨parent, idles, hparent, rfl, hidles⟩ := exists_parent hsteps hlast
  have hfree := inspect_ancestor_ne hsteps hlast hparent hopen.free
  obtain ⟨-, habsolute, htidy, -⟩ := Path.parent?_eq_some hparent
  have horigin : t.origin parent = t.origin target := origin_eq_of_isAbsolute habsolute
  have hopen' : IsOpen t parent (stepsOf parent) :=
    hopen.of_initial habsolute (List.prefix_append _ _)
  -- Idle steps add nothing to the trail of the parent.
  have htrail : ∀ l, l ∈ trail (t.origin target) (stepsOf parent ++ idles) ↔
      l ∈ trail (t.origin parent) (stepsOf parent) := by
    intro l
    rw [mem_trail_append, mem_trail_of_idle hidles, horigin]
    exact ⟨fun h => h.elim id fun heq => heq ▸ arrival_mem_trail, .inl⟩
  have hopens : ∀ {t'}, Opens t t' (trail (t.origin parent) (stepsOf parent)) →
      Opens t t' (trail (t.origin target) (stepsOf parent ++ idles)) := fun h =>
    ⟨h.workingDirectory, fun l hl => h.made l ((htrail l).1 hl),
      fun l hl => h.kept l fun hmem => hl ((htrail l).2 hmem)⟩
  rw [makeAncestors_run_eq hparent hfree]
  split
  · next hthere =>
    refine ⟨t, rfl, hopens (.refl ?_)⟩
    rw [Bool.or_eq_true] at hthere
    rcases hthere with hempty | hsome
    · have hnil : stepsOf parent = [] := by
        rw [stepsOf_eq_segments, show parent.text = "" by simpa using hempty]
        rfl
      intro l hl
      rw [hnil, mem_trail_nil] at hl
      exact hl ▸ hopen'.start
    · refine (walk_of_open hopen'.wf hopen'.start hopen'.steps hopen'.free).resolve_right ?_
      intro hmissing
      rw [inspect_eq_none hmissing] at hsome
      cases hsome
  · obtain ⟨t', hrun, -, h⟩ := makeDirectories_run (Nat.lt_succ_self _)
      (hadmitted parent hparent) htidy hopen'
    exact ⟨t', Replacing.run_attempt hrun, hopens h⟩

variable (hcheck : checkPath target = .ok ())

include hcheck

/-- Nothing is made when all ancestors are there. -/
theorem makeAncestors_run_of_trail (hnames : ∀ s ∈ before, IsStep s)
    (h : ∀ l ∈ trail (t.origin target) before, t.get? l = some .directory) :
    (makeAncestors target).run.run t = (.ok (), t) := by
  obtain ⟨parent, idles, hparent, rfl, -⟩ := exists_parent hsteps hlast
  have hfree := inspect_ancestor_ne hsteps hlast hparent fun l hl => .inr (h l hl)
  obtain ⟨⟨rest, -, htext⟩, habsolute, -⟩ := Path.parent?_eq_some hparent
  rw [makeAncestors_run_eq hparent hfree, if_pos]
  rcases checkPath_of_append htext hcheck with hempty | hcheck'
  · simp [hempty]
  · have horigin : t.origin parent = t.origin target := origin_eq_of_isAbsolute habsolute
    rw [inspect_of_trail hcheck' (fun s hs => hnames s (List.mem_append_left _ hs)) fun m hm =>
      h m (mem_trail_append.2 (.inl (horigin ▸ hm)))]
    simp

/-- Missing ancestors of a path that the system takes are made, and nothing else changes. -/
theorem makeAncestors_run (hopen : IsOpen t target before) :
    ∃ t', (makeAncestors target).run.run t = (.ok (), t') ∧
      Opens t t' (trail (t.origin target) before) := by
  refine makeAncestors_run_of_parent hsteps hlast (fun parent hparent => ?_) hopen
  obtain ⟨⟨rest, -, htext⟩, -⟩ := Path.parent?_eq_some hparent
  exact checkPath_of_append htext hcheck

end Ancestors

end Pagewright
