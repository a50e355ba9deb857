import Pagewright.Proofs.Cells

/-!
# Places of files

A path has a place when a file is there or may be put there: its directory exists, and no directory
is at its end (`FileTree.place?`). On files the operations are about places only: what is written,
removed or renamed shows at the places of the paths, whatever other path leads to one of them too,
and without a place an operation fails (`SameDirectories.write_eq`, `SameDirectories.remove_eq`,
`SameDirectories.rename_eq`). None of these changes moves a place.
-/

namespace Pagewright

open Text

namespace FileTree

variable {base t : FileTree} {p q : Path} {l x y : Location} {n : String} {content : Bytes}

/-- Where the file of a path is, or where it would be made. -/
def place? (t : FileTree) (p : Path) : Option Location :=
  match t.resolveParent p with
  | .ok (l, .name n) =>
    match t.child? l n with
    | .ok e => if p.endsInSlash ∨ e = some .directory then none else some (l ++ [n])
    | .error _ => none
  | _ => none

theorem place?_eq_some_iff : t.place? p = some x ↔
    ∃ l n, t.Names p l n ∧ t.get? (l ++ [n]) ≠ some .directory ∧ x = l ++ [n] := by
  constructor
  · intro h
    unfold place? at h
    split at h
    · next l n hparent =>
      split at h
      · next e hchild =>
        split at h
        · cases h
        · next hfree =>
          rw [not_or] at hfree
          obtain ⟨hnames, rfl⟩ := names_of_resolveParent hparent hchild (by simpa using hfree.1)
          exact ⟨l, n, hnames, hfree.2, (Option.some.inj h).symm⟩
      · cases h
    · cases h
  · rintro ⟨l, n, hnames, hfree, rfl⟩
    simp [place?, hnames.resolveParent_eq, hnames.child?_eq, hnames.endsInSlash, hfree]

theorem Names.place?_eq (h : t.Names p l n) (hfree : t.get? (l ++ [n]) ≠ some .directory) :
    t.place? p = some (l ++ [n]) :=
  place?_eq_some_iff.2 ⟨l, n, h, hfree, rfl⟩

theorem not_directory_of_place? (h : t.place? p = some x) : t.get? x ≠ some .directory := by
  obtain ⟨l, n, -, hfree, rfl⟩ := place?_eq_some_iff.1 h
  exact hfree

theorem ne_nil_of_place? (h : t.place? p = some x) : x ≠ [] := by
  obtain ⟨l, n, -, -, rfl⟩ := place?_eq_some_iff.1 h
  simp

/-- At a place there is a file or nothing. -/
theorem file_or_none_of_place? (h : t.place? p = some x) :
    t.get? x = none ∨ ∃ content, t.get? x = some (.file content) := by
  have hfree := not_directory_of_place? h
  cases he : t.get? x with
  | none => exact .inl rfl
  | some e =>
    cases e with
    | file content => exact .inr ⟨content, rfl⟩
    | directory => exact absurd he hfree

/-- A path to a file has a place, and the file is there. -/
theorem WF.read_eq_ok_iff (hwf : t.WF) :
    t.read p = .ok content ↔ ∃ x, t.place? p = some x ∧ t.get? x = some (.file content) := by
  constructor
  · intro h
    obtain ⟨hcheck, hslash, before, last, d, l, hsteps, hat⟩ := exists_atTarget h
    have hfile := hat.file
    obtain ⟨-, ⟨-, rfl⟩ | ⟨-, rfl⟩ | ⟨hname, -, rfl⟩⟩ := enter_eq_ok_iff.1 hat.enter
    · rw [hat.stands.directory] at hfile
      cases hfile
    · rw [hwf.get?_dropLast hat.stands.directory] at hfile
      cases hfile
    · have hnames : t.Names p d last :=
        ⟨hcheck, ⟨before, hsteps.steps, hat.stands.walk⟩, hat.stands.directory, hname, hslash⟩
      exact ⟨_, hnames.place?_eq (ne_directory_of_file hfile), hfile⟩
  · rintro ⟨x, hx, hfile⟩
    obtain ⟨l, n, hnames, -, rfl⟩ := place?_eq_some_iff.1 hx
    exact hnames.read_eq_ok_iff.2 hfile

/-- A sibling is in the directory of the path when its suffix stays in the name. -/
theorem Names.place?_sibling {suffix : String} (h : t.Names p l n) (hsuffix : '/' ∉ suffix.toList)
    (hx : t.place? (p.sibling suffix) = some x) : x = l ++ [n ++ suffix] := by
  have htext : p.text ≠ "" := by
    intro he
    have hcheck := h.check
    simp [checkPath, he] at hcheck
  obtain ⟨before, last, hsteps⟩ := exists_siblingSteps htext h.endsInSlash
  obtain ⟨before', hsteps', hwalk⟩ := h.walk
  obtain ⟨rfl, hlast⟩ := List.append_inj' (hsteps.steps.symm.trans hsteps') rfl
  obtain rfl := List.singleton_inj.1 hlast
  obtain ⟨m, k, hnames, -, rfl⟩ := place?_eq_some_iff.1 hx
  have hstands : t.Stands p before l := ⟨hwalk, h.directory⟩
  obtain ⟨rfl, rfl⟩ := hstands.eq_of_names_sibling hsteps hsuffix hnames
  rfl

/-- A tree is well-formed when each of its entries lies in a directory. -/
theorem WF.of_keys (h : ∀ l ∈ t.entries.keys, t.get? l.dropLast = some .directory) : t.WF := by
  intro l n e he
  rw [get?, if_neg (by simp)] at he
  have hmem : l ++ [n] ∈ t.entries.keys :=
    Std.ExtTreeMap.mem_keys.2 (Std.ExtTreeMap.mem_iff_isSome_getElem?.2 (by rw [he]; rfl))
  simpa using h _ hmem

theorem erase_eq_self (hx : x ≠ []) (h : t.get? x = none) : t.erase x = t := by
  rw [get?, if_neg hx] at h
  have hentries : t.entries.erase x = t.entries := by
    refine Std.ExtTreeMap.ext_getElem? fun m => ?_
    rw [Std.ExtTreeMap.getElem?_erase]
    split
    · next heq => rw [← Std.LawfulEqCmp.eq_of_compare heq, h]
    · rfl
  rw [erase, hentries]

/-! ## Trees with the same directories -/

/-- A tree whose files differ from those of another one, but whose directories do not. -/
structure SameDirectories (base t : FileTree) : Prop where
  wf : t.WF
  workingDirectory : t.workingDirectory = base.workingDirectory
  directory : ∀ l, t.get? l = some .directory ↔ base.get? l = some .directory

namespace SameDirectories

theorem refl (h : t.WF) : SameDirectories t t :=
  ⟨h, rfl, fun _ => .rfl⟩

theorem place?_eq (h : SameDirectories base t) (p : Path) : t.place? p = base.place? p := by
  have hto : KeepsDirectories base t := ⟨h.workingDirectory, fun l => (h.directory l).2⟩
  have hfrom : KeepsDirectories t base := ⟨h.workingDirectory.symm, fun l => (h.directory l).1⟩
  ext x
  rw [place?_eq_some_iff, place?_eq_some_iff]
  constructor
  · rintro ⟨l, n, hnames, hfree, rfl⟩
    exact ⟨l, n, hnames.of_keepsDirectories hfrom, mt (h.directory _).2 hfree, rfl⟩
  · rintro ⟨l, n, hnames, hfree, rfl⟩
    exact ⟨l, n, hnames.of_keepsDirectories hto, mt (h.directory _).1 hfree, rfl⟩

variable (h : SameDirectories base t)

include h

theorem place?_eq_some (hx : base.place? p = some x) : t.place? p = some x :=
  (h.place?_eq p).trans hx

/-- What is put at a place, if it is no directory, or taken from it changes no directory. -/
theorem of_change {t' : FileTree} {e : Option Entry} (hx : base.place? p = some x)
    (he : e ≠ some .directory) (hstart : t'.workingDirectory = t.workingDirectory)
    (hget : ∀ m, t'.get? m = if x = m then e else t.get? m) : SameDirectories base t' := by
  obtain ⟨l, n, hnames, hfree, rfl⟩ := place?_eq_some_iff.1 (h.place?_eq_some hx)
  have hdirectory : ∀ m, t'.get? m = some .directory ↔ t.get? m = some .directory := by
    intro m
    rw [hget]
    split
    · next heq => exact ⟨fun hm => absurd hm he, fun hm => absurd (heq ▸ hm) hfree⟩
    · rfl
  refine ⟨fun m k e' he' => ?_, hstart.trans h.workingDirectory,
    fun m => (hdirectory m).trans (h.directory m)⟩
  rw [hdirectory]
  rw [hget] at he'
  split at he'
  · next heq => exact (List.append_inj' heq rfl).1 ▸ hnames.directory
  · exact h.wf m k e' he'

theorem insert (hx : base.place? p = some x) (content : Bytes) :
    SameDirectories base (t.insert x (.file content)) :=
  h.of_change hx (e := some (.file content)) nofun rfl fun _ =>
    get?_insert (ne_nil_of_place? hx) _

theorem erase (hx : base.place? p = some x) : SameDirectories base (t.erase x) :=
  h.of_change hx (e := none) nofun rfl fun _ => get?_erase (ne_nil_of_place? hx)

/-! ## Operations by place -/

theorem read_eq_ok_iff : t.read p = .ok content ↔
    ∃ x, base.place? p = some x ∧ t.get? x = some (.file content) := by
  rw [h.wf.read_eq_ok_iff, h.place?_eq]

theorem inspect_eq (hx : base.place? p = some x) :
    t.inspect p = (t.get? x).map Entry.kind := by
  obtain ⟨l, n, hnames, -, rfl⟩ := place?_eq_some_iff.1 (h.place?_eq_some hx)
  exact hnames.inspect_eq

theorem write_eq (hx : base.place? p = some x) (content : Bytes) :
    t.write p content = .ok (t.insert x (.file content)) := by
  obtain ⟨l, n, hnames, hfree, rfl⟩ := place?_eq_some_iff.1 (h.place?_eq_some hx)
  exact write_eq_ok_iff.2 ⟨l, n, hnames, hfree, rfl⟩

theorem remove_eq (hx : base.place? p = some x) (hfile : t.get? x = some (.file content)) :
    t.remove p = .ok (t.erase x) := by
  obtain ⟨l, n, hnames, -, rfl⟩ := place?_eq_some_iff.1 (h.place?_eq_some hx)
  exact remove_eq_ok_iff.2 ⟨l, n, content, hnames, hfile, rfl⟩

theorem exists_remove_eq_error (hp : base.place? p = none) : ∃ e, t.remove p = .error e := by
  cases hremove : t.remove p with
  | error e => exact ⟨e, rfl⟩
  | ok t' =>
    obtain ⟨l, n, content, hnames, hfile, -⟩ := remove_eq_ok_iff.1 hremove
    rw [← h.place?_eq, hnames.place?_eq (ne_directory_of_file hfile)] at hp
    cases hp

/-- No place is above another one. -/
theorem not_isAbove (hx : base.place? p = some x) (hy : base.place? q = some y) :
    isAbove x y = false := by
  obtain ⟨l, n, hnames, -, rfl⟩ := place?_eq_some_iff.1 (h.place?_eq_some hy)
  rw [← Bool.not_eq_true, isAbove, Bool.and_eq_true, List.isPrefixOf_iff_prefix,
    decide_eq_true_iff]
  rintro ⟨hinitial, hlength⟩
  refine not_directory_of_place? (h.place?_eq_some hx)
    (h.wf.get?_of_prefix hnames.directory ?_)
  rcases List.prefix_concat_iff.1 hinitial with rfl | hinitial
  · exact absurd hlength (Nat.lt_irrefl _)
  · exact hinitial

/-- A renamed file is at the other place afterwards, which may be its own. -/
theorem rename_eq (hx : base.place? p = some x) (hy : base.place? q = some y)
    (hfile : t.get? x = some (.file content)) : ∃ t', t.rename p q = .ok t' ∧
      SameDirectories base t' ∧ t'.get? y = some (.file content) ∧ (x ≠ y → t'.get? x = none) ∧
      ∀ z, z ≠ x → z ≠ y → t'.get? z = t.get? z := by
  obtain ⟨l, n, hnames, -, rfl⟩ := place?_eq_some_iff.1 (h.place?_eq_some hx)
  obtain ⟨m, k, hnames', hfree', rfl⟩ := place?_eq_some_iff.1 (h.place?_eq_some hy)
  have hrename : t.rename p q = if l ++ [n] = m ++ [k] then .ok t
      else .ok ((t.erase (l ++ [n])).insert (m ++ [k]) (.file content)) := by
    have hmove : t.checkMove (l ++ [n]) (m ++ [k]) (.file content) (t.get? (m ++ [k])) =
        .ok () := by
      unfold checkMove
      rw [h.not_isAbove hx hy, h.not_isAbove hy hx]
      rcases file_or_none_of_place? (h.place?_eq_some hy) with hnone | ⟨there, hthere⟩
      · rw [hnone]
        rfl
      · rw [hthere]
        rfl
    simp only [rename, hnames.resolveParent_eq, hnames'.resolveParent_eq, hnames.child?_eq,
      hnames'.child?_eq, hfile, hnames.endsInSlash, hnames'.endsInSlash, hmove]
    rfl
  rw [hrename]
  by_cases hsame : l ++ [n] = m ++ [k]
  · rw [if_pos hsame]
    exact ⟨t, rfl, h, hsame ▸ hfile, fun hne => absurd hsame hne, fun _ _ _ => rfl⟩
  · rw [if_neg hsame]
    refine ⟨_, rfl, (h.erase hx).insert hy content, ?_, fun _ => ?_, fun z hzx hzy => ?_⟩
    · rw [get?_insert (by simp), if_pos rfl]
    · rw [get?_insert (by simp), if_neg (Ne.symm hsame), get?_erase (by simp), if_pos rfl]
    · rw [get?_insert (by simp), if_neg (Ne.symm hzy), get?_erase (by simp), if_neg (Ne.symm hzx)]

theorem exists_rename_eq_error (hx : base.place? p = some x)
    (hfails : base.place? q = none ∨ t.get? x = none) : ∃ e, t.rename p q = .error e := by
  cases hrename : t.rename p q with
  | error e => exact ⟨e, rfl⟩
  | ok t' =>
    obtain ⟨l, n, hnames, hfree, rfl⟩ := place?_eq_some_iff.1 (h.place?_eq_some hx)
    obtain ⟨m, k, content, -, hnames', hfile, hfree', -⟩ :=
      rename_eq_ok hnames.resolveParent_eq hfree hrename
    rcases hfails with hnone | hnone
    · rw [← h.place?_eq, hnames'.place?_eq hfree'] at hnone
      cases hnone
    · rw [hfile] at hnone
      cases hnone

end SameDirectories

end FileTree

end Pagewright
