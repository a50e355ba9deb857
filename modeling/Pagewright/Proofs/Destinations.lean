import Pagewright.Proofs.Trails
import Pagewright.Proofs.TreeOperations

/-!
# Destinations

The `destination` of a path is where its steps lead, whether or not there is anything. An operation
that succeeds changes the tree at the destinations of its paths and, when a directory is renamed,
below them (`rename_eq_renamed`, `get?_moveAll`). So a file stays with all the directories above it
as long as it is no destination of a change and in no directory that is renamed (`HoldsFile`).
-/

namespace Pagewright

open Text

namespace FileTree

variable {t t' : FileTree} {p q : Path} {l m x y : Location} {n : String} {content : Bytes}

/-- The location at the end of a path. -/
def destination (t : FileTree) (p : Path) : Location :=
  arrival (t.origin p) (stepsOf p)

theorem destination_eq (h : t'.workingDirectory = t.workingDirectory) (p : Path) :
    t'.destination p = t.destination p := by
  rw [destination, destination, origin, origin, h]

theorem arrival_append {ss ss' : List String} :
    arrival l (ss ++ ss') = arrival (arrival l ss) ss' :=
  List.foldl_append

theorem destination_of_resolveParent (h : t.resolveParent p = .ok (l, .name n)) :
    t.destination p = l ++ [n] := by
  obtain ⟨-, ⟨before, hsteps, hwalk⟩, -, hhere, hup⟩ := resolveParent_eq_name h
  rw [destination, hsteps, arrival_append, ← walk_eq_arrival hwalk, arrival_cons, arrival_nil,
    stepTo, if_neg hhere, if_neg hup]

theorem Names.destination_eq (h : t.Names p l n) : t.destination p = l ++ [n] :=
  destination_of_resolveParent h.resolveParent_eq

theorem get?_of_read (h : t.read p = .ok content) :
    t.get? (t.destination p) = some (.file content) := by
  unfold read at h
  split at h
  · next hresolve =>
    cases h
    obtain ⟨rfl, hfile⟩ := arrival_of_resolve hresolve
    exact hfile
  · cases h
  · cases h

/-! ## Changes at destinations -/

theorem write_eq_ok (h : t.write p content = .ok t') : t.destination p ≠ [] ∧
    t.get? (t.destination p) ≠ some .directory ∧
      t' = t.insert (t.destination p) (.file content) := by
  obtain ⟨l, n, hnames, hfree, rfl⟩ := write_eq_ok_iff.1 h
  rw [hnames.destination_eq]
  exact ⟨by simp, hfree, rfl⟩

theorem remove_eq_ok (h : t.remove p = .ok t') : t.destination p ≠ [] ∧
    t.get? (t.destination p) ≠ some .directory ∧ t' = t.erase (t.destination p) := by
  obtain ⟨l, n, content, hnames, hfile, rfl⟩ := remove_eq_ok_iff.1 h
  rw [hnames.destination_eq]
  exact ⟨by simp, ne_directory_of_file hfile, rfl⟩

theorem makeDirectory_eq_insert (h : t.makeDirectory p = .ok t') : t.destination p ≠ [] ∧
    t.get? (t.destination p) = none ∧ t' = t.insert (t.destination p) .directory := by
  obtain ⟨l, n, hparent, hnone, rfl⟩ := makeDirectory_eq_ok h
  rw [destination_of_resolveParent hparent]
  exact ⟨by simp, hnone, rfl⟩

/-- What a renaming that succeeds makes of a tree when it goes from `x` to `y`. -/
inductive Renamed (t : FileTree) (x y : Location) : FileTree → Prop
  | same (here : x = y) : Renamed t x y t
  | file {content : Bytes} (other : x ≠ y) (moved : t.get? x = some (.file content))
      (free : t.get? y ≠ some .directory) :
      Renamed t x y ((t.erase x).insert y (.file content))
  | directory (moved : t.get? x = some .directory) (outside : ¬ x <+: y) (apart : ¬ y <+: x)
      (empty : t.get? y = some .directory → t.hasChildren y = false) :
      Renamed t x y ((t.erase y).moveAll x y)

theorem isAbove_iff : isAbove l m = true ↔ l <+: m ∧ l ≠ m := by
  rw [isAbove, Bool.and_eq_true, List.isPrefixOf_iff_prefix, decide_eq_true_iff]
  constructor
  · rintro ⟨hinitial, hlength⟩
    refine ⟨hinitial, ?_⟩
    rintro rfl
    exact Nat.lt_irrefl _ hlength
  · rintro ⟨hinitial, hne⟩
    refine ⟨hinitial, Nat.lt_of_le_of_ne hinitial.length_le fun hlength => hne ?_⟩
    exact hinitial.eq_of_length hlength

theorem get?_of_child? {e : Option Entry} (h : t.child? l n = .ok e) : t.get? (l ++ [n]) = e := by
  unfold child? at h
  split at h
  · cases h
  · exact Except.ok.inj h

theorem renamed_of_checkMove {e : Entry} (hx : t.get? x = some e) (hne : x ≠ y)
    (h : t.checkMove x y e (t.get? y) = .ok ()) :
    Renamed t x y (match e with
      | .file content => (t.erase x).insert y (.file content)
      | .directory => (t.erase y).moveAll x y) := by
  unfold checkMove at h
  split at h
  · cases h
  · next hxy =>
    split at h
    · cases h
    · next hyx =>
      cases e with
      | file content =>
        refine .file hne hx fun hdirectory => ?_
        rw [hdirectory] at h
        cases h
      | directory =>
        refine .directory hx (fun hinitial => hxy (isAbove_iff.2 ⟨hinitial, hne⟩))
          (fun hinitial => hyx (isAbove_iff.2 ⟨hinitial, Ne.symm hne⟩)) fun hdirectory => ?_
        rw [hdirectory] at h
        simp only at h
        split at h
        · cases h
        · next hempty => exact Bool.eq_false_iff.2 hempty

theorem rename_eq_renamed (h : t.rename p q = .ok t') : t.destination p ≠ [] ∧
    t.destination q ≠ [] ∧ Renamed t (t.destination p) (t.destination q) t' := by
  unfold rename at h
  split at h
  · cases h
  · next l source hp =>
    split at h
    · cases h
    · next m target hq =>
      split at h
      · next n k =>
        rw [destination_of_resolveParent hp, destination_of_resolveParent hq]
        refine ⟨by simp, by simp, ?_⟩
        split at h
        · cases h
        · cases h
        · next e hchild =>
          split at h
          · cases h
          · next there hthere =>
            obtain rfl := get?_of_child? hthere
            split at h
            · cases h
            · split at h
              · next hsame =>
                cases h
                exact .same hsame
              · next hother =>
                split at h
                · cases h
                · next hmove =>
                  have hrenamed := renamed_of_checkMove (get?_of_child? hchild) hother hmove
                  cases e <;> cases h <;> exact hrenamed
      · cases h

/-! ## Moving directories -/

section Move

variable {f : Location → Location} {acc : Std.ExtTreeMap Location Entry}
  {entries : List (Location × Entry)} {e : Entry}

theorem getElem?_foldl_of_ne (h : ∀ d ∈ entries, f d.1 ≠ m) :
    (entries.foldl (fun acc d => acc.insert (f d.1) d.2) acc)[m]? = acc[m]? := by
  induction entries generalizing acc with
  | nil => rfl
  | cons d entries ih =>
    obtain ⟨hd, hrest⟩ := List.forall_mem_cons.1 h
    rw [List.foldl_cons, ih hrest, Std.ExtTreeMap.getElem?_insert, if_neg]
    exact fun heq => hd (Std.LawfulEqCmp.eq_of_compare heq)

/-- What all entries that go to a place agree on is there afterwards. -/
theorem getElem?_foldl_of_mem (hmem : ∃ d ∈ entries, f d.1 = m)
    (hone : ∀ d ∈ entries, f d.1 = m → d.2 = e) :
    (entries.foldl (fun acc d => acc.insert (f d.1) d.2) acc)[m]? = some e := by
  induction entries generalizing acc with
  | nil => simp at hmem
  | cons d entries ih =>
    obtain ⟨hd, hrest⟩ := List.forall_mem_cons.1 hone
    rw [List.foldl_cons]
    by_cases hlater : ∃ d ∈ entries, f d.1 = m
    · exact ih hlater hrest
    · have hdm : f d.1 = m := by
        obtain ⟨d', hmem', hd'⟩ := hmem
        rcases List.mem_cons.1 hmem' with rfl | hmem'
        · exact hd'
        · exact absurd ⟨d', hmem', hd'⟩ hlater
      rw [getElem?_foldl_of_ne fun d hd heq => hlater ⟨d, hd, heq⟩,
        Std.ExtTreeMap.getElem?_insert, if_pos (by rw [hdm]; exact Std.ReflCmp.compare_self),
        hd hdm]

/-- Where a location goes when `x` is moved to `y`. -/
def movedTo (x y l : Location) : Location :=
  if x.isPrefixOf l then y ++ l.drop x.length else l

theorem movedTo_of_initial (h : x <+: l) : movedTo x y l = y ++ l.drop x.length :=
  if_pos (List.isPrefixOf_iff_prefix.2 h)

theorem movedTo_of_not_initial (h : ¬ x <+: l) : movedTo x y l = l :=
  if_neg fun hinitial => h (List.isPrefixOf_iff_prefix.1 hinitial)

theorem entries_moveAll (t : FileTree) (x y : Location) : (t.moveAll x y).entries =
    t.entries.toList.foldl (fun acc d => acc.insert (movedTo x y d.1) d.2) ∅ := by
  have hstep : (fun (acc : Std.ExtTreeMap Location Entry) l e =>
      if x.isPrefixOf l then acc.insert (y ++ l.drop x.length) e else acc.insert l e) =
      fun acc l e => acc.insert (movedTo x y l) e := by
    funext acc l e
    unfold movedTo
    split <;> rfl
  rw [moveAll, hstep, Std.ExtTreeMap.foldl_eq_foldl_toList]

theorem mem_toList_entries_iff (hl : l ≠ []) :
    (l, e) ∈ t.entries.toList ↔ t.get? l = some e := by
  rw [Std.ExtTreeMap.mem_toList_iff_getElem?_eq_some, get?, if_neg hl]

/-- Elsewhere than at the place that a directory is moved to, and below it, a tree is as it was, but
for what was moved. -/
theorem get?_moveAll (hx : x ≠ []) (hm : ¬ y <+: m) :
    (t.moveAll x y).get? m = if x <+: m then none else t.get? m := by
  by_cases hroot : m = []
  · subst hroot
    rw [if_neg (by simpa using hx)]
    rfl
  have hmoved : ∀ l, movedTo x y l = m → ¬ x <+: l ∧ l = m := by
    intro l hl
    by_cases hxl : x <+: l
    · rw [movedTo_of_initial hxl] at hl
      exact absurd ⟨_, hl⟩ hm
    · rw [movedTo_of_not_initial hxl] at hl
      exact ⟨hxl, hl⟩
  rw [get?, if_neg hroot, entries_moveAll]
  split
  · next hxm =>
    rw [getElem?_foldl_of_ne, Std.ExtTreeMap.getElem?_empty]
    intro d _ hd
    obtain ⟨hxl, rfl⟩ := hmoved d.1 hd
    exact hxl hxm
  · next hxm =>
    cases he : t.get? m with
    | none =>
      rw [getElem?_foldl_of_ne, Std.ExtTreeMap.getElem?_empty]
      rintro ⟨l, e⟩ hd hl
      obtain ⟨-, rfl⟩ := hmoved l hl
      rw [mem_toList_entries_iff hroot, he] at hd
      cases hd
    | some e =>
      refine getElem?_foldl_of_mem ⟨(m, e), (mem_toList_entries_iff hroot).2 he,
        movedTo_of_not_initial hxm⟩ ?_
      rintro ⟨l, e'⟩ hd hl
      obtain ⟨-, rfl⟩ := hmoved l hl
      rw [mem_toList_entries_iff hroot, he] at hd
      exact (Option.some.inj hd).symm

/-- What is moved arrives. -/
theorem get?_moveAll_self (hx : x ≠ []) (hy : y ≠ []) (he : t.get? x = some e)
    (hfree : t.get? y = none) : (t.moveAll x y).get? y = some e := by
  rw [get?, if_neg hy, entries_moveAll]
  refine getElem?_foldl_of_mem ⟨(x, e), (mem_toList_entries_iff hx).2 he, ?_⟩ ?_
  · rw [movedTo_of_initial List.prefix_rfl, List.drop_length, List.append_nil]
  · rintro ⟨l, e'⟩ hd hl
    by_cases hxl : x <+: l
    · obtain ⟨rest, rfl⟩ := hxl
      rw [movedTo_of_initial (List.prefix_append x rest), List.drop_left] at hl
      obtain rfl : rest = [] := by simpa using hl
      rw [List.append_nil, mem_toList_entries_iff hx, he] at hd
      exact (Option.some.inj hd).symm
    · rw [movedTo_of_not_initial hxl] at hl
      subst hl
      rw [mem_toList_entries_iff hy, hfree] at hd
      cases hd

end Move

namespace Renamed

theorem workingDirectory_eq (h : Renamed t x y t') : t'.workingDirectory = t.workingDirectory := by
  cases h <;> rfl

/-- A directory that is renamed is at the other place afterwards, and gone from its own. -/
theorem of_directory (h : Renamed t x y t') (hx : x ≠ []) (hy : y ≠ [])
    (hdirectory : t.get? x = some .directory) :
    t'.get? y = some .directory ∧ (x ≠ y → t'.get? x = none) := by
  cases h with
  | same here =>
    subst here
    exact ⟨hdirectory, fun hne => absurd rfl hne⟩
  | file other moved free =>
    rw [hdirectory] at moved
    cases moved
  | directory moved outside apart empty =>
    have hyx : y ≠ x := fun heq => apart (heq ▸ List.prefix_rfl)
    refine ⟨get?_moveAll_self hx hy ?_ ?_, fun _ => ?_⟩
    · rw [get?_erase hy, if_neg hyx, moved]
    · rw [get?_erase hy, if_pos rfl]
    · rw [get?_moveAll hx apart, if_pos List.prefix_rfl]

end Renamed

/-! ## Files that stay -/

/-- A file, in directories all the way down. -/
structure HoldsFile (t : FileTree) (m : Location) (content : Bytes) : Prop where
  file : t.get? m = some (.file content)
  above : ∀ l, l <+: m → l ≠ m → t.get? l = some .directory

theorem WF.holdsFile (hwf : t.WF) (h : t.get? m = some (.file content)) :
    t.HoldsFile m content := by
  refine ⟨h, fun l hl hne => ?_⟩
  rcases List.eq_nil_or_concat m with rfl | ⟨m', n, rfl⟩
  · cases h
  · rw [List.concat_eq_append] at h hl hne
    rcases List.prefix_concat_iff.1 hl with rfl | hl
    · exact absurd rfl hne
    · exact hwf.get?_of_prefix (hwf m' n _ h) hl

namespace HoldsFile

variable (h : t.HoldsFile m content)

include h

theorem of_keepsDirectories (hkeeps : KeepsDirectories t t')
    (hfile : t'.get? m = some (.file content)) : t'.HoldsFile m content :=
  ⟨hfile, fun l hl hne => hkeeps.directory l (h.above l hl hne)⟩

/-- Nothing but a directory is above the file. -/
theorem not_above (hx : t.get? x ≠ some .directory) (hne : x ≠ m) : ¬ x <+: m :=
  fun hinitial => hx (h.above x hinitial hne)

theorem write {part : Bytes} (hwrite : t.write p part = .ok t') (hne : t.destination p ≠ m) :
    t'.HoldsFile m content := by
  obtain ⟨hroot, hfree, rfl⟩ := write_eq_ok hwrite
  refine h.of_keepsDirectories (.insert hroot (.inl hfree)) ?_
  rw [get?_insert hroot, if_neg hne, h.file]

theorem remove (hremove : t.remove p = .ok t') (hne : t.destination p ≠ m) :
    t'.HoldsFile m content := by
  obtain ⟨hroot, hfree, rfl⟩ := remove_eq_ok hremove
  refine h.of_keepsDirectories (.erase hroot hfree) ?_
  rw [get?_erase hroot, if_neg hne, h.file]

/-- No directory above a file is replaced. -/
theorem not_prefix_of_renamed (hrenamed : Renamed t x y t') (hx : ¬ x <+: m) (hy : y ≠ m) :
    ¬ y <+: m := by
  cases hrenamed with
  | same here => exact here ▸ hx
  | file other moved free => exact h.not_above free hy
  | directory moved outside apart empty =>
    intro hinitial
    have hchildren := empty (h.above y hinitial hy)
    rw [hasChildren, List.any_eq_false] at hchildren
    refine hchildren m ?_ (isAbove_iff.2 ⟨hinitial, hy⟩)
    have hroot : m ≠ [] := by
      rintro rfl
      exact hy (List.prefix_nil.1 hinitial)
    have hfile := h.file
    rw [get?, if_neg hroot] at hfile
    exact Std.ExtTreeMap.mem_keys.2 (Std.ExtTreeMap.mem_iff_isSome_getElem?.2 (by rw [hfile]; rfl))

theorem renamed (hrenamed : Renamed t x y t') (hroot : x ≠ []) (hroot' : y ≠ [])
    (hx : ¬ x <+: m) (hy : y ≠ m) : t'.HoldsFile m content := by
  have hy' := h.not_prefix_of_renamed hrenamed hx hy
  have hxm : x ≠ m := fun heq => hx (heq ▸ List.prefix_rfl)
  cases hrenamed with
  | same here => exact h
  | file other moved free =>
    refine h.of_keepsDirectories (.move hroot hroot' other (by rw [moved]; nofun) free _) ?_
    rw [get?_insert hroot', if_neg hy, get?_erase hroot, if_neg hxm, h.file]
  | directory moved outside apart empty =>
    have hkept : ∀ l, l <+: m → ((t.erase y).moveAll x y).get? l = t.get? l := by
      intro l hl
      have hxl : ¬ x <+: l := fun hinitial => hx (hinitial.trans hl)
      have hyl : ¬ y <+: l := fun hinitial => hy' (hinitial.trans hl)
      have hne : y ≠ l := fun heq => hyl (heq ▸ List.prefix_rfl)
      rw [get?_moveAll hroot hyl, if_neg hxl, get?_erase hroot', if_neg hne]
    exact ⟨(hkept m List.prefix_rfl).trans h.file, fun l hl hne =>
      (hkept l hl).trans (h.above l hl hne)⟩

end HoldsFile

end FileTree

end Pagewright
