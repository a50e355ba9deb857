import Mathlib.Data.List.Induction
import Mathlib.Data.List.Nodup
import Mathlib.Data.List.Perm.Basic
import Mathlib.Data.String.Basic
import Pagewright.Json.Reader
import Pagewright.Proofs.ByteOrder

/-!
# The members of an object in order

The members of a JSON object count in increasing order of the bytes of their keys, whatever their
order in the text, and of several members with one key the last one in the text counts
(`SortsMembers`). A text has these members and no others when it is read as an object
(`parseObject_eq_ok_iff`).
-/

namespace Pagewright.Json

open Text

/-- Members in increasing order of the bytes of their keys, with each key the value that is written
last for it. -/
structure SortsMembers (written ms : List (String × Json)) : Prop where
  increasing : ms.Pairwise fun m m' => Utf8.encode m.1 < Utf8.encode m'.1
  last : ∀ key, ms.lookup key = written.reverse.lookup key

/-! ## Inserting a member -/

theorem lookup_cons_ite (key k : String) (v : Json) (ms : List (String × Json)) :
    ((k, v) :: ms).lookup key = if key = k then some v else ms.lookup key := by
  by_cases h : key = k
  · subst h
    rw [List.lookup_cons_self, if_pos rfl]
  · rw [List.lookup_cons, beq_eq_false_iff_ne.2 h, if_neg h]

section Insert

variable {key other : String} {value : Json} {ms : List (String × Json)}

/-- The new member counts for its key, the others stay. -/
theorem lookup_insertMember : (insertMember key value ms).lookup other =
    if other = key then some value else ms.lookup other := by
  induction ms with
  | nil => rw [insertMember, lookup_cons_ite]
  | cons m ms ih =>
    obtain ⟨k, v⟩ := m
    rw [insertMember]
    cases hcompare : compare key k with
    | lt => exact lookup_cons_ite other key value _
    | eq =>
      obtain rfl := compare_eq_iff_eq.1 hcompare
      simp only [lookup_cons_ite]
      by_cases h : other = key <;> simp [h]
    | gt =>
      have hne : k ≠ key := (compare_gt_iff_gt.1 hcompare).ne
      simp only [lookup_cons_ite, ih]
      by_cases h : other = k
      · subst h
        simp [hne]
      · simp [h]

theorem eq_or_mem_of_mem_insertMember {m : String × Json} (h : m ∈ insertMember key value ms) :
    m = (key, value) ∨ m ∈ ms := by
  induction ms with
  | nil => exact .inl (List.mem_singleton.1 h)
  | cons m' ms ih =>
    rw [insertMember] at h
    split at h
    · exact List.mem_cons.1 h
    · exact (List.mem_cons.1 h).imp_right (List.mem_cons_of_mem _)
    · rcases List.mem_cons.1 h with rfl | h
      · exact .inr List.mem_cons_self
      · exact (ih h).imp_right (List.mem_cons_of_mem _)

theorem pairwise_insertMember (h : ms.Pairwise fun m m' => m.1 < m'.1) :
    (insertMember key value ms).Pairwise fun m m' => m.1 < m'.1 := by
  induction ms with
  | nil => exact List.pairwise_singleton _ _
  | cons m ms ih =>
    obtain ⟨k, v⟩ := m
    obtain ⟨hk, hms⟩ := List.pairwise_cons.1 h
    rw [insertMember]
    cases hcompare : compare key k with
    | lt =>
      have hlt : key < k := compare_lt_iff_lt.1 hcompare
      refine List.pairwise_cons.2 ⟨fun m hm => ?_, h⟩
      rcases List.mem_cons.1 hm with rfl | hm
      · exact hlt
      · exact lt_trans hlt (hk m hm)
    | eq =>
      obtain rfl := compare_eq_iff_eq.1 hcompare
      exact List.pairwise_cons.2 ⟨hk, hms⟩
    | gt =>
      have hlt : k < key := compare_gt_iff_gt.1 hcompare
      refine List.pairwise_cons.2 ⟨fun m hm => ?_, ih hms⟩
      rcases eq_or_mem_of_mem_insertMember hm with rfl | hm
      · exact hlt
      · exact hk m hm

end Insert

/-! ## Sorting -/

theorem sortMembers_concat (written : List (String × Json)) (m : String × Json) :
    sortMembers (written ++ [m]) = insertMember m.1 m.2 (sortMembers written) := by
  rw [sortMembers, List.foldl_concat, sortMembers]

theorem pairwise_sortMembers (written : List (String × Json)) :
    (sortMembers written).Pairwise fun m m' => m.1 < m'.1 := by
  induction written using List.reverseRecOn with
  | nil => exact .nil
  | append_singleton written m ih =>
    rw [sortMembers_concat]
    exact pairwise_insertMember ih

theorem lookup_sortMembers (key : String) (written : List (String × Json)) :
    (sortMembers written).lookup key = written.reverse.lookup key := by
  induction written using List.reverseRecOn with
  | nil => rfl
  | append_singleton written m ih =>
    rw [sortMembers_concat, lookup_insertMember, List.reverse_concat, lookup_cons_ite, ih]

theorem sortsMembers_sortMembers (written : List (String × Json)) :
    SortsMembers written (sortMembers written) where
  increasing := (pairwise_sortMembers written).imp Utf8.encode_lt_encode
  last key := lookup_sortMembers key written

/-- In an object whose keys increase every member is found by its key. -/
theorem mem_iff_member? {ms : List (String × Json)} {key : String} {value : Json}
    (h : ms.Pairwise fun m m' => Utf8.encode m.1 < Utf8.encode m'.1) :
    (key, value) ∈ ms ↔ (object ms).member? key = some value := by
  rw [member?]
  induction ms with
  | nil => simp
  | cons m ms ih =>
    obtain ⟨k, v⟩ := m
    obtain ⟨hk, hms⟩ := List.pairwise_cons.1 h
    have hmem : (key, value) ∈ ms ↔ ms.lookup key = some value := ih hms
    rw [lookup_cons_ite, List.mem_cons, Prod.mk.injEq]
    by_cases hkey : key = k
    · subst hkey
      have hnot : (key, value) ∉ ms := fun h => List.lt_irrefl _ (hk (key, value) h)
      simp [hnot, eq_comm]
    · simp [hkey, hmem]

/-- A member stands for its key alone. -/
theorem SortsMembers.mem_iff {written ms : List (String × Json)} (h : SortsMembers written ms)
    {key : String} {value : Json} :
    (key, value) ∈ ms ↔ written.reverse.lookup key = some value := by
  rw [mem_iff_member? h.increasing, member?, h.last]

theorem SortsMembers.unique {written ms ms' : List (String × Json)} (h : SortsMembers written ms)
    (h' : SortsMembers written ms') : ms = ms' := by
  have hnodup : ∀ {l}, SortsMembers written l → l.Nodup := fun hl =>
    hl.increasing.imp fun {m m'} hlt (heq : m = m') => List.lt_irrefl _ (heq ▸ hlt)
  have hperm : ms.Perm ms' := (List.perm_ext_iff_of_nodup (hnodup h) (hnodup h')).2
    fun _ => h.mem_iff.trans h'.mem_iff.symm
  exact hperm.eq_of_pairwise (fun _ _ _ _ hlt hgt => absurd hgt (List.lt_asymm hlt))
    h.increasing h'.increasing

/-- **A text is read as an object** with the members that it writes, in order. -/
theorem parseObject_eq_ok_iff {s : String} {ms : List (String × Json)} : parseObject s = .ok ms ↔
    ∃ written, writtenMembers s = .ok written ∧ SortsMembers written ms := by
  unfold parseObject
  cases writtenMembers s with
  | error fault => exact iff_of_false nofun fun ⟨_, h, _⟩ => nomatch h
  | ok written =>
    constructor
    · rintro ⟨⟩
      exact ⟨written, rfl, sortsMembers_sortMembers written⟩
    · rintro ⟨_, ⟨⟩, h⟩
      exact congrArg Except.ok ((sortsMembers_sortMembers written).unique h)

theorem parseObject_eq_error_iff {s : String} {fault : Fault} :
    parseObject s = .error fault ↔ writtenMembers s = .error fault := by
  unfold parseObject
  cases writtenMembers s <;> simp [Except.map]

end Pagewright.Json
