import Pagewright.Page.Slots

/-!
# Values of slots

Look-ups after the operations on the slots of a page. A page starts with the slots of its source
file and, of its shape's defaults, those with other names (`getElem?_startingSlots`).
-/

namespace Pagewright

open Std

theorem SlotValues.getElem?_insert_eq (m : SlotValues) (slot value other : String) :
    (m.insert slot value)[other]? = if slot = other then some value else m[other]? := by
  rw [ExtTreeMap.getElem?_insert]
  by_cases h : slot = other <;> simp [h]

theorem SlotValues.lookup_toList (m : SlotValues) (slot : String) :
    m.toList.lookup slot = m[slot]? := by
  cases hv : m.toList.lookup slot with
  | some v =>
    obtain ⟨l₁, l₂, hl, -⟩ := List.lookup_eq_some_iff.1 hv
    have hmem : (slot, v) ∈ m.toList := by simp [hl]
    exact (ExtTreeMap.mem_toList_iff_getElem?_eq_some.1 hmem).symm
  | none =>
    cases hw : m[slot]? with
    | none => rfl
    | some w =>
      have := List.lookup_eq_none_iff.1 hv _ (ExtTreeMap.mem_toList_iff_getElem?_eq_some.2 hw)
      simp at this

namespace PageSlots

/-- Slots are the same when they have the same shape and source and the same value at every name. -/
theorem eq_of_getElem? {ps qs : PageSlots} (hshape : ps.shape = qs.shape)
    (hsource : ps.source = qs.source)
    (hvalues : ∀ slot : String, ps.values[slot]? = qs.values[slot]?) : ps = qs := by
  obtain ⟨shape, values, source⟩ := ps
  obtain ⟨shape', values', source'⟩ := qs
  obtain rfl : shape = shape' := hshape
  obtain rfl : source = source' := hsource
  obtain rfl : values = values' := ExtTreeMap.ext_getElem? fun {slot} => hvalues slot
  rfl

theorem getElem?_sourceSlots {source : SourceFacts} {slot : String}
    (h : isSourceSlot slot = false) : (sourceSlots source)[slot]? = none := by
  simp only [isSourceSlot, Bool.or_eq_false_iff, beq_eq_false_iff_ne] at h
  obtain ⟨⟨hpath, hdirectory⟩, hname⟩ := h
  simp only [sourceSlots, SlotValues.getElem?_insert_eq, if_neg (Ne.symm hpath),
    if_neg (Ne.symm hdirectory), if_neg (Ne.symm hname), ExtTreeMap.getElem?_empty]

theorem getElem?_foldl_insert {m : SlotValues} {l : List (String × String)} {slot : String}
    (hl : l.Pairwise fun a b => ¬ compare a.1 b.1 = .eq) :
    (l.foldl (fun m d => if isSourceSlot d.1 then m else m.insert d.1 d.2) m)[slot]? =
      if isSourceSlot slot then m[slot]? else (l.lookup slot).or m[slot]? := by
  induction l generalizing m with
  | nil => simp
  | cons d l ih =>
    obtain ⟨k, v⟩ := d
    obtain ⟨hk, hl⟩ := List.pairwise_cons.1 hl
    rw [List.foldl_cons, ih hl]
    by_cases hs : isSourceSlot slot = true
    · have hstay : (if isSourceSlot k then m else m.insert k v)[slot]? = m[slot]? := by
        split
        · rfl
        · next hsk =>
          rw [SlotValues.getElem?_insert_eq, if_neg]
          rintro rfl
          exact hsk hs
      simp [hs, hstay]
    · have hkey : (l.lookup k).isSome = false := by
        rw [Option.isSome_eq_false_iff, Option.isNone_iff_eq_none, List.lookup_eq_none_iff]
        intro p hp
        have := hk p hp
        simpa using fun h => this (by simp [h])
      by_cases hks : slot = k
      · subst hks
        simp only [hs, Bool.false_eq_true, if_false, List.lookup_cons, BEq.rfl,
          SlotValues.getElem?_insert_eq, if_true]
        cases hv : l.lookup slot with
        | none => rfl
        | some w => rw [hv] at hkey; cases hkey
      · have hne : (slot == k) = false := beq_eq_false_iff_ne.2 hks
        have hstay : (if isSourceSlot k then m else m.insert k v)[slot]? = m[slot]? := by
          split
          · rfl
          · rw [SlotValues.getElem?_insert_eq, if_neg (Ne.symm hks)]
        simp only [hs, Bool.false_eq_true, if_false, List.lookup_cons, hne, hstay]

/-- A page starts with its shape's default at every name that describes no source file. -/
theorem getElem?_startingSlots {source : SourceFacts} {s : Shape} {slot : String}
    (h : isSourceSlot slot = false) : (startingSlots source s)[slot]? = s.defaults[slot]? := by
  rw [startingSlots, ExtTreeMap.foldl_eq_foldl_toList,
    getElem?_foldl_insert ExtTreeMap.distinct_keys_toList, h, getElem?_sourceSlots h]
  rw [if_neg Bool.false_ne_true, Option.or_none, SlotValues.lookup_toList]

/-- No default of a shape takes the place of a slot that describes the source file. -/
theorem getElem?_startingSlots_of_isSourceSlot {source : SourceFacts} {s : Shape} {slot : String}
    (h : isSourceSlot slot = true) :
    (startingSlots source s)[slot]? = (sourceSlots source)[slot]? := by
  rw [startingSlots, ExtTreeMap.foldl_eq_foldl_toList,
    getElem?_foldl_insert ExtTreeMap.distinct_keys_toList, h, if_pos rfl]

end PageSlots

end Pagewright
