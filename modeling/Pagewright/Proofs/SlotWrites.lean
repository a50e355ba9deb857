import Pagewright.Proofs.SlotValues

/-!
# Writes to the slots of a page

A write gives a slot a text or takes the slot away. After writes a slot is as the last write to it
says, or as it was before when there is none (`PageSlots.getElem?_writeAll`).
-/

namespace Pagewright

open Std

/-- A slot and its new text, `none` when the slot is taken away. -/
structure SlotWrite where
  slot : String
  text? : Option String
  deriving DecidableEq, Repr

namespace SlotWrite

/-- The last write to a slot. -/
def last? (slot : String) (ws : List SlotWrite) : Option SlotWrite :=
  ws.findRev? (·.slot = slot)

@[simp] theorem last?_nil (slot : String) : last? slot [] = none := rfl

theorem last?_cons (slot : String) (w : SlotWrite) (ws : List SlotWrite) :
    last? slot (w :: ws) = (last? slot ws).or (if w.slot = slot then some w else none) := by
  rw [last?, List.findRev?, ← last?]
  cases last? slot ws with
  | some v => rfl
  | none => simp only [decide_eq_true_eq, Option.none_or]

theorem last?_append (slot : String) (ws vs : List SlotWrite) :
    last? slot (ws ++ vs) = (last? slot vs).or (last? slot ws) := by
  induction ws with
  | nil => rw [List.nil_append, last?_nil, Option.or_none]
  | cons w ws ih => rw [List.cons_append, last?_cons, ih, last?_cons, Option.or_assoc]

theorem mem_of_last? {slot : String} {ws : List SlotWrite} {w : SlotWrite}
    (h : last? slot ws = some w) : w ∈ ws ∧ w.slot = slot := by
  induction ws with
  | nil => cases h
  | cons v ws ih =>
    rw [last?_cons, Option.or_eq_some_iff] at h
    rcases h with h | ⟨-, h⟩
    · exact ⟨List.mem_cons_of_mem _ (ih h).1, (ih h).2⟩
    · split at h
      · next hslot =>
        obtain rfl := Option.some.inj h
        exact ⟨List.mem_cons_self, hslot⟩
      · cases h

end SlotWrite

namespace PageSlots

/-- The slots after a write. -/
def write (ps : PageSlots) (w : SlotWrite) : PageSlots :=
  match w.text? with
  | some text => { ps with values := ps.values.insert w.slot text }
  | none => { ps with values := ps.values.erase w.slot }

/-- The slots after writes, in order. -/
def writeAll (ps : PageSlots) (ws : List SlotWrite) : PageSlots :=
  ws.foldl write ps

variable (ps : PageSlots) (w : SlotWrite) (ws vs : List SlotWrite) (slot : String)

@[simp] theorem writeAll_cons : ps.writeAll (w :: ws) = (ps.write w).writeAll ws := rfl

theorem writeAll_append : ps.writeAll (ws ++ vs) = (ps.writeAll ws).writeAll vs :=
  List.foldl_append

@[simp] theorem shape_write : (ps.write w).shape = ps.shape := by
  unfold write
  split <;> rfl

@[simp] theorem source_write : (ps.write w).source = ps.source := by
  unfold write
  split <;> rfl

theorem getElem?_write :
    (ps.write w).values[slot]? = if w.slot = slot then w.text? else ps.values[slot]? := by
  unfold write
  split
  · next text h => rw [SlotValues.getElem?_insert_eq, h]
  · next h =>
    rw [h]
    simp only [ExtTreeMap.getElem?_erase, LawfulEqOrd.compare_eq_iff_eq]

@[simp] theorem shape_writeAll : (ps.writeAll ws).shape = ps.shape := by
  induction ws generalizing ps with
  | nil => rfl
  | cons w ws ih => rw [writeAll_cons, ih, shape_write]

@[simp] theorem source_writeAll : (ps.writeAll ws).source = ps.source := by
  induction ws generalizing ps with
  | nil => rfl
  | cons w ws ih => rw [writeAll_cons, ih, source_write]

/-- **The last write to a slot counts**; a slot that is not written stays as it was. -/
theorem getElem?_writeAll :
    (ps.writeAll ws).values[slot]? =
      ((SlotWrite.last? slot ws).map SlotWrite.text?).getD ps.values[slot]? := by
  induction ws generalizing ps with
  | nil => rfl
  | cons w ws ih =>
    rw [writeAll_cons, ih, getElem?_write, SlotWrite.last?_cons]
    cases SlotWrite.last? slot ws with
    | some v => rfl
    | none => by_cases h : w.slot = slot <;> simp [h]

end PageSlots

end Pagewright
