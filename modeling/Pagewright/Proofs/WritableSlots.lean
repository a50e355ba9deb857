import Pagewright.Proofs.FailedReadings
import Pagewright.Proofs.FormTexts

/-!
# Slots that directives and pages agree on

What a slot may be called is decided twice. A page refuses names that are no identifiers, keywords and
the slots that describe the source file. A line is matched to an identifier, and the checks refuse
keywords and these slots there. The two agree on every text (`set_iff_recognised`): also where a line
reads more, or less, than the text between its brackets. So two errors never come up. No line is
refused for a name that is no slot name, as the names that are matched are identifiers
(`Directive.ofLine_ne_noSlotName`), and no document because its page refuses a slot
(`Fails.ne_slot`).
-/

namespace Pagewright

open Text
open Directive (ofLine)

/-! ## Names on lines -/

namespace Directive

theorem check_ne_noSlotName {d : Directive} (h : d.WF) (name : String) :
    d.check ≠ .error (.noSlotName name) := by
  have hform : d.checkForm ≠ .error (.noSlotName name) := by
    unfold checkForm checkNoArgument
    cases d.kind <;> cases d.value <;> cases d.isOneLine <;> cases d.startsSection <;>
      cases d.endsComment <;> cases d.endsSection <;> cases d.startsComment <;> simp
  unfold check
  split
  · next hrefused =>
    -- An identifier that is no keyword is a slot name.
    simp only [Bool.and_eq_true, beq_iff_eq, Bool.not_eq_true'] at hrefused
    rw [namesSlot_iff.2 ⟨h.name, hrefused.1⟩] at hrefused
    cases hrefused.2
  · split
    · nofun
    · split
      · nofun
      · split
        · nofun
        · split
          · nofun
          · exact hform

/-- **No line is refused for a name that is no slot name.** -/
theorem ofLine_ne_noSlotName (line name : String) : ofLine line ≠ .error (.noSlotName name) := by
  intro h
  unfold ofLine at h
  cases hmatch : match? line with
  | none => rw [hmatch] at h; cases h
  | some d =>
    cases hmarked : d.isMarked with
    | false => simp [hmatch, hmarked] at h
    | true =>
      cases hcheck : d.check with
      | ok u => simp [hmatch, hmarked, hcheck, Except.map] at h
      | error v =>
        simp only [hmatch, hmarked, hcheck, Except.map, ite_true] at h
        obtain rfl := Except.error.inj h
        exact check_ne_noSlotName (wf_of_match? hmatch) name hcheck

/-- The line that refers to a slot is recognised as that when the slot may be written. -/
theorem ofLine_reference_iff {name : String} :
    (∃ d, ofLine ("<!-- [" ++ name ++ "] -->") = .ok (some d) ∧ d.addressesSlot = true ∧
      d.name = name) ↔ IsWritable name := by
  constructor
  · rintro ⟨d, hline, hslot, rfl⟩
    have hlawful := lawful_of_ofLine hline
    rw [hlawful.addressesSlot_eq, beq_iff_eq] at hslot
    exact hlawful.isWritable hslot
  · intro h
    rw [← text_reference]
    exact ⟨_, (lawful_reference h).ofLine_text, rfl, rfl⟩

end Directive

/-! ## Slots of documents -/

variable {shapes : ShapeTable} {path : Path} {ls : List String} {D : Draft} {n : Nat}

/-- The slot of a component of the kind, if it is one, may be written. -/
def ComponentKind.MayBeWritten : ComponentKind → Prop
  | .slot name _ => IsWritable name
  | _ => True

namespace Component

theorem mayBeWritten_kindOf {line : String} {d : Directive} (h : ofLine line = .ok (some d)) :
    (kindOf d).MayBeWritten := by
  unfold kindOf
  cases hk : d.kind with
  | slot => exact isWritable_of_ofLine h hk
  | script => trivial
  | shape => trivial

variable {c : Component} {page : Page} {refusal : SlotRefusal}

theorem effect_ne_slot (hc : c.kind.MayBeWritten) :
    c.effect shapes page ≠ .error (.slot refusal) := by
  intro h
  unfold effect at h
  cases hk : c.kind with
  | plainText => rw [hk] at h; cases h
  | script keyword => rw [hk] at h; cases h
  | shapeChoice keyword identifier =>
    rw [hk] at h
    cases hs : shapes.get? identifier <;> simp [hs] at h
  | slot name display =>
    rw [hk] at h hc
    simp [PageSlots.set_eq_ok hc] at h

theorem checkClosing_ne_slot (e : Directive) : c.checkClosing e ≠ .error (.slot refusal) := by
  intro h
  unfold checkClosing at h
  split at h
  · cases h
  · split at h
    · split at h <;> cases h
    · split at h <;> cases h
    · cases h

theorem closeBy_ne_slot (hc : c.kind.MayBeWritten) (e : Directive) :
    (c.closeBy shapes e page).2 ≠ .error (.slot refusal) := by
  unfold closeBy
  cases hcheck : c.checkClosing e with
  | ok u => exact effect_ne_slot (c := c.withText) hc
  | error error =>
    intro h
    obtain rfl := Except.error.inj h
    exact checkClosing_ne_slot e hcheck

end Component

/-- The open component of a reading is one that a directive opened, or plain text. -/
theorem Held.mayBeWritten (h : Held shapes path ls D) :
    ∀ c ∈ D.settle.current, c.kind.MayBeWritten := by
  obtain ⟨bs, rest, -, hreached, -⟩ := h.settle
  have hpending := hreached.pending
  intro c hc
  rw [Option.mem_def.1 hc] at hpending
  cases hpending with
  | plainText => trivial
  | opened opens => exact Component.mayBeWritten_kindOf opens

/-- A line is never refused because the page refuses a slot. -/
theorem Held.not_refuses_slot {line : String} {refusal : SlotRefusal}
    (h : Held shapes path ls D) : ¬ D.Refuses shapes n line (.component (.slot refusal)) := by
  intro hrefuses
  cases hrefuses with
  | closing reads current ends refused =>
    exact Component.closeBy_ne_slot (h.mayBeWritten _ current) _ refused
  | oneLine reads current oneLine refused =>
    exact Component.effect_ne_slot (Component.mayBeWritten_kindOf reads) refused

/-- **No reading fails because the page refuses a slot.** -/
theorem Fails.ne_slot {e : DocumentError} (h : Fails shapes path ls e) (refusal : SlotRefusal) :
    e.fault ≠ .component (.slot refusal) := by
  cases h with
  | atLine _ read refused =>
    intro hfault
    obtain ⟨-, -, hrefuses⟩ := Draft.addLine_eq_error_iff.1 refused
    rw [hfault] at hrefuses
    exact (Held.empty.addLines read).not_refuses_slot hrefuses
  | atEnd => nofun

/-- **Directives and pages agree on what a slot is**: a slot may be set exactly when the line that
refers to it is recognised as a directive for this slot. So no line has a name that is no slot name,
and no document a slot that its page refuses. -/
theorem set_iff_recognised (ps : PageSlots) (name value : String) :
    ((∃ qs, ps.set name value = .ok qs) ↔
        ∃ d, ofLine ("<!-- [" ++ name ++ "] -->") = .ok (some d) ∧ d.addressesSlot = true ∧
          d.name = name) ∧
      (∀ line other, ofLine line ≠ .error (.noSlotName other)) ∧
      ∀ shapes path source number line refusal,
        Document.parse shapes path source ≠ .error ⟨number, line, .component (.slot refusal)⟩ := by
  refine ⟨?_, Directive.ofLine_ne_noSlotName, ?_⟩
  · rw [Directive.ofLine_reference_iff]
    exact ⟨fun ⟨_, h⟩ => PageSlots.isWritable_of_set h, fun h => ⟨_, PageSlots.set_eq_ok h ps value⟩⟩
  · intro shapes path source number line refusal h
    exact (ofLines_eq_error_iff.1 h).ne_slot refusal rfl

/-- A blank after the name belongs to the line, not to the name. -/
example : ofLine ("<!-- [" ++ "title " ++ "] -->") = .ok (some (.reference "title")) := by
  decide +kernel

end Pagewright
