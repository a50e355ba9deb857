import Pagewright.Proofs.NormalSpacing

/-!
# Recognised lines

A line is plain text (`IsPlain`), a lawful directive or an error. The checks of a directive come down
to conditions on its name and its marks (`check_eq_ok_iff`, `checkForm_eq_ok_iff`), and a lawful
directive in its normal spacing is recognised as itself (`ofLine_text`).
-/

namespace Pagewright.Directive

/-- A line that is no directive. -/
def IsPlain (line : String) : Prop :=
  ofLine line = .ok none

instance : DecidablePred IsPlain := fun line =>
  match h : ofLine line with
  | .ok none => .isTrue h
  | .ok (some d) => .isFalse fun hp => by rw [IsPlain, h] at hp; cases hp
  | .error v => .isFalse fun hp => by rw [IsPlain, h] at hp; cases hp

/-! ## What the checks ask for -/

theorem startsSection_of_isOneLine {d : Directive} (h : d.isOneLine = true) :
    d.startsSection = true :=
  (Bool.and_eq_true_iff.1 h).1

theorem checkNoArgument_eq_ok_iff {d : Directive} : d.checkNoArgument = .ok () ↔ d.value = none := by
  unfold checkNoArgument
  cases d.value <;> simp

/-- The conditions on the form, kind by kind. -/
theorem checkForm_eq_ok_iff {d : Directive} : d.checkForm = .ok () ↔
    match d.kind with
    | .slot => d.value = none
    | .script => d.isOneLine = false ∧ d.value = none ∧
        (d.startsSection = true → d.endsComment = false) ∧
        (d.endsSection = true → d.startsComment = false)
    | .shape => d.isOneLine = true ∧ d.value.isSome = true := by
  unfold checkForm
  cases d.kind with
  | slot => exact checkNoArgument_eq_ok_iff
  | script =>
    cases d.isOneLine <;> cases hv : d.value <;> cases d.startsSection <;> cases d.endsComment <;>
      cases d.endsSection <;> cases d.startsComment <;> simp [checkNoArgument, hv]
  | shape => cases d.isOneLine <;> cases d.value <;> simp

/-- The conditions on the name and the marks, before those on the form. -/
theorem check_eq_ok_iff {d : Directive} : d.check = .ok () ↔
    (d.kind = .slot → namesSlot d.name = true ∧ isSourceSlot d.name = false) ∧
      (d.isOneLine = true → d.startsComment = true ∧ d.endsComment = true) ∧
      (d.startsSection = false → d.endsComment = true) ∧
      (d.endsSection = false → d.startsComment = true) ∧ d.checkForm = .ok () := by
  unfold check isOneLine
  cases hk : d.kind == .slot <;> cases namesSlot d.name <;> cases isSourceSlot d.name <;>
    cases d.startsSection <;> cases d.endsSection <;> cases d.startsComment <;>
    cases d.endsComment <;> simp_all

/-! ## Recognising the normal spacing -/

/-- A line is plain text when it is not matched or has no marks of one sort. -/
theorem ofLine_eq_none_iff {line : String} :
    ofLine line = .ok none ↔
      match? line = none ∨ ∃ d, match? line = some d ∧ d.isMarked = false := by
  unfold ofLine
  cases match? line with
  | none => simp
  | some d =>
    cases hmarked : d.isMarked with
    | false => simp [hmarked]
    | true => cases hcheck : d.check <;> simp [hmarked, hcheck, Except.map]

/-- A line is recognised as a directive when it is matched to one that has both sorts of marks and
keeps the rules. -/
theorem ofLine_eq_some_iff {line : String} {d : Directive} :
    ofLine line = .ok (some d) ↔ match? line = some d ∧ d.isMarked = true ∧ d.check = .ok () := by
  unfold ofLine
  cases match? line with
  | none => simp
  | some e =>
    cases hm : e.isMarked with
    | false =>
      constructor
      · intro h
        simp [hm] at h
      · rintro ⟨⟨⟩, hd, -⟩
        rw [hm] at hd
        cases hd
    | true =>
      cases hc : e.check with
      | error v =>
        constructor
        · intro h
          simp [hm, hc, Except.map] at h
        · rintro ⟨⟨⟩, -, hd⟩
          rw [hc] at hd
          cases hd
      | ok u =>
        simp only [hm, hc, ite_true, Except.map]
        constructor
        · rintro ⟨⟩
          exact ⟨rfl, hm, hc⟩
        · rintro ⟨⟨⟩, -, -⟩
          rfl

/-- A lawful directive in its normal spacing is recognised as itself. -/
theorem ofLine_text {d : Directive} (h : d.WF) (hmarked : d.isMarked = true)
    (hcheck : d.check = .ok ()) : ofLine d.text = .ok (some d) :=
  ofLine_eq_some_iff.2 ⟨match?_text h, hmarked, hcheck⟩

end Pagewright.Directive
