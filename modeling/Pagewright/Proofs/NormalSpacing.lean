import Pagewright.Directive.Rules
import Pagewright.Proofs.LooseForm

/-!
# Directives in their normal spacing

A directive that stands on some line is well spelled (`Directive.WF`): its name is an identifier,
and its argument, if there is one, a word. The normal spacing of such a directive is a line in the
loose form (`Directive.WF.looseForm`), so that it is read back as it was (`match?_text`).
-/

namespace Pagewright

open Text

namespace Directive

/-! ## Well spelled directives -/

/-- What holds of every directive that stands on a line. -/
structure WF (d : Directive) : Prop where
  name : isIdentifier d.name.toList = true
  addressesSlot : d.addressesSlot = (NameKind.of d.name == .slot)
  value : ∀ v, d.value = some v → v.toList ≠ [] ∧ ∀ c ∈ v.toList, isNameChar c = true

/-! ## The parts of the normal spacing

`fromSection`, `fromName`, `afterName` and `fromEnd` are what is left of the text of a directive
after each of the steps in which a line is read. -/

/-- The text from `]` on. -/
def fromEnd (d : Directive) : List Char :=
  (if d.endsSection then [']'] else []) ++ (if d.endsComment then ' ' :: commentEnd else [])

def afterName (d : Directive) : List Char :=
  match d.value with
  | some v => ' ' :: (v.toList ++ d.fromEnd)
  | none => d.fromEnd

def fromName (d : Directive) : List Char :=
  d.name.toList ++ d.afterName

/-- The text from `[` on. -/
def fromSection (d : Directive) : List Char :=
  (if d.startsSection then ['['] else []) ++ d.fromName

theorem toList_text (d : Directive) :
    d.text.toList = (if d.startsComment then commentStart ++ [' '] else []) ++ d.fromSection := by
  unfold text fromSection fromName afterName fromEnd
  cases d.value <;> cases d.startsComment <;> cases d.startsSection <;> cases d.endsSection <;>
    cases d.endsComment <;> simp [commentStart, commentEnd]

/-! ## Reading the normal spacing -/

/-- The normal spacing of a directive, cut into its parts. -/
def WF.looseForm {d : Directive} (h : d.WF) : LooseForm where
  afterStart? := if d.startsComment then some [' '] else none
  startsSection := d.startsSection
  name := d.name.toList
  argument? := d.value.map fun v => ([' '], v.toList)
  endsSection := d.endsSection
  beforeEnd? := if d.endsComment then some [' '] else none
  blank_afterStart := by cases d.startsComment <;> simp [isBlank]
  isIdentifier_name := h.name
  argument_ne_nil := by
    intro a ha
    obtain ⟨v, -, rfl⟩ := Option.map_eq_some_iff.1 ha
    exact List.cons_ne_nil _ _
  blank_argument := by
    intro a ha
    obtain ⟨v, -, rfl⟩ := Option.map_eq_some_iff.1 ha
    exact List.forall_mem_singleton.2 rfl
  isNameChar_argument := by
    intro a ha
    obtain ⟨v, hv, rfl⟩ := Option.map_eq_some_iff.1 ha
    exact (h.value v hv).2
  blank_beforeEnd := by cases d.endsComment <;> simp [isBlank]

theorem WF.chars_looseForm {d : Directive} (h : d.WF) : h.looseForm.chars = d.text.toList := by
  obtain ⟨startsComment, endsComment, startsSection, endsSection, addressesSlot, name, value⟩ := d
  rw [toList_text, fromSection, fromName, afterName, fromEnd]
  simp only [LooseForm.chars, LooseForm.fromSection, LooseForm.fromName, LooseForm.fromArgument,
    LooseForm.fromSectionEnd, LooseForm.fromEnd, looseForm]
  cases value <;> cases startsComment <;> cases startsSection <;> cases endsSection <;>
    cases endsComment <;> simp

theorem WF.directive_looseForm {d : Directive} (h : d.WF) : h.looseForm.directive = d := by
  have hvalue := h.value
  obtain ⟨startsComment, endsComment, startsSection, endsSection, addressesSlot, name, value⟩ := d
  obtain rfl : addressesSlot = (NameKind.of name == .slot) := h.addressesSlot
  cases value with
  | none =>
    cases startsComment <;> cases endsComment <;>
      simp [LooseForm.directive, LooseForm.word, looseForm]
  | some v =>
    have hne : v.toList ≠ [] := (hvalue v rfl).1
    cases startsComment <;> cases endsComment <;>
      simp_all [LooseForm.directive, LooseForm.word, looseForm]

/-- **A well spelled directive in its normal spacing is read back as it was.** -/
theorem match?_text {d : Directive} (h : d.WF) : match? d.text = some d := by
  rw [match?, ← h.chars_looseForm, LooseForm.scan_chars, h.directive_looseForm]

theorem LooseForm.wf_directive (p : LooseForm) : p.directive.WF := by
  refine ⟨by simpa [directive] using p.isIdentifier_name, rfl, fun v hv => ?_⟩
  simp only [directive] at hv
  split at hv
  · cases hv
  · next hword =>
    obtain rfl := Option.some.inj hv
    rw [String.toList_ofList]
    exact ⟨by simpa using hword, fun _ => p.isNameChar_of_mem_word⟩

/-- Every directive that stands on a line is well spelled. -/
theorem wf_of_match? {line : String} {d : Directive} (h : match? line = some d) : d.WF := by
  obtain ⟨p, -, rfl⟩ := exists_looseForm_of_scan h
  exact p.wf_directive

end Directive

end Pagewright
