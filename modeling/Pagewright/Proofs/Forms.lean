import Pagewright.Proofs.PageEffect
import Pagewright.Proofs.Recognition

/-!
# The forms of lawful directives

The directives that a source rendering writes: a slot on one line, the opening and the closing line
of a slot and of a script, and the choice of a shape. Each of them is lawful for the names that go
with it, so that its text is recognised as itself (`Directive.Lawful.ofLine_text`), and its text is
one line. Every lawful directive has one of these forms.
-/

namespace Pagewright

namespace Directive

/-- A directive that is well spelled, has both sorts of marks and keeps the rules. -/
structure Lawful (d : Directive) : Prop where
  wf : d.WF
  marked : d.isMarked = true
  check : d.check = .ok ()

theorem Lawful.ofLine_text {d : Directive} (h : d.Lawful) : ofLine d.text = .ok (some d) :=
  Directive.ofLine_text h.wf h.marked h.check

theorem lawful_of_ofLine {line : String} {d : Directive} (h : ofLine line = .ok (some d)) :
    d.Lawful := by
  obtain ⟨hmatch, hmarked, hcheck⟩ := ofLine_eq_some_iff.1 h
  exact ⟨wf_of_match? hmatch, hmarked, hcheck⟩

/-! ## The forms -/

/-- A slot whose section starts and ends on the line. -/
def reference (name : String) : Directive where
  startsComment := true
  endsComment := true
  startsSection := true
  endsSection := true
  addressesSlot := true
  name

def slotOpening (name : String) (display : SlotDisplay) : Directive where
  startsComment := true
  endsComment := display == .rendered
  startsSection := true
  addressesSlot := true
  name

def slotClosing (name : String) (display : SlotDisplay) : Directive where
  startsComment := display == .rendered
  endsComment := true
  endsSection := true
  addressesSlot := true
  name

def scriptOpening (keyword : String) : Directive where
  startsComment := true
  startsSection := true
  addressesSlot := false
  name := keyword

def scriptClosing (keyword : String) : Directive where
  endsComment := true
  endsSection := true
  addressesSlot := false
  name := keyword

/-- The choice of a shape. -/
def shapeLine (keyword identifier : String) : Directive where
  startsComment := true
  endsComment := true
  startsSection := true
  endsSection := true
  addressesSlot := false
  name := keyword
  value := some identifier

/-! ## They are lawful -/

theorem lawful_reference {name : String} (h : IsWritable name) : (reference name).Lawful := by
  obtain ⟨hsource, hslot⟩ := h
  obtain ⟨hidentifier, hkind⟩ := namesSlot_iff.1 hslot
  refine ⟨⟨hidentifier, by simp [reference, hkind], nofun⟩, rfl, ?_⟩
  rw [check_eq_ok_iff, checkForm_eq_ok_iff]
  simp [reference, kind, hkind, hslot, hsource]

theorem lawful_slotOpening {name : String} (display : SlotDisplay) (h : IsWritable name) :
    (slotOpening name display).Lawful := by
  obtain ⟨hsource, hslot⟩ := h
  obtain ⟨hidentifier, hkind⟩ := namesSlot_iff.1 hslot
  refine ⟨⟨hidentifier, by simp [slotOpening, hkind], nofun⟩, rfl, ?_⟩
  rw [check_eq_ok_iff, checkForm_eq_ok_iff]
  simp [slotOpening, isOneLine, kind, hkind, hslot, hsource]

theorem lawful_slotClosing {name : String} (display : SlotDisplay) (h : IsWritable name) :
    (slotClosing name display).Lawful := by
  obtain ⟨hsource, hslot⟩ := h
  obtain ⟨hidentifier, hkind⟩ := namesSlot_iff.1 hslot
  refine ⟨⟨hidentifier, by simp [slotClosing, hkind], nofun⟩, by simp [slotClosing, isMarked], ?_⟩
  rw [check_eq_ok_iff, checkForm_eq_ok_iff]
  simp [slotClosing, isOneLine, kind, hkind, hslot, hsource]

theorem lawful_scriptOpening {keyword : String} (hidentifier : isIdentifier keyword.toList = true)
    (hkind : NameKind.of keyword = .script) : (scriptOpening keyword).Lawful := by
  refine ⟨⟨hidentifier, by simp [scriptOpening, hkind], nofun⟩, rfl, ?_⟩
  rw [check_eq_ok_iff, checkForm_eq_ok_iff]
  simp [scriptOpening, isOneLine, kind, hkind]

theorem lawful_scriptClosing {keyword : String} (hidentifier : isIdentifier keyword.toList = true)
    (hkind : NameKind.of keyword = .script) : (scriptClosing keyword).Lawful := by
  refine ⟨⟨hidentifier, by simp [scriptClosing, hkind], nofun⟩, rfl, ?_⟩
  rw [check_eq_ok_iff, checkForm_eq_ok_iff]
  simp [scriptClosing, isOneLine, kind, hkind]

theorem lawful_shapeLine {keyword identifier : String}
    (hidentifier : isIdentifier keyword.toList = true) (hkind : NameKind.of keyword = .shape)
    (hne : identifier.toList ≠ []) (hword : ∀ c ∈ identifier.toList, isNameChar c = true) :
    (shapeLine keyword identifier).Lawful := by
  refine ⟨⟨hidentifier, by simp [shapeLine, hkind], ?_⟩, rfl, ?_⟩
  · rintro v ⟨⟩
    exact ⟨hne, hword⟩
  · rw [check_eq_ok_iff, checkForm_eq_ok_iff]
    simp [shapeLine, isOneLine, kind, hkind]

/-! ## There are no others -/

section Normal

attribute [ext] Directive

variable {d : Directive} (h : d.Lawful)

include h

theorem Lawful.addressesSlot_eq : d.addressesSlot = (d.kind == .slot) :=
  h.wf.addressesSlot

theorem Lawful.form : d.checkForm = .ok () :=
  (check_eq_ok_iff.1 h.check).2.2.2.2

/-- A directive that goes on starts its comment. -/
theorem Lawful.startsComment_of_goesOn (hgoesOn : d.endsSection = false) : d.startsComment = true :=
  (check_eq_ok_iff.1 h.check).2.2.2.1 hgoesOn

/-- A directive that starts no section ends one, and its comment too. -/
theorem Lawful.ends_of_not_starts (hends : d.startsSection = false) :
    d.endsComment = true ∧ d.endsSection = true := by
  refine ⟨(check_eq_ok_iff.1 h.check).2.2.1 hends, ?_⟩
  have hmarked := h.marked
  rw [isMarked, hends, Bool.false_or, Bool.and_eq_true] at hmarked
  exact hmarked.2

theorem Lawful.slot (hkind : d.kind = .slot) : d.addressesSlot = true ∧ d.value = none := by
  have hform := checkForm_eq_ok_iff.1 h.form
  rw [hkind] at hform
  refine ⟨?_, hform⟩
  rw [h.addressesSlot_eq, hkind]
  rfl

theorem Lawful.isWritable (hkind : d.kind = .slot) : IsWritable d.name :=
  ((check_eq_ok_iff.1 h.check).1 hkind).symm

theorem Lawful.script (hkind : d.kind = .script) : d.addressesSlot = false ∧ d.value = none ∧
    d.isOneLine = false ∧ (d.startsSection = true → d.endsComment = false) ∧
    (d.endsSection = true → d.startsComment = false) := by
  have hform := checkForm_eq_ok_iff.1 h.form
  rw [hkind] at hform
  refine ⟨?_, hform.2.1, hform.1, hform.2.2⟩
  rw [h.addressesSlot_eq, hkind]
  rfl

theorem Lawful.shape (hkind : d.kind = .shape) : d.addressesSlot = false ∧ d.isOneLine = true := by
  have hform := checkForm_eq_ok_iff.1 h.form
  rw [hkind] at hform
  refine ⟨?_, hform.1⟩
  rw [h.addressesSlot_eq, hkind]
  rfl

theorem Lawful.eq_reference (hkind : d.kind = .slot) (honeLine : d.isOneLine = true) :
    d = reference d.name := by
  obtain ⟨hslot, hvalue⟩ := h.slot hkind
  obtain ⟨hstarts, hends⟩ := (check_eq_ok_iff.1 h.check).2.1 honeLine
  obtain ⟨hopens, hcloses⟩ := Bool.and_eq_true_iff.1 honeLine
  exact Directive.ext hstarts hends hopens hcloses hslot rfl hvalue

theorem Lawful.eq_shapeLine (hkind : d.kind = .shape) {identifier : String}
    (hvalue : d.value = some identifier) : d = shapeLine d.name identifier := by
  obtain ⟨hslot, honeLine⟩ := h.shape hkind
  obtain ⟨hstarts, hends⟩ := (check_eq_ok_iff.1 h.check).2.1 honeLine
  obtain ⟨hopens, hcloses⟩ := Bool.and_eq_true_iff.1 honeLine
  exact Directive.ext hstarts hends hopens hcloses hslot rfl hvalue

theorem Lawful.eq_slotOpening (hkind : d.kind = .slot) (hstarts : d.startsSection = true)
    (hgoesOn : d.endsSection = false) (display : SlotDisplay)
    (hdisplay : d.endsComment = (display == .rendered)) : d = slotOpening d.name display := by
  obtain ⟨hslot, hvalue⟩ := h.slot hkind
  exact Directive.ext (h.startsComment_of_goesOn hgoesOn) hdisplay hstarts hgoesOn hslot rfl hvalue

theorem Lawful.eq_slotClosing (hkind : d.kind = .slot) (hends : d.startsSection = false)
    (display : SlotDisplay) (hdisplay : d.startsComment = (display == .rendered)) :
    d = slotClosing d.name display := by
  obtain ⟨hslot, hvalue⟩ := h.slot hkind
  obtain ⟨hcomment, hsection⟩ := h.ends_of_not_starts hends
  exact Directive.ext hdisplay hcomment hends hsection hslot rfl hvalue

theorem Lawful.eq_scriptOpening (hkind : d.kind = .script) (hstarts : d.startsSection = true) :
    d = scriptOpening d.name := by
  obtain ⟨hslot, hvalue, honeLine, hopens, -⟩ := h.script hkind
  have hgoesOn : d.endsSection = false := by simpa [isOneLine, hstarts] using honeLine
  exact Directive.ext (h.startsComment_of_goesOn hgoesOn) (hopens hstarts) hstarts hgoesOn hslot rfl
    hvalue

theorem Lawful.eq_scriptClosing (hkind : d.kind = .script) (hends : d.startsSection = false) :
    d = scriptClosing d.name := by
  obtain ⟨hslot, hvalue, -, -, hcloses⟩ := h.script hkind
  obtain ⟨hcomment, hsection⟩ := h.ends_of_not_starts hends
  exact Directive.ext (hcloses hsection) hcomment hends hsection hslot rfl hvalue

end Normal

/-! ## Their texts are lines -/

/-- No character of a well spelled directive ends a line. -/
theorem not_mem_text {d : Directive} (h : d.WF) {c : Char} (hc : c = '\n' ∨ c = '\r') :
    c ∉ d.text.toList := by
  obtain ⟨-, -, -, -, hname⟩ := exists_of_isIdentifier h.name
  have hnot : isNameChar c = false ∧ c ∉ commentStart ++ [' ', '[', ']'] ++ commentEnd := by
    rcases hc with rfl | rfl <;> decide
  obtain ⟨hchar, hmarks⟩ := hnot
  simp only [commentStart, commentEnd, List.cons_append, List.nil_append, List.mem_cons,
    List.not_mem_nil, not_or] at hmarks
  have hname : c ∉ d.name.toList := fun hm => by rw [hname c hm] at hchar; cases hchar
  rw [toList_text, fromSection, fromName, afterName, fromEnd]
  cases hv : d.value with
  | none =>
    cases d.startsComment <;> cases d.startsSection <;> cases d.endsSection <;>
      cases d.endsComment <;> simp [commentStart, commentEnd, hname, hmarks]
  | some v =>
    have hvalue : c ∉ v.toList := fun hm => by rw [(h.value v hv).2 c hm] at hchar; cases hchar
    cases d.startsComment <;> cases d.startsSection <;> cases d.endsSection <;>
      cases d.endsComment <;> simp [commentStart, commentEnd, hname, hvalue, hmarks]

end Directive

end Pagewright
