import Pagewright.Document.Basic

/-!
# What finished components do to a page

A component may take effect when it is a slot that may be written, the choice of a shape that the
table has, a script or plain text (`ComponentKind.IsEffective`). `Page.after` is the page once
components have taken effect one after the other. Its queue lists the scripts among them
(`scripts_after`); its slots go back to the starting ones at every choice of a shape and change at
one name with every slot.
-/

namespace Pagewright

open Text

/-- A slot that a document may hold. -/
def IsWritable (slot : String) : Prop :=
  isSourceSlot slot = false ∧ namesSlot slot = true

namespace PageSlots

theorem permit_eq_ok_iff {slot : String} : permit slot = .ok () ↔ IsWritable slot := by
  unfold permit IsWritable
  cases isSourceSlot slot <;> cases namesSlot slot <;> simp

theorem permit_eq_error_iff {slot : String} {refusal : SlotRefusal} :
    permit slot = .error refusal ↔
      isSourceSlot slot = true ∧ refusal = .describesSource slot ∨
        isSourceSlot slot = false ∧ namesSlot slot = false ∧ refusal = .unlawfulName slot := by
  unfold permit
  cases isSourceSlot slot <;> cases namesSlot slot <;> simp [eq_comm]

theorem set_eq_ok {slot : String} (h : IsWritable slot) (ps : PageSlots) (value : String) :
    ps.set slot value = .ok { ps with values := ps.values.insert slot value } := by
  rw [set, permit_eq_ok_iff.2 h]
  rfl

theorem isWritable_of_set {ps qs : PageSlots} {slot value : String}
    (h : ps.set slot value = .ok qs) : IsWritable slot := by
  rw [← permit_eq_ok_iff]
  rw [set] at h
  cases hpermit : permit slot with
  | ok u => rfl
  | error refusal => rw [hpermit] at h; cases h

end PageSlots

/-- A component of the kind may take effect. -/
def ComponentKind.IsEffective (shapes : ShapeTable) : ComponentKind → Prop
  | .plainText => True
  | .script _ => True
  | .shapeChoice _ identifier => (shapes.get? identifier).isSome = true
  | .slot name _ => IsWritable name

namespace Component

/-- The page after a component has taken effect; one that may not leaves it as it is. -/
def takeEffect (shapes : ShapeTable) (page : Page) (c : Component) : Page :=
  match c.effect shapes page with
  | .ok page' => page'
  | .error _ => page

/-- The entry of a component in the queue of scripts. -/
def pending? (c : Component) : Option PendingScript :=
  match c.kind with
  | .script _ => some ⟨c.bodyLine, c.text⟩
  | _ => none

variable {shapes : ShapeTable} {page : Page} {c : Component}

theorem effect_eq_ok (h : c.kind.IsEffective shapes) :
    c.effect shapes page = .ok (c.takeEffect shapes page) := by
  unfold takeEffect
  cases he : c.effect shapes page with
  | ok page' => rfl
  | error e =>
    unfold effect at he
    cases hk : c.kind with
    | plainText => rw [hk] at he; cases he
    | script keyword => rw [hk] at he; cases he
    | shapeChoice keyword identifier =>
      rw [hk] at he h
      obtain ⟨s, hs⟩ := Option.isSome_iff_exists.1 h
      simp only [hs] at he
      cases he
    | slot name display =>
      rw [hk] at he h
      simp only [PageSlots.set_eq_ok h] at he
      cases he

theorem takeEffect_eq_of_ok {page' : Page} (h : c.effect shapes page = .ok page') :
    c.takeEffect shapes page = page' := by
  simp [takeEffect, h]

theorem takeEffect_plainText (h : c.kind = .plainText) : c.takeEffect shapes page = page := by
  simp [takeEffect, effect, h]

theorem takeEffect_script {keyword : String} (h : c.kind = .script keyword) :
    c.takeEffect shapes page =
      { page with scripts := page.scripts ++ [⟨c.bodyLine, c.text⟩] } := by
  simp [takeEffect, effect, h]

theorem takeEffect_shapeChoice {keyword identifier : String} {s : Shape}
    (h : c.kind = .shapeChoice keyword identifier) (hs : shapes.get? identifier = some s) :
    c.takeEffect shapes page = { page with slots := page.slots.install s } := by
  simp [takeEffect, effect, h, hs]

theorem takeEffect_slot {name : String} {display : SlotDisplay} (h : c.kind = .slot name display)
    (hname : IsWritable name) :
    c.takeEffect shapes page =
      { page with slots := { page.slots with values := page.slots.values.insert name c.text } } := by
  simp [takeEffect, effect, h, PageSlots.set_eq_ok hname]

theorem scripts_takeEffect :
    (c.takeEffect shapes page).scripts = page.scripts ++ c.pending?.toList := by
  unfold takeEffect effect pending?
  cases c.kind with
  | plainText => simp
  | script keyword => simp
  | shapeChoice keyword identifier => cases h : shapes.get? identifier <;> simp [h]
  | slot name display => cases h : page.slots.set name c.text <;> simp [h]

end Component

namespace Page

/-- The page with which a document at a path starts. -/
def start (shapes : ShapeTable) (path : Path) : Page where
  slots := .new shapes.default path

/-- The page after components have taken effect, in order. -/
def after (shapes : ShapeTable) (page : Page) (cs : List Component) : Page :=
  cs.foldl (Component.takeEffect shapes) page

variable {shapes : ShapeTable} {page : Page}

@[simp] theorem after_nil : page.after shapes [] = page := rfl

@[simp] theorem after_cons (c : Component) (cs : List Component) :
    page.after shapes (c :: cs) = (c.takeEffect shapes page).after shapes cs := rfl

theorem after_append (cs ds : List Component) :
    page.after shapes (cs ++ ds) = (page.after shapes cs).after shapes ds := by
  simp [after]

/-- The queue lists the scripts in the order of the components. -/
theorem scripts_after (cs : List Component) :
    (page.after shapes cs).scripts = page.scripts ++ cs.filterMap Component.pending? := by
  induction cs generalizing page with
  | nil => simp
  | cons c cs ih =>
    rw [after_cons, ih, Component.scripts_takeEffect, List.filterMap_cons]
    cases c.pending? <;> simp

end Page

end Pagewright
