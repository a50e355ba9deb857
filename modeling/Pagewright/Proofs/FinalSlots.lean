import Mathlib.Data.List.DropRight
import Pagewright.Proofs.PageEffect
import Pagewright.Proofs.SlotWrites

/-!
# The slots that components leave

The choice of a shape forgets every slot, and a slot of the document is a write. So the slots of a
page are those of the shape that was chosen last, with the writes of the components after that
choice (`Page.slots_after`).
-/

namespace Pagewright

namespace Component

def choosesShape (c : Component) : Bool :=
  match c.kind with
  | .shapeChoice _ _ => true
  | _ => false

/-- The shape that a component chooses. -/
def chosen? (shapes : ShapeTable) (c : Component) : Option Shape :=
  match c.kind with
  | .shapeChoice _ identifier => shapes.get? identifier
  | _ => none

/-- The write that a component makes. -/
def write? (c : Component) : Option SlotWrite :=
  match c.kind with
  | .slot name _ => some ⟨name, some c.text⟩
  | _ => none

variable {shapes : ShapeTable} {page : Page} {c : Component}

theorem source_takeEffect : (c.takeEffect shapes page).slots.source = page.slots.source := by
  unfold takeEffect effect
  cases c.kind with
  | plainText => rfl
  | script keyword => rfl
  | shapeChoice keyword identifier => cases h : shapes.get? identifier <;> simp [h]
  | slot name display =>
    unfold PageSlots.set
    cases h : PageSlots.permit name <;> simp [h, Except.map]

theorem chosen?_of_choosesShape (page : Page) (hc : c.kind.IsEffective shapes)
    (h : c.choosesShape = true) :
    ∃ s, c.chosen? shapes = some s ∧ (c.takeEffect shapes page).slots = page.slots.install s := by
  unfold choosesShape at h
  unfold chosen?
  cases hk : c.kind with
  | shapeChoice keyword identifier =>
    rw [hk] at hc
    obtain ⟨s, hs⟩ := Option.isSome_iff_exists.1 hc
    exact ⟨s, hs, by rw [takeEffect_shapeChoice hk hs]⟩
  | plainText => rw [hk] at h; cases h
  | script keyword => rw [hk] at h; cases h
  | slot name display => rw [hk] at h; cases h

theorem exists_get?_of_chosen? {s : Shape} (h : c.chosen? shapes = some s) :
    ∃ name, shapes.get? name = some s := by
  unfold chosen? at h
  cases hk : c.kind with
  | shapeChoice keyword identifier => exact ⟨identifier, by rwa [hk] at h⟩
  | plainText => rw [hk] at h; cases h
  | script keyword => rw [hk] at h; cases h
  | slot name display => rw [hk] at h; cases h

theorem chosen?_of_not_choosesShape (h : c.choosesShape = false) : c.chosen? shapes = none := by
  unfold choosesShape at h
  unfold chosen?
  cases hk : c.kind with
  | shapeChoice keyword identifier => rw [hk] at h; cases h
  | _ => rfl

theorem slots_takeEffect (hc : c.kind.IsEffective shapes) (h : c.choosesShape = false) :
    (c.takeEffect shapes page).slots = page.slots.writeAll c.write?.toList := by
  unfold choosesShape at h
  unfold write?
  cases hk : c.kind with
  | shapeChoice keyword identifier => rw [hk] at h; cases h
  | plainText => rw [takeEffect_plainText hk]; rfl
  | script keyword => rw [takeEffect_script hk]; rfl
  | slot name display =>
    rw [hk] at hc
    rw [takeEffect_slot hk hc]
    rfl

theorem eq_of_write? {c : Component} {w : SlotWrite} (h : c.write? = some w) :
    (∃ display, c.kind = .slot w.slot display) ∧ w.text? = some c.text := by
  unfold write? at h
  cases hk : c.kind with
  | slot name display =>
    rw [hk] at h
    obtain rfl := Option.some.inj h
    exact ⟨⟨display, rfl⟩, rfl⟩
  | plainText => rw [hk] at h; cases h
  | script keyword => rw [hk] at h; cases h
  | shapeChoice keyword identifier => rw [hk] at h; cases h

end Component

/-- The shape that is chosen last. -/
def lastChosen? (shapes : ShapeTable) (cs : List Component) : Option Shape :=
  cs.reverse.findSome? (Component.chosen? shapes)

/-- The writes of the components after the last choice of a shape. -/
def lastWrites (cs : List Component) : List SlotWrite :=
  (cs.rtakeWhile fun c => !c.choosesShape).filterMap Component.write?

section

variable {shapes : ShapeTable} {page : Page} {cs later : List Component} {c : Component}

theorem lastChosen?_concat :
    lastChosen? shapes (cs ++ [c]) = (c.chosen? shapes).or (lastChosen? shapes cs) := by
  rw [lastChosen?, List.reverse_concat, List.findSome?_cons, lastChosen?]
  cases c.chosen? shapes <;> rfl

theorem lastWrites_concat_of_choosesShape (h : c.choosesShape = true) :
    lastWrites (cs ++ [c]) = [] := by
  rw [lastWrites, List.rtakeWhile_concat_neg _ _ _ (by rw [h]; decide)]
  rfl

theorem lastWrites_concat (h : c.choosesShape = false) :
    lastWrites (cs ++ [c]) = lastWrites cs ++ c.write?.toList := by
  rw [lastWrites, List.rtakeWhile_concat_pos _ _ _ (by rw [h]; decide), List.filterMap_append,
    lastWrites]
  cases hw : c.write? <;> simp [hw]

/-- Components that choose no shape write after those before them. -/
theorem lastWrites_append (h : ∀ d ∈ later, d.choosesShape = false) :
    lastWrites (cs ++ later) = lastWrites cs ++ later.filterMap Component.write? := by
  have hpos : ∀ d ∈ later.reverse, (!d.choosesShape) = true := fun d hd => by
    rw [h d (List.mem_reverse.1 hd)]
    rfl
  simp only [lastWrites, List.rtakeWhile, List.reverse_append, List.takeWhile_append_of_pos hpos,
    List.reverse_reverse, List.filterMap_append]

namespace Page

theorem source_after : (page.after shapes cs).slots.source = page.slots.source := by
  induction cs generalizing page with
  | nil => rfl
  | cons c cs ih => rw [after_cons, ih, Component.source_takeEffect]

/-- **The slots of a page** are those of the shape chosen last, or of the page before when there is
none, with the writes after that choice. -/
theorem slots_after (page : Page) (hcs : ∀ c ∈ cs, c.kind.IsEffective shapes) :
    (page.after shapes cs).slots =
      ((lastChosen? shapes cs).elim page.slots page.slots.install).writeAll (lastWrites cs) := by
  -- The end of the components decides, so the induction takes them off there.
  induction cs using List.reverseRecOn with
  | nil => rfl
  | append_singleton cs c ih =>
    have hc : c.kind.IsEffective shapes := hcs c (List.mem_append_right _ List.mem_cons_self)
    have ih := ih fun d hd => hcs d (List.mem_append_left _ hd)
    rw [after_append, after_cons, after_nil, lastChosen?_concat]
    cases hchooses : c.choosesShape with
    | true =>
      obtain ⟨s, hs, hslots⟩ :=
        Component.chosen?_of_choosesShape (page.after shapes cs) hc hchooses
      rw [hslots, hs, lastWrites_concat_of_choosesShape hchooses, PageSlots.install, source_after]
      rfl
    | false =>
      rw [Component.slots_takeEffect hc hchooses, Component.chosen?_of_not_choosesShape hchooses,
        lastWrites_concat hchooses, PageSlots.writeAll_append, ih]
      rfl

/-- Without a choice of a shape the slots are those of the page before, with the texts of the slots
among the components. -/
theorem slots_after_of_choosesShape_eq_false (page : Page) (hcs : ∀ c ∈ cs, c.kind.IsEffective shapes)
    (h : ∀ c ∈ cs, c.choosesShape = false) :
    (page.after shapes cs).slots = page.slots.writeAll (cs.filterMap Component.write?) := by
  have hnone : lastChosen? shapes cs = none :=
    List.findSome?_eq_none_iff.2 fun d hd =>
      Component.chosen?_of_not_choosesShape (h d (List.mem_reverse.1 hd))
  have hwrites : lastWrites ([] ++ cs) = lastWrites [] ++ cs.filterMap Component.write? :=
    lastWrites_append h
  rw [slots_after page hcs, hnone]
  exact congrArg page.slots.writeAll hwrites

/-- **A choice of a shape makes all pages of one source file alike.** -/
theorem slots_after_of_choosesShape {page' : Page} (hcs : ∀ c ∈ cs, c.kind.IsEffective shapes)
    (hc : c ∈ cs) (h : c.choosesShape = true) (hsource : page.slots.source = page'.slots.source) :
    (page.after shapes cs).slots = (page'.after shapes cs).slots := by
  obtain ⟨s, hs, -⟩ := Component.chosen?_of_choosesShape page (hcs c hc) h
  have hsome : (lastChosen? shapes cs).isSome = true := by
    rw [lastChosen?, List.isSome_findSome?]
    exact List.any_eq_true.2 ⟨c, List.mem_reverse.2 hc, by rw [hs]; rfl⟩
  obtain ⟨last, hlast⟩ := Option.isSome_iff_exists.1 hsome
  rw [slots_after page hcs, slots_after page' hcs, hlast, Option.elim_some, Option.elim_some,
    PageSlots.install, PageSlots.install, hsource]

end Page

end

end Pagewright
