import Pagewright.Proofs.Blocks
import Pagewright.Proofs.FormTexts
import Pagewright.Proofs.SlotSteps

/-!
# Closing takes effect on the page all or nothing

A component that is finished gets its text, is compared with the directive that closes it, if there
is one, and acts on the page. Here these are steps one after another, and a step that fails keeps
what the steps before it have done (`FinishSteps`). Every check comes before the page is changed, and
the page is changed at one place only: the steps end as the functions say, with the page as it was
whenever they fail (`run_finishSteps`, `run_closeSteps`), and when they succeed the page has changed
in the one way that the kind of the component calls for (`TakesEffect`).
-/

namespace Pagewright

open Text

/-! ## Step by step -/

/-- A component that is being finished, and the page that it acts on. -/
structure Finishing where
  component : Component
  page : Page

/-- Steps on a component and its page. A failure keeps what was done before it. -/
abbrev FinishSteps := ExceptT ComponentError (StateM Finishing)

namespace FinishSteps

def giveText : FinishSteps Unit :=
  modify fun s => { s with component := s.component.withText }

def changePage (f : Page → Page) : FinishSteps Unit :=
  modify fun s => { s with page := f s.page }

def checkName (c : Component) (closing : Directive) : FinishSteps Unit :=
  if c.closesName closing then return ()
  else throw (.closesOther (c.name?.getD "") closing.name)

/-- Fails when a directive starts a comment and must not, or must and does not. -/
def checkMarker (c : Component) (closing : Directive) : FinishSteps Unit :=
  match c.kind with
  | .slot name .rendered =>
    if closing.startsComment then return () else throw (.closeWithoutComment name)
  | .slot name .commentOnly =>
    if closing.startsComment then throw (.closeWithComment name) else return ()
  | _ => return ()

/-- What a component with its text does to the page. -/
def act (shapes : ShapeTable) (c : Component) : FinishSteps Unit :=
  match c.kind with
  | .plainText => return ()
  | .script _ =>
    changePage fun page => { page with scripts := page.scripts ++ [⟨c.bodyLine, c.text⟩] }
  | .shapeChoice _ identifier =>
    match shapes.get? identifier with
    | some s => changePage fun page => { page with slots := page.slots.install s }
    | none => throw (.noSuchShape identifier)
  | .slot name _ =>
    match PageSlots.permit name with
    | .ok _ =>
      changePage fun page =>
        { page with slots := { page.slots with values := page.slots.values.insert name c.text } }
    | .error refusal => throw (.slot refusal)

end FinishSteps

open FinishSteps

/-- Finishes a component that no directive closes. -/
def finishSteps (shapes : ShapeTable) : FinishSteps Unit := do
  giveText
  act shapes (← get).component

/-- Finishes a component by a directive. -/
def closeSteps (shapes : ShapeTable) (closing : Directive) : FinishSteps Unit := do
  giveText
  let c := (← get).component
  checkName c closing
  checkMarker c closing
  act shapes c

/-- How steps end that start from a page: with another page, or with that one when they fail. -/
def wholly (page : Page) :
    Component × Except ComponentError Page → Except ComponentError Unit × Finishing
  | (c, .ok page') => (.ok (), ⟨c, page'⟩)
  | (c, .error e) => (.error e, ⟨c, page⟩)

section Steps

variable {shapes : ShapeTable} {c : Component} {closing : Directive} {page : Page}
  {s : Finishing}

theorem run_act (d : Component) :
    (act shapes c).run.run ⟨d, page⟩ = wholly page (d, c.effect shapes page) := by
  unfold act Component.effect
  cases c.kind with
  | plainText => rfl
  | script keyword => rfl
  | shapeChoice keyword identifier =>
    dsimp only
    cases shapes.get? identifier <;> rfl
  | slot name display =>
    simp only [PageSlots.set]
    cases PageSlots.permit name <;> rfl

/-- A directive is checked before anything changes. -/
theorem run_checks :
    (do checkName c closing; checkMarker c closing : FinishSteps Unit).run.run s =
      (c.checkClosing closing, s) := by
  unfold checkName checkMarker Component.checkClosing
  cases c.closesName closing with
  | false => rfl
  | true =>
    cases c.kind with
    | plainText => rfl
    | script keyword => rfl
    | shapeChoice keyword identifier => rfl
    | slot name display => cases display <;> cases closing.startsComment <;> rfl

/-- **Finishing** leaves the page as it was when it fails. -/
theorem run_finishSteps :
    (finishSteps shapes).run.run ⟨c, page⟩ = wholly page (c.finish shapes page) :=
  run_act c.withText

/-- **Closing** leaves the page as it was when it fails, whatever the directive is. -/
theorem run_closeSteps :
    (closeSteps shapes closing).run.run ⟨c, page⟩ =
      wholly page (c.closeBy shapes closing page) := by
  let d := c.withText
  have hsteps : (closeSteps shapes closing).run.run ⟨c, page⟩ =
      ((do checkName d closing; checkMarker d closing : FinishSteps Unit) >>= fun _ =>
        act shapes d).run.run ⟨d, page⟩ := by
    rw [bind_assoc]
    rfl
  have hchecks : d.checkClosing closing = c.checkClosing closing := rfl
  rw [hsteps, Component.closeBy]
  cases hcheck : c.checkClosing closing with
  | ok u => rw [run_bind_of_ok (run_checks.trans (by rw [hchecks, hcheck])), run_act]; rfl
  | error e => rw [run_bind_of_error (run_checks.trans (by rw [hchecks, hcheck]))]; rfl

end Steps

/-! ## One effect -/

/-- The one change that a component makes to a page when it is finished. -/
inductive TakesEffect (shapes : ShapeTable) (c : Component) (page : Page) : Page → Prop
  | plainText (kind : c.kind = .plainText) : TakesEffect shapes c page page
  | script {keyword : String} (kind : c.kind = .script keyword) :
      TakesEffect shapes c page
        { page with scripts := page.scripts ++ [⟨c.start + 1, joinLines c.body.lines⟩] }
  | shapeChoice {keyword identifier : String} {s : Shape}
      (kind : c.kind = .shapeChoice keyword identifier) (known : shapes.get? identifier = some s) :
      TakesEffect shapes c page { page with slots := page.slots.install s }
  | slot {name : String} {display : SlotDisplay} (kind : c.kind = .slot name display)
      (writable : IsWritable name) :
      TakesEffect shapes c page
        { page with slots :=
          { page.slots with values := page.slots.values.insert name (joinLines c.body.lines) } }

/-- A directive closes components of a kind: a keyword agrees in any letter case and a slot name
exactly, and a comment starts before a rendered slot only. -/
inductive Directive.Closes (d : Directive) : ComponentKind → Prop
  | script {keyword : String} (isScript : sameIgnoringCase d.name "script" = true) :
      Closes d (.script keyword)
  | shapeChoice {keyword identifier : String} (isClass : sameIgnoringCase d.name "class" = true) :
      Closes d (.shapeChoice keyword identifier)
  | rendered (slot : d.addressesSlot = true) (comment : d.startsComment = true) :
      Closes d (.slot d.name .rendered)
  | commentOnly (slot : d.addressesSlot = true) (comment : d.startsComment = false) :
      Closes d (.slot d.name .commentOnly)

namespace Component

variable {shapes : ShapeTable} {c : Component} {closing : Directive} {page page' : Page}

theorem checkClosing_eq_ok_iff_closes : c.checkClosing closing = .ok () ↔ closing.Closes c.kind := by
  rw [checkClosing_eq_ok_iff]
  constructor
  · intro h
    cases hkind : c.kind with
    | plainText => simp only [hkind] at h
    | script keyword =>
      simp only [hkind] at h
      exact .script (NameKind.of_eq_script_iff.1 h)
    | shapeChoice keyword identifier =>
      simp only [hkind] at h
      exact .shapeChoice (NameKind.of_eq_shape_iff.1 h)
    | slot name display =>
      cases display with
      | rendered =>
        simp only [hkind] at h
        obtain ⟨hslot, rfl, hcomment⟩ := h
        exact .rendered hslot hcomment
      | commentOnly =>
        simp only [hkind] at h
        obtain ⟨hslot, rfl, hcomment⟩ := h
        exact .commentOnly hslot hcomment
  · generalize c.kind = kind
    rintro (hscript | hclass | ⟨hslot, hcomment⟩ | ⟨hslot, hcomment⟩)
    · exact NameKind.of_eq_script_iff.2 hscript
    · exact NameKind.of_eq_shape_iff.2 hclass
    · exact ⟨hslot, rfl, hcomment⟩
    · exact ⟨hslot, rfl, hcomment⟩

theorem effect_withText_eq_ok_iff :
    c.withText.effect shapes page = .ok page' ↔ TakesEffect shapes c page page' := by
  constructor
  · intro h
    unfold effect at h
    split at h
    · next hkind =>
      obtain rfl := Except.ok.inj h
      exact .plainText hkind
    · next hkind =>
      obtain rfl := Except.ok.inj h
      exact .script hkind
    · next hkind =>
      split at h
      · next hs =>
        obtain rfl := Except.ok.inj h
        exact .shapeChoice hkind hs
      · cases h
    · next hkind =>
      split at h
      · next hset =>
        have hwritable := PageSlots.isWritable_of_set hset
        rw [PageSlots.set_eq_ok hwritable] at hset
        obtain rfl := Except.ok.inj hset
        obtain rfl := Except.ok.inj h
        exact .slot hkind hwritable
      · cases h
  · rintro (hkind | hkind | ⟨hkind, hs⟩ | ⟨hkind, hwritable⟩)
    · simp [effect, hkind]
    · simp [effect, hkind, bodyLine]
    · simp [effect, hkind, hs]
    · simp [effect, hkind, PageSlots.set_eq_ok hwritable]

theorem closeBy_eq_ok_iff : (c.closeBy shapes closing page).2 = .ok page' ↔
    closing.Closes c.kind ∧ TakesEffect shapes c page page' := by
  rw [← checkClosing_eq_ok_iff_closes, ← effect_withText_eq_ok_iff, closeBy]
  cases c.checkClosing closing with
  | ok u => exact ⟨fun h => ⟨rfl, h⟩, fun h => h.2⟩
  | error e =>
    constructor
    · intro h
      cases h
    · intro h
      cases h.1

end Component

/-- **Closing takes effect wholly or not at all**, for every component, directive and page. Finishing
succeeds when the kind of the component can take effect, closing when the directive fits as well; the
page then has the one change that the kind calls for. In any other case the error comes before the
first change: carried out step by step, with all that a failing step leaves behind, both end with
the page as it was. -/
theorem closing_takes_effect_wholly (shapes : ShapeTable) (c : Component) (closing : Directive)
    (page : Page) :
    (∀ page', (c.finish shapes page).2 = .ok page' ↔ TakesEffect shapes c page page') ∧
      (∀ page', (c.closeBy shapes closing page).2 = .ok page' ↔
        closing.Closes c.kind ∧ TakesEffect shapes c page page') ∧
      (finishSteps shapes).run.run ⟨c, page⟩ = wholly page (c.finish shapes page) ∧
      (closeSteps shapes closing).run.run ⟨c, page⟩ =
        wholly page (c.closeBy shapes closing page) :=
  ⟨fun _ => Component.effect_withText_eq_ok_iff, fun _ => Component.closeBy_eq_ok_iff,
    run_finishSteps, run_closeSteps⟩

end Pagewright
