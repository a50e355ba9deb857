import Pagewright.Proofs.SlotHistories

/-!
# Starting afresh

A table of shapes that is built from a list has the last shape of each name, and the plain page
where the list has none of the default name (`ShapeTable.get?_ofList`); its default shape is what it
has under that name (`ShapeTable.get?_default`). Slots keep the facts about their source file through
every history, so installing a shape gives the slots with which a page of this shape starts. A
reading keeps these facts too (`Held.source_eq`): a directive that chooses the default shape brings
the slots back that the document started with, wherever it stands (`install_is_fresh`).
-/

namespace Pagewright

open Std
open Directive (ofLine)

/-! ## Tables -/

namespace ShapeTable

theorem ofList_concat (list : List Shape) (s : Shape) :
    ofList (list ++ [s]) = (ofList list).add s :=
  List.foldl_concat ..

theorem get?_standard (name : String) :
    standard.get? name = if name = Shape.defaultName then some Shape.plainPage else none := by
  rw [get?, standard, ExtTreeMap.getElem?_insert, ExtTreeMap.getElem?_empty]
  simp only [LawfulEqOrd.compare_eq_iff_eq]
  exact if_congr eq_comm rfl rfl

theorem get?_add (t : ShapeTable) (s : Shape) (name : String) :
    (t.add s).get? name = if s.name = name then some s else t.get? name := by
  rw [get?, add, ExtTreeMap.getElem?_insert]
  simp only [LawfulEqOrd.compare_eq_iff_eq]
  rfl

/-- **A table has the last shape of a name** in its list, or what the standard table has. -/
theorem get?_ofList (list : List Shape) (name : String) :
    (ofList list).get? name =
      (list.findRev? fun s => s.name == name).or (standard.get? name) := by
  induction list using List.reverseRecOn with
  | nil => rfl
  | append_singleton list s ih =>
    rw [List.findRev?_eq_find?_reverse] at ih ⊢
    rw [ofList_concat, get?_add, ih, List.reverse_concat, List.find?_cons]
    by_cases h : s.name = name
    · simp [h]
    · have hne : (s.name == name) = false := beq_eq_false_iff_ne.2 h
      rw [if_neg h, hne]

/-- The default shape of a table is what the table has under the default name. -/
theorem get?_default (list : List Shape) :
    (ofList list).get? Shape.defaultName = some (ofList list).default := by
  induction list using List.reverseRecOn with
  | nil => exact get?_standard Shape.defaultName
  | append_singleton list s ih =>
    rw [ofList_concat, get?_add, ih, add]
    split <;> rfl

end ShapeTable

/-! ## Directives that choose a shape -/

section Choices

variable {shapes : ShapeTable} {path : Path} {ls : List String} {D : Draft}

/-- A reading keeps the facts about the source file. -/
theorem Held.source_eq (h : Held shapes path ls D) : D.page.slots.source = .ofPath path := by
  obtain ⟨bs, rest, -, hreached⟩ := h.reached
  rw [hreached.page, Page.source_after]
  rfl

/-- When no section is open, a directive that chooses a shape of the table is taken, and the page
starts anew in this shape. -/
theorem Held.addLine_choice {line identifier : String} {d : Directive} {s : Shape}
    (h : Held shapes path ls D) (hopen : D.settle.current = none)
    (hline : ofLine line = .ok (some d)) (hkind : d.kind = .shape)
    (hvalue : d.value = some identifier) (hs : shapes.get? identifier = some s) (n : Nat) :
    ∃ D', D.addLine shapes n line = .ok D' ∧ D'.page.slots = .new s path := by
  let c := (Component.ofDirective d n).withText
  have hchoice : c.kind = .shapeChoice d.name identifier := by
    simp [c, Component.kindOf, hkind, hvalue]
  have heffective : c.kind.IsEffective shapes := by
    rw [hchoice]
    exact Option.isSome_iff_exists.2 ⟨s, hs⟩
  have honeLine := ((Directive.lawful_of_ofLine hline).shape hkind).2
  refine ⟨_, Draft.addLine_directive hline (Draft.addSettled_eq_ok_iff.2
    (.oneLine hopen honeLine (Component.effect_eq_ok heffective))), ?_⟩
  rw [Component.takeEffect_shapeChoice hchoice hs, Draft.page_settle]
  exact PageSlots.install_eq_new h.source_eq s

end Choices

/-- **A chosen shape forgets all history.** A table built from a list has the last shape of each
name, the plain page when none has the default name, and its default shape under this name. Whatever
calls changed the slots of a page, installing a shape gives the slots of a new page; so wherever a
directive chooses the default shape, the page has the slots back that the document started with. -/
theorem install_is_fresh (list : List Shape) (path : Path) :
    let shapes := ShapeTable.ofList list
    (∀ name, shapes.get? name = (list.findRev? fun s => s.name == name).or
        (if name = Shape.defaultName then some Shape.plainPage else none)) ∧
      shapes.get? Shape.defaultName = some shapes.default ∧
      (∀ calls s, ((PageSlots.new shapes.default path).performAll calls).install s = .new s path) ∧
      ∀ ls D line d, (Draft.empty shapes path).addLines shapes 1 ls = .ok D →
        D.settle.current = none → ofLine line = .ok (some d) → d.kind = .shape →
        d.value = some Shape.defaultName →
        ∃ D', D.addLine shapes (1 + ls.length) line = .ok D' ∧
          D'.page.slots = (Draft.empty shapes path).page.slots := by
  intro shapes
  refine ⟨fun name => ?_, ShapeTable.get?_default list, fun calls s => ?_, ?_⟩
  · rw [← ShapeTable.get?_standard]
    exact ShapeTable.get?_ofList list name
  · exact PageSlots.install_eq_new ((PageSlots.heldIn_new _ path).performAll calls).source s
  · intro ls D line d hread hopen hline hkind hvalue
    exact (Held.empty.addLines hread).addLine_choice hopen hline hkind hvalue
      (ShapeTable.get?_default list) _

/-- A title is forgotten; the default shape is the one of the list. -/
theorem install_is_fresh_after_title :
    let shapes := ShapeTable.ofList [.ofList "Page" "" [("footer", "Bye")]]
    let start := Draft.empty shapes ⟨"/site/index.html"⟩
    ∃ D D', start.addLines shapes 1 ["<!-- [title -->", "One", "<!-- title] -->"] = .ok D ∧
      D.page.slots.get? "title" = some "One" ∧
      D.addLine shapes 4 "<!-- [class Page] -->" = .ok D' ∧ D'.page.slots = start.page.slots ∧
      D'.page.slots.get? "title" = none ∧ D'.page.slots.get? "footer" = some "Bye" := by
  intro shapes start
  have htest : ((start.addLines shapes 1
      ["<!-- [title -->", "One", "<!-- title] -->"]).toOption.any fun D =>
        decide (D.settle.current = none ∧ D.page.slots.get? "title" = some "One")) = true := by
    decide +kernel
  obtain ⟨D, hread, htest⟩ := exists_ok_of_any htest
  obtain ⟨hopen, htitle⟩ := of_decide_eq_true htest
  have hline : ofLine "<!-- [class Page] -->" = .ok (some (.shapeLine "class" "Page")) := by
    decide +kernel
  obtain ⟨-, -, -, hchoice⟩ :=
    install_is_fresh [.ofList "Page" "" [("footer", "Bye")]] ⟨"/site/index.html"⟩
  obtain ⟨D', hadd, hslots⟩ := hchoice _ D _ _ hread hopen hline rfl rfl
  have hstart : start.page.slots.get? "title" = none ∧
      start.page.slots.get? "footer" = some "Bye" := by decide +kernel
  rw [← hslots] at hstart
  exact ⟨D, D', hread, htitle, hadd, hslots, hstart⟩

end Pagewright
