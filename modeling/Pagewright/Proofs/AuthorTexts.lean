import Pagewright.Proofs.ShownTexts

/-!
# The texts of slots after a pass

A page keeps one text for all the slots of a name, and a choice of a shape forgets it. So with the
standard shapes, which start without slots, a slot is read again with the text of the last slot of
its name since the last choice of a shape, but for carriage returns at line ends
(`parse_render_slot_text`). This is its own text when neither a choice of a shape nor another text
of its name stands after it (`Component.Stays`); the text of any other slot may get lost
(`losesText_examples`).
-/

namespace Pagewright

open Text

namespace Component

/-- Nothing that stands later in a document takes back the text of a slot: no choice of a shape and
no slot of its name with another text. -/
def Stays (name text : String) (later : List Component) : Prop :=
  ∀ d ∈ later, d.choosesShape = false ∧ ∀ display, d.kind = .slot name display → d.text = text

end Component

section LastTexts

variable {before later : List Component} {c : Component} {name : String}

theorem lastText?_of_stays {display : SlotDisplay} (hkind : c.kind = .slot name display)
    (hlater : Component.Stays name c.text later) :
    lastText? name (before ++ c :: later) = some c.text := by
  have hchoice : ∀ d ∈ c :: later, d.choosesShape = false := by
    rintro d (_ | ⟨_, hd⟩)
    · rw [Component.choosesShape, hkind]
    · exact (hlater d hd).1
  have hwrite : c.write? = some ⟨name, some c.text⟩ := by rw [Component.write?, hkind]
  rw [lastText?, lastWrites_append hchoice, SlotWrite.last?_append, List.filterMap_cons, hwrite,
    SlotWrite.last?_cons, if_pos rfl]
  cases hlast : SlotWrite.last? name (later.filterMap Component.write?) with
  | none => rfl
  | some w =>
    obtain ⟨hw, rfl⟩ := SlotWrite.mem_of_last? hlast
    obtain ⟨d, hd, hd'⟩ := List.mem_filterMap.1 hw
    obtain ⟨⟨display', hk⟩, htext⟩ := Component.eq_of_write? hd'
    rw [← (hlater d hd).2 display' hk]
    exact htext

end LastTexts

section Standard

variable {path : Path} {source : String} {doc : Document}

/-- With the standard shapes a slot has the last text of its name, or none. -/
theorem Document.slots_value (hdoc : Document.parse .standard path source = .ok doc) {name : String}
    (hname : isSourceSlot name = false) :
    doc.slots.value name = (lastText? name doc.components).getD "" := by
  have hpreset : (presetSlots .standard path doc.components).value name = "" := by
    obtain ⟨s, hs, hvalue⟩ :=
      exists_presetSlots_value .standard path hname doc.components
    have hdefaults : s = Shape.plainPage := by
      rcases hs with rfl | ⟨n, hn⟩
      · rfl
      · exact ShapeTable.eq_plainPage_of_standard hn
    rw [hvalue, hdefaults]
    rfl
  rw [Document.slots_value_eq hdoc, hpreset]

/-- The values that a document shows with the standard shapes consist of plain lines. -/
theorem Document.hasPlainPieces_shownText
    (hdoc : Document.parse .standard path source = .ok doc) :
    ∀ c ∈ doc.components, HasPlainPieces (c.shownText doc.slots) :=
  Document.hasPlainPieces_of_defaults ShapeTable.hasCleanDefaults_standard.hasPlainDefaults hdoc

/-- **A slot is read again** from the source rendering of a document with the standard shapes: at
the same place, with the same name and display, and with the last text of its name but for carriage
returns at line ends. That is its own text when nothing after it takes it back and none of its lines
ends in a carriage return. -/
theorem parse_render_slot_text (hdoc : Document.parse .standard path source = .ok doc) :
    ∃ doc', Document.parse .standard path (doc.render .source) = .ok doc' ∧
      ∀ before c later name display,
        doc.components = before ++ c :: later → c.kind = .slot name display →
        ∃ c', doc'.components[before.length]? = some c' ∧ c'.kind = .slot name display ∧
          c'.text = Text.dropReturns ((lastText? name doc.components).getD "") ∧
          (Component.Stays name c.text later → (∀ piece ∈ pieces c.text, ¬ EndsInReturn piece) →
            c'.text = c.text) := by
  obtain ⟨doc', hdoc', hagain⟩ :=
    exists_parse_render_of_plain hdoc (Document.hasPlainPieces_shownText hdoc)
  refine ⟨doc', hdoc', fun before c later name display hcomponents hkind => ?_⟩
  obtain ⟨bs, -, hreads, -, -, -⟩ := ofLines_eq_ok_iff.1 hdoc
  have hlength : before.length < doc.components.length := by
    rw [hcomponents, List.length_append, List.length_cons]
    omega
  have hlength' : before.length < doc'.components.length := hagain.length_eq ▸ hlength
  have hc : doc.components[before.length] = c := by simp [hcomponents]
  have hreturns : Component.ReturnsAs doc.slots c doc'.components[before.length] :=
    hc ▸ hagain.get hlength hlength'
  have hname : IsWritable name := by
    have heffective := (hreads.isLawful c (by simp [hcomponents])).isEffective
    rwa [hkind] at heffective
  have htext := hreturns.text
  rw [Component.shownText_slot hkind, Document.slots_value hdoc hname.1] at htext
  refine ⟨_, List.getElem?_eq_getElem hlength', hreturns.kind.trans hkind, htext, ?_⟩
  intro hstays hpieces
  rw [htext, hcomponents, lastText?_of_stays hkind hstays, Option.getD_some,
    dropReturns_of_forall hpieces]

/-- A slot that stands after the choice of a shape keeps its text. -/
theorem parse_render_slot_text_after_choice :
    let parse := Document.parse .standard ⟨"/site/index.html"⟩
    ∃ doc, parse "<!-- [class Page] -->\n<!-- [title -->\nHello\n<!-- title] -->\n" = .ok doc ∧
      ∃ doc', parse (doc.render .source) = .ok doc' ∧
        ∃ c', doc'.components[1]? = some c' ∧ c'.kind = .slot "title" .rendered ∧
          c'.text = "Hello" := by
  intro parse
  let components : List Component := [
    ⟨1, .shapeChoice "class" "Page", ⟨[], some ""⟩⟩,
    ⟨2, .slot "title" .rendered, ⟨["Hello"], some "Hello"⟩⟩]
  have htest : ((parse "<!-- [class Page] -->\n<!-- [title -->\nHello\n<!-- title] -->\n").toOption.any
      fun doc => decide (doc.components = components)) = true := by decide +kernel
  obtain ⟨doc, hdoc, htest⟩ := exists_ok_of_any htest
  have hcomponents := of_decide_eq_true htest
  obtain ⟨doc', hdoc', hslots⟩ := parse_render_slot_text hdoc
  obtain ⟨c', hc', hkind, -, htext⟩ := hslots [_] _ [] "title" .rendered hcomponents rfl
  exact ⟨doc, hdoc, doc', hdoc', c', hc', hkind, htext (fun d hd => nomatch hd) (by decide)⟩

/-- A slot of a document without scripts is read again with another text. -/
def LosesText (path : Path) (source : String) : Prop :=
  ∃ doc doc', Document.parse .standard path source = .ok doc ∧ doc.scripts = [] ∧
    Document.parse .standard path (doc.render .source) = .ok doc' ∧
    ∃ c c', (c, c') ∈ doc.components.zip doc'.components ∧ c.write?.isSome = true ∧
      c'.text ≠ c.text

theorem losesText_of_any (h : ((Document.parse .standard path source).toOption.any fun doc =>
    decide (doc.scripts = []) &&
      (Document.parse .standard path (doc.render .source)).toOption.any fun doc' =>
        (doc.components.zip doc'.components).any fun (c, c') =>
          c.write?.isSome && decide (c'.text ≠ c.text)) = true) : LosesText path source := by
  obtain ⟨doc, hdoc, h⟩ := exists_ok_of_any h
  obtain ⟨hscripts, h⟩ := Bool.and_eq_true_iff.1 h
  obtain ⟨doc', hdoc', h⟩ := exists_ok_of_any h
  obtain ⟨⟨c, c'⟩, hmem, h⟩ := List.any_eq_true.1 h
  obtain ⟨hslot, htext⟩ := Bool.and_eq_true_iff.1 h
  exact ⟨doc, doc', hdoc, of_decide_eq_true hscripts, hdoc', c, c', hmem, hslot,
    of_decide_eq_true htext⟩

end Standard

/-- A text gets lost before the choice of a shape, before another text of its name, and at a line
that ends in a carriage return. -/
theorem losesText_examples :
    LosesText ⟨"/site/index.html"⟩
        "<!-- [title -->\nHello\n<!-- title] -->\n<!-- [class Page] -->\n" ∧
      LosesText ⟨"/site/index.html"⟩
        "<!-- [title -->\nHello\n<!-- title] -->\n<!-- [title -->\nBye\n<!-- title] -->\n" ∧
      LosesText ⟨"/site/index.html"⟩ "<!-- [title -->\nHello\r\r\n<!-- title] -->\n" :=
  ⟨losesText_of_any (by decide +kernel), losesText_of_any (by decide +kernel),
    losesText_of_any (by decide +kernel)⟩

end Pagewright
