import Pagewright.Proofs.CanonicalDocuments
import Pagewright.Proofs.LastShape

/-!
# Defaults and references

A slot on one line is a reference. It is finished as every slot is and sets its slot to its own
text, which is empty (`Reads.text_eq_empty_of_isReference`): a slot that was cleared is read back as
cleared, whatever the shape has for it. So a default of the shape chosen last lasts until the first
reference after the choice, which empties the slot for every place that shows it; a default reaches
the output where all references stand before the choice (`parse_references_empty_default`).
-/

namespace Pagewright

open Text
open Directive (ofLine)

/-- A component that starts and ends on its first line, among the lines of its document. -/
def Component.IsReference (ls : List String) (c : Component) : Prop :=
  (ls[c.start - 1]?.bind Directive.on?).any Directive.isOneLine = true

instance {ls : List String} : DecidablePred (Component.IsReference ls) := fun _ =>
  inferInstanceAs (Decidable (_ = true))

variable {shapes : ShapeTable}

/-! ## References have no text -/

/-- A block whose first line ends its section has nothing between markers. -/
theorem BlockForm.body_eq_nil {b body : List String} {kind : ComponentKind} {line : String}
    {d : Directive} (h : BlockForm shapes b kind body) (hline : line ∈ b.head?)
    (hreads : ofLine line = .ok (some d)) (honeLine : d.isOneLine = true) : body = [] := by
  have hends : d.endsSection = true := by
    rw [Directive.isOneLine, Bool.and_eq_true] at honeLine
    exact honeLine.2
  have hopening : ∀ {opening : String} {e : Directive} {rest : List String},
      line ∈ (opening :: rest).head? → ofLine opening = .ok (some e) → e = d := by
    rintro opening e rest ⟨⟩ hopens
    exact Option.some.inj (Except.ok.inj (hopens.symm.trans hreads))
  cases h with
  | plainText nonempty plain =>
    exact absurd (plain line (List.mem_of_mem_head? hline)) (not_isPlain_of_ofLine hreads)
  | reference => rfl
  | shapeChoice => rfl
  | rendered opens kind starts goesOn =>
    obtain rfl := hopening hline opens
    rw [goesOn] at hends
    cases hends
  | commentOnly opens kind starts goesOn =>
    obtain rfl := hopening hline opens
    rw [goesOn] at hends
    cases hends
  | script opens kind =>
    obtain rfl := hopening hline opens
    rw [((Directive.lawful_of_ofLine opens).script kind).2.2.1] at honeLine
    cases honeLine

theorem Reads.text_eq_empty_of_isReference {bs : List (List String)} {cs : List Component}
    {c : Component} (h : Reads shapes 1 bs cs) (hc : c ∈ cs) (href : c.IsReference bs.flatten) :
    c.text = "" := by
  obtain ⟨i, hi, rfl⟩ := List.getElem_of_mem hc
  have hbs : i < bs.length := by rwa [← h.length_eq]
  have hb : bs[i]? = some bs[i] := List.getElem?_eq_getElem hbs
  obtain ⟨kind, body, hform, heq⟩ := h.getElem? hb (List.getElem?_eq_getElem hi)
  obtain ⟨d, hd, honeLine⟩ := (Option.any_eq_true _ _).1 href
  obtain ⟨line, hline, hon⟩ := Option.bind_eq_some_iff.1 hd
  rw [heq, Component.ofBlock, Nat.add_sub_cancel_left] at hline
  have hhead : line ∈ bs[i].head? := by
    cases hblock : bs[i] with
    | nil => exact absurd hblock hform.ne_nil
    | cons first rest =>
      have hplace := getElem?_flatten_add (k := 0) hb (by rw [hblock]; exact Nat.succ_pos _)
      rw [Nat.add_zero, hline, hblock] at hplace
      exact hplace.symm
  rw [heq, hform.body_eq_nil hhead (Directive.mem_on?_iff.1 hon) honeLine]
  rfl

/-! ## What a document shows of a default -/

theorem Component.render_published_of_rendered {c : Component} {name : String}
    (h : c.kind = .slot name .rendered) (ps : PageSlots) :
    c.render ps .published = if ps.value name = "" then "" else ps.value name ++ "\n" := by
  rw [render, slotValue, h]
  rfl

variable {path : Path} {source : String} {doc : Document} {s : Shape} {later : List Component}
  {name value : String}

/-- A slot that stands after the choice of the shape has a text from there. -/
theorem exists_get?_eq_text (hdoc : Document.parse shapes path source = .ok doc)
    (hlast : LastShape shapes doc.components s later)
    (hslot : ∃ c ∈ later, c.isSlotOf name = true) :
    ∃ c ∈ later, c.isSlotOf name = true ∧ doc.slots.get? name = some c.text := by
  obtain ⟨c, hc, hname⟩ := hslot
  have hsome : (later.reverse.find? (Component.isSlotOf name)).isSome = true :=
    List.find?_isSome.2 ⟨c, List.mem_reverse.2 hc, hname⟩
  obtain ⟨last, hfind⟩ := Option.isSome_iff_exists.1 hsome
  refine ⟨last, List.mem_reverse.1 (List.mem_of_find?_eq_some hfind), List.find?_some hfind, ?_⟩
  rw [get?_of_lastShape hdoc hlast, List.findRev?_eq_find?_reverse, hfind]
  rfl

/-- A slot that does not stand there has what the page of the shape starts with. -/
theorem get?_eq_of_forall_not (hdoc : Document.parse shapes path source = .ok doc)
    (hlast : LastShape shapes doc.components s later)
    (hslot : ∀ c ∈ later, c.isSlotOf name = false) :
    doc.slots.get? name = (PageSlots.new s path).get? name := by
  have hfind : later.reverse.find? (Component.isSlotOf name) = none :=
    List.find?_eq_none.2 fun c hc => Bool.eq_false_iff.1 (hslot c (List.mem_reverse.1 hc))
  rw [get?_of_lastShape hdoc hlast, List.findRev?_eq_find?_reverse, hfind]
  rfl

/-- No component is a slot that describes the source file. -/
theorem isSlotOf_eq_false_of_isSourceSlot (hdoc : Document.parse shapes path source = .ok doc)
    (hname : isSourceSlot name = true) : ∀ c ∈ doc.components, c.isSlotOf name = false := by
  intro c hc
  refine Bool.eq_false_iff.2 fun hslot => ?_
  obtain ⟨display, hkind⟩ := Component.isSlotOf_iff.1 hslot
  have hwritable := isEffective_of_parse hdoc c hc
  rw [hkind] at hwritable
  rw [hwritable.1] at hname
  cases hname

/-- **A reference empties a default.** When all slots of a name after the choice of the last shape
are references, the slot is empty as soon as there is one, and all of its places show nothing. When
there is none, the slot has the default of the shape, which is shown where the slot stands before
the choice. A default never replaces what describes the source file. -/
theorem parse_references_empty_default (hdoc : Document.parse shapes path source = .ok doc)
    (hlast : LastShape shapes doc.components s later) (hdefault : s.defaults[name]? = some value)
    (hvalue : value ≠ "")
    (hrefs : ∀ c ∈ later, c.isSlotOf name = true → c.IsReference (lines source)) :
    ((∃ c ∈ later, c.isSlotOf name = true) →
      doc.slots.get? name = some "" ∧ ∀ c ∈ doc.components, c.kind = .slot name .rendered →
        c.render doc.slots .published = "") ∧
    ((∀ c ∈ later, c.isSlotOf name = false) → isSourceSlot name = false →
      doc.slots.get? name = some value ∧ ∀ c ∈ doc.components, c.kind = .slot name .rendered →
        c.render doc.slots .published = value ++ "\n") ∧
    (isSourceSlot name = true →
      doc.slots.get? name = (PageSlots.sourceSlots (.ofPath path))[name]?) := by
  have hshown : ∀ v, doc.slots.get? name = some v → ∀ c ∈ doc.components,
      c.kind = .slot name .rendered →
        c.render doc.slots .published = if v = "" then "" else v ++ "\n" := by
    intro v hv c _ hkind
    rw [Component.render_published_of_rendered hkind, PageSlots.value, hv, Option.getD_some]
  refine ⟨fun hslot => ?_, fun hslot hname => ?_, fun hname => ?_⟩
  · obtain ⟨bs, hflatten, hreads, -, -, -⟩ := ofLines_eq_ok_iff.1 hdoc
    obtain ⟨last, hmem, hof, hget⟩ := exists_get?_eq_text hdoc hlast hslot
    have htext : last.text = "" :=
      hreads.text_eq_empty_of_isReference (hlast.subset hmem) (hflatten ▸ hrefs last hmem hof)
    rw [htext] at hget
    exact ⟨hget, fun c hc hkind => (hshown "" hget c hc hkind).trans (if_pos rfl)⟩
  · have hget : doc.slots.get? name = some value := by
      rw [get?_eq_of_forall_not hdoc hlast hslot, PageSlots.get?, PageSlots.new, PageSlots.ofFacts,
        PageSlots.getElem?_startingSlots hname, hdefault]
    exact ⟨hget, fun c hc hkind => (hshown value hget c hc hkind).trans (if_neg hvalue)⟩
  · rw [get?_eq_of_forall_not hdoc hlast fun c hc =>
      isSlotOf_eq_false_of_isSourceSlot hdoc hname c (hlast.subset hc)]
    exact PageSlots.getElem?_startingSlots_of_isSourceSlot hname

/-- The section of an article, which stands before the choice of the shape, without and with a
reference to it after the choice. -/
theorem parse_references_empty_default_article :
    let article := Shape.ofList "Article" "" [("section", "news")]
    let parse := Document.parse (.ofList [article]) ⟨"/site/index.html"⟩
    ∃ doc doc', parse "<!-- [section] -->\n<!-- [class Article] -->\n" = .ok doc ∧
      parse "<!-- [section] -->\n<!-- [class Article] -->\n<!-- [section] -->\n" = .ok doc' ∧
      doc.slots.get? "section" = some "news" ∧ doc.render .published = "news\n" ∧
      doc'.slots.get? "section" = some "" ∧ doc'.render .published = "" := by
  intro article parse
  let reference (start : Nat) : Component := ⟨start, .slot "section" .rendered, ⟨[], some ""⟩⟩
  let components (later : List Component) : List Component :=
    [reference 1] ++ ⟨2, .shapeChoice "class" "Article", ⟨[], some ""⟩⟩ :: later
  have htest : ((parse "<!-- [section] -->\n<!-- [class Article] -->\n").toOption.any fun doc =>
      decide (doc.components = components [] ∧ doc.render .published = "news\n")) = true := by
    decide +kernel
  have htest' : ((parse
      "<!-- [section] -->\n<!-- [class Article] -->\n<!-- [section] -->\n").toOption.any fun doc =>
        decide (doc.components = components [reference 3] ∧ doc.render .published = "")) = true := by
    decide +kernel
  obtain ⟨doc, hdoc, htest⟩ := exists_ok_of_any htest
  obtain ⟨doc', hdoc', htest'⟩ := exists_ok_of_any htest'
  obtain ⟨hcs, hpublished⟩ := of_decide_eq_true htest
  obtain ⟨hcs', hpublished'⟩ := of_decide_eq_true htest'
  have hknown : (ShapeTable.ofList [article]).get? "Article" = some article :=
    Std.ExtTreeMap.getElem?_insert_self
  have hdefault : article.defaults["section"]? = some "news" := Std.ExtTreeMap.getElem?_insert_self
  have hlast : LastShape (.ofList [article]) doc.components article [] :=
    .chosen hcs rfl hknown nofun
  have hlast' : LastShape (.ofList [article]) doc'.components article [reference 3] :=
    .chosen hcs' rfl hknown (by decide)
  obtain ⟨-, hkept, -⟩ :=
    parse_references_empty_default hdoc hlast hdefault (by decide) nofun
  obtain ⟨hemptied, -, -⟩ :=
    parse_references_empty_default hdoc' hlast' hdefault (by decide) (by decide +kernel)
  exact ⟨doc, doc', hdoc, hdoc', (hkept nofun rfl).1, hpublished,
    (hemptied ⟨reference 3, List.mem_singleton_self _, rfl⟩).1, hpublished'⟩

/-- A default does not reach the reference that follows the choice of its shape. -/
theorem not_parse_default_reaches_reference :
    let article := Shape.ofList "Article" "" [("section", "news")]
    let source := "<!-- [class Article] -->\n<!-- [section] -->\n"
    ∃ doc later, Document.parse (.ofList [article]) ⟨"/site/index.html"⟩ source = .ok doc ∧
      LastShape (.ofList [article]) doc.components article later ∧ namesSlot "section" = true ∧
      article.defaults["section"]? = some "news" ∧
      (∀ c ∈ later, c.isSlotOf "section" = true → c.IsReference (lines source)) ∧
      doc.slots.get? "section" ≠ some "news" ∧ doc.render .published = "" := by
  intro article source
  let later : List Component := [⟨2, .slot "section" .rendered, ⟨[], some ""⟩⟩]
  have htest : ((Document.parse (.ofList [article]) ⟨"/site/index.html"⟩ source).toOption.any
      fun doc => decide (
        doc.components = [] ++ ⟨1, .shapeChoice "class" "Article", ⟨[], some ""⟩⟩ :: later ∧
        doc.slots.get? "section" ≠ some "news" ∧ doc.render .published = "")) = true := by
    decide +kernel
  obtain ⟨doc, hdoc, htest⟩ := exists_ok_of_any htest
  obtain ⟨hcs, hslot, hpublished⟩ := of_decide_eq_true htest
  have hknown : (ShapeTable.ofList [article]).get? "Article" = some article :=
    Std.ExtTreeMap.getElem?_insert_self
  exact ⟨doc, later, hdoc, .chosen hcs rfl hknown (by decide), by decide,
    Std.ExtTreeMap.getElem?_insert_self, by decide +kernel, hslot, hpublished⟩

end Pagewright
