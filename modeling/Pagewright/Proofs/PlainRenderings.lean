import Pagewright.Proofs.LineEnds
import Pagewright.Proofs.Reread

/-!
# Reading the rendering of other slot values

The slots of a document may have changed since it was read. Its source rendering with other slots is
read again as components of the same kinds when every value that it shows consists of plain lines
(`exists_parse_render_of_plain`), whatever ends these lines: a carriage return before a line feed is
all that such a text loses. Clean values come back as they are, and the page that the reading builds
agrees with the one that the document had (`exists_parse_render_of_clean`).
-/

namespace Pagewright

open Text
open Directive (IsPlain)

namespace Component

/-- A component that is read again from the source rendering of another one, with the text that is
shown there but for carriage returns at line ends. -/
structure ReturnsAs (ps : PageSlots) (c c' : Component) : Prop where
  kind : c'.kind = c.kind
  text : c'.text = Text.dropReturns (c.shownText ps)

end Component

variable {shapes : ShapeTable} {path : Path} {source : String} {doc : Document} {ps : PageSlots}

/-! ## The texts that come back -/

theorem joinLines_map_dropReturn {ls : List String} (h : ∀ l ∈ ls, '\n' ∉ l.toList) :
    joinLines (ls.map dropReturn) = Text.dropReturns (joinLines ls) := by
  cases ls with
  | nil => rfl
  | cons l ls => rw [Text.dropReturns, pieces_joinLines (List.cons_ne_nil l ls) h]

theorem Reads.text_dropReturns {n : Nat} {bs : List (List String)} {cs : List Component}
    (h : Reads shapes n bs cs) (hfeed : ∀ l ∈ bs.flatten, '\n' ∉ l.toList) :
    ∀ c ∈ cs, c.dropReturns.text = Text.dropReturns c.text := by
  intro c hc
  rw [h.text_eq c hc]
  exact joinLines_map_dropReturn fun l hl => (h.forall_mem_body hfeed c hc l hl).2

/-- The texts of components that were read consist of plain lines. -/
theorem Reads.hasPlainPieces {n : Nat} {bs : List (List String)} {cs : List Component}
    (h : Reads shapes n bs cs) (hfeed : ∀ l ∈ bs.flatten, '\n' ∉ l.toList) :
    ∀ c ∈ cs, HasPlainPieces c.text := by
  intro c hc
  rw [h.text_eq c hc]
  exact hasPlainPieces_joinLines (h.forall_mem_body hfeed c hc)

theorem returnsAs_of_rereads {cs cs' : List Component}
    (h : List.Forall₂ (Component.Rereads ps) cs cs')
    (htext : ∀ c ∈ cs', c.dropReturns.text = Text.dropReturns c.text) :
    List.Forall₂ (Component.ReturnsAs ps) cs (cs'.map Component.dropReturns) := by
  induction h with
  | nil => exact .nil
  | @cons c c' cs cs' head tail ih =>
    refine .cons ⟨head.kind, ?_⟩ (ih fun d hd => htext d (List.mem_cons_of_mem _ hd))
    rw [htext c' List.mem_cons_self, head.text]

theorem map_kind_of_returnsAs {cs cs' : List Component}
    (h : List.Forall₂ (Component.ReturnsAs ps) cs cs') :
    cs'.map Component.kind = cs.map Component.kind := by
  induction h with
  | nil => rfl
  | cons head tail ih => rw [List.map_cons, List.map_cons, head.kind, ih]

/-! ## The rendering is read again -/

theorem Document.render_withSlots (doc : Document) (ps : PageSlots) :
    (doc.withSlots ps).render .source =
      writeLines (doc.components.map (Component.sourceLines ps)).flatten :=
  Document.render_source (doc.withSlots ps)

theorem not_mem_flatten_sourceLines {cs : List Component} (ps : PageSlots)
    (hcs : ∀ c ∈ cs, c.kind.IsLawful shapes) :
    ∀ l ∈ (cs.map (Component.sourceLines ps)).flatten, '\n' ∉ l.toList := by
  intro l hl
  obtain ⟨ls, hls, hl⟩ := List.mem_flatten.1 hl
  obtain ⟨c, hc, rfl⟩ := List.mem_map.1 hls
  exact not_mem_sourceLines (hcs c hc) l hl

/-- **A rendering that shows plain lines is read again** as components of the same kinds, each with
the text that is shown for it but for carriage returns at line ends. -/
theorem exists_parse_render_of_plain (hdoc : Document.parse shapes path source = .ok doc)
    (hplain : ∀ c ∈ doc.components, HasPlainPieces (c.shownText ps)) :
    ∃ doc', Document.parse shapes path ((doc.withSlots ps).render .source) = .ok doc' ∧
      List.Forall₂ (Component.ReturnsAs ps) doc.components doc'.components := by
  obtain ⟨bs, -, hreads, hapart, -, -⟩ := ofLines_eq_ok_iff.1 hdoc
  obtain ⟨cs, hreads', hagain⟩ := exists_reads_of_plain hreads.isLawful hplain 1
  have hfeed := not_mem_flatten_sourceLines ps hreads.isLawful
  rw [Document.render_withSlots]
  exact ⟨_, parse_writeLines hreads' (apart_of_rereads hagain hapart) hfeed,
    returnsAs_of_rereads hagain (hreads'.text_dropReturns hfeed)⟩

theorem rereads_of_returnsAs {cs cs' : List Component}
    (h : List.Forall₂ (Component.ReturnsAs ps) cs cs')
    (hclean : ∀ c ∈ cs, IsClean (c.shownText ps)) :
    List.Forall₂ (Component.Rereads ps) cs cs' := by
  induction h with
  | nil => exact .nil
  | @cons c c' cs cs' head tail ih =>
    refine .cons ⟨head.kind, ?_⟩ (ih fun d hd => hclean d (List.mem_cons_of_mem _ hd))
    rw [head.text]
    exact dropReturns_of_forall fun piece hpiece =>
      (hclean c List.mem_cons_self piece hpiece).2

/-- **A rendering that shows clean texts is read again** as the same components with the texts that
it shows, and they build a page that agrees with that of the document. -/
theorem exists_parse_render_of_clean (hdoc : Document.parse shapes path source = .ok doc)
    (hclean : ∀ c ∈ doc.components, IsClean (c.shownText ps)) :
    ∃ doc', Document.parse shapes path ((doc.withSlots ps).render .source) = .ok doc' ∧
      List.Forall₂ (Component.Rereads ps) doc.components doc'.components ∧
      Agrees ps doc.page doc'.page := by
  obtain ⟨doc', hdoc', hreturns⟩ :=
    exists_parse_render_of_plain hdoc fun c hc => (hclean c hc).hasPlainPieces
  have hagain := rereads_of_returnsAs hreturns hclean
  obtain ⟨bs, -, hreads, -, -, hpage⟩ := ofLines_eq_ok_iff.1 hdoc
  obtain ⟨bs', -, -, -, -, hpage'⟩ := ofLines_eq_ok_iff.1 hdoc'
  have hstart : Agrees ps (Page.start shapes path) (Page.start shapes path) := .refl
  have hend := hstart.after (fun c hc => (hreads.isLawful c hc).isEffective) hagain
  rw [← hpage, ← hpage'] at hend
  exact ⟨doc', hdoc', hagain, hend⟩

end Pagewright
