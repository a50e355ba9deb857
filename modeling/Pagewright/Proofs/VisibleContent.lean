import Pagewright.Proofs.LastShape
import Pagewright.Proofs.ShownTexts

/-!
# What a visitor sees

The published rendering consists of lines of the plain text and of rendered slots
(`Document.render_published`). Where the shapes give plain lines no directive is left in it, and it
is read as plain text (`exists_parse_plain`). It says nothing of what is hidden either. Two documents
may differ in scripts and in comment-only slots whose names no rendered slot has
(`Component.Resembles`): the pages that they build agree on the slots that are shown
(`AgreeOn.after`), so their published renderings are the same (`published_shows_visible`).
-/

namespace Pagewright

open Text
open Directive (IsPlain)

/-! ## The lines of a published rendering -/

/-- The lines of the published rendering of a component whose slot, if it is one, has `value`. -/
def ComponentKind.publishedLines (text value : String) : ComponentKind → List String
  | .plainText => pieces text
  | .slot _ .rendered => if value = "" then [] else pieces value
  | _ => []

/-- The lines of the published rendering of a component. -/
def Component.publishedLines (ps : PageSlots) (c : Component) : List String :=
  c.kind.publishedLines c.text (c.slotValue ps)

/-- **A published rendering is whole lines.** -/
theorem publishedText_eq_writeLines (kind : ComponentKind) (text value : String) :
    kind.publishedText text value = writeLines (kind.publishedLines text value) := by
  cases kind with
  | plainText => exact (writeLines_pieces text).symm
  | script keyword => rfl
  | shapeChoice keyword identifier => rfl
  | slot name display =>
    cases display with
    | commentOnly => rfl
    | rendered =>
      rw [ComponentKind.publishedText, ComponentKind.publishedLines]
      split
      · rfl
      · exact (writeLines_pieces value).symm

/-- Only what the source rendering shows is published. -/
theorem ComponentKind.publishedLines_subset (kind : ComponentKind) (text value : String) :
    kind.publishedLines text value ⊆ pieces (kind.shownText text value) := by
  cases kind with
  | plainText => exact List.Subset.refl _
  | script keyword => exact List.nil_subset _
  | shapeChoice keyword identifier => exact List.nil_subset _
  | slot name display =>
    cases display with
    | commentOnly => exact List.nil_subset _
    | rendered =>
      rw [publishedLines]
      split
      · exact List.nil_subset _
      · exact List.Subset.refl _

theorem Document.render_published (doc : Document) :
    doc.render .published =
      writeLines (doc.components.map (Component.publishedLines doc.slots)).flatten := by
  rw [Document.render, renderComponents, writeLines_flatten, List.map_map]
  exact congrArg String.join (List.map_congr_left fun c _ => publishedText_eq_writeLines c.kind _ _)

/-- What holds of the pieces of all texts that a document shows holds of what it publishes. -/
theorem Document.forall_mem_publishedLines {P : String → Prop} {doc : Document}
    (h : ∀ c ∈ doc.components, ∀ piece ∈ pieces (c.shownText doc.slots), P piece) :
    ∀ l ∈ (doc.components.map (Component.publishedLines doc.slots)).flatten, P l := by
  intro l hl
  obtain ⟨ls, hls, hl⟩ := List.mem_flatten.1 hl
  obtain ⟨c, hc, rfl⟩ := List.mem_map.1 hls
  exact h c hc l (c.kind.publishedLines_subset _ _ hl)

/-! ## Plain lines -/

/-- Plain lines that are written are read as plain text, or as nothing when there are none. -/
theorem exists_parse_plain (shapes : ShapeTable) (path : Path) {ls : List String}
    (hplain : ∀ l ∈ ls, IsPlain l) (hfeed : ∀ l ∈ ls, '\n' ∉ l.toList) :
    ∃ doc, Document.parse shapes path (writeLines ls) = .ok doc ∧ doc.components.length ≤ 1 ∧
      ∀ c ∈ doc.components, c.kind = .plainText := by
  cases ls with
  | nil => exact ⟨_, parse_writeLines .nil List.isChain_nil nofun, Nat.zero_le 1, nofun⟩
  | cons l ls =>
    have hblock : BlockForm shapes (l :: ls) .plainText (l :: ls) :=
      .plainText (List.cons_ne_nil l ls) hplain
    have hreads : Reads shapes 1 [l :: ls] [.ofBlock 1 .plainText (l :: ls)] := .cons hblock .nil
    have hflatten : [l :: ls].flatten = l :: ls := List.flatten_singleton
    rw [← hflatten] at hfeed ⊢
    refine ⟨_, parse_writeLines hreads (List.isChain_singleton _) hfeed, Nat.le_refl 1, ?_⟩
    intro c hc
    rw [List.mem_singleton.1 hc]
    rfl

/-! ## What is not seen -/

/-- A visitor sees the slot of a name. -/
def Document.Shows (doc : Document) (name : String) : Prop :=
  ∃ c ∈ doc.components, c.kind = .slot name .rendered

/-- Components that differ in nothing but what no visitor sees when these slots are shown: a script,
the keyword before the name of a shape or the text of a comment-only slot. -/
inductive Component.Resembles (shown : String → Prop) (c c' : Component) : Prop
  | plainText (kind : c.kind = .plainText) (kind' : c'.kind = .plainText) (text : c'.text = c.text)
  | script {keyword keyword' : String} (kind : c.kind = .script keyword)
      (kind' : c'.kind = .script keyword')
  | shapeChoice {keyword keyword' identifier : String} (kind : c.kind = .shapeChoice keyword identifier)
      (kind' : c'.kind = .shapeChoice keyword' identifier)
  | rendered {name : String} (kind : c.kind = .slot name .rendered)
      (kind' : c'.kind = .slot name .rendered) (text : c'.text = c.text)
  | commentOnly {name : String} (kind : c.kind = .slot name .commentOnly)
      (kind' : c'.kind = .slot name .commentOnly) (text : shown name → c'.text = c.text)

/-- Slots of one source file that have the same values where they are shown. -/
structure PageSlots.AgreeOn (shown : String → Prop) (ps qs : PageSlots) : Prop where
  source : qs.source = ps.source
  get? : ∀ name, shown name → qs.get? name = ps.get? name

section

variable {shapes : ShapeTable} {shown : String → Prop} {ps qs : PageSlots} {page page' : Page}
  {c c' : Component} {cs cs' : List Component}

theorem PageSlots.AgreeOn.refl : ps.AgreeOn shown ps :=
  ⟨rfl, fun _ _ => rfl⟩

/-- Slots agree after texts for one of them that are the same if it is shown. -/
theorem PageSlots.AgreeOn.insert {name text text' : String} (h : ps.AgreeOn shown qs)
    (htext : shown name → text' = text) :
    PageSlots.AgreeOn shown { ps with values := ps.values.insert name text }
      { qs with values := qs.values.insert name text' } := by
  refine ⟨h.source, fun other hother => ?_⟩
  rw [PageSlots.get?, PageSlots.get?, SlotValues.getElem?_insert_eq,
    SlotValues.getElem?_insert_eq]
  by_cases hname : name = other
  · rw [if_pos hname, if_pos hname, htext (hname ▸ hother)]
  · rw [if_neg hname, if_neg hname]
    exact h.get? other hother

/-- **Agreement is kept** when components that resemble each other take effect. -/
theorem PageSlots.AgreeOn.takeEffect (h : page.slots.AgreeOn shown page'.slots)
    (hc : c.kind.IsEffective shapes) (hresembles : c.Resembles shown c') :
    (c.takeEffect shapes page).slots.AgreeOn shown (c'.takeEffect shapes page').slots := by
  cases hresembles with
  | plainText kind kind' =>
    rw [Component.takeEffect_plainText kind, Component.takeEffect_plainText kind']
    exact h
  | script kind kind' =>
    rw [Component.takeEffect_script kind, Component.takeEffect_script kind']
    exact h
  | shapeChoice kind kind' =>
    rw [kind] at hc
    obtain ⟨s, hs⟩ := Option.isSome_iff_exists.1 hc
    rw [Component.takeEffect_shapeChoice kind hs, Component.takeEffect_shapeChoice kind' hs,
      PageSlots.install, PageSlots.install, h.source]
    exact .refl
  | rendered kind kind' text =>
    rw [kind] at hc
    rw [Component.takeEffect_slot kind hc, Component.takeEffect_slot kind' hc]
    exact h.insert fun _ => text
  | commentOnly kind kind' text =>
    rw [kind] at hc
    rw [Component.takeEffect_slot kind hc, Component.takeEffect_slot kind' hc]
    exact h.insert text

theorem PageSlots.AgreeOn.after (h : page.slots.AgreeOn shown page'.slots)
    (hcs : ∀ c ∈ cs, c.kind.IsEffective shapes)
    (hresemble : List.Forall₂ (Component.Resembles shown) cs cs') :
    (page.after shapes cs).slots.AgreeOn shown (page'.after shapes cs').slots := by
  induction hresemble generalizing page page' with
  | nil => exact h
  | cons head tail ih =>
    rw [Page.after_cons, Page.after_cons]
    exact ih (h.takeEffect (hcs _ List.mem_cons_self) head)
      fun d hd => hcs d (List.mem_cons_of_mem _ hd)

theorem Component.Resembles.publishedLines_eq (h : c.Resembles shown c')
    (hslots : ps.AgreeOn shown qs) (hshown : ∀ name, c.kind = .slot name .rendered → shown name) :
    c'.publishedLines qs = c.publishedLines ps := by
  rw [Component.publishedLines, Component.publishedLines]
  cases h with
  | plainText kind kind' text => rw [kind, kind', text]; rfl
  | script kind kind' => rw [kind, kind']; rfl
  | shapeChoice kind kind' => rw [kind, kind']; rfl
  | @rendered name kind kind' =>
    have hvalue : c'.slotValue qs = c.slotValue ps := by
      rw [Component.slotValue, kind', Component.slotValue, kind]
      exact congrArg (·.getD "") (hslots.get? name (hshown name kind))
    rw [kind, kind', hvalue]
    rfl
  | commentOnly kind kind' => rw [kind, kind']; rfl

theorem map_publishedLines_of_resembles (h : List.Forall₂ (Component.Resembles shown) cs cs')
    (hslots : ps.AgreeOn shown qs)
    (hshown : ∀ c ∈ cs, ∀ name, c.kind = .slot name .rendered → shown name) :
    cs'.map (Component.publishedLines qs) = cs.map (Component.publishedLines ps) := by
  induction h with
  | nil => rfl
  | @cons c c' cs cs' head tail ih =>
    rw [List.map_cons, List.map_cons, ih fun d hd => hshown d (List.mem_cons_of_mem _ hd),
      head.publishedLines_eq hslots (hshown c List.mem_cons_self)]

end

/-! ## Documents -/

variable {shapes : ShapeTable} {path : Path} {source : String} {doc : Document}

/-- Documents whose components resemble each other end with slots that agree where they are shown. -/
theorem agreeOn_of_resembles {source' : String} {doc' : Document}
    (hdoc : Document.parse shapes path source = .ok doc)
    (hdoc' : Document.parse shapes path source' = .ok doc') {shown : String → Prop}
    (h : List.Forall₂ (Component.Resembles shown) doc.components doc'.components) :
    doc.slots.AgreeOn shown doc'.slots := by
  obtain ⟨-, -, -, -, -, hpage⟩ := ofLines_eq_ok_iff.1 hdoc
  obtain ⟨-, -, -, -, -, hpage'⟩ := ofLines_eq_ok_iff.1 hdoc'
  rw [Document.slots, hpage, Document.slots, hpage']
  exact PageSlots.AgreeOn.refl.after (isEffective_of_parse hdoc) h

/-- **The published rendering shows what is visible and nothing else.** Where the shapes give plain
lines, no directive is left in it: it is read as at most one component, and that is plain text. And
documents whose components differ only in scripts and in comment-only slots that are shown nowhere
have the same published rendering. -/
theorem published_shows_visible (hdoc : Document.parse shapes path source = .ok doc) :
    (shapes.HasPlainDefaults →
      (∀ l ∈ lines (doc.render .published), IsPlain l) ∧
        ∃ again, Document.parse shapes path (doc.render .published) = .ok again ∧
          again.components.length ≤ 1 ∧ ∀ c ∈ again.components, c.kind = .plainText) ∧
      ∀ source' doc', Document.parse shapes path source' = .ok doc' →
        List.Forall₂ (Component.Resembles doc.Shows) doc.components doc'.components →
          doc'.render .published = doc.render .published := by
  constructor
  · intro hdefaults
    have hplain := Document.forall_mem_publishedLines (doc.hasPlainPieces_of_defaults hdefaults hdoc)
    have hfeed : ∀ l ∈ (doc.components.map (Component.publishedLines doc.slots)).flatten,
        '\n' ∉ l.toList :=
      Document.forall_mem_publishedLines fun _ _ _ => not_mem_pieces
    rw [Document.render_published]
    refine ⟨fun l hl => ?_, exists_parse_plain shapes path hplain hfeed⟩
    rw [lines_writeLines_map hfeed] at hl
    obtain ⟨m, hm, rfl⟩ := List.mem_map.1 hl
    rw [IsPlain, ofLine_dropReturn]
    exact hplain m hm
  · intro source' doc' hdoc' hresemble
    rw [Document.render_published, Document.render_published,
      map_publishedLines_of_resembles hresemble (agreeOn_of_resembles hdoc hdoc' hresemble)
        fun c hc _ hkind => ⟨c, hc, hkind⟩]

/-- Another note and another script. The note is comment-only and no rendered slot has its name. -/
theorem published_shows_visible_notes :
    let source (note command : String) := "<!-- [note\n" ++ note ++ "\nnote] -->\n" ++
      "<!-- [title -->\nHello\n<!-- title] -->\n<!-- [script\n" ++ command ++ "\nscript] -->\nBye\n"
    ∃ doc doc', Document.parse .standard ⟨"/site/index.html"⟩ (source "first" "a") = .ok doc ∧
      Document.parse .standard ⟨"/site/index.html"⟩ (source "second" "b") = .ok doc' ∧
      doc.slots.get? "note" ≠ doc'.slots.get? "note" ∧
      doc.render .published = "Hello\nBye\n" ∧ doc'.render .published = "Hello\nBye\n" ∧
      ∀ l ∈ lines (doc.render .published), IsPlain l := by
  intro source
  let components (note command : String) : List Component :=
    [⟨1, .slot "note" .commentOnly, ⟨[note], some note⟩⟩,
      ⟨4, .slot "title" .rendered, ⟨["Hello"], some "Hello"⟩⟩,
      ⟨7, .script "script", ⟨[command], some command⟩⟩, ⟨10, .plainText, ⟨["Bye"], some "Bye"⟩⟩]
  have htest : ((Document.parse .standard ⟨"/site/index.html"⟩ (source "first" "a")).toOption.any
      fun doc => decide (doc.components = components "first" "a" ∧
        doc.slots.get? "note" = some "first" ∧ doc.render .published = "Hello\nBye\n")) = true := by
    decide +kernel
  have htest' : ((Document.parse .standard ⟨"/site/index.html"⟩ (source "second" "b")).toOption.any
      fun doc => decide (doc.components = components "second" "b" ∧
        doc.slots.get? "note" = some "second")) = true := by
    decide +kernel
  obtain ⟨doc, hdoc, htest⟩ := exists_ok_of_any htest
  obtain ⟨doc', hdoc', htest'⟩ := exists_ok_of_any htest'
  obtain ⟨hcs, hnote, hpublished⟩ := of_decide_eq_true htest
  obtain ⟨hcs', hnote'⟩ := of_decide_eq_true htest'
  obtain ⟨hplain, hsame⟩ := published_shows_visible hdoc
  have hhidden : ¬ doc.Shows "note" := by
    rw [Document.Shows, hcs]
    decide
  have hresemble : List.Forall₂ (Component.Resembles doc.Shows) doc.components doc'.components := by
    rw [hcs, hcs']
    exact .cons (.commentOnly rfl rfl fun h => absurd h hhidden) <| .cons (.rendered rfl rfl rfl) <|
      .cons (.script rfl rfl) <| .cons (.plainText rfl rfl rfl) .nil
  refine ⟨doc, doc', hdoc, hdoc', by rw [hnote, hnote']; decide, hpublished, ?_,
    (hplain ShapeTable.hasCleanDefaults_standard.hasPlainDefaults).1⟩
  rw [hsame _ doc' hdoc' hresemble, hpublished]

end Pagewright
