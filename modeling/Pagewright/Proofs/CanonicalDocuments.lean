import Pagewright.Proofs.Reread

/-!
# Canonical documents

A document is canonical when it stands as a source rendering would write it
(`Document.IsCanonical`): its lines end in line feeds, its directives have their normal spacing, no
block is one that a rendering shortens or spells in another way, and its slots have the texts that
the page has for them. Each block is then the rendering of its component
(`BlockForm.eq_sourceLines`), so a canonical document is rendered as it was
(`render_of_isCanonical`).
-/

namespace Pagewright

open Text
open Directive (ofLine IsPlain)

/-- The directive on a line, if there is one. -/
def Directive.on? (line : String) : Option Directive :=
  (ofLine line).toOption.join

theorem Directive.mem_on?_iff {line : String} {d : Directive} :
    d ∈ Directive.on? line ↔ ofLine line = .ok (some d) := by
  rw [Directive.on?, Option.mem_def]
  cases ofLine line with
  | error v => exact ⟨nofun, nofun⟩
  | ok r =>
    rw [Except.ok.injEq]
    rfl

/-- What sets a canonical block apart, beside the spacing of its directives: the directives of its
first and last line, the lines between them and the value that the page has for its slot. -/
def ComponentKind.IsCanonical (opening closing : Option Directive) (body : List String)
    (value : String) : ComponentKind → Prop
  | .plainText => True
  | .shapeChoice _ _ => True
  | .script keyword => body ≠ [] ∧ ∀ d ∈ closing, d.name = keyword
  | .slot _ .rendered =>
    joinLines body = value ∧ ∀ d ∈ opening, d.endsSection = false → joinLines body ≠ ""
  | .slot _ .commentOnly => joinLines body = value ∧ body ≠ []

instance {opening closing : Option Directive} {body : List String} {value : String} :
    DecidablePred (ComponentKind.IsCanonical opening closing body value)
  | .plainText => inferInstanceAs (Decidable True)
  | .shapeChoice _ _ => inferInstanceAs (Decidable True)
  | .script keyword => inferInstanceAs (Decidable (body ≠ [] ∧ ∀ d ∈ closing, d.name = keyword))
  | .slot _ .rendered => inferInstanceAs (Decidable
      (joinLines body = value ∧ ∀ d ∈ opening, d.endsSection = false → joinLines body ≠ ""))
  | .slot _ .commentOnly => inferInstanceAs (Decidable (joinLines body = value ∧ body ≠ []))

/-- A component whose block, among the lines of its document, is a canonical one. -/
def Component.IsCanonical (ls : List String) (ps : PageSlots) (c : Component) : Prop :=
  c.kind.IsCanonical (ls[c.start - 1]?.bind Directive.on?)
    (ls[c.start + c.body.lines.length]?.bind Directive.on?) c.body.lines (c.slotValue ps)

instance {ls : List String} {ps : PageSlots} : DecidablePred (Component.IsCanonical ls ps) :=
  fun c => inferInstanceAs (Decidable (c.kind.IsCanonical _ _ c.body.lines (c.slotValue ps)))

/-- A document that stands in its source as a rendering would write it. -/
structure Document.IsCanonical (doc : Document) (source : String) : Prop where
  last : EndsLastLine source
  noReturn : ¬ ['\r', '\n'] <:+: source.toList
  spacing : ∀ line ∈ lines source, ∀ d ∈ Directive.on? line, line = d.text
  blocks : ∀ c ∈ doc.components, c.IsCanonical (lines source) doc.slots

variable {shapes : ShapeTable}

/-! ## Blocks -/

/-- **A canonical block is the rendering of its component.** -/
theorem BlockForm.eq_sourceLines {b body : List String} {kind : ComponentKind} {value : String}
    {opening closing : Option Directive} (h : BlockForm shapes b kind body)
    (hspacing : ∀ line ∈ b, ∀ d ∈ Directive.on? line, line = d.text)
    (hfeed : ∀ line ∈ b, '\n' ∉ line.toList)
    (hopening : ∀ line ∈ b.head?, Directive.on? line = opening)
    (hclosing : ∀ line ∈ b[body.length + 1]?, Directive.on? line = closing)
    (hcanonical : kind.IsCanonical opening closing body value) :
    b = kind.sourceLines (joinLines body) value := by
  have htext : ∀ {line : String} {d : Directive}, line ∈ b → ofLine line = .ok (some d) →
      line = d.text := fun hline hreads => hspacing _ hline _ (Directive.mem_on?_iff.2 hreads)
  have hpieces : body ≠ [] → pieces (joinLines body) = body := fun hne =>
    pieces_joinLines hne fun line hline => hfeed line (h.mem_of_mem_body hline)
  cases h with
  | plainText nonempty plain => exact (hpieces nonempty).symm
  | reference reads kind oneLine =>
    obtain ⟨rfl, -⟩ := hcanonical
    rw [ComponentKind.sourceLines, if_pos ⟨rfl, rfl⟩,
      ← (Directive.lawful_of_ofLine reads).eq_reference kind oneLine,
      ← htext List.mem_cons_self reads]
  | shapeChoice reads kind value =>
    rw [ComponentKind.sourceLines, ← (Directive.lawful_of_ofLine reads).eq_shapeLine kind value,
      ← htext List.mem_cons_self reads]
  -- A rendered slot without a text would come back on one line.
  | @rendered first last body d e opens kind starts goesOn visible plain closes ends name reopens =>
    have kind' : e.kind = .slot := by rwa [Directive.kind, name]
    obtain ⟨rfl, hshown⟩ := hcanonical
    have hshown : joinLines body ≠ "" :=
      hshown d (hopening first rfl ▸ Directive.mem_on?_iff.2 opens) goesOn
    have hne : body ≠ [] := fun h => hshown (h ▸ rfl)
    have hd := (Directive.lawful_of_ofLine opens).eq_slotOpening kind starts goesOn
      .rendered visible
    have he := (Directive.lawful_of_ofLine closes).eq_slotClosing kind' ends
      .rendered reopens
    rw [name] at he
    rw [ComponentKind.sourceLines, if_neg fun h => hshown h.1, hpieces hne, ← hd, ← he,
      ← htext (by simp) opens, ← htext (by simp) closes]
  -- A body without lines would come back with an empty one, here and in a script.
  | @commentOnly first last body d e opens kind starts goesOn hidden plain closes ends name inside =>
    have kind' : e.kind = .slot := by rwa [Directive.kind, name]
    obtain ⟨rfl, hne⟩ := hcanonical
    have hd := (Directive.lawful_of_ofLine opens).eq_slotOpening kind starts goesOn
      .commentOnly hidden
    have he := (Directive.lawful_of_ofLine closes).eq_slotClosing kind' ends
      .commentOnly inside
    rw [name] at he
    rw [ComponentKind.sourceLines, if_neg fun h => SlotDisplay.noConfusion h.2, hpieces hne, ← hd, ← he,
      ← htext (by simp) opens, ← htext (by simp) closes]
  | @script first last body d e opens kind starts plain closes ends kind' =>
    obtain ⟨hne, hkeyword⟩ := hcanonical
    have hlast : (first :: body ++ [last])[body.length + 1]? = some last := by simp
    have hname : e.name = d.name :=
      hkeyword e (hclosing last hlast ▸ Directive.mem_on?_iff.2 closes)
    have hd := (Directive.lawful_of_ofLine opens).eq_scriptOpening kind starts
    have he := (Directive.lawful_of_ofLine closes).eq_scriptClosing kind' ends
    rw [hname] at he
    rw [ComponentKind.sourceLines, hpieces hne, ← hd, ← he, ← htext (by simp) opens,
      ← htext (by simp) closes]

/-! ## Documents -/

/-- Where the lines of a block stand among those of all blocks. -/
theorem getElem?_flatten_add {bs : List (List String)} {b : List String} {i k : Nat}
    (hb : bs[i]? = some b) (hk : k < b.length) :
    bs.flatten[(bs.take i).flatten.length + k]? = b[k]? := by
  obtain ⟨hi, rfl⟩ := List.getElem?_eq_some_iff.1 hb
  have hsplit : bs.flatten = (bs.take i).flatten ++ (bs[i] ++ (bs.drop (i + 1)).flatten) := by
    rw [← List.flatten_cons, ← List.drop_eq_getElem_cons hi, ← List.flatten_append,
      List.take_append_drop]
  rw [hsplit, List.getElem?_append_right (Nat.le_add_right _ _), Nat.add_sub_cancel_left,
    List.getElem?_append_left hk]

/-- In a canonical document each block is the rendering of its component. -/
theorem Reads.map_sourceLines {bs : List (List String)} {cs : List Component} {ps : PageSlots}
    (h : Reads shapes 1 bs cs)
    (hspacing : ∀ line ∈ bs.flatten, ∀ d ∈ Directive.on? line, line = d.text)
    (hfeed : ∀ line ∈ bs.flatten, '\n' ∉ line.toList)
    (hblocks : ∀ c ∈ cs, c.IsCanonical bs.flatten ps) :
    cs.map (Component.sourceLines ps) = bs := by
  refine List.ext_getElem (by rw [List.length_map, h.length_eq]) fun i hcs hbs => ?_
  rw [List.length_map] at hcs
  have hb : bs[i]? = some bs[i] := List.getElem?_eq_getElem hbs
  obtain ⟨kind, body, hform, hc⟩ := h.getElem? hb (List.getElem?_eq_getElem hcs)
  have hcanonical := hblocks cs[i] (List.getElem_mem hcs)
  have hmem : ∀ line ∈ bs[i], line ∈ bs.flatten := fun line hline =>
    List.mem_flatten.2 ⟨bs[i], List.getElem_mem hbs, hline⟩
  have hplace : ∀ {k : Nat} {line : String}, bs[i][k]? = some line →
      bs.flatten[(bs.take i).flatten.length + k]?.bind Directive.on? = Directive.on? line := by
    intro k line hline
    rw [getElem?_flatten_add hb (List.getElem?_eq_some_iff.1 hline).1, hline, Option.bind_some]
  rw [hc] at hcanonical
  rw [List.getElem_map, hc]
  refine (hform.eq_sourceLines (fun line hline => hspacing line (hmem line hline))
    (fun line hline => hfeed line (hmem line hline)) ?_ ?_ hcanonical).symm
  · intro line hline
    rw [Option.mem_def, List.head?_eq_getElem?] at hline
    rw [← hplace hline, Component.ofBlock, Nat.add_sub_cancel_left, Nat.add_zero]
  · intro line hline
    have hindex : (bs.take i).flatten.length + (body.length + 1) =
        1 + (bs.take i).flatten.length + body.length := by omega
    rw [← hplace hline, hindex]
    rfl

variable {path : Path} {source : String} {doc : Document}

/-- **A canonical document is rendered as it was.** -/
theorem render_of_isCanonical (hdoc : Document.parse shapes path source = .ok doc)
    (h : doc.IsCanonical source) : doc.render .source = source := by
  obtain ⟨bs, hflatten, hreads, -, -, -⟩ := ofLines_eq_ok_iff.1 hdoc
  have hmap : doc.components.map (Component.sourceLines doc.slots) = bs :=
    hreads.map_sourceLines (hflatten ▸ h.spacing)
      (fun line hline => not_mem_lines (s := source) (hflatten ▸ hline)) (hflatten ▸ h.blocks)
  rw [Document.render_source, hmap, hflatten, writeLines_lines h.last h.noReturn]

/-- Plain text, two slots and a script. -/
theorem render_of_isCanonical_four_blocks :
    let source := "A\n<!-- [t -->\nB\n<!-- t] -->\n<!-- [n\nC\nn] -->\n<!-- [script\n\nscript] -->\n"
    ∃ doc, Document.parse .standard ⟨"/site/index.html"⟩ source = .ok doc ∧
      doc.IsCanonical source ∧ doc.render .source = source := by
  intro source
  have htest : ((Document.parse .standard ⟨"/site/index.html"⟩ source).toOption.any fun doc =>
      decide (∀ c ∈ doc.components, c.IsCanonical (lines source) doc.slots)) = true := by
    decide +kernel
  obtain ⟨doc, hdoc, hblocks⟩ := exists_ok_of_any htest
  have hcanonical : doc.IsCanonical source :=
    ⟨by decide +kernel, by decide +kernel, by decide +kernel, of_decide_eq_true hblocks⟩
  exact ⟨doc, hdoc, hcanonical, render_of_isCanonical hdoc hcanonical⟩

end Pagewright
