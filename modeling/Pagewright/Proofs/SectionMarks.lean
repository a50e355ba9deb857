import Pagewright.Proofs.PlainRenderings

/-!
# Marks of sections

Every block starts one section and ends one, unless it is plain text (`BlockForm.totalMarks_eq`). So
the marks on the lines of a document count its components other than plain text. A source rendering
has two marks for each of them already, besides those in the texts that it shows
(`totalMarks_sourceLines`); hence it is read again as the same kinds of components exactly when no
text that it shows has any mark, that is when all their lines are plain (`parse_render_slots_iff`). A
slot whose value holds a directive breaks the document (`not_parse_render_set_directive`).
-/

namespace Pagewright

open Text
open Directive (ofLine IsPlain)

/-! ## Counting -/

/-- How many ends of sections are marked on a line. -/
def sectionMarks (line : String) : Nat :=
  match ofLine line with
  | .ok (some d) => d.startsSection.toNat + d.endsSection.toNat
  | _ => 0

def totalMarks : List String → Nat
  | [] => 0
  | l :: ls => sectionMarks l + totalMarks ls

/-- How many marks a component has in a document. -/
def ComponentKind.marks : ComponentKind → Nat
  | .plainText => 0
  | _ => 2

def kindMarks : List ComponentKind → Nat
  | [] => 0
  | kind :: kinds => kind.marks + kindMarks kinds

@[simp] theorem totalMarks_nil : totalMarks [] = 0 := rfl

@[simp] theorem totalMarks_cons (l : String) (ls : List String) :
    totalMarks (l :: ls) = sectionMarks l + totalMarks ls := rfl

@[simp] theorem totalMarks_append (ls ms : List String) :
    totalMarks (ls ++ ms) = totalMarks ls + totalMarks ms := by
  induction ls with
  | nil => rw [List.nil_append, totalMarks_nil, Nat.zero_add]
  | cons l ls ih => rw [List.cons_append, totalMarks_cons, totalMarks_cons, ih, Nat.add_assoc]

theorem sectionMarks_of_ofLine {l : String} {d : Directive} (h : ofLine l = .ok (some d)) :
    sectionMarks l = d.startsSection.toNat + d.endsSection.toNat := by
  rw [sectionMarks, h]

theorem sectionMarks_of_isPlain {l : String} (h : IsPlain l) : sectionMarks l = 0 := by
  rw [sectionMarks, show ofLine l = .ok none from h]

theorem sectionMarks_dropReturn (l : String) : sectionMarks (dropReturn l) = sectionMarks l := by
  rw [sectionMarks, sectionMarks, ofLine_dropReturn]

theorem totalMarks_map_dropReturn (ls : List String) :
    totalMarks (ls.map dropReturn) = totalMarks ls := by
  induction ls with
  | nil => rfl
  | cons l ls ih => rw [List.map_cons, totalMarks_cons, totalMarks_cons, sectionMarks_dropReturn, ih]

theorem totalMarks_of_plain {ls : List String} (h : ∀ l ∈ ls, IsPlain l) : totalMarks ls = 0 := by
  induction ls with
  | nil => rfl
  | cons l ls ih =>
    rw [totalMarks_cons, sectionMarks_of_isPlain (h l List.mem_cons_self),
      ih fun m hm => h m (List.mem_cons_of_mem _ hm)]

theorem sectionMarks_eq_zero {ls : List String} (h : totalMarks ls = 0) :
    ∀ l ∈ ls, sectionMarks l = 0 := by
  induction ls with
  | nil => exact fun _ hl => nomatch hl
  | cons l ls ih =>
    rw [totalMarks_cons, Nat.add_eq_zero_iff] at h
    intro m hm
    rcases List.mem_cons.1 hm with rfl | hm
    · exact h.1
    · exact ih h.2 m hm

/-- A line that is recognised and has no mark of a section is plain. -/
theorem isPlain_of_sectionMarks {l : String} {r : Option Directive} (hr : ofLine l = .ok r)
    (hmarks : sectionMarks l = 0) : IsPlain l := by
  cases r with
  | none => exact hr
  | some d =>
    obtain ⟨-, hmarked, -⟩ := Directive.ofLine_eq_some_iff.1 hr
    rw [sectionMarks_of_ofLine hr] at hmarks
    unfold Directive.isMarked at hmarked
    cases hstarts : d.startsSection <;> cases hends : d.endsSection <;> simp_all

/-! ## Blocks -/

section Blocks

variable {shapes : ShapeTable} {b body : List String} {kind : ComponentKind}

/-- A line that opens a section and one that closes it have one mark each. -/
theorem totalMarks_section {opening closing : String} {d e : Directive}
    (hopens : ofLine opening = .ok (some d)) (hstarts : d.startsSection = true)
    (hgoesOn : d.endsSection = false) (hcloses : ofLine closing = .ok (some e))
    (hends : e.startsSection = false) (ls : List String) :
    totalMarks (opening :: ls ++ [closing]) = 2 + totalMarks ls := by
  have hend : e.endsSection = true := by
    obtain ⟨-, hmarked, -⟩ := Directive.ofLine_eq_some_iff.1 hcloses
    unfold Directive.isMarked at hmarked
    rw [hends, Bool.false_or, Bool.and_eq_true] at hmarked
    exact hmarked.2
  rw [totalMarks_append, totalMarks_cons, totalMarks_cons, totalMarks_nil,
    sectionMarks_of_ofLine hopens, sectionMarks_of_ofLine hcloses, hstarts, hgoesOn, hends, hend]
  simp only [Bool.toNat_true, Bool.toNat_false]
  omega

theorem totalMarks_oneLine {line : String} {d : Directive} (hreads : ofLine line = .ok (some d))
    (honeLine : d.isOneLine = true) : totalMarks [line] = 2 := by
  unfold Directive.isOneLine at honeLine
  obtain ⟨hstarts, hends⟩ := Bool.and_eq_true_iff.1 honeLine
  rw [totalMarks_cons, totalMarks_nil, sectionMarks_of_ofLine hreads, hstarts, hends]
  rfl

/-- **A block starts one section and ends one**, unless it is plain text. -/
theorem BlockForm.totalMarks_eq (h : BlockForm shapes b kind body) : totalMarks b = kind.marks := by
  cases h with
  | plainText _ plain => exact totalMarks_of_plain plain
  | reference reads _ oneLine => exact totalMarks_oneLine reads oneLine
  | shapeChoice reads kind value =>
    obtain ⟨-, -, hcheck⟩ := Directive.ofLine_eq_some_iff.1 reads
    have hform := Directive.checkForm_eq_ok_iff.1 (Directive.check_eq_ok_iff.1 hcheck).2.2.2.2
    rw [kind] at hform
    exact totalMarks_oneLine reads hform.1
  | rendered opens _ starts goesOn _ plain closes ends =>
    rw [totalMarks_section opens starts goesOn closes ends, totalMarks_of_plain plain]
    rfl
  | commentOnly opens _ starts goesOn _ plain closes ends =>
    rw [totalMarks_section opens starts goesOn closes ends, totalMarks_of_plain plain]
    rfl
  | @script opening closing body d e opens kind starts plain closes ends =>
    obtain ⟨-, -, hcheck⟩ := Directive.ofLine_eq_some_iff.1 opens
    have hform := Directive.checkForm_eq_ok_iff.1 (Directive.check_eq_ok_iff.1 hcheck).2.2.2.2
    rw [kind] at hform
    have hgoesOn : d.endsSection = false := by
      simpa [Directive.isOneLine, starts] using hform.1
    rw [totalMarks_section opens starts hgoesOn closes ends, totalMarks_of_plain plain]
    rfl

/-- Every line of a block is recognised. -/
theorem BlockForm.recognised (h : BlockForm shapes b kind body) :
    ∀ l ∈ b, ∃ r, ofLine l = .ok r := by
  have hsection : ∀ {opening closing : String} {body : List String} {d e : Directive},
      ofLine opening = .ok (some d) → (∀ l ∈ body, IsPlain l) → ofLine closing = .ok (some e) →
      ∀ l ∈ opening :: body ++ [closing], ∃ r, ofLine l = .ok r := by
    intro opening closing body d e hopens hbody hcloses l hl
    rcases List.mem_append.1 hl with hl | hl
    · rcases List.mem_cons.1 hl with rfl | hl
      · exact ⟨_, hopens⟩
      · exact ⟨_, hbody l hl⟩
    · rw [List.mem_singleton.1 hl]
      exact ⟨_, hcloses⟩
  have honeLine : ∀ {line : String} {d : Directive}, ofLine line = .ok (some d) →
      ∀ l ∈ [line], ∃ r, ofLine l = .ok r := by
    intro line d hreads l hl
    rw [List.mem_singleton.1 hl]
    exact ⟨_, hreads⟩
  cases h with
  | plainText _ plain => exact fun l hl => ⟨_, plain l hl⟩
  | reference reads => exact honeLine reads
  | shapeChoice reads => exact honeLine reads
  | rendered opens _ _ _ _ plain closes => exact hsection opens plain closes
  | commentOnly opens _ _ _ _ plain closes => exact hsection opens plain closes
  | script opens _ _ plain closes => exact hsection opens plain closes

theorem Reads.totalMarks_eq {n : Nat} {bs : List (List String)} {cs : List Component}
    (h : Reads shapes n bs cs) :
    totalMarks bs.flatten = kindMarks (cs.map Component.kind) := by
  induction h with
  | nil => rfl
  | cons head tail ih =>
    rw [List.flatten_cons, totalMarks_append, head.totalMarks_eq, ih]
    rfl

theorem Reads.recognised {n : Nat} {bs : List (List String)} {cs : List Component}
    (h : Reads shapes n bs cs) : ∀ l ∈ bs.flatten, ∃ r, ofLine l = .ok r := by
  intro l hl
  obtain ⟨b, hb, hl⟩ := List.mem_flatten.1 hl
  obtain ⟨kind, body, hform⟩ := h.form b hb
  exact hform.recognised l hl

end Blocks

/-! ## Renderings -/

section Renderings

variable {shapes : ShapeTable} {kind : ComponentKind} {text value : String}

/-- A rendering has the marks of its component and those in the text that it shows. -/
theorem totalMarks_sourceLines (hkind : kind.IsLawful shapes) :
    totalMarks (kind.sourceLines text value) =
      kind.marks + totalMarks (pieces (kind.shownText text value)) := by
  have hempty : totalMarks (pieces "") = 0 :=
    totalMarks_of_plain isClean_empty.hasPlainPieces
  cases kind with
  | plainText => exact (Nat.zero_add _).symm
  | script keyword =>
    obtain ⟨hidentifier, hscript⟩ := hkind
    exact totalMarks_section (Directive.lawful_scriptOpening hidentifier hscript).ofLine_text rfl rfl
      (Directive.lawful_scriptClosing hidentifier hscript).ofLine_text rfl _
  | shapeChoice keyword identifier =>
    rw [ComponentKind.shownText, hempty]
    exact totalMarks_oneLine hkind.1.ofLine_text rfl
  | slot name display =>
    rw [ComponentKind.sourceLines, ComponentKind.shownText]
    split
    · next h =>
      rw [h.1, hempty]
      exact totalMarks_oneLine (Directive.lawful_reference hkind).ofLine_text rfl
    · exact totalMarks_section (Directive.lawful_slotOpening display hkind).ofLine_text rfl rfl
        (Directive.lawful_slotClosing display hkind).ofLine_text rfl _

/-- The pieces that a rendering shows are lines of it, or empty. -/
theorem mem_sourceLines_of_mem_pieces {l : String}
    (hl : l ∈ pieces (kind.shownText text value)) : l ∈ kind.sourceLines text value ∨ l = "" := by
  have hempty : ∀ m ∈ pieces "", m = "" := by
    intro m hm
    rw [pieces_empty] at hm
    exact List.mem_singleton.1 hm
  cases kind with
  | plainText => exact .inl hl
  | script keyword => exact .inl (List.mem_append_left _ (List.mem_cons_of_mem _ hl))
  | shapeChoice keyword identifier => exact .inr (hempty l hl)
  | slot name display =>
    rw [ComponentKind.sourceLines]
    split
    · next h => exact .inr (hempty l (h.1 ▸ hl))
    · exact .inl (List.mem_append_left _ (List.mem_cons_of_mem _ hl))

variable {ps : PageSlots} {cs : List Component}

theorem totalMarks_flatten_sourceLines (hcs : ∀ c ∈ cs, c.kind.IsLawful shapes) :
    totalMarks (cs.map (Component.sourceLines ps)).flatten =
      kindMarks (cs.map Component.kind) +
        totalMarks (cs.map fun c => pieces (c.shownText ps)).flatten := by
  induction cs with
  | nil => rfl
  | cons c cs ih =>
    have hc : totalMarks (c.sourceLines ps) =
        c.kind.marks + totalMarks (pieces (c.shownText ps)) :=
      totalMarks_sourceLines (hcs c List.mem_cons_self)
    simp only [List.map_cons, List.flatten_cons, totalMarks_append, kindMarks, hc,
      ih fun d hd => hcs d (List.mem_cons_of_mem _ hd)]
    omega

/-- A rendering that is read as components of the same kinds shows plain lines: there are no marks
left for the texts. -/
theorem hasPlainPieces_of_reads {n : Nat} {bs : List (List String)} {cs' : List Component}
    (hcs : ∀ c ∈ cs, c.kind.IsLawful shapes) (hreads : Reads shapes n bs cs')
    (hlines : bs.flatten = (cs.map (Component.sourceLines ps)).flatten.map dropReturn)
    (hkinds : cs'.map Component.kind = cs.map Component.kind) :
    ∀ c ∈ cs, HasPlainPieces (c.shownText ps) := by
  -- The components that are read take up all the marks that the rendering has without the texts.
  have hsum : totalMarks (cs.map fun c => pieces (c.shownText ps)).flatten = 0 := by
    have hmarks := hreads.totalMarks_eq
    rw [hlines, totalMarks_map_dropReturn, totalMarks_flatten_sourceLines hcs, hkinds] at hmarks
    omega
  intro c hc piece hpiece
  rcases mem_sourceLines_of_mem_pieces hpiece with hmem | rfl
  · have hline : dropReturn piece ∈ bs.flatten := by
      rw [hlines]
      exact List.mem_map_of_mem (List.mem_flatten.2
        ⟨c.sourceLines ps, List.mem_map_of_mem hc, hmem⟩)
    obtain ⟨r, hr⟩ := hreads.recognised _ hline
    rw [ofLine_dropReturn] at hr
    have hshown : piece ∈ (cs.map fun c => pieces (c.shownText ps)).flatten :=
      List.mem_flatten.2 ⟨pieces (c.shownText ps), List.mem_map.2 ⟨c, hc, rfl⟩, hpiece⟩
    exact isPlain_of_sectionMarks hr (sectionMarks_eq_zero hsum piece hshown)
  · rfl

end Renderings

/-- **A document with other slots is read again from its source rendering**, as components of the
same kinds, exactly when every value that the rendering shows for a slot consists of plain lines. The
slots may be any, so in particular those that calls of `set` and `clear` lead to. -/
theorem parse_render_slots_iff {shapes : ShapeTable} {path : Path} {source : String} {doc : Document}
    (hdoc : Document.parse shapes path source = .ok doc) (ps : PageSlots) :
    (∃ doc', Document.parse shapes path ((doc.withSlots ps).render .source) = .ok doc' ∧
        doc'.components.map Component.kind = doc.components.map Component.kind) ↔
      ∀ c ∈ doc.components, ∀ name display, c.kind = .slot name display →
        HasPlainPieces (ps.value name) := by
  obtain ⟨bs, hflatten, hreads, -, -, -⟩ := ofLines_eq_ok_iff.1 hdoc
  have hlawful := hreads.isLawful
  constructor
  · rintro ⟨doc', hdoc', hkinds⟩ c hc name display hkind
    rw [Document.render_withSlots, Document.parse,
      lines_writeLines_map (not_mem_flatten_sourceLines ps hlawful)] at hdoc'
    obtain ⟨bs', hlines, hreads', -, -, -⟩ := ofLines_eq_ok_iff.1 hdoc'
    have hplain := hasPlainPieces_of_reads hlawful hreads' hlines hkinds c hc
    rwa [Component.shownText_slot hkind] at hplain
  · intro hvalues
    have hplain : ∀ c ∈ doc.components, HasPlainPieces (c.shownText ps) := by
      intro c hc
      have htext := hreads.hasPlainPieces
        (fun l hl => not_mem_lines (s := source) (hflatten ▸ hl)) c hc
      exact Component.shownText_induction htext isClean_empty.hasPlainPieces (hvalues c hc)
    obtain ⟨doc', hdoc', hall⟩ := exists_parse_render_of_plain hdoc hplain
    exact ⟨doc', hdoc', map_kind_of_returnsAs hall⟩

/-- A value of two plain lines is shown in a document that can be read again. -/
theorem parse_render_slots_two_lines :
    let parse := Document.parse .standard ⟨"/site/index.html"⟩
    ∃ doc ps, parse "<!-- [title] -->\n" = .ok doc ∧ doc.slots.set "title" "Two\nlines" = .ok ps ∧
      ∃ doc', parse ((doc.withSlots ps).render .source) = .ok doc' ∧
        doc'.components.map Component.kind = doc.components.map Component.kind := by
  intro parse
  have htest : ((parse "<!-- [title] -->\n").toOption.any fun doc =>
      (doc.slots.set "title" "Two\nlines").toOption.any fun ps =>
        doc.components.all fun c => decide (HasPlainPieces (c.slotValue ps))) = true := by
    decide +kernel
  obtain ⟨doc, hdoc, htest⟩ := exists_ok_of_any htest
  obtain ⟨ps, hset, htest⟩ := exists_ok_of_any htest
  refine ⟨doc, ps, hdoc, hset, (parse_render_slots_iff hdoc ps).2 ?_⟩
  intro c hc name display hkind
  have hvalue := of_decide_eq_true (List.all_eq_true.1 htest c hc)
  rwa [Component.slotValue, hkind] at hvalue

/-- A value that is a directive is shown as one: the document cannot be read again. -/
theorem not_parse_render_set_directive :
    let parse := Document.parse .standard ⟨"/site/index.html"⟩
    ∃ doc ps, parse "<!-- [title] -->\n" = .ok doc ∧
      doc.slots.set "title" "<!-- [other] -->" = .ok ps ∧
      parse ((doc.withSlots ps).render .source) =
        .error ⟨2, some "<!-- [other] -->", .component (.opensInside "<!-- [other] -->")⟩ := by
  intro parse
  let error : DocumentError :=
    ⟨2, some "<!-- [other] -->", .component (.opensInside "<!-- [other] -->")⟩
  have htest : ((parse "<!-- [title] -->\n").toOption.any fun doc =>
      (doc.slots.set "title" "<!-- [other] -->").toOption.any fun ps =>
        match parse ((doc.withSlots ps).render .source) with
        | .ok _ => false
        | .error e => decide (e = error)) = true := by decide +kernel
  obtain ⟨doc, hdoc, htest⟩ := exists_ok_of_any htest
  obtain ⟨ps, hset, htest⟩ := exists_ok_of_any htest
  refine ⟨doc, ps, hdoc, hset, ?_⟩
  cases hagain : parse ((doc.withSlots ps).render .source) with
  | ok doc' => rw [hagain] at htest; cases htest
  | error e =>
    rw [hagain] at htest
    exact congrArg Except.error (of_decide_eq_true htest)

end Pagewright
