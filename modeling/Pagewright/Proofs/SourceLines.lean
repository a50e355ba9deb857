import Pagewright.Document.Render
import Pagewright.Proofs.Blocks
import Pagewright.Proofs.Forms
import Pagewright.Proofs.Lines

/-!
# The source rendering as lines

A text is clean when none of its pieces is a directive or ends in a carriage return (`IsClean`). The
source rendering of a component consists of whole lines (`sourceText_eq_writeLines`): the directives
of its kind and, between them, the pieces of its text or of its slot's value. When these pieces are
plain lines, the rendering is a block of the same kind (`blockForm_sourceLines`); when they are clean,
it can be written and read back.
-/

namespace Pagewright

open Text
open Directive (ofLine IsPlain)

variable {shapes : ShapeTable}

/-! ## Clean texts -/

/-- A text whose pieces are plain lines that end in no carriage return. -/
def IsClean (text : String) : Prop :=
  ∀ piece ∈ pieces text, IsPlain piece ∧ ¬ EndsInReturn piece

instance : DecidablePred IsClean := fun text =>
  inferInstanceAs (Decidable (∀ piece ∈ pieces text, IsPlain piece ∧ ¬ EndsInReturn piece))

/-- A text whose pieces are plain lines. -/
def HasPlainPieces (text : String) : Prop :=
  ∀ piece ∈ pieces text, IsPlain piece

instance : DecidablePred HasPlainPieces := fun text =>
  inferInstanceAs (Decidable (∀ piece ∈ pieces text, IsPlain piece))

theorem IsClean.hasPlainPieces {text : String} (h : IsClean text) : HasPlainPieces text :=
  fun piece hpiece => (h piece hpiece).1

theorem isClean_empty : IsClean "" := by
  intro piece hpiece
  rw [pieces_empty] at hpiece
  rw [List.mem_singleton.1 hpiece]
  exact ⟨rfl, by decide⟩

theorem hasPlainPieces_joinLines {ls : List String} (h : ∀ l ∈ ls, IsPlain l ∧ '\n' ∉ l.toList) :
    HasPlainPieces (joinLines ls) :=
  forall_mem_pieces_joinLines rfl h

theorem isClean_joinLines {ls : List String}
    (h : ∀ l ∈ ls, IsPlain l ∧ ¬ EndsInReturn l ∧ '\n' ∉ l.toList) : IsClean (joinLines ls) :=
  forall_mem_pieces_joinLines ⟨rfl, by decide⟩ fun l hl =>
    ⟨⟨(h l hl).1, (h l hl).2.1⟩, (h l hl).2.2⟩

/-! ## Kinds of components -/

/-- A kind that a block may have. -/
def ComponentKind.IsLawful (shapes : ShapeTable) : ComponentKind → Prop
  | .plainText => True
  | .script keyword => isIdentifier keyword.toList = true ∧ NameKind.of keyword = .script
  | .shapeChoice keyword identifier =>
    (Directive.shapeLine keyword identifier).Lawful ∧ (shapes.get? identifier).isSome = true
  | .slot name _ => IsWritable name

theorem ComponentKind.IsLawful.isEffective {kind : ComponentKind} (h : kind.IsLawful shapes) :
    kind.IsEffective shapes := by
  cases kind with
  | plainText => trivial
  | script keyword => trivial
  | shapeChoice keyword identifier => exact h.2
  | slot name display => exact h

theorem BlockForm.isLawful {b body : List String} {kind : ComponentKind}
    (h : BlockForm shapes b kind body) : kind.IsLawful shapes := by
  cases h with
  | plainText => trivial
  | reference reads kind => exact isWritable_of_ofLine reads kind
  | @shapeChoice line identifier d reads kind value known =>
    have hlawful := Directive.lawful_of_ofLine reads
    obtain ⟨hne, hword⟩ := hlawful.wf.value identifier value
    exact ⟨Directive.lawful_shapeLine hlawful.wf.name kind hne hword, known⟩
  | rendered opens kind => exact isWritable_of_ofLine opens kind
  | commentOnly opens kind => exact isWritable_of_ofLine opens kind
  | script opens kind => exact ⟨(Directive.lawful_of_ofLine opens).wf.name, kind⟩

/-! ## The lines of a rendering -/

namespace ComponentKind

/-- The lines of the source rendering of a component whose slot, if it is one, has `value`. -/
def sourceLines (text value : String) : ComponentKind → List String
  | .plainText => pieces text
  | .script keyword =>
    (Directive.scriptOpening keyword).text :: pieces text ++ [(Directive.scriptClosing keyword).text]
  | .shapeChoice keyword identifier => [(Directive.shapeLine keyword identifier).text]
  | .slot name display =>
    if value = "" ∧ display = .rendered then [(Directive.reference name).text]
    else
      (Directive.slotOpening name display).text :: pieces value ++
        [(Directive.slotClosing name display).text]

/-- The lines between the markers in the source rendering. -/
def sourceBody (text value : String) : ComponentKind → List String
  | .plainText => pieces text
  | .script _ => pieces text
  | .shapeChoice _ _ => []
  | .slot _ display => if value = "" ∧ display = .rendered then [] else pieces value

/-- The text that a kind of component shows in the source rendering. -/
def shownText (text value : String) : ComponentKind → String
  | .plainText => text
  | .script _ => text
  | .shapeChoice _ _ => ""
  | .slot _ _ => value

end ComponentKind

theorem writeLines_pieces (s : String) : writeLines (pieces s) = s ++ "\n" := by
  have hjoin : ∀ ls : List String, ls ≠ [] → writeLines ls = joinLines ls ++ "\n" := by
    intro ls
    induction ls with
    | nil => exact fun h => absurd rfl h
    | cons l ls ih =>
      intro _
      cases ls with
      | nil => simp
      | cons m ls => rw [writeLines_cons, ih (List.cons_ne_nil m ls), joinLines_cons_cons,
          String.append_assoc, String.append_assoc, String.append_assoc]
  rw [hjoin _ (pieces_ne_nil s), joinLines_pieces]

/-- **A source rendering is whole lines.** -/
theorem sourceText_eq_writeLines (kind : ComponentKind) (text value : String) :
    kind.sourceText text value = writeLines (kind.sourceLines text value) := by
  apply String.toList_inj.1
  cases kind with
  | plainText => rw [ComponentKind.sourceLines, writeLines_pieces, ComponentKind.sourceText]
  | script keyword =>
    rw [ComponentKind.sourceLines, List.cons_append, writeLines_cons, writeLines_append,
      writeLines_pieces]
    simp [ComponentKind.sourceText, Directive.text, Directive.scriptOpening,
      Directive.scriptClosing]
  | shapeChoice keyword identifier =>
    simp [ComponentKind.sourceText, ComponentKind.sourceLines, Directive.text, Directive.shapeLine]
  | slot name display =>
    by_cases hv : value = "" ∧ display = .rendered
    · obtain ⟨rfl, rfl⟩ := hv
      simp [ComponentKind.sourceText, ComponentKind.sourceLines, Directive.text,
        Directive.reference]
    · rw [ComponentKind.sourceLines, if_neg hv, List.cons_append, writeLines_cons,
        writeLines_append, writeLines_pieces]
      cases display with
      | rendered =>
        have hne : value ≠ "" := fun h => hv ⟨h, rfl⟩
        simp [ComponentKind.sourceText, Directive.text, Directive.slotOpening,
          Directive.slotClosing, hne]
      | commentOnly =>
        simp [ComponentKind.sourceText, Directive.text, Directive.slotOpening,
          Directive.slotClosing]

/-- The text that a source rendering shows when the page has `value` for the slot. -/
theorem joinLines_sourceBody (kind : ComponentKind) (text value : String) :
    joinLines (kind.sourceBody text value) = kind.shownText text value := by
  cases kind with
  | plainText => exact joinLines_pieces text
  | script keyword => exact joinLines_pieces text
  | shapeChoice keyword identifier => rfl
  | slot name display =>
    rw [ComponentKind.sourceBody]
    split
    · next h => exact h.1.symm
    · exact joinLines_pieces value

/-- The renderings of a kind of component depend on the text that it shows alone. -/
theorem ComponentKind.texts_eq_of_shownText {kind : ComponentKind} {text text' value value' : String}
    (h : kind.shownText text' value' = kind.shownText text value) :
    kind.sourceText text' value' = kind.sourceText text value ∧
      kind.publishedText text' value' = kind.publishedText text value := by
  cases kind with
  | plainText =>
    obtain rfl : text' = text := h
    exact ⟨rfl, rfl⟩
  | script keyword =>
    obtain rfl : text' = text := h
    exact ⟨rfl, rfl⟩
  | shapeChoice keyword identifier => exact ⟨rfl, rfl⟩
  | slot name display =>
    obtain rfl : value' = value := h
    cases display <;> exact ⟨rfl, rfl⟩

/-! ## A rendering is a block -/

section Block

variable {kind : ComponentKind} {text value : String} (hkind : kind.IsLawful shapes)

include hkind

/-- **The source rendering of a component that shows plain lines is a block** of the same kind. -/
theorem blockForm_sourceLines (hplain : HasPlainPieces (kind.shownText text value)) :
    BlockForm shapes (kind.sourceLines text value) kind (kind.sourceBody text value) := by
  cases kind with
  | plainText => exact .plainText (pieces_ne_nil text) hplain
  | script keyword =>
    obtain ⟨hidentifier, hscript⟩ := hkind
    exact .script (Directive.lawful_scriptOpening hidentifier hscript).ofLine_text hscript rfl hplain
      (Directive.lawful_scriptClosing hidentifier hscript).ofLine_text rfl hscript
  | shapeChoice keyword identifier =>
    obtain ⟨hlawful, hknown⟩ := hkind
    have hshape : (Directive.shapeLine keyword identifier).kind = .shape := by
      have hnot : NameKind.of keyword ≠ .slot := by
        simpa [Directive.shapeLine] using hlawful.wf.addressesSlot
      have hform := Directive.checkForm_eq_ok_iff.1
        (Directive.check_eq_ok_iff.1 hlawful.check).2.2.2.2
      cases hk : (Directive.shapeLine keyword identifier).kind with
      | shape => rfl
      | slot => exact absurd hk hnot
      | script =>
        rw [hk] at hform
        cases hform.1
    exact .shapeChoice hlawful.ofLine_text hshape rfl hknown
  | slot name display =>
    have hslot : NameKind.of name = .slot := (namesSlot_iff.1 hkind.2).2
    rw [ComponentKind.sourceLines, ComponentKind.sourceBody]
    split
    · next h =>
      rw [h.2]
      exact .reference (Directive.lawful_reference hkind).ofLine_text hslot rfl
    · have hopens := (Directive.lawful_slotOpening display hkind).ofLine_text
      have hcloses := (Directive.lawful_slotClosing display hkind).ofLine_text
      cases display with
      | rendered => exact .rendered hopens hslot rfl rfl rfl hplain hcloses rfl rfl rfl
      | commentOnly => exact .commentOnly hopens hslot rfl rfl rfl hplain hcloses rfl rfl rfl

/-- What holds of the text of every lawful directive and of the pieces that are shown holds of all
lines of a rendering. -/
theorem forall_mem_sourceLines {P : String → Prop} (htext : ∀ d : Directive, d.Lawful → P d.text)
    (hpieces : ∀ l ∈ pieces (kind.shownText text value), P l) :
    ∀ l ∈ kind.sourceLines text value, P l := by
  have hsection : ∀ {d e : Directive}, d.Lawful → e.Lawful →
      ∀ l ∈ d.text :: pieces (kind.shownText text value) ++ [e.text], P l := by
    intro d e hd he l hl
    rcases List.mem_append.1 hl with hl | hl
    · rcases List.mem_cons.1 hl with rfl | hl
      · exact htext d hd
      · exact hpieces l hl
    · rw [List.mem_singleton.1 hl]
      exact htext e he
  cases kind with
  | plainText => exact hpieces
  | script keyword =>
    obtain ⟨hidentifier, hscript⟩ := hkind
    exact hsection (Directive.lawful_scriptOpening hidentifier hscript)
      (Directive.lawful_scriptClosing hidentifier hscript)
  | shapeChoice keyword identifier =>
    intro l hl
    rw [List.mem_singleton.1 hl]
    exact htext _ hkind.1
  | slot name display =>
    rw [ComponentKind.sourceLines]
    split
    · intro l hl
      rw [List.mem_singleton.1 hl]
      exact htext _ (Directive.lawful_reference hkind)
    · exact hsection (Directive.lawful_slotOpening display hkind)
        (Directive.lawful_slotClosing display hkind)

theorem not_mem_sourceLines : ∀ l ∈ kind.sourceLines text value, '\n' ∉ l.toList :=
  forall_mem_sourceLines hkind (fun _ hd => Directive.not_mem_text hd.wf (.inl rfl))
    fun _ hl => not_mem_pieces hl

/-- The lines of a clean rendering can be written and read back. -/
theorem sourceLines_writable (hclean : IsClean (kind.shownText text value)) :
    ∀ l ∈ kind.sourceLines text value, '\n' ∉ l.toList ∧ ¬ EndsInReturn l :=
  forall_mem_sourceLines hkind
    (fun _ hd => ⟨Directive.not_mem_text hd.wf (.inl rfl), fun h =>
      Directive.not_mem_text hd.wf (.inr rfl) (List.mem_of_getLast? h)⟩)
    fun l hl => ⟨not_mem_pieces hl, (hclean l hl).2⟩

end Block

end Pagewright
