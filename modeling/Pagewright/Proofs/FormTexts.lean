import Pagewright.Proofs.Forms

/-!
# The texts of the eight forms

`IsForm` lists the forms of a directive as they are written: four lines open or close a slot and one
holds it, two open or close a script, and one chooses a shape. A directive is lawful exactly when one
of these texts has its marks, its name and its word (`hasForm_iff`). Hence a line is recognised as a
directive when it is matched to one of such a form, is plain text when it is not matched or lacks one
sort of marks, and is refused otherwise (`ofLine_iff_forms`).
-/

namespace Pagewright

/-! ## Keywords -/

theorem isAlpha_of_toLower {c : Char} (h : c.toLower.isAlpha = true) : c.isAlpha = true := by
  unfold Char.toLower at h
  split at h
  · next hupper =>
    have hupper : c.isUpper = true := decide_eq_true hupper
    exact Bool.or_eq_true_iff.2 (Or.inl hupper)
  · exact h

/-- A keyword in letters of either case is an identifier. -/
theorem isIdentifier_of_sameIgnoringCase {name keyword : String}
    (h : sameIgnoringCase name keyword = true) (hne : keyword.toList ≠ [])
    (hletters : (keyword.toList.map Char.toLower).all Char.isAlpha = true) :
    isIdentifier name.toList = true := by
  have hmap : name.toList.map Char.toLower = keyword.toList.map Char.toLower := beq_iff_eq.1 h
  have hname : ∀ c ∈ name.toList, c.isAlpha = true := by
    intro c hc
    rw [← hmap, List.all_map, List.all_eq_true] at hletters
    exact isAlpha_of_toLower (hletters c hc)
  cases hcs : name.toList with
  | nil =>
    rw [hcs, List.map_nil] at hmap
    exact absurd (List.map_eq_nil_iff.1 hmap.symm) hne
  | cons c cs =>
    rw [hcs] at hname
    have hstart : ∀ d ∈ c :: cs, isNameStart d = true := fun d hd => by
      rw [isNameStart, hname d hd, Bool.or_true]
    rw [isIdentifier, hstart c List.mem_cons_self, Bool.true_and, List.all_eq_true]
    exact fun d hd => isNameChar_of_isNameStart (hstart d (List.mem_cons_of_mem c hd))

theorem NameKind.of_eq_script_iff {name : String} :
    NameKind.of name = .script ↔ sameIgnoringCase name "script" = true := by
  unfold NameKind.of
  split
  · next h => exact iff_of_true rfl h
  · next h =>
    refine iff_of_false ?_ h
    split <;> nofun

theorem NameKind.of_eq_shape_iff {name : String} :
    NameKind.of name = .shape ↔ sameIgnoringCase name "class" = true := by
  unfold NameKind.of
  split
  · next h =>
    -- A name is not spelled like both keywords.
    refine iff_of_false nofun fun hclass => ?_
    have hmap : "script".toList.map Char.toLower = "class".toList.map Char.toLower :=
      (beq_iff_eq.1 h).symm.trans (beq_iff_eq.1 hclass)
    exact absurd hmap (by decide)
  · split
    · next h => exact iff_of_true rfl h
    · next h => exact iff_of_false nofun h

namespace Directive

/-! ## How the forms are written -/

theorem text_reference (slot : String) : (reference slot).text = "<!-- [" ++ slot ++ "] -->" := by
  simp [← String.toList_inj, Directive.text, reference]

theorem text_slotOpening_rendered (slot : String) :
    (slotOpening slot .rendered).text = "<!-- [" ++ slot ++ " -->" := by
  simp [Directive.text, slotOpening]

theorem text_slotClosing_rendered (slot : String) :
    (slotClosing slot .rendered).text = "<!-- " ++ slot ++ "] -->" := by
  simp [← String.toList_inj, Directive.text, slotClosing]

theorem text_slotOpening_commentOnly (slot : String) :
    (slotOpening slot .commentOnly).text = "<!-- [" ++ slot := by
  simp [Directive.text, slotOpening]

theorem text_slotClosing_commentOnly (slot : String) :
    (slotClosing slot .commentOnly).text = slot ++ "] -->" := by
  simp [← String.toList_inj, Directive.text, slotClosing]

theorem text_scriptOpening (keyword : String) :
    (scriptOpening keyword).text = "<!-- [" ++ keyword := by
  simp [Directive.text, scriptOpening]

theorem text_scriptClosing (keyword : String) :
    (scriptClosing keyword).text = keyword ++ "] -->" := by
  simp [← String.toList_inj, Directive.text, scriptClosing]

theorem text_shapeLine (keyword identifier : String) :
    (shapeLine keyword identifier).text = "<!-- [" ++ keyword ++ " " ++ identifier ++ "] -->" := by
  simp [← String.toList_inj, Directive.text, shapeLine]

/-- The texts of directives in their normal spacing, form by form. A slot may be written when it is
no keyword and none of those that describe the source file. -/
inductive IsForm : String → Prop
  | reference {slot : String} (writable : IsWritable slot) : IsForm ("<!-- [" ++ slot ++ "] -->")
  | renderedOpening {slot : String} (writable : IsWritable slot) :
      IsForm ("<!-- [" ++ slot ++ " -->")
  | renderedClosing {slot : String} (writable : IsWritable slot) :
      IsForm ("<!-- " ++ slot ++ "] -->")
  | commentOpening {slot : String} (writable : IsWritable slot) : IsForm ("<!-- [" ++ slot)
  | commentClosing {slot : String} (writable : IsWritable slot) : IsForm (slot ++ "] -->")
  | scriptOpening {keyword : String} (isScript : sameIgnoringCase keyword "script" = true) :
      IsForm ("<!-- [" ++ keyword)
  | scriptClosing {keyword : String} (isScript : sameIgnoringCase keyword "script" = true) :
      IsForm (keyword ++ "] -->")
  | shapeLine {keyword identifier : String} (isClass : sameIgnoringCase keyword "class" = true)
      (nonempty : identifier ≠ "") (word : ∀ c ∈ identifier.toList, isNameChar c = true) :
      IsForm ("<!-- [" ++ keyword ++ " " ++ identifier ++ "] -->")

/-- The directive has the marks, the name and the word of a text of one of the forms. -/
def HasForm (d : Directive) : Prop :=
  ∃ text, IsForm text ∧ match? text = some d

theorem IsForm.exists_lawful {text : String} (h : IsForm text) :
    ∃ d : Directive, d.Lawful ∧ d.text = text := by
  cases h with
  | reference writable => exact ⟨_, lawful_reference writable, text_reference _⟩
  | renderedOpening writable =>
    exact ⟨_, lawful_slotOpening .rendered writable, text_slotOpening_rendered _⟩
  | renderedClosing writable =>
    exact ⟨_, lawful_slotClosing .rendered writable, text_slotClosing_rendered _⟩
  | commentOpening writable =>
    exact ⟨_, lawful_slotOpening .commentOnly writable, text_slotOpening_commentOnly _⟩
  | commentClosing writable =>
    exact ⟨_, lawful_slotClosing .commentOnly writable, text_slotClosing_commentOnly _⟩
  | scriptOpening isScript =>
    have hidentifier := isIdentifier_of_sameIgnoringCase isScript (by decide) (by decide)
    have hkind := NameKind.of_eq_script_iff.2 isScript
    exact ⟨_, lawful_scriptOpening hidentifier hkind, text_scriptOpening _⟩
  | scriptClosing isScript =>
    have hidentifier := isIdentifier_of_sameIgnoringCase isScript (by decide) (by decide)
    have hkind := NameKind.of_eq_script_iff.2 isScript
    exact ⟨_, lawful_scriptClosing hidentifier hkind, text_scriptClosing _⟩
  | shapeLine isClass nonempty word =>
    have hidentifier := isIdentifier_of_sameIgnoringCase isClass (by decide) (by decide)
    have hkind := NameKind.of_eq_shape_iff.2 isClass
    have hne : _ ≠ [] := fun h => nonempty (String.toList_eq_nil_iff.1 h)
    exact ⟨_, lawful_shapeLine hidentifier hkind hne word, text_shapeLine _ _⟩

/-- A lawful directive is written in one of the forms. -/
theorem Lawful.isForm_text {d : Directive} (h : d.Lawful) : IsForm d.text := by
  cases hkind : d.kind with
  | slot =>
    have hwritable := h.isWritable hkind
    cases hstarts : d.startsSection with
    | true =>
      cases hends : d.endsSection with
      | true =>
        have honeLine : d.isOneLine = true := by rw [isOneLine, hstarts, hends, Bool.and_self]
        rw [h.eq_reference hkind honeLine, text_reference]
        exact .reference hwritable
      | false =>
        cases hcomment : d.endsComment with
        | true =>
          rw [h.eq_slotOpening hkind hstarts hends .rendered hcomment, text_slotOpening_rendered]
          exact .renderedOpening hwritable
        | false =>
          rw [h.eq_slotOpening hkind hstarts hends .commentOnly hcomment,
            text_slotOpening_commentOnly]
          exact .commentOpening hwritable
    | false =>
      cases hcomment : d.startsComment with
      | true =>
        rw [h.eq_slotClosing hkind hstarts .rendered hcomment, text_slotClosing_rendered]
        exact .renderedClosing hwritable
      | false =>
        rw [h.eq_slotClosing hkind hstarts .commentOnly hcomment, text_slotClosing_commentOnly]
        exact .commentClosing hwritable
  | script =>
    have hscript := NameKind.of_eq_script_iff.1 hkind
    cases hstarts : d.startsSection with
    | true =>
      rw [h.eq_scriptOpening hkind hstarts, text_scriptOpening]
      exact .scriptOpening hscript
    | false =>
      rw [h.eq_scriptClosing hkind hstarts, text_scriptClosing]
      exact .scriptClosing hscript
  | shape =>
    have hform := checkForm_eq_ok_iff.1 h.form
    rw [hkind] at hform
    obtain ⟨identifier, hvalue⟩ := Option.isSome_iff_exists.1 hform.2
    obtain ⟨hne, hword⟩ := h.wf.value identifier hvalue
    have hnonempty : identifier ≠ "" := fun he => hne (String.toList_eq_nil_iff.2 he)
    rw [h.eq_shapeLine hkind hvalue, text_shapeLine]
    exact .shapeLine (NameKind.of_eq_shape_iff.1 hkind) hnonempty hword

/-- **The lawful directives are those of the eight forms.** -/
theorem hasForm_iff {d : Directive} : d.HasForm ↔ d.Lawful := by
  constructor
  · rintro ⟨text, hform, hmatch⟩
    obtain ⟨e, he, rfl⟩ := hform.exists_lawful
    obtain rfl : e = d := Option.some.inj ((match?_text he.wf).symm.trans hmatch)
    exact he
  · exact fun h => ⟨d.text, h.isForm_text, match?_text h.wf⟩

/-! ## What a line is recognised as -/

theorem isMarked_eq_false_iff {d : Directive} : d.isMarked = false ↔
    d.startsComment = false ∧ d.endsComment = false ∨
      d.startsSection = false ∧ d.endsSection = false := by
  rw [isMarked, Bool.and_eq_false_iff, Bool.or_eq_false_iff, Bool.or_eq_false_iff]

theorem ofLine_eq_some_iff_lawful {line : String} {d : Directive} :
    ofLine line = .ok (some d) ↔ match? line = some d ∧ d.Lawful :=
  ⟨fun h => ⟨(ofLine_eq_some_iff.1 h).1, lawful_of_ofLine h⟩,
    fun ⟨hmatch, h⟩ => ofLine_eq_some_iff.2 ⟨hmatch, h.marked, h.check⟩⟩

theorem ofLine_eq_error_iff {line : String} : (∃ v, ofLine line = .error v) ↔
    ∃ d, match? line = some d ∧ d.isMarked = true ∧ ¬ d.Lawful := by
  unfold ofLine
  cases hmatch : match? line with
  | none => simp
  | some d =>
    cases hmarked : d.isMarked with
    | false => simp [hmarked]
    | true =>
      cases hcheck : d.check with
      | error v =>
        refine iff_of_true ⟨v, by simp [hmarked, hcheck, Except.map]⟩ ⟨d, rfl, hmarked, fun h => ?_⟩
        rw [h.check] at hcheck
        cases hcheck
      | ok u =>
        refine iff_of_false (by simp [hmarked, hcheck, Except.map]) ?_
        rintro ⟨e, ⟨⟩, -, hnot⟩
        exact hnot ⟨wf_of_match? hmatch, hmarked, hcheck⟩

/-- **A line is recognised as a directive exactly when it is matched to one of the eight forms.** It
is plain text when it is not matched or has no marks of one sort, and any other line is refused. -/
theorem ofLine_iff_forms (line : String) :
    (ofLine line = .ok none ↔ match? line = none ∨ ∃ d, match? line = some d ∧
      (d.startsComment = false ∧ d.endsComment = false ∨
        d.startsSection = false ∧ d.endsSection = false)) ∧
      (∀ d, ofLine line = .ok (some d) ↔ match? line = some d ∧ d.HasForm) ∧
      ((∃ v, ofLine line = .error v) ↔ ∃ d, match? line = some d ∧
        (d.startsComment = true ∨ d.endsComment = true) ∧
        (d.startsSection = true ∨ d.endsSection = true) ∧ ¬ d.HasForm) := by
  refine ⟨?_, fun d => ?_, ?_⟩
  · simp only [ofLine_eq_none_iff, isMarked_eq_false_iff]
  · rw [ofLine_eq_some_iff_lawful, hasForm_iff]
  · simp only [ofLine_eq_error_iff, hasForm_iff, isMarked, Bool.and_eq_true, Bool.or_eq_true,
      and_assoc]

end Directive

end Pagewright
