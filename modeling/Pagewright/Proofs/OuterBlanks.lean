import Mathlib.Data.List.TakeWhile
import Pagewright.Proofs.Recognition

/-!
# Blanks around a line

Blank characters at the end of a line belong to no part of its loose form: the scan skips blanks
between any two parts, so each step leaves the rest that it leaves without them, with blanks after it
(`dropBlanks_append`, `takeMark_append_blanks`). Those in front are skipped before the scan looks for
its first part. So neither is part of what a line is matched to, whether it is matched or not, and
the normal spacing of what it is matched to is matched to the same (`match?_normal_spacing`).
-/

namespace Pagewright

open Text

/-- Characters all of which are blank. -/
def AllBlank (bs : List Char) : Prop :=
  ∀ b ∈ bs, isBlank b = true

instance : DecidablePred AllBlank := List.decidableBAll (isBlank · = true)

section Blanks

variable {bs : List Char} (hbs : AllBlank bs)

include hbs

theorem isEmpty_dropBlanks_append (cs : List Char) :
    (dropBlanks (cs ++ bs)).isEmpty = (dropBlanks cs).isEmpty := by
  have hdrop : bs.dropWhile isBlank = [] := List.dropWhile_eq_nil_iff.2 hbs
  unfold dropBlanks
  rw [List.dropWhile_append, hdrop]
  split
  · next h => exact h.symm
  · next h => cases hcs : cs.dropWhile isBlank <;> simp_all

/-- Blanks after a text stay after the rest of it, or go with it when all of it is blank. -/
theorem dropBlanks_append (cs : List Char) :
    ∃ bs', AllBlank bs' ∧ dropBlanks (cs ++ bs) = dropBlanks cs ++ bs' := by
  have hdrop : bs.dropWhile isBlank = [] := List.dropWhile_eq_nil_iff.2 hbs
  unfold dropBlanks
  rw [List.dropWhile_append, hdrop]
  split
  · next h => exact ⟨[], nofun, by rw [List.isEmpty_iff.1 h, List.append_nil]⟩
  · exact ⟨bs, hbs, rfl⟩

/-- A run of name characters ends before the blanks. -/
theorem span_append_blanks (cs : List Char) :
    (cs ++ bs).takeWhile isNameChar = cs.takeWhile isNameChar ∧
      (cs ++ bs).dropWhile isNameChar = cs.dropWhile isNameChar ++ bs := by
  induction cs with
  | nil =>
    cases bs with
    | nil => exact ⟨rfl, rfl⟩
    | cons b bs =>
      have hb : isNameChar b = false := isNameChar_of_isBlank (hbs b List.mem_cons_self)
      simp [hb]
  | cons c cs ih =>
    cases hc : isNameChar c with
    | true => simp [hc, ih.1, ih.2]
    | false => simp [hc]

namespace Directive

theorem isPrefixOf_append_blanks {mark : List Char} (hmark : mark.any isBlank = false)
    (cs : List Char) : mark.isPrefixOf (cs ++ bs) = mark.isPrefixOf cs := by
  induction mark generalizing cs with
  | nil => rfl
  | cons m mark ih =>
    rw [List.any_cons, Bool.or_eq_false_iff] at hmark
    cases cs with
    | cons c cs =>
      simp only [List.cons_append, List.isPrefixOf]
      rw [ih hmark.2]
    | nil =>
      cases bs with
      | nil => rfl
      | cons b bs =>
        have hne : (m == b) = false := by
          rw [beq_eq_false_iff_ne]
          rintro rfl
          have hblank := hbs m List.mem_cons_self
          rw [hmark.1] at hblank
          cases hblank
        simp [List.isPrefixOf, hne]

/-- A mark is taken as without the blanks, and they stay after the rest. -/
theorem takeMark_append_blanks {mark : List Char} (hmark : mark.any isBlank = false)
    (cs : List Char) :
    takeMark mark (cs ++ bs) = ((takeMark mark cs).1, (takeMark mark cs).2 ++ bs) := by
  unfold takeMark afterMark?
  rw [isPrefixOf_append_blanks hbs hmark]
  cases h : mark.isPrefixOf cs with
  | false => rfl
  | true =>
    have hlength : mark.length ≤ cs.length := (List.isPrefixOf_iff_prefix.1 h).length_le
    simp only [if_true, List.drop_append_of_le_length hlength]

/-- **Blanks at the end of a line** are no part of its loose form. -/
theorem scan_append_blanks (cs : List Char) : scan (cs ++ bs) = scan cs := by
  unfold scan
  obtain ⟨bs₁, hbs₁, h₁⟩ := dropBlanks_append hbs cs
  rw [h₁, takeMark_append_blanks hbs₁ rfl]
  generalize takeMark commentStart (dropBlanks cs) = comment
  obtain ⟨startsComment, cs⟩ := comment
  dsimp only
  obtain ⟨bs₂, hbs₂, h₂⟩ := dropBlanks_append hbs₁ cs
  rw [h₂, takeMark_append_blanks hbs₂ rfl]
  generalize takeMark ['['] (dropBlanks cs) = opening
  obtain ⟨startsSection, cs⟩ := opening
  dsimp only
  cases cs with
  | nil =>
    cases bs₂ with
    | nil => rfl
    | cons b bs₂ =>
      have hb : isNameChar b = false := isNameChar_of_isBlank (hbs₂ b List.mem_cons_self)
      have hstart : isNameStart b = false := by
        cases hs : isNameStart b with
        | false => rfl
        | true => rw [isNameChar_of_isNameStart hs] at hb; cases hb
      simp [hstart]
  | cons c cs =>
    have hname := span_append_blanks hbs₂ (c :: cs)
    rw [List.cons_append] at hname ⊢
    dsimp only
    rw [hname.1, hname.2]
    generalize (c :: cs).dropWhile isNameChar = rest
    obtain ⟨bs₃, hbs₃, h₃⟩ := dropBlanks_append hbs₂ rest
    have hword := span_append_blanks hbs₃ (dropBlanks rest)
    rw [h₃, hword.1, hword.2, takeMark_append_blanks hbs₃ rfl]
    generalize takeMark [']'] ((dropBlanks rest).dropWhile isNameChar) = closing
    obtain ⟨endsSection, rest'⟩ := closing
    dsimp only
    obtain ⟨bs₄, hbs₄, h₄⟩ := dropBlanks_append hbs₃ rest'
    rw [h₄, takeMark_append_blanks hbs₄ rfl]
    generalize takeMark commentEnd (dropBlanks rest') = comment
    obtain ⟨endsComment, rest''⟩ := comment
    dsimp only
    rw [isEmpty_dropBlanks_append hbs₄]

theorem match?_append_blanks (line : String) :
    match? (line ++ String.ofList bs) = match? line := by
  rw [match?, String.toList_append, String.toList_ofList]
  exact scan_append_blanks hbs line.toList

theorem ofLine_append_blanks (line : String) :
    ofLine (line ++ String.ofList bs) = ofLine line := by
  rw [ofLine, ofLine, match?_append_blanks hbs line]

/-- **Blanks in front of a line** are skipped before anything else. -/
theorem scan_blanks_append (cs : List Char) : scan (bs ++ cs) = scan cs := by
  rw [scan, scan, dropBlanks_blanks_append hbs]

end Directive

end Blanks

namespace Directive

/-- **The normal spacing undoes matching.** What a line is matched to is matched again by its normal
spacing, which is recognised as the line is and has itself for its normal spacing. Blanks around a
line change nothing, whether it is matched or not. -/
theorem match?_normal_spacing (line : String) :
    (∀ d, match? line = some d → match? d.text = some d ∧ ofLine d.text = ofLine line ∧
      (match? d.text).map text = some d.text) ∧
      ∀ front back : String, AllBlank front.toList → AllBlank back.toList →
        match? (front ++ line ++ back) = match? line := by
  refine ⟨fun d hd => ?_, fun front back hfront hback => ?_⟩
  · have htext : match? d.text = some d := match?_text (wf_of_match? hd)
    refine ⟨htext, ?_, by rw [htext]; rfl⟩
    rw [ofLine, ofLine, htext, hd]
  · calc match? (front ++ line ++ back)
        = match? (front ++ line ++ String.ofList back.toList) := by rw [String.ofList_toList]
      _ = match? (front ++ line) := match?_append_blanks hback (front ++ line)
      _ = match? line := by
        rw [match?, match?, String.toList_append, scan_blanks_append hfront]

/-- The choice of a shape without a blank before `[`, with two before its name and others around
it. -/
theorem match?_normal_spacing_shape :
    let line := "<!--[Class \t Story]-->"
    let d : Directive := {
      startsComment := true, endsComment := true, startsSection := true, endsSection := true
      addressesSlot := false, name := "Class", value := some "Story" }
    match? line = some d ∧ d.text = "<!-- [Class Story] -->" ∧ match? d.text = some d ∧
      ofLine d.text = ofLine line ∧
      match? ("\u3000\n" ++ line ++ "\u00a0\r") = some d ∧
      match? ("\u3000\n" ++ "[ Story" ++ "\u00a0\r") = none := by
  intro line d
  have hline : match? line = some d := by decide +kernel
  have hfront : AllBlank "\u3000\n".toList := by decide
  have hback : AllBlank "\u00a0\r".toList := by decide
  obtain ⟨hspacing, hblanks⟩ := match?_normal_spacing line
  obtain ⟨htext, hrecognised, -⟩ := hspacing d hline
  refine ⟨hline, by decide +kernel, htext, hrecognised, (hblanks _ _ hfront hback).trans hline, ?_⟩
  exact ((match?_normal_spacing "[ Story").2 _ _ hfront hback).trans (by decide +kernel)

end Directive

end Pagewright
