import Pagewright.Proofs.FailedReadings
import Pagewright.Proofs.LineEnds

/-!
# The earliest line of a fault

A document that is refused at a line is refused there whatever follows, and what stands before that
line goes on to a document (`Fails.earliest`): so no fault could have been found earlier, and none is
found later. A document that is refused at its end lacks only the line that closes its last directive
(`Fails.endsInside`). Both are put together for texts in `parse_error_earliest`.
-/

namespace Pagewright

open Text
open Directive (ofLine IsPlain)

variable {shapes : ShapeTable} {path : Path} {ls : List String} {n : Nat} {d : Directive}

/-- The last directive among some lines, with the number of its line. -/
inductive LastDirective : List String → Nat → Directive → Prop
  | mk {before after : List String} {line : String} {d : Directive}
      (reads : ofLine line = .ok (some d)) (plain : ∀ l ∈ after, IsPlain l) :
      LastDirective (before ++ line :: after) (before.length + 1) d

/-! ## Sections that are open at the end -/

/-- A section that is open was opened by the last directive. -/
theorem EndsInside.lastDirective (h : EndsInside shapes path ls n d) :
    LastDirective ls n d ∧ d.startsSection = true ∧ d.endsSection = false := by
  cases h with
  | mk complete opens starts goesOn plain =>
    refine ⟨.mk opens plain, starts, ?_⟩
    rwa [Directive.isOneLine, starts, Bool.true_and] at goesOn

/-- To a section that is open a carriage return at the end of the last line is a blank. -/
theorem EndsInside.dropReturn {init : List String} {last : String}
    (h : EndsInside shapes path (init ++ [last]) n d) :
    EndsInside shapes path (init ++ [dropReturn last]) n d := by
  generalize hls : init ++ [last] = ls at h
  cases h with
  | @mk before body opening d doc complete opens starts goesOn plain =>
    rcases List.eq_nil_or_concat body with rfl | ⟨rest, l, rfl⟩
    · obtain ⟨rfl, hlast⟩ := List.append_inj' hls rfl
      obtain rfl : last = opening := List.singleton_inj.1 hlast
      exact .mk complete ((ofLine_dropReturn last).trans opens) starts goesOn plain
    · rw [List.concat_eq_append] at plain hls
      rw [← List.cons_append, ← List.append_assoc] at hls
      obtain ⟨rfl, hlast⟩ := List.append_inj' hls rfl
      obtain rfl : last = l := List.singleton_inj.1 hlast
      have hplain : ∀ m ∈ rest ++ [dropReturn last], IsPlain m := by
        intro m hm
        rcases List.mem_append.1 hm with hm | hm
        · exact plain m (List.mem_append_left _ hm)
        · rw [List.mem_singleton.1 hm, IsPlain, ofLine_dropReturn]
          exact plain last (List.mem_append_right _ List.mem_cons_self)
      rw [List.append_assoc, List.cons_append]
      exact .mk complete opens starts goesOn hplain

/-- The line that closes a section has no line end in it. -/
theorem EndsInside.isLine_closing (h : EndsInside shapes path ls n d) :
    '\n' ∉ d.closing.text.toList ∧ ¬ EndsInReturn d.closing.text :=
  ⟨Directive.not_mem_text h.closing_lawful.wf (.inl rfl), fun hreturn =>
    Directive.not_mem_text h.closing_lawful.wf (.inr rfl) (List.mem_of_getLast? hreturn)⟩

/-- **A text that ends inside a section** is a document when the line that closes it is added. -/
theorem EndsInside.exists_parse_appendLine {source : String}
    (h : EndsInside shapes path (lines source) n d) :
    ∃ doc, Document.parse shapes path (appendLine source d.closing.text) = .ok doc := by
  obtain ⟨hfeed, hreturn⟩ := h.isLine_closing
  rw [Document.parse]
  rcases lines_appendLine hfeed hreturn source with hlines | ⟨init, last, hsource, hlines⟩
  · rw [hlines]
    exact h.closed
  · rw [hlines]
    rw [hsource] at h
    exact h.dropReturn.closed

/-! ## Where a reading fails -/

/-- **A reading that fails at a line** fails there in the same way whatever the lines after it are,
and the lines before it go on to a document. -/
theorem Fails.earliest {e : DocumentError} {line : String} (h : Fails shapes path ls e)
    (hline : e.line = some line) :
    ∃ before after, ls = before ++ line :: after ∧ e.number = before.length + 1 ∧
      (∀ rest, Fails shapes path (before ++ line :: rest) e) ∧
      ∃ more doc, (∀ l ∈ more, '\n' ∉ l.toList) ∧
        Document.ofLines shapes path (before ++ more) = .ok doc := by
  cases h with
  | atEnd => cases hline
  | @atLine before after line' D e split read refused =>
    obtain ⟨hnumber, hplace, -⟩ := Draft.addLine_eq_error_iff.1 refused
    obtain rfl : line' = line := Option.some.inj (hplace.symm.trans hline)
    refine ⟨before, after, split, by rw [hnumber, Nat.add_comm],
      fun rest => .atLine rfl read refused, ?_⟩
    have hheld : Held shapes path before D := Held.empty.addLines read
    rcases hheld.complete_or_endsInside with ⟨-, doc, hdoc⟩ | ⟨n, d, -, hinside, -⟩
    · exact ⟨[], doc, nofun, by rwa [List.append_nil]⟩
    · obtain ⟨doc, hdoc⟩ := hinside.closed
      exact ⟨[d.closing.text], doc, List.forall_mem_singleton.2 hinside.isLine_closing.1, hdoc⟩

/-- **A reading that fails at no line** has gone over all of them and is inside a section. -/
theorem Fails.endsInside {e : DocumentError} (h : Fails shapes path ls e) (hline : e.line = none) :
    ∃ n d, EndsInside shapes path ls n d ∧
      e = ⟨ls.length, none, .component (.staysOpen d.name n)⟩ := by
  cases h with
  | atLine _ _ refused =>
    rw [(Draft.addLine_eq_error_iff.1 refused).2.1] at hline
    cases hline
  | @atEnd D c read current =>
    have hheld : Held shapes path ls D := Held.empty.addLines read
    rcases hheld.complete_or_endsInside with ⟨hnone, -⟩ | ⟨n, d, c', hinside, hc, hname, hstart⟩
    · rw [current] at hnone
      cases hnone
    · obtain rfl : c = c' := Option.some.inj (current.symm.trans hc)
      exact ⟨n, d, hinside, by rw [hname, hstart]; rfl⟩

/-- A computation whose ending passes a test for an error has this error. -/
theorem eq_error_of_test {ε α : Type} [DecidableEq ε] {x : Except ε α} {e : ε}
    (h : (match x with
      | .ok _ => false
      | .error e' => decide (e' = e)) = true) : x = .error e := by
  cases x with
  | ok a => cases h
  | error e' => exact congrArg Except.error (of_decide_eq_true h)

/-- **Faults are found as early as can be.** When a document is refused at a line, this is the line of
the number that the error has, all texts with the lines up to it are refused with the same error, and
some text with the lines before it is a document. When it is refused at its end, its last directive
has opened a section, the error has the number of lines and the name and the number of that directive,
and with the line that closes the section the text is a document. -/
theorem parse_error_earliest {source : String} {e : DocumentError}
    (h : Document.parse shapes path source = .error e) :
    (∀ line, e.line = some line →
      1 ≤ e.number ∧ (lines source)[e.number - 1]? = some line ∧
        (∀ other, (lines source).take e.number <+: lines other →
          Document.parse shapes path other = .error e) ∧
        ∃ other doc, (lines source).take (e.number - 1) <+: lines other ∧
          Document.parse shapes path other = .ok doc) ∧
      (e.line = none →
        ∃ number d, LastDirective (lines source) number d ∧ d.startsSection = true ∧
          d.endsSection = false ∧
          e = ⟨(lines source).length, none, .component (.staysOpen d.name number)⟩ ∧
          ofLine d.closing.text = .ok (some d.closing) ∧ d.closing.startsSection = false ∧
          ∃ doc, Document.parse shapes path (appendLine source d.closing.text) = .ok doc) := by
  have hfails := ofLines_eq_error_iff.1 h
  refine ⟨fun line hline => ?_, fun hline => ?_⟩
  · obtain ⟨before, after, hsource, hnumber, hrest, more, doc, hmore, hdoc⟩ := hfails.earliest hline
    have hbefore : (lines source).take before.length = before := by rw [hsource, List.take_left]
    have hupTo : (lines source).take (before.length + 1) = before ++ [line] := by
      rw [hsource, List.append_cons, List.take_left' (by simp)]
    rw [hnumber, Nat.add_sub_cancel, hbefore, hupTo]
    refine ⟨Nat.le_add_left 1 _, by simp [hsource], ?_, ?_⟩
    · rintro other ⟨rest, hother⟩
      rw [Document.parse, ← hother, List.append_assoc]
      exact ofLines_eq_error_iff.2 (hrest rest)
    · have hfeed : ∀ l ∈ before ++ more, '\n' ∉ l.toList := by
        intro l hl
        rcases List.mem_append.1 hl with hl | hl
        · exact not_mem_lines (hsource ▸ List.mem_append_left _ hl)
        · exact hmore l hl
      obtain ⟨other, hother⟩ := exists_lines_eq hfeed
      exact ⟨other, doc, by rw [hother]; exact List.prefix_append _ _, by rwa [Document.parse, hother]⟩
  · obtain ⟨number, d, hinside, he⟩ := hfails.endsInside hline
    obtain ⟨hlast, hstarts, hends⟩ := hinside.lastDirective
    exact ⟨number, d, hlast, hstarts, hends, he, hinside.closing_lawful.ofLine_text,
      Directive.startsSection_closing, hinside.exists_parse_appendLine⟩

/-- A slot inside a slot is refused at its line, also when the first slot is closed after it. A script
that nothing closes, with a keyword in capitals and a carriage return for its last character, lacks
the line with its own keyword. -/
theorem parse_error_earliest_nested_and_open :
    let parse := Document.parse .standard ⟨"/site/index.html"⟩
    let nested := "<!-- [title -->\nHello\r\n<!-- [other] -->"
    let unclosed := "intro\n<!-- [SCRIPT\nx = 1\r"
    let e : DocumentError :=
      ⟨3, some "<!-- [other] -->", .component (.opensInside "<!-- [other] -->")⟩
    (parse nested = .error e ∧ parse (nested ++ "\n<!-- title] -->\n") = .error e ∧
      ∃ other doc, ["<!-- [title -->", "Hello"] <+: lines other ∧ parse other = .ok doc) ∧
      parse unclosed = .error ⟨3, none, .component (.staysOpen "SCRIPT" 2)⟩ ∧
      ∃ doc, parse (unclosed ++ "\nSCRIPT] -->\n") = .ok doc := by
  intro parse nested unclosed e
  have hnested : parse nested = .error e := eq_error_of_test (by decide +kernel)
  have hunclosed : parse unclosed = .error ⟨3, none, .component (.staysOpen "SCRIPT" 2)⟩ :=
    eq_error_of_test (by decide +kernel)
  obtain ⟨-, -, hother, hcomplete⟩ := (parse_error_earliest hnested).1 _ rfl
  have hprefix : (lines nested).take 3 <+: lines (nested ++ "\n<!-- title] -->\n") := by
    decide +kernel
  have hbefore : (lines nested).take 2 = ["<!-- [title -->", "Hello"] := by decide +kernel
  refine ⟨⟨hnested, hother _ hprefix, hbefore ▸ hcomplete⟩, hunclosed, ?_⟩
  obtain ⟨number, d, -, -, -, he, -, -, hclosed⟩ := (parse_error_earliest hunclosed).2 rfl
  simp only [DocumentError.mk.injEq, DocumentFault.component.injEq,
    ComponentError.staysOpen.injEq] at he
  obtain ⟨-, -, hname, -⟩ := he
  have hkind : NameKind.of "SCRIPT" = .script := by decide
  have hclosing : d.closing.text = "SCRIPT] -->" := by
    rw [Directive.closing, Directive.kind, ← hname, hkind]
    rfl
  have htext : appendLine unclosed "SCRIPT] -->" = unclosed ++ "\nSCRIPT] -->\n" := by
    decide +kernel
  rwa [hclosing, htext] at hclosed

end Pagewright
