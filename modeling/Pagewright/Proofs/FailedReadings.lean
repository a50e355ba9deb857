import Pagewright.Proofs.Tiling

/-!
# Readings that fail

The reading of lines fails in two ways (`Fails`): a line is refused when those before it have been
read, for one of the reasons in `Draft.Refuses`, or the lines are over inside a section. There is no
third one (`ofLines_eq_error_iff`). What has been read may always go on to a document. Either it is
one, or it ends inside a section (`EndsInside`), and then the line that closes this section makes it
one (`EndsInside.closed`): the class form never stays open, and closing a section cannot fail in what
it does to the page.
-/

namespace Pagewright

open Text
open Directive (ofLine IsPlain)

variable {shapes : ShapeTable} {path : Path} {ls : List String} {D : Draft} {n : Nat}

/-! ## Lines that are refused -/

namespace Draft

/-- How a line is refused after what has been read. -/
inductive Refuses (shapes : ShapeTable) (D : Draft) (n : Nat) (line : String) : DocumentFault → Prop
  | violation {v : Directive.Violation} (refused : ofLine line = .error v) :
      Refuses shapes D n line (.directive v)
  | opensInside {d : Directive} {c : Component} (reads : ofLine line = .ok (some d))
      (current : D.settle.current = some c) (starts : d.startsSection = true) :
      Refuses shapes D n line (.component (.opensInside d.text))
  | closesNothing {d : Directive} (reads : ofLine line = .ok (some d))
      (current : D.settle.current = none) (ends : d.startsSection = false) :
      Refuses shapes D n line (.component (.closesNothing d.text))
  | closing {d : Directive} {c : Component} {e : ComponentError}
      (reads : ofLine line = .ok (some d)) (current : D.settle.current = some c)
      (ends : d.startsSection = false) (refused : (c.closeBy shapes d D.page).2 = .error e) :
      Refuses shapes D n line (.component e)
  | oneLine {d : Directive} {e : ComponentError} (reads : ofLine line = .ok (some d))
      (current : D.settle.current = none) (oneLine : d.isOneLine = true)
      (refused : ((Component.ofDirective d n).finish shapes D.page).2 = .error e) :
      Refuses shapes D n line (.component e)

/-- **A line that is refused** is named in the error, with its number. -/
theorem addLine_eq_error_iff {line : String} {e : DocumentError} :
    D.addLine shapes n line = .error e ↔
      e.number = n ∧ e.line = some line ∧ D.Refuses shapes n line e.fault := by
  constructor
  · intro h
    unfold addLine at h
    split at h
    · next v hline =>
      obtain rfl := Except.error.inj h
      exact ⟨rfl, rfl, .violation hline⟩
    · cases h
    · next d hline =>
      split at h
      · cases h
      · next error hadd =>
        obtain rfl := Except.error.inj h
        refine ⟨rfl, rfl, ?_⟩
        rw [addDirective_eq, addSettled, page_settle] at hadd
        split at hadd
        · next c hcurrent =>
          split at hadd
          · next hstarts =>
            obtain rfl := Except.error.inj hadd
            exact .opensInside hline hcurrent hstarts
          · next hends =>
            split at hadd
            · cases hadd
            · next hclose =>
              obtain rfl := Except.error.inj hadd
              exact .closing hline hcurrent (by simpa using hends) (congrArg Prod.snd hclose)
        · next hcurrent =>
          dsimp only at hadd
          split at hadd
          · next hends =>
            obtain rfl := Except.error.inj hadd
            exact .closesNothing hline hcurrent (by simpa using hends)
          · split at hadd
            · next honeLine =>
              split at hadd
              · cases hadd
              · next hfinish =>
                obtain rfl := Except.error.inj hadd
                exact .oneLine hline hcurrent honeLine (congrArg Prod.snd hfinish)
            · cases hadd
  · obtain ⟨number, place, fault⟩ := e
    rintro ⟨rfl, rfl, h⟩
    unfold addLine
    cases h with
    | violation refused => rw [refused]
    | opensInside reads current starts =>
      simp [reads, addDirective_eq, addSettled, current, starts]
    | closesNothing reads current ends =>
      simp [reads, addDirective_eq, addSettled, current, ends]
    | @closing d c e reads current ends refused =>
      generalize hclose : c.closeBy shapes d D.page = closed at refused
      obtain ⟨c', result⟩ := closed
      obtain rfl : result = .error e := refused
      simp [reads, addDirective_eq, addSettled, current, ends, hclose]
    | @oneLine d e reads current oneLine refused =>
      have hstarts : d.startsSection = true := Directive.startsSection_of_isOneLine oneLine
      generalize hfinish : (Component.ofDirective d number).finish shapes D.page = finished at refused
      obtain ⟨c', result⟩ := finished
      obtain rfl : result = .error e := refused
      simp [reads, addDirective_eq, addSettled, current, hstarts, oneLine, hfinish]

/-- The reading of lines fails at the first that is refused. -/
theorem addLines_eq_error_iff {e : DocumentError} :
    D.addLines shapes n ls = .error e ↔ ∃ before line after D',
      ls = before ++ line :: after ∧ D.addLines shapes n before = .ok D' ∧
        D'.addLine shapes (n + before.length) line = .error e := by
  constructor
  · intro h
    induction ls generalizing D n with
    | nil => cases h
    | cons l ls ih =>
      rw [addLines] at h
      split at h
      · next D₁ h₁ =>
        obtain ⟨before, line, after, D', rfl, hread, hrefused⟩ := ih h
        refine ⟨l :: before, line, after, D', rfl, (addLines_cons h₁ before).trans hread, ?_⟩
        rw [List.length_cons, Nat.add_comm before.length, ← Nat.add_assoc]
        exact hrefused
      · next e' h₁ =>
        obtain rfl := Except.error.inj h
        exact ⟨[], l, ls, D, rfl, rfl, h₁⟩
  · rintro ⟨before, line, after, D', rfl, hread, hrefused⟩
    rw [addLines_append hread, addLines, hrefused]

end Draft

/-- How the reading of lines fails. -/
inductive Fails (shapes : ShapeTable) (path : Path) (ls : List String) : DocumentError → Prop
  | atLine {before after : List String} {line : String} {D : Draft} {e : DocumentError}
      (split : ls = before ++ line :: after)
      (read : (Draft.empty shapes path).addLines shapes 1 before = .ok D)
      (refused : D.addLine shapes (1 + before.length) line = .error e) : Fails shapes path ls e
  | atEnd {D : Draft} {c : Component}
      (read : (Draft.empty shapes path).addLines shapes 1 ls = .ok D)
      (current : D.settle.current = some c) :
      Fails shapes path ls ⟨ls.length, none, .component (.staysOpen (c.name?.getD "") c.start)⟩

/-- **Readings that fail**: at a line that is refused, or at the end of the lines. -/
theorem ofLines_eq_error_iff {e : DocumentError} :
    Document.ofLines shapes path ls = .error e ↔ Fails shapes path ls e := by
  unfold Document.ofLines
  constructor
  · intro h
    split at h
    · next D hread =>
      unfold Draft.toDocument at h
      split at h
      · next c hc =>
        obtain rfl := Except.error.inj h
        exact .atEnd hread hc
      · cases h
    · next e' hread =>
      obtain rfl := Except.error.inj h
      obtain ⟨before, line, after, D, hsplit, hbefore, hrefused⟩ :=
        Draft.addLines_eq_error_iff.1 hread
      exact .atLine hsplit hbefore hrefused
  · intro h
    cases h with
    | atLine split read refused =>
      rw [Draft.addLines_eq_error_iff.2 ⟨_, _, _, _, split, read, refused⟩]
    | atEnd read current => simp only [read, Draft.toDocument, current]

/-! ## What is read goes on to a document -/

namespace Directive

/-- The directive that closes the section which a directive opens. -/
def closing (d : Directive) : Directive :=
  match d.kind with
  | .slot => slotClosing d.name (if d.endsComment then .rendered else .commentOnly)
  | _ => scriptClosing d.name

variable {d : Directive}

theorem startsSection_closing : d.closing.startsSection = false := by
  unfold closing
  cases d.kind <;> rfl

theorem Lawful.closing (h : d.Lawful) (hgoesOn : d.isOneLine = false) : d.closing.Lawful := by
  unfold Directive.closing
  cases hk : d.kind with
  | slot => exact lawful_slotClosing _ (h.isWritable hk)
  | script => exact lawful_scriptClosing h.wf.name hk
  | shape =>
    have honeLine := (h.shape hk).2
    rw [hgoesOn] at honeLine
    cases honeLine

theorem checkClosing_closing {c : Component} (hc : c.kind = Component.kindOf d)
    (hshape : d.kind ≠ .shape) : c.checkClosing d.closing = .ok () := by
  rw [Component.checkClosing_eq_ok_iff, hc, Component.kindOf, closing]
  cases hk : d.kind with
  | slot => cases d.endsComment <;> exact ⟨rfl, rfl, rfl⟩
  | script => exact hk
  | shape => exact absurd hk hshape

end Directive

/-- A block that is no plain text may follow any document. -/
theorem exists_ofLines_append {b body : List String} {kind : ComponentKind} {doc : Document}
    (hdoc : Document.ofLines shapes path ls = .ok doc) (hb : BlockForm shapes b kind body)
    (hkind : kind ≠ .plainText) : ∃ doc', Document.ofLines shapes path (ls ++ b) = .ok doc' := by
  obtain ⟨bs, rfl, hreads, hapart, -, -⟩ := ofLines_eq_ok_iff.1 hdoc
  have happend : Document.ofLines shapes path (bs ++ [b]).flatten = .ok _ :=
    ofLines_of_reads (hreads.append hb) (hapart.append fun h => absurd h hkind)
  rw [List.flatten_concat] at happend
  exact ⟨_, happend⟩

/-- Lines that end inside a section: a directive opens it, at the given line, when the lines before
are a document, and only plain lines follow. -/
inductive EndsInside (shapes : ShapeTable) (path : Path) : List String → Nat → Directive → Prop
  | mk {before body : List String} {opening : String} {d : Directive} {doc : Document}
      (complete : Document.ofLines shapes path before = .ok doc)
      (opens : ofLine opening = .ok (some d)) (starts : d.startsSection = true)
      (goesOn : d.isOneLine = false) (plain : ∀ l ∈ body, IsPlain l) :
      EndsInside shapes path (before ++ opening :: body) (before.length + 1) d

theorem EndsInside.closing_lawful {d : Directive} (h : EndsInside shapes path ls n d) :
    d.closing.Lawful := by
  cases h with
  | mk complete opens starts goesOn plain => exact (Directive.lawful_of_ofLine opens).closing goesOn

/-- **A section that is open may be closed**, and then the lines are a document. -/
theorem EndsInside.closed {d : Directive} (h : EndsInside shapes path ls n d) :
    ∃ doc, Document.ofLines shapes path (ls ++ [d.closing.text]) = .ok doc := by
  have hcloses := h.closing_lawful.ofLine_text
  cases h with
  | @mk before body opening d doc complete opens starts goesOn plain =>
    have hshape : d.kind ≠ .shape := by
      intro hk
      have honeLine := ((Directive.lawful_of_ofLine opens).shape hk).2
      rw [goesOn] at honeLine
      cases honeLine
    have hb : BlockForm shapes (opening :: body ++ [d.closing.text]) (Component.kindOf d) body :=
      blockForm_section (n := before.length + 1) opens starts goesOn plain hcloses
        Directive.startsSection_closing (Directive.checkClosing_closing rfl hshape)
    have happend := exists_ofLines_append complete hb (kindOf_ne_plainText d)
    rwa [← List.append_assoc] at happend

/-- **What has been read** is a document or ends inside a section, that of the open component. -/
theorem Held.complete_or_endsInside (h : Held shapes path ls D) :
    (D.settle.current = none ∧ ∃ doc, Document.ofLines shapes path ls = .ok doc) ∨
      ∃ n d c, EndsInside shapes path ls n d ∧ D.settle.current = some c ∧
        c.name? = some d.name ∧ c.start = n := by
  obtain ⟨bs, rest, rfl, hreached, hnamed⟩ := h.settle
  have hdoc : Document.ofLines shapes path bs.flatten = .ok _ :=
    ofLines_of_reads hreached.reads hreached.apart
  have hpending := hreached.pending
  generalize hc : D.settle.current = current at hpending hnamed
  cases hpending with
  | idle => exact .inl ⟨rfl, _, by rw [List.append_nil]; exact hdoc⟩
  | plainText => exact absurd rfl (hnamed _ rfl)
  | @opened opening body d opens starts goesOn plain =>
    refine .inr ⟨_, d, _, .mk hdoc opens starts goesOn plain, rfl, ?_, Nat.add_comm _ _⟩
    rw [Component.name?, Component.kind_pushAll, Component.kind_ofDirective, Component.kindOf]
    cases d.kind <;> rfl

end Pagewright
