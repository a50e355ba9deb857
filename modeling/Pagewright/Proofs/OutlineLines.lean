import Pagewright.Document.Outline
import Pagewright.Proofs.LineEnds
import Pagewright.Proofs.Reread

/-!
# The lines that an outline accounts for

An entry of an outline says at which line its component starts, and from the entry follows where the
next one starts (`Component.outlined`): plain text reports all its lines, a script the lines between
its markers, and with the markers these are all lines of the component. So the entries tile the lines
of the document (`Accounts`), but for one thing. The lines of a script are counted in their joined
text, and such a text has no last line when that is empty (`length_lines_joinLines`). A script of
this kind reports one line too few (`Component.uncounted`), and no other entry does.
-/

namespace Pagewright

open Text
open Directive (ofLine IsPlain)

/-! ## Lines of joined lines -/

namespace Text

/-- One when the last of some lines is empty. -/
def emptyLast (ls : List String) : Nat :=
  if ls.getLast? = some "" then 1 else 0

theorem emptyLast_eq_zero_iff {ls : List String} : emptyLast ls = 0 ↔ ls.getLast? ≠ some "" := by
  unfold emptyLast
  split <;> simp [*]

theorem joinLines_concat (ls : List String) (l : String) :
    joinLines (ls ++ [l]) = writeLines ls ++ l := by
  induction ls with
  | nil => simp
  | cons m ls ih =>
    have hne : ls ++ [l] ≠ [] := List.append_ne_nil_of_right_ne_nil ls (List.cons_ne_nil l [])
    obtain ⟨m', ms, hms⟩ := List.exists_cons_of_ne_nil hne
    rw [List.cons_append, hms, joinLines_cons_cons, ← hms, ih, writeLines_cons, String.append_assoc,
      String.append_assoc, String.append_assoc]

theorem endsLastLine_writeLines (ls : List String) : EndsLastLine (writeLines ls) := by
  induction ls using List.reverseRecOn with
  | nil => exact .inl rfl
  | append_singleton ls l _ => exact .inr (by simp)

/-- A text without line feeds is one line, unless it is empty. -/
theorem length_lines_of_not_mem {l : String} (h : '\n' ∉ l.toList) :
    (lines l).length + emptyLast [l] = 1 := by
  cases hcs : l.toList with
  | nil =>
    obtain rfl := String.toList_eq_nil_iff.1 hcs
    rfl
  | cons c cs =>
    have hne : l ≠ "" := by
      rintro rfl
      cases hcs
    have hlast : emptyLast [l] = 0 := emptyLast_eq_zero_iff.2 (by simpa using hne)
    rw [lines, hcs, splitLines_of_not_mem (hcs ▸ h), hlast]
    rfl

/-- **Lines that are joined** are as many lines again, but for a last one that is empty. -/
theorem length_lines_joinLines {ls : List String} (h : ∀ l ∈ ls, '\n' ∉ l.toList) :
    (lines (joinLines ls)).length + emptyLast ls = ls.length := by
  induction ls using List.reverseRecOn with
  | nil => rfl
  | append_singleton ls l _ =>
    have hfront : ∀ m ∈ ls, '\n' ∉ m.toList := fun m hm => h m (List.mem_append_left _ hm)
    have hlast := length_lines_of_not_mem (h l (List.mem_append_right _ List.mem_cons_self))
    rw [joinLines_concat, lines_append (endsLastLine_writeLines ls), lines_writeLines_map hfront]
    have hempty : emptyLast (ls ++ [l]) = emptyLast [l] := by
      unfold emptyLast
      rw [List.getLast?_concat, List.getLast?_singleton]
    simp only [hempty, List.length_append, List.length_map, List.length_singleton]
    omega

end Text

/-! ## What entries account for -/

/-- A line on which a section starts and ends. -/
def holdsSection (line : String) : Bool :=
  match ofLine line with
  | .ok (some d) => d.isOneLine
  | _ => false

namespace Component

/-- The number of lines that a component has in the document `ls` by its entry: what the entry
reports for plain text, this and the two markers for a script, and for a slot the lines between its
markers and these two, unless all of it is on one line. -/
def outlined (ls : List String) (c : Component) : Nat :=
  match Summary.ofComponent c with
  | .plainText _ count => count
  | .script _ text => Summary.scriptLines text + 2
  | .shapeChoice _ _ => 1
  | .slot line _ _ _ => if ls[line - 1]?.any holdsSection then 1 else c.body.lines.length + 2

/-- The number of lines that the entry of a component leaves out: one for a script whose last line
is empty. -/
def uncounted (c : Component) : Nat :=
  match c.kind with
  | .script _ => emptyLast c.body.lines
  | _ => 0

end Component

/-- The entries of components tile the lines from one to before another: each starts where the one
before it ends, when a component has the given number of lines. -/
def Accounts (extent : Component → Nat) : Nat → List Component → Nat → Prop
  | first, [], stop => first = stop
  | first, c :: cs, stop =>
    (Summary.ofComponent c).line = first ∧ Accounts extent (first + extent c) cs stop

section

variable {shapes : ShapeTable} {n stop : Nat} {cs : List Component}
  {extent extent' : Component → Nat}

@[simp] theorem line_ofComponent (c : Component) : (Summary.ofComponent c).line = c.start := by
  unfold Summary.ofComponent
  cases c.kind <;> rfl

/-- Where entries start leaves one choice for the numbers of lines. -/
theorem Accounts.iff_extent_eq (h : Accounts extent n cs stop) :
    Accounts extent' n cs stop ↔ ∀ c ∈ cs, extent' c = extent c := by
  induction cs generalizing n with
  | nil => exact iff_of_true h fun _ hc => nomatch hc
  | cons c cs ih =>
    obtain ⟨hline, hrest⟩ := h
    rw [List.forall_mem_cons, ← ih hrest]
    constructor
    · rintro ⟨-, hrest'⟩
      have heq : n + extent' c = n + extent c := by
        cases cs with
        | nil => exact hrest'.trans hrest.symm
        | cons d cs => exact hrest'.1.symm.trans hrest.1
      exact ⟨Nat.add_left_cancel heq, heq ▸ hrest'⟩
    · rintro ⟨heq, hrest'⟩
      exact ⟨hline, by rwa [heq]⟩

/-- The lines of a block are those that the entry of its component accounts for. -/
theorem BlockForm.length_eq {b body : List String} {kind : ComponentKind}
    (h : BlockForm shapes b kind body) (hfeed : ∀ l ∈ b, '\n' ∉ l.toList)
    (front rest : List String) :
    (Component.ofBlock (front.length + 1) kind body).outlined (front ++ (b ++ rest)) +
      (Component.ofBlock (front.length + 1) kind body).uncounted = b.length := by
  have hfirst : (front ++ (b ++ rest))[front.length + 1 - 1]? = (b ++ rest)[0]? := by
    rw [Nat.add_sub_cancel, List.getElem?_append_right (Nat.le_refl _), Nat.sub_self]
  have hsection : ∀ {opening : String} {d : Directive} (closing : String),
      ofLine opening = .ok (some d) → d.endsSection = false → b = opening :: body ++ [closing] →
      ∀ name display, kind = .slot name display →
        (Component.ofBlock (front.length + 1) kind body).outlined (front ++ (b ++ rest)) +
          (Component.ofBlock (front.length + 1) kind body).uncounted = b.length := by
    rintro opening d closing hopens hgoesOn rfl name display rfl
    have hwhole : holdsSection opening = false := by
      simp [holdsSection, hopens, Directive.isOneLine, hgoesOn]
    unfold Component.outlined Component.uncounted
    simp only [Summary.ofComponent, Component.ofBlock, hfirst]
    simp [hwhole]
  cases h with
  | plainText => rfl
  | reference reads kind oneLine =>
    unfold Component.outlined Component.uncounted
    simp only [Summary.ofComponent, Component.ofBlock, hfirst]
    simp [holdsSection, reads, oneLine]
  | shapeChoice => rfl
  | rendered opens kind starts goesOn => exact hsection _ opens goesOn rfl _ _ rfl
  | commentOnly opens kind starts goesOn => exact hsection _ opens goesOn rfl _ _ rfl
  | @script opening closing body d e opens kind starts plain closes ends kind' =>
    have hbody : ∀ l ∈ body, '\n' ∉ l.toList := fun l hl =>
      hfeed l (List.mem_append_left _ (List.mem_cons_of_mem _ hl))
    have hcount := length_lines_joinLines hbody
    unfold Component.outlined Component.uncounted
    simp only [Summary.ofComponent, Component.ofBlock, Component.text, Summary.scriptLines,
      Option.getD_some, List.length_append, List.length_cons, List.length_nil]
    omega

/-- **The entries of blocks** account for the lines of these, whatever lines stand before them. -/
theorem Reads.accounts {bs : List (List String)} (h : Reads shapes n bs cs)
    (hfeed : ∀ l ∈ bs.flatten, '\n' ∉ l.toList) (front : List String) (hn : n = front.length + 1) :
    Accounts (fun c => c.outlined (front ++ bs.flatten) + c.uncounted) n cs
      (n + bs.flatten.length) := by
  induction h generalizing front with
  | nil => rfl
  | @cons n b body kind bs cs head tail ih =>
    subst hn
    rw [List.flatten_cons] at hfeed ⊢
    have hfeedHead : ∀ l ∈ b, '\n' ∉ l.toList := fun l hl => hfeed l (List.mem_append_left _ hl)
    have hlength := head.length_eq hfeedHead front bs.flatten
    have hrest := ih (fun l hl => hfeed l (List.mem_append_right _ hl)) (front ++ b)
      (by rw [List.length_append, Nat.add_right_comm])
    refine ⟨line_ofComponent _, ?_⟩
    dsimp only
    rw [hlength, List.length_append, ← Nat.add_assoc]
    rwa [List.append_assoc] at hrest

/-- **The outline accounts for every line** of a document, but for the empty last lines of scripts.
From the first line on the entries tile the lines up to the last when for each such script one line is
added; without this they do so exactly when no script ends in an empty line. What the entry of a
script reports is the number of lines between its two markers, less one if the last of these is
empty. -/
theorem outline_accounts_iff {path : Path} {source : String} {doc : Document}
    (hdoc : Document.parse shapes path source = .ok doc) :
    let ls := lines source
    Accounts (fun c => c.outlined ls + c.uncounted) 1 doc.components (ls.length + 1) ∧
      (Accounts (Component.outlined ls) 1 doc.components (ls.length + 1) ↔
        ∀ c ∈ doc.components, ∀ keyword, c.kind = .script keyword →
          c.body.lines.getLast? ≠ some "") ∧
      ∀ c ∈ doc.components, ∀ keyword, c.kind = .script keyword →
        (∃ before opening closing after,
          ls = before ++ (opening :: c.body.lines ++ [closing]) ++ after ∧
            before.length + 1 = c.start ∧ ¬ IsPlain opening ∧ ¬ IsPlain closing) ∧
          ∃ count, (Summary.ofComponent c).entry =
              "script @" ++ toString c.start ++ " (" ++ toString count ++ " lines)" ∧
            count + emptyLast c.body.lines = c.body.lines.length := by
  intro ls
  obtain ⟨bs, hflatten, hreads, -, -, -⟩ := ofLines_eq_ok_iff.1 hdoc
  have hfeed : ∀ l ∈ bs.flatten, '\n' ∉ l.toList := fun l hl => not_mem_lines (hflatten ▸ hl)
  have haccounts : Accounts (fun c => c.outlined ls + c.uncounted) 1 doc.components
      (ls.length + 1) := by
    have htile := hreads.accounts hfeed [] rfl
    rwa [List.nil_append, hflatten, Nat.add_comm] at htile
  refine ⟨haccounts, ?_, ?_⟩
  · rw [haccounts.iff_extent_eq]
    refine forall₂_congr fun c _ => ?_
    rw [eq_comm, Nat.add_eq_left, Component.uncounted]
    cases hkind : c.kind with
    | script keyword => simp [emptyLast_eq_zero_iff]
    | _ => simp
  · intro c hc keyword hkind
    obtain ⟨before, b, after, hsplit, hstart, hform⟩ := hreads.exists_between c hc
    obtain ⟨-, -, -, hblock⟩ := hreads.exists_block c hc
    rw [hflatten] at hsplit
    rw [hkind] at hform
    refine ⟨?_, _, by rw [Summary.ofComponent, hkind]; rfl, ?_⟩
    · cases hform with
      | @script opening closing _ d e opens _ _ _ closes =>
        exact ⟨before, opening, closing, after, hsplit, by omega, not_isPlain_of_ofLine opens,
          not_isPlain_of_ofLine closes⟩
    · have hbody : ∀ l ∈ c.body.lines, '\n' ∉ l.toList := fun l hl =>
        not_mem_lines (s := source) <| by
          rw [hsplit]
          exact List.mem_append_left _ (List.mem_append_right _ (hform.mem_of_mem_body hl))
      have htext : c.text = joinLines c.body.lines := by rw [hblock]; rfl
      rw [Summary.scriptLines, htext]
      exact length_lines_joinLines hbody

/-- Each kind of entry; the script has an empty line, but not as its last one. -/
theorem outline_accounts_iff_five_kinds :
    let source := "intro\n<!-- [class Page] -->\n<!-- [layout] -->\n<!-- [title -->\n" ++
      "<!-- title] -->\n<!-- [script\n\nx = 1\nscript] -->\n\n"
    let tree := "document /site/index.html\n├─ plain-text @1 (1 lines)\n├─ class @2 Page\n" ++
      "├─ slot @3 layout [rendered] \"\"\n├─ slot @4 title [rendered] \"\"\n" ++
      "├─ script @6 (2 lines)\n├─ plain-text @10 (1 lines)\n└─ shape Page\n"
    ∃ doc, Document.parse .standard ⟨"/site/index.html"⟩ source = .ok doc ∧
      Accounts (Component.outlined (lines source)) 1 doc.components ((lines source).length + 1) ∧
      doc.outlineTree = tree := by
  intro source tree
  have htest : (Document.parse .standard ⟨"/site/index.html"⟩ source).toOption.any (fun doc =>
      decide ((∀ c ∈ doc.components, c.body.lines.getLast? ≠ some "" ∨ c.isPlain = true) ∧
        doc.outlineTree = tree)) = true := by
    decide +kernel
  obtain ⟨doc, hdoc, htest⟩ := exists_ok_of_any htest
  obtain ⟨hlast, htree⟩ := of_decide_eq_true htest
  obtain ⟨-, hiff, -⟩ := outline_accounts_iff hdoc
  refine ⟨doc, hdoc, hiff.2 fun c hc keyword hkind => ?_, htree⟩
  refine (hlast c hc).resolve_right fun hplain => ?_
  rw [Component.isPlain, hkind] at hplain
  cases hplain

/-- A script whose only line is empty reports none, so that its entry ends before its end. -/
theorem not_outline_accounts_empty_line :
    let source := "<!-- [script\n\nscript] -->\n"
    let tree := "document /site/index.html\n├─ script @1 (0 lines)\n└─ shape Page\n"
    ∃ doc, Document.parse .standard ⟨"/site/index.html"⟩ source = .ok doc ∧
      (lines source).length = 3 ∧
      ¬ Accounts (Component.outlined (lines source)) 1 doc.components ((lines source).length + 1) ∧
      doc.outlineTree = tree := by
  intro source tree
  have htest : (Document.parse .standard ⟨"/site/index.html"⟩ source).toOption.any (fun doc =>
      decide (doc.components = [⟨1, .script "script", ⟨[""], some ""⟩⟩] ∧
        doc.outlineTree = tree)) = true := by
    decide +kernel
  obtain ⟨doc, hdoc, htest⟩ := exists_ok_of_any htest
  obtain ⟨hcomponents, htree⟩ := of_decide_eq_true htest
  have hlength : (lines source).length = 3 := by decide +kernel
  refine ⟨doc, hdoc, hlength, ?_, htree⟩
  rw [hcomponents, hlength]
  rintro ⟨-, hstop⟩
  have hextent :
      (Component.mk 1 (.script "script") ⟨[""], some ""⟩).outlined (lines source) = 2 := by
    decide +kernel
  rw [hextent] at hstop
  cases hstop

end

end Pagewright
