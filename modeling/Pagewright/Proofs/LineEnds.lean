import Pagewright.Proofs.Lines
import Pagewright.Proofs.OuterBlanks
import Pagewright.Proofs.Tiling

/-!
# Carriage returns at line ends

A line that is written and read back loses one carriage return at its end, if it has one, and nothing
else (`lines_writeLines_map`). To a directive such a carriage return is a blank, so the blocks of a
document stay blocks of the same forms (`Reads.dropReturns`): blocks that are written as lines are
read as the same components with the lines so shortened (`parse_writeLines`).
-/

namespace Pagewright

namespace Text

/-- A line without the carriage return at its end, if it has one. -/
def dropReturn (l : String) : String :=
  if EndsInReturn l then String.ofList l.toList.dropLast else l

/-- A text without one carriage return at the end of each of its pieces. -/
def dropReturns (s : String) : String :=
  joinLines ((pieces s).map dropReturn)

theorem dropReturn_of_not {l : String} (h : ¬ EndsInReturn l) : dropReturn l = l :=
  if_neg h

theorem toList_of_endsInReturn {l : String} (h : EndsInReturn l) :
    l.toList = (dropReturn l).toList ++ ['\r'] := by
  have hne : l.toList ≠ [] := by
    rintro hnil
    rw [EndsInReturn, hnil] at h
    cases h
  have hlast : l.toList.getLast hne = '\r' :=
    Option.some.inj ((List.getLast?_eq_some_getLast hne).symm.trans h)
  rw [dropReturn, if_pos h, String.toList_ofList, ← hlast, List.dropLast_append_getLast hne]

theorem dropReturns_of_forall {s : String} (h : ∀ piece ∈ pieces s, ¬ EndsInReturn piece) :
    dropReturns s = s := by
  have hmap : (pieces s).map dropReturn = pieces s :=
    (List.map_congr_left fun piece hpiece => dropReturn_of_not (h piece hpiece)).trans
      (List.map_id' _)
  rw [dropReturns, hmap, joinLines_pieces]

/-- A carriage return before the line feed that ends a line belongs to the line end. -/
theorem splitLines_append_return_feed {l : List Char} (hfeed : '\n' ∉ l) (cs : List Char) :
    splitLines (l ++ '\r' :: '\n' :: cs) = l :: splitLines cs := by
  induction l with
  | nil => rfl
  | cons c l ih =>
    have hc : c ≠ '\n' := fun h => hfeed (h ▸ List.mem_cons_self)
    have hl : '\n' ∉ l := fun h => hfeed (List.mem_cons_of_mem _ h)
    have hhead : ∀ ds, c = '\r' → l ++ '\r' :: '\n' :: cs ≠ '\n' :: ds := by
      rintro ds - h
      cases l with
      | nil => exact absurd (List.cons.inj h).1 (by decide)
      | cons d l => exact hl ((List.cons.inj h).1 ▸ List.mem_cons_self)
    rw [List.cons_append, splitLines_cons_other hc hhead, ih hl]

/-- **A line that is written and read back** loses the carriage return at its end. -/
theorem lines_writeLines_map {ls : List String} (h : ∀ l ∈ ls, '\n' ∉ l.toList) :
    lines (writeLines ls) = ls.map dropReturn := by
  induction ls with
  | nil => rfl
  | cons l ls ih =>
    have hfeed := h l List.mem_cons_self
    have hrest := ih fun m hm => h m (List.mem_cons_of_mem _ hm)
    unfold lines at hrest ⊢
    by_cases hreturn : EndsInReturn l
    · have hdrop : '\n' ∉ (dropReturn l).toList := by
        rw [toList_of_endsInReturn hreturn] at hfeed
        exact fun hmem => hfeed (List.mem_append_left _ hmem)
      have htext : (writeLines (l :: ls)).toList =
          (dropReturn l).toList ++ '\r' :: '\n' :: (writeLines ls).toList := by
        simp [toList_of_endsInReturn hreturn]
      rw [htext, splitLines_append_return_feed hdrop, List.map_cons, hrest, String.ofList_toList,
        List.map_cons]
    · have htext : (writeLines (l :: ls)).toList =
          l.toList ++ '\n' :: (writeLines ls).toList := by
        simp
      rw [htext, splitLines_append_feed hfeed hreturn, List.map_cons, hrest, String.ofList_toList,
        List.map_cons, dropReturn_of_not hreturn]

/-- Lines without line feeds are the lines of some text. -/
theorem exists_lines_eq {ls : List String} (h : ∀ l ∈ ls, '\n' ∉ l.toList) : ∃ s, lines s = ls := by
  induction ls with
  | nil => exact ⟨"", rfl⟩
  | cons l ls ih =>
    obtain ⟨s, hs⟩ := ih fun m hm => h m (List.mem_cons_of_mem _ hm)
    -- Before a line feed that follows one, a carriage return stays in the line.
    refine ⟨l ++ "\r\n" ++ s, ?_⟩
    have htext : (l ++ "\r\n" ++ s).toList = l.toList ++ '\r' :: '\n' :: s.toList := by simp
    rw [lines, htext, splitLines_append_return_feed (h l List.mem_cons_self), List.map_cons,
      String.ofList_toList, ← lines, hs]

/-! ## A line at the end -/

/-- A text is some lines that are ended and a rest without line feeds. -/
theorem exists_lastLine (s : String) :
    ∃ front last : String, s = front ++ last ∧ EndsLastLine front ∧ '\n' ∉ last.toList := by
  have hchars : ∀ cs : List Char, ∃ front last, cs = front ++ last ∧
      (front = [] ∨ front.getLast? = some '\n') ∧ '\n' ∉ last := by
    intro cs
    induction cs using List.reverseRecOn with
    | nil => exact ⟨[], [], rfl, .inl rfl, List.not_mem_nil⟩
    | append_singleton cs c ih =>
      by_cases hc : c = '\n'
      · exact ⟨cs ++ [c], [], by simp, .inr (by simp [hc]), List.not_mem_nil⟩
      · obtain ⟨front, last, hcs, hfront, hlast⟩ := ih
        refine ⟨front, last ++ [c], by rw [hcs, List.append_assoc], hfront, ?_⟩
        simp [hlast, Ne.symm hc]
  obtain ⟨front, last, hs, hfront, hlast⟩ := hchars s.toList
  refine ⟨String.ofList front, String.ofList last, ?_, ?_, by rwa [String.toList_ofList]⟩
  · rw [← String.ofList_append, ← hs, String.ofList_toList]
  · rwa [EndsLastLine, String.toList_ofList]

theorem splitLines_of_not_mem {c : Char} {cs : List Char} (h : '\n' ∉ c :: cs) :
    splitLines (c :: cs) = [c :: cs] := by
  induction cs generalizing c with
  | nil =>
    have hc : c ≠ '\n' := fun e => h (e ▸ List.mem_cons_self)
    have hpair : ∀ es, c = '\r' → [] ≠ '\n' :: es := fun _ _ h => by cases h
    rw [splitLines_cons_other hc hpair, splitLines_nil]
  | cons d cs ih =>
    have hc : c ≠ '\n' := fun e => h (e ▸ List.mem_cons_self)
    have hcs : '\n' ∉ d :: cs := fun e => h (List.mem_cons_of_mem _ e)
    have hpair : ∀ es, c = '\r' → d :: cs ≠ '\n' :: es := fun es _ e =>
      hcs ((List.cons.inj e).1 ▸ List.mem_cons_self)
    rw [splitLines_cons_other hc hpair, ih hcs]

/-- A text with one more line, before which its last line is ended. -/
def appendLine (s line : String) : String :=
  (if EndsLastLine s then s else s ++ "\n") ++ (line ++ "\n")

/-- **A line at the end of a text** is one more line. The last line before it, if it was not ended,
loses the carriage return at its end. -/
theorem lines_appendLine {line : String} (hfeed : '\n' ∉ line.toList) (hreturn : ¬ EndsInReturn line)
    (s : String) : lines (appendLine s line) = lines s ++ [line] ∨
      ∃ init last, lines s = init ++ [last] ∧
        lines (appendLine s line) = init ++ [dropReturn last] ++ [line] := by
  have hline : ∀ l, '\n' ∉ l.toList → lines (l ++ "\n") = [dropReturn l] := by
    intro l hl
    have hwrite := lines_writeLines_map (List.forall_mem_singleton.2 hl)
    rwa [writeLines_cons, writeLines_nil, String.append_empty] at hwrite
  rw [appendLine]
  split
  · next hends =>
    left
    rw [lines_append hends, hline line hfeed, dropReturn_of_not hreturn]
  · next hends =>
    right
    obtain ⟨front, last, rfl, hfront, hlast⟩ := exists_lastLine s
    cases hcs : last.toList with
    | nil =>
      rw [String.toList_eq_nil_iff.1 hcs, String.append_empty] at hends
      exact absurd hfront hends
    | cons c cs =>
      have hone : lines last = [last] := by
        rw [lines, hcs, splitLines_of_not_mem (hcs ▸ hlast), List.map_singleton, ← hcs,
          String.ofList_toList]
      have hfeeds : EndsLastLine (front ++ last ++ "\n") := .inr (by simp)
      refine ⟨lines front, last, by rw [lines_append hfront, hone], ?_⟩
      rw [lines_append hfeeds, String.append_assoc, lines_append hfront, hline last hlast,
        hline line hfeed, dropReturn_of_not hreturn]

end Text

open Text
open Directive (ofLine IsPlain)

/-! ## Blocks -/

theorem ofLine_dropReturn (l : String) : ofLine (dropReturn l) = ofLine l := by
  by_cases h : EndsInReturn l
  · have hblank : AllBlank ['\r'] := by decide
    have htext : l = dropReturn l ++ String.ofList ['\r'] := by
      apply String.toList_inj.1
      rw [String.toList_append, String.toList_ofList, ← toList_of_endsInReturn h]
    calc ofLine (dropReturn l) = ofLine (dropReturn l ++ String.ofList ['\r']) :=
          (Directive.ofLine_append_blanks hblank _).symm
      _ = ofLine l := by rw [← htext]
  · rw [dropReturn_of_not h]

variable {shapes : ShapeTable}

theorem BlockForm.dropReturns {b body : List String} {kind : ComponentKind}
    (h : BlockForm shapes b kind body) :
    BlockForm shapes (b.map dropReturn) kind (body.map dropReturn) := by
  have hplain : ∀ {body : List String}, (∀ l ∈ body, IsPlain l) →
      ∀ l ∈ body.map dropReturn, IsPlain l := by
    intro body hbody l hl
    obtain ⟨m, hm, rfl⟩ := List.mem_map.1 hl
    rw [IsPlain, ofLine_dropReturn]
    exact hbody m hm
  have hreads : ∀ {l : String} {d : Directive}, ofLine l = .ok (some d) →
      ofLine (dropReturn l) = .ok (some d) := fun hl => (ofLine_dropReturn _).trans hl
  have hsection : ∀ (opening closing : String) (body : List String),
      (opening :: body ++ [closing]).map dropReturn =
        dropReturn opening :: body.map dropReturn ++ [dropReturn closing] := by simp
  cases h with
  | plainText nonempty plain => exact .plainText (by simpa using nonempty) (hplain plain)
  | reference reads kind oneLine => exact .reference (hreads reads) kind oneLine
  | shapeChoice reads kind value known => exact .shapeChoice (hreads reads) kind value known
  | rendered opens kind starts goesOn visible plain closes ends name reopens =>
    rw [hsection]
    exact .rendered (hreads opens) kind starts goesOn visible (hplain plain) (hreads closes) ends
      name reopens
  | commentOnly opens kind starts goesOn hidden plain closes ends name inside =>
    rw [hsection]
    exact .commentOnly (hreads opens) kind starts goesOn hidden (hplain plain) (hreads closes) ends
      name inside
  | script opens kind starts plain closes ends kind' =>
    rw [hsection]
    exact .script (hreads opens) kind starts (hplain plain) (hreads closes) ends kind'

/-- A finished component whose lines lose the carriage returns at their ends. -/
def Component.dropReturns (c : Component) : Component :=
  .ofBlock c.start c.kind (c.body.lines.map dropReturn)

theorem Reads.dropReturns {n : Nat} {bs : List (List String)} {cs : List Component}
    (h : Reads shapes n bs cs) :
    Reads shapes n (bs.map (List.map dropReturn)) (cs.map Component.dropReturns) := by
  induction h with
  | nil => exact .nil
  | cons head tail ih => exact .cons head.dropReturns (by rwa [List.length_map])

theorem Apart.map {cs : List Component} {f : Component → Component}
    (hf : ∀ c, (f c).kind = c.kind) (h : Apart cs) : Apart (cs.map f) := by
  rw [Apart, List.isChain_map]
  exact h.imp fun c d hcd => by rwa [hf, hf]

/-- **Blocks that are written as lines** are read as the same components, whose lines have lost the
carriage returns at their ends. -/
theorem parse_writeLines {path : Path} {bs : List (List String)} {cs : List Component}
    (h : Reads shapes 1 bs cs) (hapart : Apart cs) (hfeed : ∀ l ∈ bs.flatten, '\n' ∉ l.toList) :
    Document.parse shapes path (writeLines bs.flatten) = .ok
      { path
        components := cs.map Component.dropReturns
        page := (Page.start shapes path).after shapes (cs.map Component.dropReturns) } := by
  rw [Document.parse, lines_writeLines_map hfeed, List.map_flatten]
  exact ofLines_of_reads h.dropReturns (hapart.map fun _ => rfl)

end Pagewright
