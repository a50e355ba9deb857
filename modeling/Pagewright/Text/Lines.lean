/-!
# Lines of a text

A line ends at a line feed; one carriage return directly before that line feed belongs to the line
end. A last line without a line feed is a line too and keeps every carriage return; a text that ends
in a line feed has no empty line after it. `splitLines` is the rule on characters, `lines` the same
on strings, and `joinLines` puts a line feed between lines: it is how the lines of one component
become its text.
-/

namespace Pagewright.Text

/-- The lines of a character sequence, without their line ends. -/
def splitLines : List Char → List (List Char)
  | [] => []
  | '\n' :: cs => [] :: splitLines cs
  | '\r' :: '\n' :: cs => [] :: splitLines cs
  | c :: cs =>
    match splitLines cs with
    | [] => [[c]]
    | l :: ls => (c :: l) :: ls

def lines (s : String) : List String :=
  (splitLines s.toList).map String.ofList

/-- Lines with a line feed between any two of them. -/
def joinLines : List String → String
  | [] => ""
  | [l] => l
  | l :: ls => l ++ "\n" ++ joinLines ls

@[simp] theorem joinLines_nil : joinLines [] = "" := rfl

@[simp] theorem joinLines_singleton (l : String) : joinLines [l] = l := rfl

theorem joinLines_cons_cons (l m : String) (ls : List String) :
    joinLines (l :: m :: ls) = l ++ "\n" ++ joinLines (m :: ls) := rfl

@[simp] theorem splitLines_nil : splitLines [] = [] := rfl

theorem splitLines_line_feed (cs : List Char) : splitLines ('\n' :: cs) = [] :: splitLines cs := rfl

theorem splitLines_eq_nil_iff {cs : List Char} : splitLines cs = [] ↔ cs = [] := by
  refine ⟨fun h => ?_, fun h => h ▸ rfl⟩
  fun_cases splitLines cs <;> simp_all [splitLines]

end Pagewright.Text
