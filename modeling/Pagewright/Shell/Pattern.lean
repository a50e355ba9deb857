import Pagewright.Shell.CharSet

/-!
# Shell patterns

In a pattern `?` stands for one character, `*` for any text, and brackets for one of the characters
between them; a quoted character stands for itself. `Pattern.fits` tests a whole text.
-/

namespace Pagewright.Shell

inductive PatternItem where
  | char (c : Char)
  | one
  | any
  | among (set : CharSet)
  deriving DecidableEq, Repr

abbrev Pattern := List PatternItem

namespace Pattern

/-- The pattern of characters that are active or stand for themselves; a bracket that is not closed
stands for itself too. -/
def ofMarked : (fuel : Nat) → List (Char × Bool) → Pattern
  | 0, _ => []
  | _, [] => []
  | fuel + 1, ('?', true) :: cs => .one :: ofMarked fuel cs
  | fuel + 1, ('*', true) :: cs => .any :: ofMarked fuel cs
  | fuel + 1, ('[', true) :: cs =>
    match CharSet.read? '!' cs with
    | some (set, rest) => .among set :: ofMarked fuel rest
    | none => .char '[' :: ofMarked fuel cs
  | fuel + 1, (c, _) :: cs => .char c :: ofMarked fuel cs

def accepts (item : PatternItem) (c : Char) : Bool :=
  match item with
  | .char d => c == d
  | .among set => set.accepts c
  | _ => true

/-- Whether a pattern stands for a text. -/
def fits : Pattern → List Char → Bool
  | [], cs => cs.isEmpty
  | .any :: ps, [] => fits ps []
  | .any :: ps, c :: cs => fits ps (c :: cs) || fits (.any :: ps) cs
  | _ :: _, [] => false
  | item :: ps, c :: cs => accepts item c && fits ps cs
termination_by ps cs => ps.length + cs.length

/-- A text without what a pattern stands for at its start, as little or as much as possible. -/
def dropFront (p : Pattern) (longest : Bool) (cs : List Char) : List Char :=
  let counts := List.range (cs.length + 1)
  match (if longest then counts.reverse else counts).find? fun n => fits p (cs.take n) with
  | some n => cs.drop n
  | none => cs

/-- A text without what a pattern stands for at its end, as little or as much as possible. -/
def dropBack (p : Pattern) (longest : Bool) (cs : List Char) : List Char :=
  let counts := List.range (cs.length + 1)
  match (if longest then counts else counts.reverse).find? fun n => fits p (cs.drop n) with
  | some n => cs.take n
  | none => cs

end Pattern

end Pagewright.Shell
