import Pagewright.Shell.Pattern

/-!
# Fields

Expanding a word gives marked characters: quoted ones, plain ones, and ones that come out of an
unquoted expansion, at which the word is split into fields. Quotes leave a mark of their own, so
that an empty quoted text is a field.
-/

namespace Pagewright.Shell

/-- A part of an expanded word. -/
inductive Atom where
  | char (c : Char) (quoted : Bool)
  /-- A character of an unquoted expansion. -/
  | soft (c : Char)
  /-- Quotes have stood here. -/
  | fence
  /-- A field ends here. -/
  | boundary
  deriving DecidableEq, Repr

namespace Atom

def text (atoms : List Atom) : String :=
  String.ofList (atoms.filterMap fun a => match a with
    | .char c _ => some c
    | .soft c => some c
    | .fence => none
    | .boundary => some ' ')

/-- An atom in place of an unquoted expansion, whose plain characters may separate fields too. -/
def soften : Atom → Atom
  | .char c false => .soft c
  | a => a

def pattern (atoms : List Atom) : Pattern :=
  let marked := atoms.filterMap fun a => match a with
    | .char c quoted => some (c, !quoted)
    | .soft c => some (c, true)
    | _ => none
  Pattern.ofMarked (marked.length + 1) marked

def isSpace (c : Char) : Bool :=
  c == ' ' || c == '\t' || c == '\n'

/-- Splits an expanded word; `current` is the field that has begun, last atom first, and `spaced`
says that white space has just ended one. -/
def splitFrom (separators : List Char) : (current : Option (List Atom)) → (spaced : Bool) →
    List Atom → List (List Atom)
  | none, _, [] => []
  | some field, _, [] => [field.reverse]
  | current, spaced, .soft c :: rest =>
    if separators.contains c then
      match current with
      | some field => field.reverse :: splitFrom separators none (isSpace c) rest
      | none =>
        if isSpace c then splitFrom separators none spaced rest
        else if spaced then splitFrom separators none false rest
        else [] :: splitFrom separators none false rest
    else splitFrom separators (some (.soft c :: current.getD [])) false rest
  | current, _, .boundary :: rest =>
    current.toList.map List.reverse ++ splitFrom separators none false rest
  | current, _, a :: rest => splitFrom separators (some (a :: current.getD [])) false rest

def fields (separators : List Char) (atoms : List Atom) : List (List Atom) :=
  splitFrom separators none false atoms

end Atom

end Pagewright.Shell
