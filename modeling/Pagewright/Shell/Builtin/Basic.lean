import Pagewright.Shell.Session

/-!
# Arguments of built-in commands

What the built-in commands share: how options are read from their arguments, and how texts and lists
of names are shown.
-/

namespace Pagewright.Shell

open Text

namespace Builtin

/-- A built-in command. -/
abbrev Action := List String → Run Unit

def status? (s : String) : Option Nat :=
  if !s.isEmpty && s.all Char.isDigit then some (leadingNumber s.toList).1 else none

/-- The options in front of arguments, each with its text, and the operands behind them. The letters
in `telling` take a text, the rest of their group or the next argument; other letters than those in
`plain` and `telling` are refused. -/
def options (plain telling : List Char) : List String → Run (List (Char × String) × List String)
  | [] => return ([], [])
  | "--" :: rest => return ([], rest)
  | a :: rest => do
    match a.toList with
    | '-' :: c :: cs =>
      let group := (c :: cs).takeWhile plain.contains
      let before := group.map (·, "")
      match (c :: cs).drop group.length with
      | [] =>
        let (told, operands) ← options plain telling rest
        return (before ++ told, operands)
      | c :: text =>
        if !telling.contains c then Run.die ("Illegal option -" ++ String.singleton c)
        match text, rest with
        | [], [] => Run.die ("No arg for -" ++ String.singleton c ++ " option")
        | [], text :: rest =>
          let (told, operands) ← options plain telling rest
          return (before ++ (c, text) :: told, operands)
        | text, rest =>
          let (told, operands) ← options plain telling rest
          return (before ++ (c, String.ofList text) :: told, operands)
    | _ => return ([], a :: rest)

/-- The operands behind options of single letters; another letter is refused. -/
def operands (letters : List Char) (args : List String) : Run (List String) := do
  return (← options letters [] args).2

/-- A text in single quotes; those that it holds stand in double ones. -/
def inQuotes : (fuel : Nat) → List Char → List Char
  | 0, cs => cs
  | fuel + 1, cs =>
    let plain := cs.takeWhile (· != '\'')
    let ticks := (cs.drop plain.length).takeWhile (· == '\'')
    let rest := cs.drop (plain.length + ticks.length)
    '\'' :: plain ++ '\'' :: (if ticks.isEmpty then [] else '"' :: ticks ++ ['"']) ++
      (if rest.isEmpty then [] else inQuotes fuel rest)

def singleQuoted (s : String) : String :=
  String.ofList (inQuotes (s.length + 1) s.toList)

/-- The place of a name in a table of some size. -/
def place (size : Nat) (name : String) : Nat :=
  let codes := name.toList.map Char.toNat
  (codes.foldl (· + ·) (16 * codes.headD 0)) % size

/-- Named things in the order of their places in a table, those in one place in the order in which
they came. -/
def inPlaces {α : Type} (size : Nat) (things : List (String × α)) : List (String × α) :=
  things.mergeSort fun a b => place size a.1 ≤ place size b.1

end Builtin

end Pagewright.Shell
