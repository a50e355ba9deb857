/-!
# Sets of characters

What stands between brackets in a pattern: characters, ranges and named classes of them, or
everything else. A quoted character is marked as inactive and stands for itself.
-/

namespace Pagewright.Shell

/-- Some ranges of characters, or all other characters. -/
structure CharSet where
  inverted : Bool
  ranges : List (Char × Char)
  deriving DecidableEq, Repr

namespace CharSet

def accepts (s : CharSet) (c : Char) : Bool :=
  s.inverted != s.ranges.any fun (a, b) => a ≤ c && c ≤ b

def class? (name : String) : Option (List (Char × Char)) :=
  let classes : List (String × List (Char × Char)) :=
    [("alpha", [('A', 'Z'), ('a', 'z')]), ("digit", [('0', '9')]),
      ("alnum", [('0', '9'), ('A', 'Z'), ('a', 'z')]), ("upper", [('A', 'Z')]),
      ("lower", [('a', 'z')]), ("space", [('\t', '\r'), (' ', ' ')]),
      ("blank", [('\t', '\t'), (' ', ' ')]), ("xdigit", [('0', '9'), ('A', 'F'), ('a', 'f')]),
      ("punct", [('!', '/'), (':', '@'), ('[', '\x60'), ('\x7b', '~')]),
      ("print", [(' ', '~')]), ("graph", [('!', '~')]),
      ("cntrl", [('\x00', '\x1f'), ('\x7f', '\x7f')])]
  (classes.find? (·.1 == name)).map Prod.snd

/-- The class that is named from after its bracket and colon on, and what follows it. -/
def readClass? (cs : List (Char × Bool)) : Option (List (Char × Char) × List (Char × Bool)) :=
  let name := cs.takeWhile fun c => c.1 != ':'
  match cs.drop name.length with
  | (':', _) :: (']', _) :: rest =>
    (class? (String.ofList (name.map Prod.fst))).map fun ranges => (ranges, rest)
  | _ => none

/-- The ranges up to a closing bracket, which may come first, and what follows it; `fuel` bounds
the number of characters. -/
def readRanges : (fuel : Nat) → (first : Bool) → List (Char × Bool) →
    Option (List (Char × Char) × List (Char × Bool))
  | 0, _, _ => none
  | fuel + 1, first, cs =>
    let after (ranges : List (Char × Char)) (cs : List (Char × Bool)) :
        Option (List (Char × Char) × List (Char × Bool)) :=
      (readRanges fuel false cs).map fun (more, rest) => (ranges ++ more, rest)
    match cs with
    | [] => none
    | (']', active) :: cs => if active && !first then some ([], cs) else after [(']', ']')] cs
    | ('[', true) :: (':', true) :: cs =>
      match readClass? cs with
      | some (ranges, rest) => after ranges rest
      | none => after [('[', '[')] ((':', true) :: cs)
    | (a, _) :: ('-', true) :: (']', true) :: cs => some ([(a, a), ('-', '-')], cs)
    | (a, _) :: ('-', true) :: (b, _) :: cs => after [(a, b)] cs
    | (a, _) :: cs => after [(a, a)] cs

/-- The set after an opening bracket, and what follows its closing one; `inverting` in front means
all other characters. -/
def read? (inverting : Char) (cs : List (Char × Bool)) :
    Option (CharSet × List (Char × Bool)) :=
  let (inverted, inner) := match cs with
    | (c, true) :: rest => if c = inverting then (true, rest) else (false, cs)
    | cs => (false, cs)
  (readRanges (cs.length + 1) true inner).map fun (ranges, rest) => ({ inverted, ranges }, rest)

end CharSet

end Pagewright.Shell
