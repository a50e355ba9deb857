import Pagewright.Shell.CharSet

/-!
# Regular expressions

The regular expressions of line tools and what they match. `Expression.ways` gives all ways in which
an expression goes on from a point of a text, the preferred ones first; the match of a text is the
first that starts earliest and of these the longest (`Expression.find?`).
-/

namespace Pagewright.Shell

/-- A regular expression. -/
inductive Expression where
  | empty
  | char (c : Char)
  | one
  | among (set : CharSet)
  | start
  | finish
  /-- A point between a word and something else, or one that is not such a point. -/
  | edge (inside : Bool)
  /-- A point with no character of a word before it, or after it. -/
  | clear (after : Bool)
  /-- An expression whose match is kept under a number. -/
  | group (n : Nat) (e : Expression)
  | again (n : Nat)
  | join (a b : Expression)
  | either (a b : Expression)
  | repeated (least : Nat) (most : Option Nat) (e : Expression)
  deriving DecidableEq, Repr, Inhabited

/-- A point in a text, and what the groups have matched on the way to it. -/
structure Cursor where
  before : Option Char := none
  rest : List Char
  position : Nat := 0
  /-- What the groups have matched, the last one first. -/
  groups : List (Nat × List Char) := []

namespace Cursor

def step (accepts : Char → Bool) (p : Cursor) : List Cursor :=
  match p.rest with
  | [] => []
  | c :: cs =>
    if accepts c then [{ p with before := some c, rest := cs, position := p.position + 1 }] else []

def advance : Nat → Cursor → Cursor
  | 0, p => p
  | n + 1, p =>
    match p.rest with
    | [] => p
    | c :: cs => advance n { p with before := some c, rest := cs, position := p.position + 1 }

def upTo (p q : Cursor) : List Char :=
  p.rest.take (q.position - p.position)

def group (p : Cursor) (n : Nat) : List Char :=
  ((p.groups.find? (·.1 == n)).map Prod.snd).getD []

def isWordChar (c : Char) : Bool :=
  c.isAlphanum || c == '_'

def isEdge (p : Cursor) : Bool :=
  p.before.any isWordChar != p.rest.head?.any isWordChar

/-- Some points, of those at one place only the first. -/
def distinct (ps : List Cursor) : List Cursor :=
  (ps.foldl (fun (kept : List Cursor) p =>
    if kept.any (·.position == p.position) then kept else p :: kept) []).reverse

/-- The points after repetitions of a step, more of them first. A step that does not move is taken
only when it is needed. -/
def iterate (next : Cursor → List Cursor) (most : Option Nat) : (fuel least count : Nat) → Cursor →
    List Cursor
  | 0, least, count, p => if least ≤ count then [p] else []
  | fuel + 1, least, count, p =>
    let further := if most == some count then []
      else (next p).filter fun q => p.position < q.position || count < least
    distinct (further.flatMap (iterate next most fuel least (count + 1))) ++
      (if least ≤ count then [p] else [])

end Cursor

namespace Expression

def same (caseless : Bool) (a b : Char) : Bool :=
  a == b || (caseless && a.toLower == b.toLower)

/-- The ways in which an expression goes on from a point, the preferred ones first. -/
def ways (caseless : Bool) : Expression → Cursor → List Cursor
  | .empty, p => [p]
  | .char c, p => p.step (same caseless c)
  | .one, p => p.step fun _ => true
  | .among set, p => p.step fun c =>
    if caseless && !set.inverted then set.accepts c.toLower || set.accepts c.toUpper
    else if caseless then set.accepts c.toLower && set.accepts c.toUpper
    else set.accepts c
  | .start, p => if p.position = 0 then [p] else []
  | .finish, p => if p.rest.isEmpty then [p] else []
  | .edge inside, p => if p.isEdge == inside then [p] else []
  | .clear after, p =>
    if (if after then p.rest.head? else p.before).any Cursor.isWordChar then [] else [p]
  | .group n e, p => (ways caseless e p).map fun q => { q with groups := (n, p.upTo q) :: q.groups }
  | .again n, p =>
    let text := p.group n
    let isHere := text.length ≤ p.rest.length &&
      (p.rest.zip text).all fun (a, b) => same caseless a b
    if isHere then [p.advance text.length] else []
  | .join a b, p => (ways caseless a p).flatMap (ways caseless b)
  | .either a b, p => ways caseless a p ++ ways caseless b p
  | .repeated least most e, p =>
    Cursor.iterate (ways caseless e) most (p.rest.length + least + 1) least 0 p

def longest? (ps : List Cursor) : Option Cursor :=
  ps.foldl (fun best p =>
    match best with
    | none => some p
    | some q => if q.position < p.position then some p else best) none

/-- The first match from a point on: where it starts and where it ends. -/
def find? (e : Expression) (caseless : Bool) (p : Cursor) : Option (Cursor × Cursor) :=
  (List.range (p.rest.length + 1)).findSome? fun n =>
    let here : Cursor := { p.advance n with groups := [] }
    (longest? (e.ways caseless here)).map (here, ·)

def isIn (e : Expression) (caseless : Bool) (cs : List Char) : Bool :=
  (e.find? caseless { rest := cs }).isSome

/-- A replacement with the match in the place of `&` and its groups in the place of their
numbers. -/
def fill (found : List Char) (groups : Nat → List Char) : List Char → List Char
  | [] => []
  | '\\' :: 'n' :: cs => '\n' :: fill found groups cs
  | '\\' :: 't' :: cs => '\t' :: fill found groups cs
  | '\\' :: c :: cs =>
    (if c.isDigit then groups (c.toNat - '0'.toNat) else [c]) ++ fill found groups cs
  | '&' :: cs => found ++ fill found groups cs
  | c :: cs => c :: fill found groups cs

/-- Which matches are replaced: those from a number on, all of them or only the first. -/
structure Choice where
  first : Nat := 1
  everywhere : Bool := false
  caseless : Bool := false
  deriving DecidableEq, Repr

/-- A text with some of its matches replaced, from a point on, and whether there are any; `count` is
the number of the next match. A match of nothing is none right after another match. -/
def replaceFrom (e : Expression) (value : List Char) (choice : Choice) : (fuel count : Nat) →
    (afterMatch : Bool) → Cursor → List Char × Bool
  | 0, _, _, p => (p.rest, false)
  | fuel + 1, count, afterMatch, p =>
    match e.find? choice.caseless p with
    | none => (p.rest, false)
    | some (first, stop) =>
      let skipped := p.upTo first
      let found := first.upTo stop
      let isNothing := found.isEmpty
      let step (q : Cursor) : List Char × Cursor := (q.rest.take 1, q.advance 1)
      if isNothing && afterMatch && first.position = p.position then
        match p.rest with
        | [] => ([], false)
        | _ =>
          let (passed, next) := step p
          let (rest, changed) := replaceFrom e value choice fuel count false next
          (passed ++ rest, changed)
      else
        let isChosen := choice.first ≤ count
        let groups (n : Nat) : List Char := if n = 0 then found else stop.group n
        let here := if isChosen then fill found groups value else found
        if isChosen && !choice.everywhere then (skipped ++ here ++ stop.rest, true)
        else if stop.rest.isEmpty then (skipped ++ here, isChosen)
        else
          let (passed, next) := if isNothing then step stop else ([], stop)
          let (rest, changed) := replaceFrom e value choice fuel (count + 1) (!isNothing) next
          (skipped ++ here ++ passed ++ rest, isChosen || changed)

def replace (e : Expression) (value : List Char) (choice : Choice) (cs : List Char) :
    List Char × Bool :=
  replaceFrom e value choice (2 * cs.length + 2) 1 false { rest := cs }

end Expression

end Pagewright.Shell
