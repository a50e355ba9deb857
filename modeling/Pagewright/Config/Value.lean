import Pagewright.Decimal.Shortest

/-!
# Configuration values

A configuration is a tree of values. Names of members do not depend on the case of their letters:
they are put in small letters when a value enters the tree, except inside lists, whose items are
kept as they are. Laying a value over another one (`Value.overlay`) joins tables member by member
and replaces everything else. A setting is read in the type that it has, and scalars are converted
for it (`toBool?`, `toNat?`, `toText?`).
-/

namespace Pagewright.Config

open Decimal

inductive Value where
  | nothing
  | bool (b : Bool)
  | integer (n : Int)
  | real (x : Binary64)
  | text (s : String)
  | list (items : List Value)
  | table (members : List (String × Value))
  deriving Repr

/-- The small form of a character. Of the characters beyond ASCII only the Kelvin sign has a small
form in ASCII, and the names of all settings are ASCII. -/
def smallChar (c : Char) : Char :=
  if c = 'K' then 'k' else c.toLower

def small (s : String) : String :=
  String.ofList (s.toList.map smallChar)

namespace Value

/-- The members of a table; other values have none. -/
def members : Value → List (String × Value)
  | .table ms => ms
  | _ => []

def items : Value → List Value
  | .list vs => vs
  | _ => []

def find? (name : String) (ms : List (String × Value)) : Option Value :=
  (ms.find? fun m => m.1 == name).map Prod.snd

def insert (name : String) (v : Value) : List (String × Value) → List (String × Value)
  | [] => [(name, v)]
  | m :: ms => if m.1 = name then (name, v) :: ms else m :: insert name v ms

mutual

/-- Lays a value over an older one. -/
def overlay (old : Value) : Value → Value
  | .table ms => overlayMembers old ms
  | v => v

/-- Lays members over an older value, one after another. An older value that is no table gives way
to a table as soon as there is a member. -/
def overlayMembers (old : Value) : List (String × Value) → Value
  | [] => old
  | (name, v) :: ms =>
    let name := small name
    let under := (find? name old.members).getD (.table [])
    overlayMembers (.table (insert name (overlay under v) old.members)) ms

end

/-! ## Reading scalars -/

/-- The text of a number: always positional, as short as it can be. -/
def realLayout : Layout where
  positional _ := true
  pointZero := false
  infinity := "inf"
  notANumber := "NaN"

def wordTruth? (s : String) : Option Bool :=
  if ["true", "on", "yes"].contains s then some true
  else if ["false", "off", "no"].contains s then some false
  else none

def toBool? : Value → Option Bool
  | .bool b => some b
  | .integer n => some (n != 0)
  | .real (.finite _ x) => some (x.mantissa != 0)
  | .real _ => some true
  | .text s =>
    let s := small s
    if s = "1" then some true else if s = "0" then some false else wordTruth? s
  | _ => none

def countLimit : Nat := Nat.pow 2 64 - 1

/-- The count that decimal digits write, with a plus sign or without. -/
def parseCount? (cs : List Char) : Option Nat :=
  let ds := match cs with
    | '+' :: ds => ds
    | ds => ds
  if ds.isEmpty || ds.any fun c => !c.isDigit then none
  else
    let n := ds.foldl (fun n d => n * 10 + (d.toNat - '0'.toNat)) 0
    if n ≤ countLimit then some n else none

/-- A count: a number with a fraction is rounded, a half going up, and one beyond the counts gives
the nearest count. -/
def toNat? : Value → Option Nat
  | .integer n => if 0 ≤ n then some n.toNat else none
  | .bool b => some b.toNat
  | .real (.finite true _) => some 0
  | .real (.finite false x) => some (min x.roundHalfUp countLimit)
  | .real (.infinite negative) => some (if negative then 0 else countLimit)
  | .real .notANumber => some 0
  | .text s =>
    match wordTruth? (small s) with
    | some b => some b.toNat
    | none => parseCount? s.toList
  | _ => none

def toText? : Value → Option String
  | .bool b => some (if b then "true" else "false")
  | .integer n => some (toString n)
  | .real x => some (x.text realLayout)
  | .text s => some s
  | _ => none

def toList? : Value → Option (List Value)
  | .list vs => some vs
  | _ => none

end Value

end Pagewright.Config
