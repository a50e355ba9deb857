import Pagewright.Config.Value

/-!
# Keys

A key leads from the root of a configuration to one value: `output.mode`, `shapes[0].name`,
`args[-1]`. It starts with a name, and `.name` goes into a table, `[index]` into a list, where a
negative index counts from the end. Names are made of letters, digits, `_`, `-` and spaces. Setting
a value at a key (`Value.set?`) makes tables and lists out of whatever is in the way.
-/

namespace Pagewright.Config

/-- One step into a value. -/
inductive Step where
  | member (name : String)
  | item (index : Int)
  deriving DecidableEq, Repr

/-- The way to a value: the name of a member of the root, and the steps after it. -/
structure Key where
  head : String
  steps : List Step
  deriving DecidableEq, Repr

namespace Key

def isNameChar (c : Char) : Bool :=
  c.isAlphanum || c == '_' || c == '-' || c == ' '

def isBlank (c : Char) : Bool :=
  c == ' ' || c == '\t'

/-- The name in front of a text, and the text after it. -/
def readName? (cs : List Char) : Option (String × List Char) :=
  match cs.takeWhile isNameChar with
  | [] => none
  | name => some (String.ofList name, cs.dropWhile isNameChar)

def readIndex? (cs : List Char) : Option (Int × List Char) :=
  let cs := cs.dropWhile isBlank
  let (negative, cs) := match cs with
    | '-' :: cs => (true, cs)
    | cs => (false, cs)
  let ds := cs.takeWhile Char.isDigit
  let n := ds.foldl (fun n d => n * 10 + (d.toNat - '0'.toNat)) 0
  let limit := if negative then Nat.pow 2 63 else Nat.pow 2 63 - 1
  if ds.isEmpty || limit < n then none
  else
    match (cs.dropWhile Char.isDigit).dropWhile isBlank with
    | ']' :: rest => some (if negative then -n else n, rest)
    | _ => none

/-- The steps that make up a whole text; each takes at least one of its characters. -/
def readSteps? : (fuel : Nat) → List Char → Option (List Step)
  | _, [] => some []
  | 0, _ => none
  | fuel + 1, '.' :: cs => do
    let (name, rest) ← readName? cs
    return .member name :: (← readSteps? fuel rest)
  | fuel + 1, '[' :: cs => do
    let (index, rest) ← readIndex? cs
    return .item index :: (← readSteps? fuel rest)
  | _, _ => none

def parse? (s : String) : Option Key := do
  let (head, rest) ← readName? s.toList
  return { head, steps := ← readSteps? rest.length rest }

end Key

namespace Value

/-- The position in a list of some length that an index means. -/
def position? (index : Int) (length : Nat) : Option Nat :=
  if 0 ≤ index then some index.toNat
  else if index.natAbs ≤ length then some (length - index.natAbs)
  else none

/-- A list with an item set, made longer by empty values up to it. -/
def setItem (i : Nat) (v : Value) (vs : List Value) : List Value :=
  (vs ++ List.replicate (i + 1 - vs.length) Value.nothing).set i v

/-- Lays a value over what some steps lead to; an item of a list is replaced as a whole. There is no
result when an index is before the start of its list. -/
def set? (root : Value) : List Step → Value → Option Value
  | [], v => some (overlay root v)
  | .member name :: rest, v => do
    let name := small name
    let under := (find? name root.members).getD (.table [])
    return .table (insert name (← set? under rest v) root.members)
  | [.item index], v => do
    return .list (setItem (← position? index root.items.length) v root.items)
  | .item index :: rest, v => do
    let i ← position? index root.items.length
    let under : Value := root.items[i]?.getD .nothing
    return .list (setItem i (← set? under rest v) root.items)

end Value

def Key.assign? (key : Key) (root v : Value) : Option Value :=
  root.set? (.member key.head :: key.steps) v

/-- Lays the members of a file over a configuration. The name of each is taken as a key when it has
the form of one. -/
def Value.addMembers? (root : Value) : List (String × Value) → Option Value
  | [] => some root
  | (name, v) :: rest => do
    let root ← ((Key.parse? name).getD ⟨name, []⟩).assign? root v
    root.addMembers? rest

end Pagewright.Config
