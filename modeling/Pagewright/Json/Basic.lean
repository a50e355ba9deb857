import Pagewright.Decimal.Shortest
import Pagewright.Text.Quoted

/-!
# JSON values and their texts

`Json` holds a value as it is written: the members of an object are a list, in order. A value has a
compact text (`compact`: no space anywhere) and a laid-out one (`pretty`: two spaces per level, one
entry per line). Strings escape what JSON demands and nothing else.
-/

namespace Pagewright

open Decimal Text

/-- A JSON number: a whole number that 64 bits hold, or a binary floating-point number. -/
inductive Json.Number where
  | nat (n : Nat)
  | negative (n : Nat)
  | real (x : Binary64)
  deriving DecidableEq, Repr

inductive Json where
  | null
  | bool (b : Bool)
  | number (n : Json.Number)
  | string (s : String)
  | array (items : List Json)
  | object (members : List (String × Json))
  deriving Repr

namespace Json

/-- Whole numbers end in `.0`; first digits below `10 ^ -5` or above `10 ^ 15` take an exponent. -/
def numberLayout : Layout where
  positional e := -5 ≤ e && e ≤ 15
  pointZero := true
  infinity := "null"
  notANumber := "null"

def Number.text : Number → String
  | .nat n => toString n
  | .negative n => "-" ++ toString n
  | .real x => x.text numberLayout

/-- Two hexadecimal digits after `\u00`. -/
def controlEscape (c : Char) : List Char :=
  let ds := Nat.toDigits 16 c.toNat
  ['\\', 'u', '0', '0'] ++ List.replicate (2 - ds.length) '0' ++ ds

def escapeChar (c : Char) : List Char :=
  match c with
  | '"' => ['\\', '"']
  | '\\' => ['\\', '\\']
  | '\x08' => ['\\', 'b']
  | '\t' => ['\\', 't']
  | '\n' => ['\\', 'n']
  | '\x0c' => ['\\', 'f']
  | '\r' => ['\\', 'r']
  | c => if c.toNat < 0x20 then controlEscape c else [c]

def stringText (s : String) : String :=
  String.ofList ('"' :: s.toList.flatMap escapeChar ++ ['"'])

mutual

def compact : Json → String
  | .null => "null"
  | .bool true => "true"
  | .bool false => "false"
  | .number n => n.text
  | .string s => stringText s
  | .array items => "[" ++ compactItems items ++ "]"
  | .object members => "\x7b" ++ compactMembers members ++ "\x7d"

def compactItems : List Json → String
  | [] => ""
  | [v] => compact v
  | v :: vs => compact v ++ "," ++ compactItems vs

def compactMembers : List (String × Json) → String
  | [] => ""
  | [(k, v)] => stringText k ++ ":" ++ compact v
  | (k, v) :: ms => stringText k ++ ":" ++ compact v ++ "," ++ compactMembers ms

end

def newLine (level : Nat) : String :=
  "\n" ++ String.ofList (List.replicate (2 * level) ' ')

mutual

/-- The text of a value inside `level` brackets, one entry per line. -/
def prettyAt (level : Nat) : Json → String
  | .array [] => "[]"
  | .array (v :: vs) =>
    "[" ++ newLine (level + 1) ++ prettyAt (level + 1) v ++ prettyItems (level + 1) vs ++
      newLine level ++ "]"
  | .object [] => "\x7b\x7d"
  | .object ((k, v) :: ms) =>
    "\x7b" ++ newLine (level + 1) ++ stringText k ++ ": " ++ prettyAt (level + 1) v ++
      prettyMembers (level + 1) ms ++ newLine level ++ "\x7d"
  | .null => "null"
  | .bool true => "true"
  | .bool false => "false"
  | .number n => n.text
  | .string s => stringText s

def prettyItems (level : Nat) : List Json → String
  | [] => ""
  | v :: vs => "," ++ newLine level ++ prettyAt level v ++ prettyItems level vs

def prettyMembers (level : Nat) : List (String × Json) → String
  | [] => ""
  | (k, v) :: ms =>
    "," ++ newLine level ++ stringText k ++ ": " ++ prettyAt level v ++ prettyMembers level ms

end

def pretty (v : Json) : String :=
  prettyAt 0 v

/-- Members in increasing order of their keys, a new value taking the place of an old one. -/
def insertMember (key : String) (value : Json) : List (String × Json) → List (String × Json)
  | [] => [(key, value)]
  | (k, v) :: ms =>
    match compare key k with
    | .lt => (key, value) :: (k, v) :: ms
    | .eq => (key, value) :: ms
    | .gt => (k, v) :: insertMember key value ms

def ofNat (n : Nat) : Json := .number (.nat n)

def member? (key : String) : Json → Option Json
  | .object members => members.lookup key
  | _ => none

end Json

end Pagewright
