import Pagewright.Json.Basic

/-!
# Reading JSON

`parse` reads one value and `parseObject` one object with nothing but white space around it. White
space is the space, tab, line feed and carriage return. Of an object's members with one key the last
counts, and the members come out in increasing order of their keys. A text nests at most 127
brackets deep. A failure says only of which kind it is (`Fault`): the text ended too early, it is no
JSON, or it starts with a value that is no object.
-/

namespace Pagewright.Json

open Decimal

/-- Why a text is refused. -/
inductive Fault where
  | ended
  /-- The text is not JSON, or holds a number or a nesting beyond the limits. -/
  | malformed
  | notAnObject
  deriving DecidableEq, Repr

/-- What a reader gives: a value and the text after it. -/
abbrev Reading (α : Type) := Except Fault (α × List Char)

def isSpace (c : Char) : Bool :=
  c == ' ' || c == '\n' || c == '\t' || c == '\r'

def skipSpace (cs : List Char) : List Char :=
  cs.dropWhile isSpace

def hexValue? (c : Char) : Option Nat :=
  if '0' ≤ c ∧ c ≤ '9' then some (c.toNat - '0'.toNat)
  else if 'a' ≤ c ∧ c ≤ 'f' then some (c.toNat - 'a'.toNat + 10)
  else if 'A' ≤ c ∧ c ≤ 'F' then some (c.toNat - 'A'.toNat + 10)
  else none

def fourHex? (a b c d : Char) : Option Nat := do
  let a ← hexValue? a
  let b ← hexValue? b
  let c ← hexValue? c
  let d ← hexValue? d
  return ((a * 16 + b) * 16 + c) * 16 + d

/-- The fault of a hexadecimal escape that is not four digits: the text ended when it has fewer than
four bytes left. -/
def shortEscape (cs : List Char) : Fault :=
  if (String.ofList cs).utf8ByteSize < 4 then .ended else .malformed

def letterEscape? (c : Char) : Option Char :=
  match c with
  | '"' => some '"'
  | '\\' => some '\\'
  | '/' => some '/'
  | 'b' => some '\x08'
  | 'f' => some '\x0c'
  | 'n' => some '\n'
  | 'r' => some '\r'
  | 't' => some '\t'
  | _ => none

def consReading (c : Char) (r : Reading (List Char)) : Reading (List Char) :=
  r.map fun (cs, rest) => (c :: cs, rest)

/-- Reads a string after its opening quote. A code unit of a surrogate pair counts only together
with the other one. -/
def readString : List Char → Reading (List Char)
  | [] => .error .ended
  | '"' :: rest => .ok ([], rest)
  | '\\' :: 'u' :: a :: b :: c :: d :: rest =>
    match fourHex? a b c d with
    | none => .error (shortEscape (a :: b :: c :: d :: rest))
    | some n =>
      if n < 0xD800 ∨ 0xDFFF < n then consReading (Char.ofNat n) (readString rest)
      else if 0xDC00 ≤ n then .error .malformed
      else
        match rest with
        | [] => .error .ended
        | ['\\'] => .error .ended
        | '\\' :: 'u' :: e :: f :: g :: h :: rest =>
          match fourHex? e f g h with
          | none => .error (shortEscape (e :: f :: g :: h :: rest))
          | some m =>
            if m < 0xDC00 ∨ 0xDFFF < m then .error .malformed
            else
              consReading (Char.ofNat (0x10000 + (n - 0xD800) * 0x400 + (m - 0xDC00)))
                (readString rest)
        | '\\' :: 'u' :: rest => .error (shortEscape rest)
        | _ => .error .malformed
  | '\\' :: 'u' :: rest => .error (shortEscape rest)
  | ['\\'] => .error .ended
  | '\\' :: c :: rest =>
    match letterEscape? c with
    | some e => consReading e (readString rest)
    | none => .error .malformed
  | c :: rest =>
    if c.toNat < 0x20 then .error .malformed else consReading c (readString rest)

/-- Reads decimal digits onto `acc` as long as 64 bits hold the number: the number, how many digits
were read, and the text from the first character not read. -/
def digitsWithin (acc count : Nat) : List Char → Nat × Nat × List Char
  | [] => (acc, count, [])
  | c :: cs =>
    if c.isDigit then
      let next := acc * 10 + (c.toNat - '0'.toNat)
      if next < Nat.pow 2 64 then digitsWithin next (count + 1) cs else (acc, count, c :: cs)
    else (acc, count, c :: cs)

def startsWithDigit : List Char → Bool
  | c :: _ => c.isDigit
  | [] => false

/-- A power of ten as a binary number. -/
def powerOfTen (k : Nat) : Magnitude :=
  (Magnitude.ofDecimal 1 k).getD Magnitude.zero

/-- A binary number times a power of ten, one step of at most 308 places at a time. -/
def shiftDecimal : Nat → Magnitude → Int → Option Magnitude
  | 0, x, _ => some x
  | fuel + 1, x, e =>
    if e.natAbs ≤ 308 then
      if e < 0 then x.div (powerOfTen e.natAbs) else x.mul (powerOfTen e.natAbs)
    else if x.mantissa = 0 then some x
    else if 0 ≤ e then none
    else (x.div (powerOfTen 308)).bind (shiftDecimal fuel · (e + 308))

/-- The number `digits * 10 ^ exponent`: the digits are rounded first and the product again, so the
result may be a neighbour of the nearest number. -/
def realNumber (negative : Bool) (digits : Nat) (exponent : Int) : Except Fault Number :=
  match (Magnitude.ofRatio digits 1).bind (shiftDecimal 8 · exponent) with
  | some x => .ok (.real (.finite negative x))
  | none => .error .malformed

/-- Reads an exponent after its letter, for digits that stand at `10 ^ place`. -/
def readExponent (negative : Bool) (digits : Nat) (place : Int) (cs : List Char) :
    Reading Number :=
  let (down, cs) := match cs with
    | '+' :: cs => (false, cs)
    | '-' :: cs => (true, cs)
    | cs => (false, cs)
  match cs with
  | [] => .error .ended
  | c :: _ =>
    if c.isDigit then
      let ds := cs.takeWhile Char.isDigit
      let rest := cs.dropWhile Char.isDigit
      let e := ds.foldl (fun n d => n * 10 + (d.toNat - '0'.toNat)) 0
      if e < Nat.pow 2 31 then
        (realNumber negative digits (if down then place - e else place + e)).map (·, rest)
      else if digits ≠ 0 ∧ ¬down then .error .malformed
      else .ok (.real (.finite negative Magnitude.zero), rest)
    else .error .malformed

def finishReal (negative : Bool) (digits : Nat) (place : Int) (cs : List Char) : Reading Number :=
  match cs with
  | 'e' :: rest => readExponent negative digits place rest
  | 'E' :: rest => readExponent negative digits place rest
  | rest => (realNumber negative digits place).map (·, rest)

/-- Reads a fraction after its point. Digits beyond 64 bits are dropped. -/
def readFraction (negative : Bool) (digits : Nat) (place : Int) (cs : List Char) :
    Reading Number :=
  let (all, count, rest) := digitsWithin digits 0 cs
  if startsWithDigit rest then
    finishReal negative all (place - count) (rest.dropWhile Char.isDigit)
  else if count = 0 then .error (if rest.isEmpty then .ended else .malformed)
  else finishReal negative all (place - count) rest

def finishWhole (negative : Bool) (n : Nat) (cs : List Char) : Reading Number :=
  match cs with
  | '.' :: rest => readFraction negative n 0 rest
  | 'e' :: rest => readExponent negative n 0 rest
  | 'E' :: rest => readExponent negative n 0 rest
  | rest =>
    if ¬negative then .ok (.nat n, rest)
    else if 0 < n ∧ n ≤ Nat.pow 2 63 then .ok (.negative n, rest)
    else (realNumber true n 0).map (·, rest)

def readNumber (negative : Bool) : List Char → Reading Number
  | [] => .error .ended
  | '0' :: rest =>
    if startsWithDigit rest then .error .malformed else finishWhole negative 0 rest
  | c :: cs =>
    if c.isDigit then
      let (n, _, rest) := digitsWithin (c.toNat - '0'.toNat) 0 cs
      if startsWithDigit rest then
        let dropped := rest.takeWhile Char.isDigit
        match rest.dropWhile Char.isDigit with
        | '.' :: rest => readFraction negative n dropped.length rest
        | rest => finishReal negative n dropped.length rest
      else finishWhole negative n rest
    else .error .malformed

/-- Reads the given letters and gives `v`. -/
def readLetters (v : Json) : List Char → List Char → Reading Json
  | [], rest => .ok (v, rest)
  | _ :: _, [] => .error .ended
  | l :: ls, c :: cs => if l = c then readLetters v ls cs else .error .malformed

def readScalar : List Char → Reading Json
  | [] => .error .ended
  | 'n' :: rest => readLetters .null ['u', 'l', 'l'] rest
  | 't' :: rest => readLetters (.bool true) ['r', 'u', 'e'] rest
  | 'f' :: rest => readLetters (.bool false) ['a', 'l', 's', 'e'] rest
  | '"' :: rest => (readString rest).map fun (cs, rest) => (.string (String.ofList cs), rest)
  | '-' :: rest => (readNumber true rest).map fun (n, rest) => (.number n, rest)
  | c :: rest =>
    if c.isDigit then (readNumber false (c :: rest)).map fun (n, rest) => (.number n, rest)
    else .error .malformed

def sortMembers (members : List (String × Json)) : List (String × Json) :=
  members.foldl (fun ms (k, v) => insertMember k v ms) []

/-- Where an array item starts, at the character `c` that is no bracket: after a comma unless it is
the first. -/
def itemStart (first : Bool) (c : Char) (rest : List Char) : Except Fault (List Char) :=
  if first then .ok (c :: rest)
  else if c = ',' then
    match skipSpace rest with
    | ']' :: _ => .error .malformed
    | rest => .ok rest
  else .error .malformed

/-- Reads the key of a member and the colon after it, where `c` is the character there that is no
brace. -/
def readKey (first : Bool) (c : Char) (rest : List Char) : Reading String :=
  if first = false ∧ c ≠ ',' then .error .malformed
  else
    match if first then c :: rest else skipSpace rest with
    | [] => .error .ended
    | '"' :: rest =>
      match readString rest with
      | .error e => .error e
      | .ok (key, rest) =>
        match skipSpace rest with
        | [] => .error .ended
        | ':' :: rest => .ok (String.ofList key, rest)
        | _ => .error .malformed
    | _ => .error .malformed

mutual

/-- Reads a value with `depth` levels of brackets left. Each call spends fuel, and a text needs at
most three calls per character. -/
def readValue : (fuel depth : Nat) → List Char → Reading Json
  | 0, _, _ => .error .malformed
  | fuel + 1, depth, cs =>
    match skipSpace cs with
    | '[' :: rest =>
      if depth ≤ 1 then .error .malformed
      else (readItems fuel (depth - 1) true rest).map fun (vs, rest) => (.array vs, rest)
    | '\x7b' :: rest =>
      if depth ≤ 1 then .error .malformed
      else (readMembers fuel (depth - 1) true rest).map fun (ms, rest) =>
        (.object (sortMembers ms), rest)
    | rest => readScalar rest

def readItems : (fuel depth : Nat) → (first : Bool) → List Char → Reading (List Json)
  | 0, _, _, _ => .error .malformed
  | fuel + 1, depth, first, cs =>
    match skipSpace cs with
    | [] => .error .ended
    | ']' :: rest => .ok ([], rest)
    | c :: rest =>
      match itemStart first c rest with
      | .error e => .error e
      | .ok rest =>
        match readValue fuel depth rest with
        | .error e => .error e
        | .ok (v, rest) => (readItems fuel depth false rest).map fun (vs, rest) => (v :: vs, rest)

def readMembers : (fuel depth : Nat) → (first : Bool) → List Char →
    Reading (List (String × Json))
  | 0, _, _, _ => .error .malformed
  | fuel + 1, depth, first, cs =>
    match skipSpace cs with
    | [] => .error .ended
    | '\x7d' :: rest => .ok ([], rest)
    | c :: rest =>
      match readKey first c rest with
      | .error e => .error e
      | .ok (key, rest) =>
        match readValue fuel depth rest with
        | .error e => .error e
        | .ok (v, rest) =>
          (readMembers fuel depth false rest).map fun (ms, rest) => ((key, v) :: ms, rest)

end

def enoughFuel (cs : List Char) : Nat :=
  3 * cs.length + 3

def parse (s : String) : Except Fault Json := do
  let cs := s.toList
  let (v, rest) ← readValue (enoughFuel cs) 128 cs
  if (skipSpace rest).isEmpty then return v else throw .malformed

/-- The members of the object that a text writes, in its order. A text that starts with another
value is refused at that value, whatever follows it. -/
def writtenMembers (s : String) : Except Fault (List (String × Json)) :=
  let cs := s.toList
  match skipSpace cs with
  | '\x7b' :: rest => do
    let (ms, rest) ← readMembers (enoughFuel cs) 127 true rest
    if (skipSpace rest).isEmpty then return ms else throw .malformed
  | '[' :: _ => .error .notAnObject
  | rest => do
    let _ ← readScalar rest
    throw .notAnObject

/-- The members of the object that a text writes, in the order of their keys. -/
def parseObject (s : String) : Except Fault (List (String × Json)) :=
  (writtenMembers s).map sortMembers

end Pagewright.Json
