import Pagewright.Decimal.Places
import Pagewright.Shell.Arithmetic
import Pagewright.Shell.Escape

/-!
# Formatted output

What the program `printf` writes for a format and arguments: text with escapes, and conversions that
take an argument each. The format is used again as long as there are arguments left; a missing one
counts as empty or zero.
-/

namespace Pagewright.Shell

open Text Decimal

/-- What is wrong with an argument that has to be a number. -/
inductive NumberFault where
  | noNumber
  | notWhole
  | outOfRange
  deriving DecidableEq, Repr

/-- Why formatting does not go on. -/
inductive Halt where
  /-- An escape ended the output. -/
  | ended
  | badConversion (text : String)
  | noLetter
  deriving DecidableEq, Repr

/-- The state of formatting. -/
structure Formatting where
  args : List String
  asked : Bool := false
  /-- What was written, the last part first. -/
  written : List Bytes := []
  /-- The arguments that are not the numbers they have to be, the last one first. -/
  faults : List (String × NumberFault) := []

abbrev Formatter := ExceptT Halt (StateM Formatting)

namespace Formatter

def write (bs : Bytes) : Formatter Unit :=
  modify fun f => { f with written := bs :: f.written }

def next? : Formatter (Option String) := do
  let f ← get
  set { f with args := f.args.tail, asked := f.asked || !f.args.isEmpty }
  return f.args.head?

def note (arg : String) (fault : NumberFault) : Formatter Unit :=
  modify fun f => { f with faults := (arg, fault) :: f.faults }

end Formatter

def leadingNumber (cs : List Char) : Nat × List Char :=
  Arithmetic.leadingDigits 10 cs

/-- The sign in front of a text, white space before it, and what follows. -/
def leadingSign (cs : List Char) : Bool × List Char :=
  match cs.dropWhile fun c => Arithmetic.isBlank c || c == '\x0b' || c == '\x0c' || c == '\r' with
  | '-' :: cs => (true, cs)
  | '+' :: cs => (false, cs)
  | cs => (false, cs)

/-- The decimal number in front of a text, which may be infinite or none, and what follows it. -/
def leadingDecimal? (cs : List Char) : Option (Binary64 × List Char) :=
  let (negative, cs) := leadingSign cs
  let starts (word : String) : Bool := (cs.take word.length).map Char.toLower == word.toList
  let finite (magnitude : Option Magnitude) (rest : List Char) : Option (Binary64 × List Char) :=
    some (match magnitude with
      | some m => .finite negative m
      | none => .infinite negative, rest)
  if starts "infinity" then some (.infinite negative, cs.drop 8)
  else if starts "inf" then some (.infinite negative, cs.drop 3)
  else if starts "nan" then some (.notANumber, cs.drop 3)
  else if starts "0x" && (cs[2]?).any fun c => Arithmetic.digitValue c < 16 then
    let (n, rest) := Arithmetic.leadingDigits 16 (cs.drop 2)
    finite (Magnitude.ofDecimal n 0) rest
  else
    let whole := cs.takeWhile Char.isDigit
    let rest := cs.drop whole.length
    let part := match rest with
      | '.' :: ds => ds.takeWhile Char.isDigit
      | _ => []
    if whole.isEmpty && part.isEmpty then none
    else
      let rest := if rest.head? == some '.' then rest.drop (part.length + 1) else rest
      let (exponent, rest) : Int × List Char := match rest with
        | e :: ds =>
          let (down, ds) := match ds with
            | '-' :: ds => (true, ds)
            | '+' :: ds => (false, ds)
            | ds => (false, ds)
          if (e == 'e' || e == 'E') && ds.head?.any Char.isDigit then
            let (n, ds) := leadingNumber ds
            (if down then -(min n 9999) else min n 9999, ds)
          else (0, rest)
        | [] => (0, [])
      finite (Magnitude.ofDecimal (leadingNumber (whole ++ part)).1 (exponent - part.length)) rest

namespace Formatter

def text : Formatter String :=
  return (← next?).getD ""

/-- Reads a number from the next argument. A quote in front makes it the first byte after it. -/
def number {α : Type} (ofNat : Nat → α) (read? : List Char → Option (α × List Char)) :
    Formatter (α × String) := do
  let arg ← text
  let quoted (cs : List Char) : α :=
    ofNat ((cs.head?.map Char.toNat).getD 0)
  match arg.toList with
  | '\'' :: cs => return (quoted cs, arg)
  | '"' :: cs => return (quoted cs, arg)
  | cs =>
    match read? cs with
    | some (n, rest) =>
      if !rest.isEmpty then note arg .notWhole
      return (n, arg)
    | none =>
      if !cs.isEmpty then note arg .noNumber
      return (ofNat 0, arg)

/-- The integer of the next argument, brought between two bounds. -/
def integer (low high : Int) : Formatter Int := do
  let read? (cs : List Char) : Option (Int × List Char) :=
    let (negative, cs) := leadingSign cs
    if cs.head?.any Char.isDigit then
      let (n, rest) := Arithmetic.leadingConstant cs
      some (if negative then -n else n, rest)
    else none
  let (n, arg) ← number Int.ofNat read?
  let bounded := max low (min high n)
  if bounded != n && !(← get).faults.any (·.1 == arg) then note arg .outOfRange
  return bounded

def signed : Formatter Int :=
  integer Int64.minValue.toInt Int64.maxValue.toInt

def unsigned : Formatter Nat := do
  let size : Int := Nat.pow 2 64
  let n ← integer (1 - size) (size - 1)
  return (if n < 0 then n + size else n).toNat

def decimal : Formatter Binary64 := do
  let (x, arg) ← number (fun n => .finite false ⟨n, 0⟩) leadingDecimal?
  let isWritten := arg.toList.any Char.isDigit
  match x with
  | .infinite _ => if isWritten then note arg .outOfRange
  | _ => pure ()
  return x

end Formatter

/-- The signs of a conversion between the percent sign and its letter. -/
structure Conversion where
  left : Bool := false
  zero : Bool := false
  plus : Bool := false
  blank : Bool := false
  /-- The other form of numbers: with the sign of their base, or with a point. -/
  other : Bool := false
  width : Nat := 0
  precision : Option Nat := none

namespace Conversion

/-- Reads a number of a conversion, which an argument gives in the place of a star. -/
def readNumber (cs : List Char) : Formatter (Int × List Char) := do
  match cs with
  | '*' :: cs => return (← Formatter.signed, cs)
  | cs =>
    let (n, rest) := leadingNumber cs
    return (n, rest)

def read (cs : List Char) : Formatter (Conversion × List Char) := do
  let flags := cs.takeWhile ['-', '0', '+', ' ', '#'].contains
  let (width, cs) ← readNumber (cs.drop flags.length)
  let (precision, cs) ← match cs with
    | '.' :: cs => do
      let (n, cs) ← readNumber cs
      pure (if n < 0 then none else some n.toNat, cs)
    | cs => pure (none, cs)
  return ({
    left := flags.contains '-' || width < 0
    zero := flags.contains '0'
    plus := flags.contains '+'
    blank := flags.contains ' '
    other := flags.contains '#'
    width := width.natAbs
    precision }, cs)

def pad (d : Conversion) (bs : Bytes) : Bytes :=
  let fill := List.replicate (d.width - bs.length) (0x20 : UInt8)
  if d.left then bs ++ fill else fill ++ bs

/-- A number in its field, filled up with zeros between its sign and its digits or with blanks. -/
def padNumber (d : Conversion) (zeros : Bool) (sign digits : String) : Bytes :=
  if zeros && d.zero && !d.left then
    rawBytes (sign ++
      String.ofList (List.replicate (d.width - sign.length - digits.length) '0') ++ digits)
  else d.pad (rawBytes (sign ++ digits))

def sign (d : Conversion) (negative : Bool) : String :=
  if negative then "-" else if d.plus then "+" else if d.blank then " " else ""

/-- The digits of an integer, as many as are wanted at least. -/
def digits (d : Conversion) (base n : Nat) : String :=
  let ds := if n = 0 && d.precision == some 0 then [] else Nat.toDigits base n
  String.ofList (List.replicate (d.precision.getD 0 - ds.length) '0' ++ ds)

def integer (d : Conversion) (n : Int) : Bytes :=
  d.padNumber d.precision.isNone (d.sign (n < 0)) (d.digits 10 n.natAbs)

def natural (d : Conversion) (letter : Char) (n : Nat) : Bytes :=
  let put (sign digits : String) : Bytes := d.padNumber d.precision.isNone sign digits
  let mark (s : String) : String := if d.other && n != 0 then s else ""
  match letter with
  | 'o' =>
    let ds := d.digits 8 n
    put "" (if d.other && !ds.startsWith "0" then "0" ++ ds else ds)
  | 'x' => put (mark "0x") (d.digits 16 n)
  | 'X' => put (mark "0X") (d.digits 16 n).toUpper
  | _ => put "" (d.digits 10 n)

/-- A number of binary floating point in the style of a letter. -/
def binary (d : Conversion) (letter : Char) (x : Binary64) : Bytes :=
  let cased (cs : List Char) : String :=
    String.ofList (if letter.isUpper then cs.map Char.toUpper else cs)
  match x with
  | .finite negative m =>
    let count := d.precision.getD 6
    let ds := match letter.toLower with
      | 'e' => m.scientific d.other count
      | 'f' => m.fixed d.other count
      | _ => m.general d.other (max 1 count)
    d.padNumber true (d.sign negative) (cased ds)
  | .infinite negative => d.padNumber false (d.sign negative) (cased ['i', 'n', 'f'])
  | .notANumber => d.padNumber false (d.sign false) (cased ['n', 'a', 'n'])

/-- Writes what a conversion gives for the next argument; `written` is how it stands in the
format. -/
def write (d : Conversion) (letter : Char) (written : String) : Formatter Unit := do
  let cut (bs : Bytes) : Bytes :=
    match d.precision with
    | some n => bs.take n
    | none => bs
  if letter = 's' then Formatter.write (d.pad (cut (rawBytes (← Formatter.text))))
  else if letter = 'c' then
    Formatter.write (d.pad [((rawBytes (← Formatter.text)).head?).getD 0])
  else if letter = 'b' then
    let arg ← Formatter.text
    let (bs, ended) := unescape true (arg.length + 1) arg.toList
    Formatter.write (d.pad (cut bs))
    if ended then throw .ended
  else if letter = 'd' || letter = 'i' then Formatter.write (d.integer (← Formatter.signed))
  else if ['o', 'u', 'x', 'X'].contains letter then
    Formatter.write (d.natural letter (← Formatter.unsigned))
  else if ['e', 'E', 'f', 'F', 'g', 'G'].contains letter then
    Formatter.write (d.binary letter (← Formatter.decimal))
  else throw (.badConversion written)

end Conversion

namespace Formatter

/-- Uses a format once. -/
def useOnce : (fuel : Nat) → List Char → Formatter Unit
  | 0, _ => return ()
  | _, [] => return ()
  | fuel + 1, '%' :: '%' :: cs => do
    write [0x25]
    useOnce fuel cs
  | fuel + 1, '%' :: cs => do
    let (d, rest) ← Conversion.read cs
    match rest with
    | [] => throw .noLetter
    | letter :: rest =>
      let written := cs.take (cs.length - rest.length)
      d.write letter (String.ofList ('%' :: written))
      useOnce fuel rest
  | fuel + 1, cs => do
    let run := cs.takeWhile (· != '%')
    write (unescape false (run.length + 1) run).1
    useOnce fuel (cs.drop run.length)

/-- Uses a format until no argument is left. -/
def useAll : (fuel : Nat) → List Char → Formatter Unit
  | 0, _ => return ()
  | fuel + 1, cs => do
    useOnce (cs.length + 1) cs
    let f ← get
    if f.asked && !f.args.isEmpty then useAll fuel cs

end Formatter

structure Formatted where
  output : Bytes
  /-- The arguments that are not the numbers they have to be. -/
  faults : List (String × NumberFault)
  /-- Why the format was not used to its end. -/
  halt : Option Halt

def format (form : String) (args : List String) : Formatted :=
  let (result, f) := (Formatter.useAll (args.length + 1) form.toList).run.run { args }
  { output := f.written.reverse.flatten
    faults := f.faults.reverse
    halt := match result with
      | .ok _ => none
      | .error halt => some halt }

end Pagewright.Shell
