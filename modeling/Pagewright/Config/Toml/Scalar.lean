import Pagewright.Config.Value

/-!
# Scalars of TOML

`ofToken?` gives the value that a bare token writes: a truth value, an integer of 64 bits in one of
four bases, a number of binary floating point, or a date, a time or both, which become their text.
Single underscores may stand between digits.
-/

namespace Pagewright.Config.Toml

open Decimal

def digitValue (c : Char) : Nat :=
  if c.isDigit then c.toNat - '0'.toNat else c.toLower.toNat - 'a'.toNat + 10

def isHexDigit (c : Char) : Bool :=
  c.isDigit || ('a' ≤ c && c ≤ 'f') || ('A' ≤ c && c ≤ 'F')

def isOctalDigit (c : Char) : Bool :=
  '0' ≤ c && c ≤ '7'

def isBinaryDigit (c : Char) : Bool :=
  c == '0' || c == '1'

/-- Digits without the underscores between them. -/
def ungroup? (isDigit : Char → Bool) : List Char → Option (List Char)
  | [] => none
  | [c] => if isDigit c then some [c] else none
  | c :: '_' :: cs => if isDigit c then (ungroup? isDigit cs).map (c :: ·) else none
  | c :: cs => if isDigit c then (ungroup? isDigit cs).map (c :: ·) else none

/-- The number that digits of a base write. -/
def number (base : Nat) (ds : List Char) : Nat :=
  ds.foldl (fun n d => n * base + digitValue d) 0

def splitSign : List Char → Bool × List Char
  | '-' :: cs => (true, cs)
  | '+' :: cs => (false, cs)
  | cs => (false, cs)

def wholeDigits? (cs : List Char) : Option (List Char) :=
  match ungroup? Char.isDigit cs with
  | some ('0' :: _ :: _) => none
  | ds => ds

/-- The integer of a sign and a size, when 64 bits hold it. -/
def integer? (negative : Bool) (n : Nat) : Option Value :=
  if n < Nat.pow 2 63 then some (.integer (if negative then -n else n))
  else if negative ∧ n = Nat.pow 2 63 then some (.integer (-n))
  else none

def integerToken? (cs : List Char) : Option Value :=
  match cs with
  | '0' :: 'x' :: ds => (ungroup? isHexDigit ds).bind fun ds => integer? false (number 16 ds)
  | '0' :: 'o' :: ds => (ungroup? isOctalDigit ds).bind fun ds => integer? false (number 8 ds)
  | '0' :: 'b' :: ds => (ungroup? isBinaryDigit ds).bind fun ds => integer? false (number 2 ds)
  | cs =>
    let (negative, cs) := splitSign cs
    (wholeDigits? cs).bind fun ds => integer? negative (number 10 ds)

/-- The number of a sign and a decimal `digits * 10 ^ exponent`. One beyond the largest number is
infinite, which is refused when it is positive. -/
def real? (negative : Bool) (digits : Nat) (exponent : Int) : Option Value :=
  let magnitude :=
    if digits = 0 ∨ exponent < -400 - digits.log2 then some Magnitude.zero
    else if exponent > 400 then none
    else Magnitude.ofDecimal digits exponent
  match magnitude with
  | some x => some (.real (.finite negative x))
  | none => if negative then some (.real (.infinite true)) else none

def exponentToken? (cs : List Char) : Option Int :=
  let (negative, cs) := splitSign cs
  (ungroup? Char.isDigit cs).map fun ds =>
    let n : Int := number 10 ds
    if negative then -n else n

def isExponentLetter (c : Char) : Bool :=
  c == 'e' || c == 'E'

/-- A number with a fraction, an exponent or both, or one that is not finite. -/
def realToken? (cs : List Char) : Option Value :=
  let (negative, cs) := splitSign cs
  if cs = ['i', 'n', 'f'] then some (.real (.infinite negative))
  else if cs = ['n', 'a', 'n'] then some (.real .notANumber)
  else do
    let mantissa := cs.takeWhile fun c => !isExponentLetter c
    let exponent ← match cs.dropWhile fun c => !isExponentLetter c with
      | [] => some 0
      | _ :: e => exponentToken? e
    let whole ← wholeDigits? (mantissa.takeWhile (· != '.'))
    let fraction ← match mantissa.dropWhile (· != '.') with
      | [] => if mantissa.length = cs.length then none else some []
      | _ :: ds => ungroup? Char.isDigit ds
    real? negative (number 10 (whole ++ fraction)) (exponent - fraction.length)

/-! ## Dates and times -/

/-- How far hours go, and which hours and minutes a distance from universal time may have. -/
structure Clock where
  lastHour : Nat
  allows : (hours minutes : Nat) → Bool

def Clock.ofToken : Clock where
  lastHour := 23
  allows hours minutes := hours ≤ 23 && minutes ≤ 59

/-- The hours of a moment in a string: a time may be in hour 24, and a distance is at most a day. -/
def Clock.ofString : Clock where
  lastHour := 24
  allows hours minutes := hours * 60 + minutes ≤ 24 * 60

def isBetween (low high : Nat) (a b : Char) : Bool :=
  a.isDigit && b.isDigit && low ≤ number 10 [a, b] && number 10 [a, b] ≤ high

def daysIn (year month : Nat) : Nat :=
  match month with
  | 2 => if year % 4 = 0 ∧ (year % 100 ≠ 0 ∨ year % 400 = 0) then 29 else 28
  | 4 => 30
  | 6 => 30
  | 9 => 30
  | 11 => 30
  | _ => 31

def splitDate? : List Char → Option (List Char × List Char)
  | a :: b :: c :: d :: '-' :: m :: n :: '-' :: p :: q :: rest =>
    let year := number 10 [a, b, c, d]
    if [a, b, c, d].all Char.isDigit ∧ isBetween 1 12 m n ∧
        isBetween 1 (daysIn year (number 10 [m, n])) p q then
      some ([a, b, c, d, '-', m, n, '-', p, q], rest)
    else none
  | _ => none

/-- A fraction of a second as it is written: at most nine digits and no zero at the end. -/
def fractionText (ds : List Char) : List Char :=
  match ((ds.take 9).reverse.dropWhile (· == '0')).reverse with
  | [] => []
  | ds => '.' :: ds

def splitTime? (clock : Clock) : List Char → Option (List Char × List Char)
  | h :: i :: ':' :: m :: n :: ':' :: s :: t :: rest =>
    if isBetween 0 clock.lastHour h i ∧ isBetween 0 59 m n ∧ isBetween 0 60 s t then
      let time := [h, i, ':', m, n, ':', s, t]
      match rest with
      | '.' :: rest =>
        match rest.takeWhile Char.isDigit with
        | [] => none
        | ds => some (time ++ fractionText ds, rest.dropWhile Char.isDigit)
      | rest => some (time, rest)
    else none
  | _ => none

def twoDigits (n : Nat) : List Char :=
  [Nat.digitChar (n / 10), Nat.digitChar (n % 10)]

/-- The distance of a time from universal time; one of nothing is written with a plus. -/
def offsetText? (clock : Clock) : List Char → Option (List Char)
  | [] => some []
  | ['Z'] => some ['Z']
  | ['z'] => some ['Z']
  | [sign, h, i, ':', m, n] =>
    let hours := number 10 [h, i]
    let minutes := number 10 [m, n]
    let total := hours * 60 + minutes
    if (sign = '+' ∨ sign = '-') ∧ [h, i, m, n].all Char.isDigit ∧ clock.allows hours minutes then
      some ((if total = 0 then '+' else sign) ::
        twoDigits (total / 60) ++ ':' :: twoDigits (total % 60))
    else none
  | _ => none

def timeOfDay? (clock : Clock) (cs : List Char) : Option (List Char) := do
  let (time, rest) ← splitTime? clock cs
  return time ++ (← offsetText? clock rest)

/-- A date, a time, or a date and a time with `T` between them. -/
def moment? (clock : Clock) (cs : List Char) : Option Value :=
  match splitDate? cs with
  | some (date, []) => some (.text (String.ofList date))
  | some (date, t :: rest) =>
    if t = 'T' ∨ t = 't' ∨ t = ' ' then
      (timeOfDay? clock rest).map fun time => .text (String.ofList (date ++ 'T' :: time))
    else none
  | none =>
    match splitTime? clock cs with
    | some (time, []) => some (.text (String.ofList time))
    | _ => none

/-- A moment in a string. -/
def quotedMoment? (cs : List Char) : Option Value :=
  moment? .ofString cs

def ofToken? (cs : List Char) : Option Value :=
  if cs = ['t', 'r', 'u', 'e'] then some (.bool true)
  else if cs = ['f', 'a', 'l', 's', 'e'] then some (.bool false)
  else
    match moment? .ofToken cs with
    | some v => some v
    | none =>
      match integerToken? cs with
      | some v => some v
      | none => realToken? cs

end Pagewright.Config.Toml
