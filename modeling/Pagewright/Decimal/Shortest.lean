import Pagewright.Decimal.Binary64

/-!
# Decimal text of a binary number

The digits of a number are the fewest that no other number of the format is nearer to. `shortest`
finds them by exact arithmetic: it takes the interval of reals that round to the number (its ends
included when the mantissa is even) and tests, for 1, 2, … 17 digits, the number's two neighbours on
that decimal grid. How the digits are laid out is a separate decision, one `Layout` for each text
that prints numbers.
-/

namespace Pagewright.Decimal

/-- Decimal digits, the first of them at `10 ^ exponent`; no zero ends them. -/
structure Digits where
  digits : Nat
  exponent : Int
  deriving DecidableEq, Repr

def countDigits (n : Nat) : Nat :=
  (Nat.toDigits 10 n).length

/-- A number without the zeros that end it, by fuel, and how many they were. -/
def dropZeros : Nat → Nat → Nat
  | 0, n => n
  | fuel + 1, n => if n ≠ 0 ∧ n % 10 = 0 then dropZeros fuel (n / 10) else n

namespace Magnitude

/-- The exponent of the first decimal digit of `num / den`. -/
def leadingExponent (num den : Nat) : Int :=
  let t : Int := countDigits den - countDigits num
  let reached := if t < 0 then num ≥ den * Nat.pow 10 t.natAbs else num * Nat.pow 10 t.natAbs ≥ den
  if reached then -t else -t - 1

/-- The reals that round to `x`, over the denominator of the second component: the lower end, `x`
itself and the upper end. Below a power of two the numbers lie half as far apart. -/
def interval (x : Magnitude) : (Nat × Nat × Nat) × Nat :=
  let (unit, den) := scaled 1 1 (2 - x.exponent)
  let low := if x.mantissa = Nat.pow 2 52 ∧ x.exponent > -1074 then 4 * x.mantissa - 1
    else 4 * x.mantissa - 2
  ((low * unit, 4 * x.mantissa * unit, (4 * x.mantissa + 2) * unit), den)

/-- The decimal with `count` digits that rounds to `x`, the nearer of two, if there is one. -/
def onGrid (x : Magnitude) (first : Int) (count : Nat) : Option Nat :=
  let ((low, value, high), den) := interval x
  let place : Int := first + 1 - count
  let (num, unitDen) :=
    if place < 0 then (1, Nat.pow 10 place.natAbs) else (Nat.pow 10 place.natAbs, 1)
  let below := value * unitDen / (den * num)
  let closed := x.mantissa % 2 == 0
  let hits (c : Nat) : Bool :=
    let v := c * num * den
    if closed then low * unitDen ≤ v && v ≤ high * unitDen
    else low * unitDen < v && v < high * unitDen
  let above := below + 1
  match hits below, hits above with
  | false, false => none
  | true, false => some below
  | false, true => some above
  | true, true =>
    let twice := 2 * (value * unitDen)
    let middle := (below + above) * num * den
    if twice < middle then some below
    else if twice > middle then some above
    else some (if below % 2 = 0 then below else above)

def shortest (x : Magnitude) : Digits :=
  let ((_, value, _), den) := interval x
  let first := leadingExponent value den
  let found := (List.range 17).findSome? fun k =>
    (onGrid x first (k + 1)).map fun d => (d, k + 1)
  match found with
  | none => ⟨0, 0⟩
  | some (d, count) =>
    ⟨dropZeros count d, if countDigits d > count then first + 1 else first⟩

end Magnitude

structure Layout where
  /-- The least and the greatest exponent of a first digit that is written without an exponent. -/
  positional : Int → Bool
  pointZero : Bool
  infinity : String
  notANumber : String

/-- Digits with a point, no exponent. -/
def positionalText (layout : Layout) (d : Digits) : String :=
  let ds := Nat.toDigits 10 d.digits
  if d.exponent < 0 then
    "0." ++ String.ofList (List.replicate (d.exponent.natAbs - 1) '0' ++ ds)
  else
    let whole := d.exponent.natAbs + 1
    if ds.length ≤ whole then
      String.ofList (ds ++ List.replicate (whole - ds.length) '0') ++
        (if layout.pointZero then ".0" else "")
    else String.ofList (ds.take whole) ++ "." ++ String.ofList (ds.drop whole)

/-- Digits with the point after the first, and a signed exponent. -/
def exponentText (d : Digits) : String :=
  let ds := Nat.toDigits 10 d.digits
  let mantissa := match ds with
    | [] => "0"
    | [c] => String.singleton c
    | c :: cs => String.singleton c ++ "." ++ String.ofList cs
  mantissa ++ "e" ++ (if d.exponent < 0 then "-" else "+") ++ toString d.exponent.natAbs

def Binary64.text (layout : Layout) : Binary64 → String
  | .notANumber => layout.notANumber
  | .infinite negative => (if negative then "-" else "") ++ layout.infinity
  | .finite negative x =>
    let body :=
      if x.mantissa = 0 then (if layout.pointZero then "0.0" else "0")
      else
        let d := x.shortest
        if layout.positional d.exponent then positionalText layout d else exponentText d
    (if negative then "-" else "") ++ body

end Pagewright.Decimal
