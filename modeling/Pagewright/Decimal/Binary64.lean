/-!
# Numbers of 64-bit binary floating point

A finite number is a sign and `mantissa * 2 ^ exponent` with a mantissa below `2 ^ 53` and an
exponent from -1074 to 971. All arithmetic here is exact on natural numbers and rounds once, to the
nearest number of that form with ties to the even mantissa (`Magnitude.ofRatio`); a result too large
for the form is infinite.
-/

namespace Pagewright.Decimal

/-- The finite part of a number without its sign: `mantissa * 2 ^ exponent`. -/
structure Magnitude where
  mantissa : Nat
  exponent : Int
  deriving DecidableEq, Repr

inductive Binary64 where
  | finite (negative : Bool) (magnitude : Magnitude)
  | infinite (negative : Bool)
  | notANumber
  deriving DecidableEq, Repr

namespace Magnitude

def zero : Magnitude := ⟨0, -1074⟩

/-- The quotient nearest to `num / den`, a tie going to the even one. -/
def roundDiv (num den : Nat) : Nat :=
  let q := num / den
  let twice := 2 * (num % den)
  if twice < den then q
  else if twice > den then q + 1
  else q + q % 2

/-- Numerator and denominator of `num / den / 2 ^ exponent`. -/
def scaled (num den : Nat) (exponent : Int) : Nat × Nat :=
  if exponent < 0 then (num * Nat.pow 2 exponent.natAbs, den)
  else (num, den * Nat.pow 2 exponent.natAbs)

/-- The exponent at which `num / den` has a 53-bit mantissa, or the least exponent. -/
def exponentFor (num den : Nat) : Int :=
  let guess : Int := num.log2 - den.log2 - 53
  let (n, d) := scaled num den guess
  max (-1074) (if n / d < Nat.pow 2 53 then guess else guess + 1)

/-- The magnitude nearest to `num / den`, `none` when it is beyond the largest. -/
def ofRatio (num den : Nat) : Option Magnitude :=
  if num = 0 ∨ den = 0 then some zero
  else
    let e := exponentFor num den
    let (n, d) := scaled num den e
    let m := roundDiv n d
    let (m, e) := if m = Nat.pow 2 53 then (Nat.pow 2 52, e + 1) else (m, e)
    if e > 971 then none else some ⟨m, e⟩

def ratio (x : Magnitude) : Nat × Nat :=
  scaled x.mantissa 1 (-x.exponent)

/-- The magnitude nearest to a decimal `digits * 10 ^ exponent`. -/
def ofDecimal (digits : Nat) (exponent : Int) : Option Magnitude :=
  if exponent < 0 then ofRatio digits (Nat.pow 10 exponent.natAbs)
  else ofRatio (digits * Nat.pow 10 exponent.natAbs) 1

def mul (x y : Magnitude) : Option Magnitude :=
  let (a, b) := x.ratio
  let (c, d) := y.ratio
  ofRatio (a * c) (b * d)

def div (x y : Magnitude) : Option Magnitude :=
  let (a, b) := x.ratio
  let (c, d) := y.ratio
  ofRatio (a * d) (b * c)

/-- The integer nearest to a magnitude, a half going up. -/
def roundHalfUp (x : Magnitude) : Nat :=
  let (a, b) := x.ratio
  (2 * a + b) / (2 * b)

end Magnitude

end Pagewright.Decimal
