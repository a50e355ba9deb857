import Pagewright.Decimal.Shortest

/-!
# Decimal text with a number of places

A number is rounded once, a tie going to the even digit: to places behind the point (`fixed`) or to
significant digits (`scientific`). `general` takes the first for numbers of a middling size and the
second for others, without the zeros that end them unless these are wanted.
-/

namespace Pagewright.Decimal

def paddedDigits (count n : Nat) : List Char :=
  let ds := Nat.toDigits 10 n
  List.replicate (count - ds.length) '0' ++ ds

/-- Digits with a point in front of the last ones; `pointed` keeps a point that ends them. -/
def withPoint (pointed : Bool) (places : Nat) (ds : List Char) : List Char :=
  let (whole, part) := ds.splitAt (ds.length - places)
  if part.isEmpty && !pointed then whole else whole ++ '.' :: part

/-- A text without the zeros that end what stands behind its point, and the point if it is then the
end. -/
def withoutZeros (ds : List Char) : List Char :=
  if ds.contains '.' then
    let kept := ds.reverse.dropWhile (· == '0')
    (if kept.head? == some '.' then kept.drop 1 else kept).reverse
  else ds

def powerText (e : Int) : List Char :=
  'e' :: (if e < 0 then '-' else '+') :: paddedDigits 2 e.natAbs

namespace Magnitude

def fixed (x : Magnitude) (pointed : Bool) (places : Nat) : List Char :=
  let (num, den) := x.ratio
  withPoint pointed places (paddedDigits (places + 1) (roundDiv (num * Nat.pow 10 places) den))

/-- The first significant digits of a number, `places` after the first of them, and the exponent of
the first. -/
def significant (x : Magnitude) (places : Nat) : Nat × Int :=
  if x.mantissa = 0 then (0, 0)
  else
    let (num, den) := x.ratio
    let e := leadingExponent num den
    let shift : Int := places - e
    let n := if shift < 0 then roundDiv num (den * Nat.pow 10 shift.natAbs)
      else roundDiv (num * Nat.pow 10 shift.natAbs) den
    if n = Nat.pow 10 (places + 1) then (n / 10, e + 1) else (n, e)

/-- A number with one digit in front of the point, places behind it, and an exponent. -/
def scientific (x : Magnitude) (pointed : Bool) (places : Nat) : List Char :=
  let (n, e) := x.significant places
  withPoint pointed places (paddedDigits (places + 1) n) ++ powerText e

/-- A number with a count of significant digits, in the shorter of the two ways. -/
def general (x : Magnitude) (keepsZeros : Bool) (count : Nat) : List Char :=
  let places := count - 1
  let (n, e) := x.significant places
  let trim (ds : List Char) : List Char := if keepsZeros then ds else withoutZeros ds
  if -4 ≤ e ∧ e ≤ places then trim (x.fixed keepsZeros (places - e).toNat)
  else trim (withPoint keepsZeros places (paddedDigits (places + 1) n)) ++ powerText e

end Magnitude

end Pagewright.Decimal
