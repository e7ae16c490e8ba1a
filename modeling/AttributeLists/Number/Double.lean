/-
# Numbers in double precision

The magnitude of a finite double is a whole number of units of `2 ^ -1074`, and at most
53 binary digits of that number are in use. Counted in units, the numbers next to zero
need no rule of their own: there a unit is simply the last digit that can be kept.

A decimal number becomes the nearest double, and of two that are equally near the one
whose last digit is even. All of it is exact arithmetic on natural numbers. What would
become `2 ^ 1024` or more has no double.
-/

namespace AttributeLists.Number

/-- The decimal number `digits * 10 ^ exponent`. -/
structure Decimal where
  digits : Nat
  exponent : Int
  deriving DecidableEq

namespace Decimal

/-- The numerator of a decimal number as a fraction of natural numbers. -/
def numerator (x : Decimal) : Nat :=
  x.digits * Nat.pow 10 x.exponent.toNat

/-- The denominator of a decimal number as a fraction of natural numbers. -/
def denominator (x : Decimal) : Nat :=
  Nat.pow 10 (-x.exponent).toNat

/-- How many digits stand before the decimal point. For a number below one tenth it is
negative and counts the zeros after the point. -/
def pointAt (x : Decimal) : Int :=
  (Nat.toDigits 10 x.digits).length + x.exponent

end Decimal

/-- A finite number in double precision. -/
structure Double where
  negative : Bool
  /-- The magnitude in units of `2 ^ -1074`. -/
  units : Nat
  deriving DecidableEq

namespace Double

/-- How many units make one. -/
def unitsOfOne : Nat := Nat.pow 2 1074

/-- The first number of units that is out of range. -/
def unitsLimit : Nat := Nat.pow 2 1024 * unitsOfOne

end Double

/-- A quotient rounded to the nearest whole number, a half to the even one. -/
def roundQuotient (n d : Nat) : Nat :=
  let q := n / d
  if 2 * (n % d) < d ∨ (2 * (n % d) = d ∧ q % 2 = 0) then q else q + 1

/-- A quotient rounded to the nearest whole number of which 53 binary digits are in use. -/
def roundBinary (n d : Nat) : Nat :=
  let step := Nat.pow 2 (Nat.log2 (n / d) - 52)
  roundQuotient n (d * step) * step

/-- The magnitude of the double nearest to a decimal number, if that is in range. The
place of the decimal point settles numbers whose powers of ten are too large to work
with: below `10 ^ -331` all is zero, and from `10 ^ 310` on nothing is in range. -/
def Decimal.units? (x : Decimal) : Option Nat :=
  if x.digits = 0 ∨ x.pointAt < -330 then some 0
  else if 310 < x.pointAt then none
  else
    let units := roundBinary (x.numerator * Double.unitsOfOne) x.denominator
    if units < Double.unitsLimit then some units else none

/-- The double nearest to a decimal number with a sign, if it is in range. -/
def Double.ofDecimal? (negative : Bool) (x : Decimal) : Option Double :=
  x.units?.map (⟨negative, ·⟩)

end AttributeLists.Number
