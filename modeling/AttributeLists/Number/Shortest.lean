/-
# The shortest decimal text of a double

A double is shown with the fewest decimal digits that are rounded back to it, and of
those with the nearest ones. Powers of ten are tried from the largest one downwards. If
any multiple of a power of ten is rounded to the double, then so is one of the two
multiples next to it, and so the first power with such a neighbour leaves the fewest
digits.

From `0.0001` up to below `10 ^ 16` the digits are written around the decimal point,
other numbers with an exponent of two digits or more.
-/

import AttributeLists.Number.Double

namespace AttributeLists.Number

/-- A multiple of a power of ten that is next to a number of units and rounded to it. The
nearer one is preferred. -/
def neighbour? (units : Nat) (exponent : Int) : Option Decimal :=
  let n := units * Nat.pow 10 (-exponent).toNat
  let d := Double.unitsOfOne * Nat.pow 10 exponent.toNat
  ([roundQuotient n d, n / d, n / d + 1].map (⟨·, exponent⟩)).find? (·.units? == some units)

/-- The decimal number of the fewest digits that is rounded to a number of units. The
powers of ten go down to below one unit, where some multiple is always found. -/
def shortest (units : Nat) : Decimal :=
  if units = 0 then ⟨0, 0⟩
  else
    ((List.range 633).findSome? fun (i : Nat) => neighbour? units (308 - (i : Int))).getD
      ⟨units * Nat.pow 5 1074, -1074⟩

namespace Decimal

/-- The digits around the decimal point, with at least one on each side. -/
def positional (digits : List Char) (pointAt : Int) : List Char :=
  let whole := digits.take pointAt.toNat ++ List.replicate (pointAt.toNat - digits.length) '0'
  let fraction := List.replicate (-pointAt).toNat '0' ++ digits.drop pointAt.toNat
  (if whole.isEmpty then ['0'] else whole) ++ '.' ::
    (if fraction.isEmpty then ['0'] else fraction)

/-- One digit, the others after a point if there are any, and the exponent with its sign
and at least two digits. -/
def scientific (digits : List Char) (exponent : Int) : List Char :=
  let fraction := digits.drop 1
  let size := Nat.toDigits 10 exponent.natAbs
  digits.take 1 ++ (if fraction.isEmpty then [] else '.' :: fraction) ++
    ['e', if exponent < 0 then '-' else '+'] ++
    List.replicate (2 - size.length) '0' ++ size

/-- The text of a decimal number. -/
def shown (x : Decimal) : String :=
  let digits := Nat.toDigits 10 x.digits
  String.ofList
    (if -4 < x.pointAt ∧ x.pointAt ≤ 16 then positional digits x.pointAt
     else scientific digits (x.pointAt - 1))

end Decimal

/-- The text of a double. Zero keeps its sign. -/
def Double.shown (x : Double) : String :=
  (if x.negative then "-" else "") ++ (shortest x.units).shown

end AttributeLists.Number
