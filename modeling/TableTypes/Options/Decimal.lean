import TableTypes.Rounding
import TableTypes.Text.Basic

/-!
# Decimal numbers

A number with a point or an exponent is read with 53 binary digits and exponents up to 1023.  Where
a whole number is asked for, such a number will do if it has no fraction then and is not too large.
-/

namespace TableTypes

open Text

/-- The number `digits * 10 ^ exponent`. -/
structure Decimal where
  digits : Int
  exponent : Int
  deriving DecidableEq, Repr

namespace Decimal

/-- What a decimal number is as an integer. -/
inductive Whole where
  | value (n : Int)
  | fraction
  | tooLarge
  | infinite
  deriving DecidableEq, Repr

/-- The exponent of the decimal digit that is highest. -/
def magnitude (d : Decimal) : Int :=
  ((ofNat d.digits.natAbs).length : Int) - 1 + d.exponent

/-- The number as a quotient of natural numbers, its sign aside. -/
def quotient (d : Decimal) : Nat × Nat :=
  if 0 ≤ d.exponent then (d.digits.natAbs * Nat.pow 10 d.exponent.toNat, 1)
  else (d.digits.natAbs, Nat.pow 10 (-d.exponent).toNat)

/-- The least number that is infinite when it is rounded: halfway from the greatest number with 53
binary digits to the power of two above it. -/
def infinityBound : Nat :=
  Nat.pow 2 1024 - Nat.pow 2 970

/-- What the number is as an integer when it is rounded.  The integers that are not too large are
those between `-2 ^ 63` and `2 ^ 63`. -/
def whole (d : Decimal) : Whole :=
  if d.digits = 0 then .value 0
  else if 400 < d.magnitude then .infinite
  else if d.magnitude < -400 then .value 0
  else
    let (n, unit) := d.quotient
    if infinityBound * unit ≤ n then .infinite
    else
      match wholeQuotient? n unit with
      | none => .fraction
      | some m => if m < Nat.pow 2 63 then .value (if d.digits < 0 then -m else m) else .tooLarge

/-- The number in digits with a point, with as few digits behind it as can be but one at least. -/
def shown (d : Decimal) : Text :=
  let sign : Text := if d.digits < 0 then ['-'] else []
  let digits := ofNat d.digits.natAbs ++ List.replicate d.exponent.toNat '0'
  let places := (-d.exponent).toNat
  let padded := List.replicate (places + 1 - digits.length) '0' ++ digits
  let whole := padded.take (padded.length - places)
  let fraction := dropEndWhile (· = '0') (padded.drop (padded.length - places))
  sign ++ whole ++ ['.'] ++ (if fraction.isEmpty then ['0'] else fraction)

end Decimal

end TableTypes
