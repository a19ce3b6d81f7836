/-!
# Rounding

Numbers are rounded to the nearest of those that can be held, and a number halfway between two goes
to the even one.  Numbers with a fraction are held with 53 binary digits.
-/

namespace TableTypes

/-- The quotient rounded to the nearest integer, a half to the even one. -/
def divRoundEven (n d : Nat) : Nat :=
  if 2 * (n % d) < d || (2 * (n % d) = d && n / d % 2 = 0) then n / d else n / d + 1

/-- The number rounded to 53 binary digits, a half to the even side. -/
def roundTo53Bits (n : Nat) : Nat :=
  let unit := Nat.pow 2 (n.log2 - 52)
  divRoundEven n unit * unit

/-- The integer that the quotient is when it is rounded to 53 binary digits, if it is one then.
Below one the binary digits go on down to the exponent -1074, so that only the least quotients
become zero. -/
def wholeQuotient? (n d : Nat) : Option Nat :=
  if d ≤ n then
    let e := (n / d).log2
    if 52 ≤ e then
      let unit := Nat.pow 2 (e - 52)
      some (divRoundEven n (d * unit) * unit)
    else
      let parts := Nat.pow 2 (52 - e)
      let m := divRoundEven (n * parts) d
      if m % parts = 0 then some (m / parts) else none
  else if Nat.pow 2 54 * (d - n) ≤ d then some 1
  else if Nat.pow 2 1075 * n ≤ d then some 0
  else none

end TableTypes
