import TableTypes.Text.Blank

/-!
# Numbers written as text

A limit may be written as text.  Within white space stands a *plain numeral*, which is an optional
minus sign and digits without a zero in front, or a *loose* one, which may have in addition a plus
sign, zeros in front, single underscores between its digits, and a point with zeros behind it.
-/

namespace TableTypes

open Text

/-- Why a text is no numeral. -/
inductive NumeralFault where
  | malformed
  | tooLong
  deriving DecidableEq, Repr

/-- Whether `c` is white space; the information separators, though blank, are not. -/
def isWhiteSpace (c : Char) : Bool :=
  isBlank c && !(0x1c ≤ c.toNat && c.toNat ≤ 0x1f)

/-- The greatest number of digits. -/
def maxDigits : Nat := 4300

/-- The integer that a plain numeral spells. -/
def plainInteger (t : Text) : Except NumeralFault Int :=
  let unsigned := (after? ['-'] t).getD t
  let digits := unsigned.takeWhile isAsciiDigit
  if digits.isEmpty || (digits.head? = some '0' && digits ≠ ['0']) then .error .malformed
  else if maxDigits < digits.length then .error .tooLong
  else if digits ≠ unsigned then .error .malformed
  else .ok (if t = unsigned then digitsToNat digits else -digitsToNat digits)

/-! ### Loose numerals -/

/-- The text without a plus sign in front, which no minus sign may follow. -/
def dropPlus? : Text → Option Text
  | '+' :: '-' :: _ => none
  | '+' :: t => some t
  | t => some t

/-- The numeral from its first digit other than zero, or from its minus sign.  Behind the zero
`before` zeros and underscores are left out, but for the last before a point or the end. -/
def dropZerosAfter? (before : Char) : Text → Option Text
  | [] => some [before]
  | c :: t =>
    if c = '0' || c = '_' then dropZerosAfter? c t
    else if isAsciiDigit c || c = '-' then some (c :: t)
    else if c = '.' then some (before :: c :: t)
    else none

/-- The numeral without the zeros in front. -/
def dropZeros? : Text → Option Text
  | [] => none
  | c :: t =>
    if c = '0' then dropZerosAfter? c t
    else if isAsciiDigit c || c = '-' then some (c :: t)
    else none

/-- The text without a point and the zeros behind it, of which there must be one. -/
def dropZeroFraction (t : Text) : Text :=
  match t.dropWhile (· ≠ '.') with
  | '.' :: zero :: zeros =>
    if (zero :: zeros).all (· = '0') then t.takeWhile (· ≠ '.') else t
  | _ => t

/-- The text without its underscores, which may stand neither at its ends nor side by side. -/
def dropUnderscores? (t : Text) : Option Text :=
  if (splitOnChar '_' t).any List.isEmpty then none else some (t.filter (· ≠ '_'))

/-- The plain numeral that a loose one stands for. -/
def plainNumeral? (t : Text) : Option Text := do
  let t ← dropPlus? t
  let t ← dropZeros? t
  dropUnderscores? (dropZeroFraction t)

/-- The integer that a text spells. -/
def integerOfText (t : Text) : Except NumeralFault Int :=
  let t := trim isWhiteSpace t
  match plainInteger t with
  | .error .malformed => ((plainNumeral? t).map plainInteger).getD (.error .malformed)
  | r => r

end TableTypes
