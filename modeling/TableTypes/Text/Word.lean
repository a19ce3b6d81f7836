import TableTypes.Text.Blank
import TableTypes.Text.WordTable

/-!
# Word characters

A word is a run of letters, numbers and underscores of any script; a numeral is a run of decimal
digits of any script.
-/

namespace TableTypes.Text

/-- Whether `c` is a letter, a number or an underscore. -/
def isWord (c : Char) : Bool :=
  if c.toNat < 0x80 then isAsciiLetter c || isAsciiDigit c || c = '_'
  else inRanges c.toNat alphanumericRanges

/-- Whether `c` is a decimal digit. -/
def isDecimal (c : Char) : Bool :=
  if c.toNat < 0x80 then isAsciiDigit c else inRanges c.toNat decimalRanges

/-- The value of a decimal digit.  The digits of a script stand together, from its zero on. -/
def decimalValue? (c : Char) : Option Nat :=
  if isAsciiDigit c then some (c.toNat - 48)
  else if c.toNat < 0x80 then none
  else (rangeOf? c.toNat decimalRanges).map fun range => (c.toNat - range.1) % 10

/-- Whether a name may begin with `c`: whether it is a letter or an underscore. -/
def isInitial (c : Char) : Bool :=
  if c.toNat < 0x80 then isAsciiLetter c || c = '_'
  else
    (isWord c && !inRanges c.toNat nonInitialRanges) || inRanges c.toNat otherInitialRanges

/-- The word at the front of the text, which must not be empty, and what follows it. -/
def word? (t : Text) : Option (Text × Text) :=
  match t.takeWhile isWord with
  | [] => none
  | w => some (w, t.dropWhile isWord)

/-- Whether no word goes on at the front of the text. -/
def atWordEnd (t : Text) : Bool :=
  t.head?.all fun c => !isWord c

/-- Whether a word may begin behind the character `before`. -/
def atWordStart (before : Option Char) : Bool :=
  before.all fun c => !isWord c

end TableTypes.Text
