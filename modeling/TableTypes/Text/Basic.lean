/-!
# Text as a list of characters

A text is a list of Unicode code points, and every position or length counts code points.  This
file holds the list operations that the rest of the library is written in: cutting, literal
search, replacement, and digits.
-/

namespace TableTypes

/-- A text is the list of its characters. -/
abbrev Text := List Char

namespace Text

/-! ### Cutting -/

/-- The part of `t` from position `start` up to, and not including, position `stop`. -/
def slice (t : Text) (start stop : Nat) : Text :=
  (t.drop start).take (stop - start)

/-- The suffix of `t` that is as long as `r`. -/
def suffixLike (t r : Text) : Text :=
  t.drop (t.length - r.length)

/-- The part of `t` that stands where the suffix `first` of a text of the same length gives way to
its suffix `last`. -/
def between (t first last : Text) : Text :=
  t.slice (t.length - first.length) (t.length - last.length)

/-- `t` without the longest run of characters at its end that satisfy `p`. -/
def dropEndWhile (p : Char → Bool) (t : Text) : Text :=
  (t.reverse.dropWhile p).reverse

/-- `t` without the characters satisfying `p` at either end. -/
def trim (p : Char → Bool) (t : Text) : Text :=
  dropEndWhile p (t.dropWhile p)

/-- The number of newlines in `t`. -/
def newlines (t : Text) : Nat :=
  t.count '\n'

/-! ### Literal words -/

/-- What follows the literal `w` at the front of the text, when it stands there. -/
def after? : Text → Text → Option Text
  | [], t => some t
  | _ :: _, [] => none
  | w :: ws, c :: t => if w = c then after? ws t else none

/-- Whether the literal `w` occurs anywhere in the text. -/
def occursIn (w : Text) : Text → Bool
  | [] => w.isEmpty
  | c :: t => (after? w (c :: t)).isSome || occursIn w t

/-- Whether `t` ends with the literal `w`. -/
def endsWith (w t : Text) : Bool :=
  (after? w.reverse t.reverse).isSome

/-! ### Order -/

/-- Whether `s` is `t` or comes before it in the order of their characters. -/
def precedes : Text → Text → Bool
  | [], _ => true
  | _ :: _, [] => false
  | a :: s, b :: t => a < b || (a = b && precedes s t)

/-! ### Joining and splitting -/

/-- The parts with `separator` between each two neighbours. -/
def join (separator : Text) (parts : List Text) : Text :=
  separator.intercalate parts

/-- The parts of a text between the characters equal to `separator`; there is always at least
one part. -/
def splitOnChar (separator : Char) : Text → List Text
  | [] => [[]]
  | c :: t =>
    if c = separator then [] :: splitOnChar separator t
    else
      match splitOnChar separator t with
      | [] => [[c]]
      | p :: ps => (c :: p) :: ps

/-! ### Numerals -/

/-- The decimal numeral of a natural number. -/
def ofNat (n : Nat) : Text :=
  Nat.toDigits 10 n

/-- The decimal numeral of an integer, with a minus sign in front of a negative one. -/
def ofInt : Int → Text
  | .ofNat n => ofNat n
  | .negSucc n => '-' :: ofNat (n + 1)

/-- Whether `c` is one of the ten ASCII digits. -/
def isAsciiDigit (c : Char) : Bool :=
  '0' ≤ c && c ≤ '9'

/-- Whether `c` is a hexadecimal digit. -/
def isHexDigit (c : Char) : Bool :=
  isAsciiDigit c || ('a' ≤ c && c ≤ 'f') || ('A' ≤ c && c ≤ 'F')

/-- The value of a hexadecimal digit. -/
def hexValue (c : Char) : Nat :=
  if isAsciiDigit c then c.toNat - 48 else if 'a' ≤ c then c.toNat - 87 else c.toNat - 55

/-- Whether the text is made of digits with single underscores between them. -/
def isGrouped (isDigit : Char → Bool) (t : Text) : Bool :=
  (splitOnChar '_' t).all fun group => !group.isEmpty && group.all isDigit

/-- Whether `c` is an ASCII letter. -/
def isAsciiLetter (c : Char) : Bool :=
  ('a' ≤ c && c ≤ 'z') || ('A' ≤ c && c ≤ 'Z')

/-- The number written by a list of ASCII digits, most significant first. -/
def digitsToNat (t : Text) : Nat :=
  t.foldl (fun n c => 10 * n + (c.toNat - 48)) 0

end Text

end TableTypes
