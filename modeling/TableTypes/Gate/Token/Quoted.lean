import TableTypes.Text.Blank
import TableTypes.Text.Word

/-!
# Quoted text

What stands between quotes: a quote inside is doubled or, in a string, behind a backslash.  The
content of a binary or hexadecimal literal must be a number, or empty.
-/

namespace TableTypes.Token

open Text

/-! ### Escapes -/

/-- The control characters that a letter behind a backslash stands for. -/
def controlEscapes : List (Char × Char) :=
  [('0', '\x00'), ('b', '\x08'), ('n', '\n'), ('r', '\r'), ('t', '\t'), ('Z', '\x1a')]

/-- What a backslash in front of `c` stands for.  In front of the wildcards `%` and `_` it stays. -/
def unescaped (c : Char) : Text :=
  if c = '%' || c = '_' then ['\\', c] else [(controlEscapes.lookup c).getD c]

/-- The text up to the quote `q` that closes it, and what follows.  Backslashes begin escapes if
`escapes` is set. -/
def quoted? (q : Char) (escapes : Bool) : Text → Option (Text × Text)
  | [] => none
  | [c] => if c = q then some ([], []) else none
  | c :: d :: t =>
    if c = q then
      if d = q then (quoted? q escapes t).map fun r => (q :: r.1, r.2) else some ([], d :: t)
    else if escapes && c = '\\' then
      (quoted? q escapes t).map fun r => (unescaped d ++ r.1, r.2)
    else (quoted? q escapes (d :: t)).map fun r => (c :: r.1, r.2)

/-! ### Binary and hexadecimal literals -/

/-- The text in ASCII: blanks above ASCII as spaces, decimal digits of any script as ASCII digits;
`none` if there is any other character above ASCII. -/
def toAscii? (t : Text) : Option Text :=
  t.mapM fun c =>
    if c.toNat < 0x80 then some c
    else if isBlank c then some ' '
    else (decimalValue? c).map fun n => Char.ofNat (48 + n)

/-- Whether `c` is a space or one of the control characters from tab to carriage return. -/
def isAsciiSpace (c : Char) : Bool :=
  c = ' ' || (0x09 ≤ c.toNat && c.toNat ≤ 0x0d)

/-- The text without the sign in front. -/
def dropSign : Text → Text
  | c :: t => if c = '+' || c = '-' then t else c :: t
  | [] => []

/-- The text without `0` and the letter of a radix in front, and an underscore behind them. -/
def dropRadix (radix : Char) : Text → Text
  | '0' :: c :: t => if c.toLower = radix then (after? ['_'] t).getD t else '0' :: c :: t
  | t => t

/-- Whether the text is a number in the digits of a radix: within spaces, an optional sign, an
optional `0` with the letter of the radix, and digits. -/
def isNumber (radix : Char) (isDigit : Char → Bool) (t : Text) : Bool :=
  (toAscii? t).any fun t =>
    isGrouped isDigit (dropRadix radix (dropSign (trim isAsciiSpace t)))

/-- Whether the content of a literal behind the letter may stand there. -/
def isLiteralContent (letter : Char) (t : Text) : Bool :=
  match letter.toLower with
  | 'b' => t.isEmpty || isNumber 'b' (fun c => c = '0' || c = '1') t
  | 'x' => t.isEmpty || isNumber 'x' isHexDigit t
  | _ => true

end TableTypes.Token
