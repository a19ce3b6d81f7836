import TableTypes.Scan

/-!
# Masking

A masked text is as long as the text it is made from, so that a position in the one is the same
position in the other.  Masking comments leaves newlines, masking quoted text leaves the quotes.
-/

namespace TableTypes

/-- The text with every character of a comment, newlines excepted, written as a space. -/
def maskComments (t : Text) : Text :=
  (scan true t).map fun m => if m.isComment && m.char ≠ '\n' then ' ' else m.char

/-- Whether the mark is of a character inside quotes; the quote character that delimits the text
it stands in does not count. -/
def Mark.isQuotedContent (m : Mark) : Bool :=
  match m.region with
  | .quoted q => m.char ≠ q.char
  | _ => false

/-- The text with every character inside quotes written as `filler`. -/
def maskQuotedWith (filler t : Text) : Text :=
  (scan false t).flatMap fun m => if m.isQuotedContent then filler else [m.char]

/-- The text with every character inside quotes written as a space. -/
def maskQuoted (t : Text) : Text :=
  maskQuotedWith [' '] t

end TableTypes
