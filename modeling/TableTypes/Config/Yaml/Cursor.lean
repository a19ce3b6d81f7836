import TableTypes.Text.Basic

/-!
# Places in a YAML document

What is left of a document at some place, and where that place is.  Lines end with a newline, with
the next-line character or with a separator of lines or paragraphs; a byte order mark takes no
column.
-/

namespace TableTypes.Yaml

open Text

/-! ### Line breaks -/

/-- Whether `c` ends a line. -/
def isBreak (c : Char) : Bool :=
  c = '\n' || c = '\u0085' || c = '\u2028' || c = '\u2029'

/-- Whether `c` is a space or a tab. -/
def isGap (c : Char) : Bool :=
  c = ' ' || c = '\t'

/-- Whether the text begins with a space or a line break, or is at its end. -/
def endsField (t : Text) : Bool :=
  t.head?.all fun c => c = ' ' || isBreak c

/-- Whether the text begins with a space, a tab or a line break, or is at its end. -/
def endsWord (t : Text) : Bool :=
  t.head?.all fun c => isGap c || isBreak c

/-- Whether three dashes or three points that separate documents stand at the front of a line. -/
def atMarker (line : Text) : Bool :=
  (after? "---".toList line <|> after? "...".toList line).any endsWord

/-- Whether `c` may stand in the name of an anchor, of a tag or of a directive. -/
def isNameChar (c : Char) : Bool :=
  isAsciiLetter c || isAsciiDigit c || c = '-' || c = '_'

/-! ### Cursors -/

/-- A place in a document: the text from there on, and the numbers of characters, of lines, and of
characters on its line before it. -/
structure Cursor where
  rest : Text
  index : Nat
  line : Nat
  column : Nat
  deriving DecidableEq, Repr

namespace Cursor

/-- The place behind the next character. -/
def next (c : Cursor) : Cursor :=
  match c.rest with
  | [] => c
  | a :: t =>
    if isBreak a then ⟨t, c.index + 1, c.line + 1, 0⟩
    else ⟨t, c.index + 1, c.line, if a = '\ufeff' then c.column else c.column + 1⟩

/-- The place behind the next `n` characters. -/
def drop : Nat → Cursor → Cursor
  | 0, c => c
  | n + 1, c => drop n c.next

/-- The characters from here on that satisfy `p`, and the place behind them. -/
def span (p : Char → Bool) (c : Cursor) : Text × Cursor :=
  let run := c.rest.takeWhile p
  (run, c.drop run.length)

/-- The place behind the spaces from here on. -/
def dropSpaces (c : Cursor) : Cursor :=
  (c.span (· = ' ')).2

/-- The place at the end of the line. -/
def dropLine (c : Cursor) : Cursor :=
  (c.span (!isBreak ·)).2

/-- The beginning of the next line, if there is nothing on this one but spaces and a comment. -/
def nextLine? (c : Cursor) : Option Cursor :=
  let c := c.dropSpaces
  let c := if c.rest.head? = some '#' then c.dropLine else c
  if c.rest.head?.all isBreak then some c.next else none

end Cursor

end TableTypes.Yaml
