import TableTypes.Text.Blank
import TableTypes.Text.Search

/-!
# Layout of code

Code is written without blanks at the ends of its lines, without two blank lines in a row, with an
empty body as two braces, and with one newline at its end.
-/

namespace TableTypes

open Text

/-- Whether `c` is a space or a tab. -/
def isSpacing (c : Char) : Bool :=
  c = ' ' || c = '\t'

/-- The text without the spaces and tabs at the end of each line. -/
def trimLines (t : Text) : Text :=
  join ['\n'] ((splitOnChar '\n' t).map (dropEndWhile isSpacing))

/-- What follows a run of three newlines or more. -/
def blankLines? (t : Text) : Option Text :=
  (after? ['\n', '\n', '\n'] t).map (·.dropWhile (· = '\n'))

/-- What follows a pair of braces with nothing but blanks, a newline among them, between them. -/
def emptyBody? : Text → Option Text
  | '\x7b' :: t =>
    match dropBlanks t with
    | '\x7d' :: rest => if (t.takeWhile isBlank).contains '\n' then some rest else none
    | _ => none
  | _ => none

/-- The code in its final layout. -/
def formatCode (code : Text) : Text :=
  strip (replaceAll emptyBody? ['\x7b', '\x7d']
    (replaceAll blankLines? ['\n', '\n'] (trimLines code))) ++ ['\n']

end TableTypes
