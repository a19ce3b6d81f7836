import TableTypes.Text.Blank

/-!
# Cleaning text

Line ends are written as newlines and control characters are removed; tabs, newlines and carriage
returns are not counted among the control characters.
-/

namespace TableTypes.Text

/-- Whether `c` is an ASCII control character other than tab, newline and carriage return. -/
def isControl (c : Char) : Bool :=
  let n := c.toNat
  n ≤ 0x08 || n = 0x0b || n = 0x0c || (0x0e ≤ n && n ≤ 0x1f) || n = 0x7f

/-- The text without its control characters. -/
def dropControls (t : Text) : Text :=
  t.filter (!isControl ·)

/-- The text with every line end, whether a carriage return, a newline or both, written as one
newline. -/
def unifyNewlines : Text → Text
  | [] => []
  | '\r' :: '\n' :: t => '\n' :: unifyNewlines t
  | c :: t => (if c = '\r' then '\n' else c) :: unifyNewlines t

/-- The text that is parsed: with newlines only, and without control characters. -/
def cleaned (t : Text) : Text :=
  dropControls (unifyNewlines t)

/-- The line, counted from one, that holds a position of the text; a position outside the text
counts as on the first line. -/
def lineAt (t : Text) (position : Int) : Nat :=
  if position < 0 || (t.length : Int) ≤ position then 1
  else newlines (t.take position.toNat) + 1

end TableTypes.Text
