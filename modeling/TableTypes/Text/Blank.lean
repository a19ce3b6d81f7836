import TableTypes.Text.Basic

/-!
# Blank characters

The white space of Unicode together with the four information separators U+001C to U+001F.  Zero
width characters such as U+200B and U+FEFF are not blank.  `dropBlanks1?` is the separator that
two words of a phrase need.
-/

namespace TableTypes.Text

/-- Whether `c` is white space or an information separator. -/
def isBlank (c : Char) : Bool :=
  let n := c.toNat
  n == 0x20 || (0x09 ≤ n && n ≤ 0x0d) || (0x1c ≤ n && n ≤ 0x1f) || n == 0x85 || n == 0xa0 ||
    n == 0x1680 || (0x2000 ≤ n && n ≤ 0x200a) || n == 0x2028 || n == 0x2029 || n == 0x202f ||
    n == 0x205f || n == 0x3000

/-- `t` from its first character that is not blank. -/
def dropBlanks (t : Text) : Text :=
  t.dropWhile isBlank

/-- `t` without the blanks in front, of which there must be at least one. -/
def dropBlanks1? : Text → Option Text
  | [] => none
  | c :: t => if isBlank c then some (dropBlanks t) else none

/-- `t` without the blanks at either end. -/
def strip (t : Text) : Text :=
  trim isBlank t

/-- Whether `t` holds nothing but blanks. -/
def isAllBlank (t : Text) : Bool :=
  t.all isBlank

/-- `t` with each run of blanks written as one space. -/
def collapseBlanks : Text → Text
  | [] => []
  | [c] => if isBlank c then [' '] else [c]
  | c :: d :: t =>
    if isBlank c then
      if isBlank d then collapseBlanks (d :: t) else ' ' :: collapseBlanks (d :: t)
    else c :: collapseBlanks (d :: t)

end TableTypes.Text
