import TableTypes.Text.Search

/-!
# String literals of comments

A comment is written in quotes.  A quote inside is doubled or stands behind a backslash.  Table
options and columns do not read a literal in quite the same way: `optionLiteral?` refuses a
backslash in front of a newline, `columnLiteral?` takes a backslash for an ordinary character when
the literal could not be closed otherwise.
-/

namespace TableTypes

open Text

/-- The body of a literal in single quotes, behind its opening quote, and what follows its closing
quote.  A backslash takes the character after it along, which must not be a newline.  Two quotes in
a row belong to the body if it can be closed behind them. -/
def optionLiteral? : Text → Option (Text × Text)
  | [] => none
  | '\'' :: '\'' :: t =>
    match optionLiteral? t with
    | some (body, rest) => some ('\'' :: '\'' :: body, rest)
    | none => some ([], '\'' :: t)
  | '\'' :: t => some ([], t)
  | ['\\'] => none
  | '\\' :: c :: t =>
    if c = '\n' then none else (optionLiteral? t).map fun r => ('\\' :: c :: r.1, r.2)
  | c :: t => (optionLiteral? t).map fun r => (c :: r.1, r.2)

/-- The body of a literal between quotes `q`, behind its opening quote.  Two quotes in a row belong
to the body, and a backslash takes the character after it along, if a quote follows them that can
close the literal. -/
def columnLiteral? (q : Char) : Text → Option Text
  | [] => none
  | [c] => if c = q then some [] else none
  | c :: d :: t =>
    if c = q then
      if d = q && t.contains q then (columnLiteral? q t).map (q :: q :: ·) else some []
    else if c = '\\' && t.contains q then (columnLiteral? q t).map (c :: d :: ·)
    else (columnLiteral? q (d :: t)).map (c :: ·)

/-- The content that the body of a literal between quotes `q` spells: first each doubled quote is
written once, then the backslash is taken from each escaped quote. -/
def unescape (q : Char) (body : Text) : Text :=
  replace "\\\"".toList ['"'] (replace "\\'".toList ['\''] (replace [q, q] [q] body))

end TableTypes
