import TableTypes.Text.Word

/-!
# Identifiers of SQL

A name is written between backticks, between double quotes, or bare as one word.
-/

namespace TableTypes

open Text

/-- A name at the front of a text.  `start` and `stop` are what the text goes on with at the first
character of the name and behind its last, quotes left out; `rest` follows the name with its
quotes. -/
structure NameSpan where
  start : Text
  stop : Text
  rest : Text

namespace NameSpan

/-- The name itself. -/
def name (s : NameSpan) : Text :=
  s.start.between s.start s.stop

/-- What stands at the place of the name in a text of the same length as the one it was read
in. -/
def nameIn (s : NameSpan) (t : Text) : Text :=
  t.between s.start s.stop

/-- The nonempty name that goes on until the character `q`. -/
def untilQuote? (q : Char) (t : Text) : Option NameSpan :=
  match t.dropWhile (· ≠ q) with
  | _ :: rest =>
    if t.head? = some q then none else some ⟨t, t.dropWhile (· ≠ q), rest⟩
  | [] => none

/-- The name at the front of the text. -/
def read? : Text → Option NameSpan
  | [] => none
  | c :: t =>
    if c = '\x60' || c = '"' then untilQuote? c t
    else
      (word? (c :: t)).map fun w => ⟨c :: t, w.2, w.2⟩

end NameSpan

/-- Whether `c` may stand around an identifier. -/
def isIdentifierQuote (c : Char) : Bool :=
  c = '\x60' || c = '"' || c = '\''

/-- The identifier without the pair of equal quotes around it and without blanks on either side of
them. -/
def unquoteIdentifier (t : Text) : Text :=
  let s := strip t
  match s with
  | q :: c :: rest =>
    if isIdentifierQuote q && (c :: rest).getLast? = some q then strip (c :: rest).dropLast
    else s
  | _ => s

/-- The names of a list between commas, without their quotes; empty ones are left out. -/
def identifierList (t : Text) : List Text :=
  ((splitOnChar ',' t).map unquoteIdentifier).filter (!·.isEmpty)

/-- The part of the text from behind the parenthesis at its front to before the next closing one,
as what the text goes on with at its start and at its end, and what follows the parenthesis.  The
part must not be empty. -/
def parenthesized? : Text → Option (Text × Text × Text)
  | '(' :: t =>
    match t.dropWhile (· ≠ ')') with
    | _ :: rest => if t.head? = some ')' then none else some (t, t.dropWhile (· ≠ ')'), rest)
    | [] => none
  | _ => none

end TableTypes
