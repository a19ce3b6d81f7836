import TableTypes.Identifier
import TableTypes.Text.Keyword

/-!
# The parts of a column definition

A definition is a name, a type and the attributes behind it.  The type is a word with everything
that belongs to it:

```
WORD [PRECISION | VARYING] [(arguments)] [WITH TIME ZONE | WITHOUT TIME ZONE]
  [n]... [UNSIGNED | SIGNED | ZEROFILL]...
```

The arguments stand directly behind the word and go on to the next closing parenthesis.
-/

namespace TableTypes

open Text

/-- A column definition cut into its parts. -/
structure ColumnDefinition where
  name : Text
  type : Text
  attributes : Text
  deriving DecidableEq, Repr

/-! ### The parts of a type -/

/-- What follows `read` where it succeeds at the front of the text, else the text itself. -/
def skip (read : Text → Option Text) (t : Text) : Text :=
  (read t).getD t

/-- What follows blanks and one of the phrases as whole words. -/
def spacedPhrase? (phrases : List (List Text)) (t : Text) : Option Text :=
  (dropBlanks1? t).bind (anyPhrase? phrases)

/-- What follows an argument list up to its next closing parenthesis. -/
def arguments? : Text → Option Text
  | '(' :: t => (t.dropWhile (· ≠ ')')).tail?
  | _ => none

/-- What follows a pair of brackets with digits or nothing between them. -/
def arrayBounds? (t : Text) : Option Text :=
  match dropBlanks t with
  | '[' :: r =>
    match r.dropWhile isDecimal with
    | ']' :: rest => some rest
    | _ => none
  | _ => none

/-- What follows the type at the front of the text. -/
def afterType? (t : Text) : Option Text := do
  let (_, r) ← word? t
  let r := skip (spacedPhrase? [["precision".toList], ["varying".toList]]) r
  let r := skip arguments? r
  let r := skip (spacedPhrase? [["with".toList, "time".toList, "zone".toList],
    ["without".toList, "time".toList, "zone".toList]]) r
  let r := (many (fun s => (arrayBounds? s).map ((), ·)) r).2
  let sign := spacedPhrase? [["unsigned".toList], ["signed".toList], ["zerofill".toList]]
  return (many (fun s => (sign s).map ((), ·)) r).2

/-! ### The definition -/

/-- The parts of a definition without blanks around it. -/
def ColumnDefinition.read? (t : Text) : Option ColumnDefinition := do
  let name ← NameSpan.read? t
  let r ← dropBlanks1? name.rest
  let rest ← afterType? r
  return ⟨strip name.name, between r r rest, dropBlanks rest⟩

/-- The phrases that begin a constraint of the table. -/
def tableLevelPhrases : List (List Text) :=
  [["primary".toList, "key".toList], ["foreign".toList, "key".toList], ["unique".toList],
    ["index".toList], ["key".toList], ["constraint".toList], ["check".toList]]

/-- Whether a definition is that of a table constraint and not of a column. -/
def isTableLevel (t : Text) : Bool :=
  (anyPhrase? tableLevelPhrases (dropBlanks t)).isSome

end TableTypes
