import TableTypes.Identifier
import TableTypes.Scan.Mask
import TableTypes.Schema
import TableTypes.Text.Keyword

/-!
# Reading table constraints

Each kind of constraint is looked for by itself in the whole list of definitions, with comments
and quoted text masked.  A constraint begins at the start of the list, behind a blank or behind a
comma.  Names and column lists are cut from the list itself at the place where they were found.
-/

namespace TableTypes

open Text

/-! ### Pieces -/

/-- A column list: what the text goes on with at its first character and behind its last. -/
abbrev ListSpan := Text × Text

/-- The places where a constraint may begin at this position of the list, `before` being the
character before it. -/
def constraintStarts (before : Option Char) (t : Text) : List Text :=
  (if before.isNone then [dropBlanks t] else []) ++
    match t with
    | c :: r => if c = ',' || isBlank c then [dropBlanks r] else []
    | [] => []

/-- What a name with its quotes leaves of the text it begins. -/
def quotedName? (t : Text) : Option (ListSpan × Text) :=
  (NameSpan.read? t).map fun s => ((t, s.rest), s.rest)

/-- The words that cannot name a constraint. -/
def reservedNames : List (List Text) :=
  [["check".toList], ["references".toList], ["not".toList], ["null".toList],
    ["default".toList], ["constraint".toList], ["primary".toList], ["foreign".toList],
    ["key".toList], ["index".toList], ["using".toList]]

/-- A name that is not a reserved word. -/
def constraintName? (t : Text) : Option (ListSpan × Text) :=
  if (anyPhrase? reservedNames t).isSome then none else quotedName? t

/-- The column list in parentheses behind blanks. -/
def columnList? (t : Text) : Option (ListSpan × Text) :=
  (parenthesized? (dropBlanks t)).map fun (first, last, rest) => ((first, last), rest)

/-- The name given by `CONSTRAINT name` in front of a constraint, if there is one, and what
follows.  A word `CONSTRAINT` that gives no name is left in place. -/
def constraintLabel (t : Text) : Option ListSpan × Text :=
  let label? := do
    let r ← (keyword? "constraint".toList t).bind dropBlanks1?
    let (name, r) ← quotedName? r
    let r ← dropBlanks1? r
    return (some name, r)
  label?.getD (none, t)

/-! ### The four kinds -/

/-- A constraint as it was found, before its parts are cut out. -/
structure ConstraintSpan where
  columns : ListSpan
  /-- The table and the columns that are referred to. -/
  reference : Option (ListSpan × ListSpan)
  name : Option ListSpan

/-- `[CONSTRAINT name] PRIMARY KEY (columns)`. -/
def primaryKeySpan? (t : Text) : Option (ConstraintSpan × Text) := do
  let (label, r) := constraintLabel t
  let r ← phrase? ["primary".toList, "key".toList] r
  let (columns, rest) ← columnList? r
  return (⟨columns, none, label⟩, rest)

/-- `[CONSTRAINT name] FOREIGN KEY (columns) REFERENCES table (columns)`. -/
def foreignKeySpan? (t : Text) : Option (ConstraintSpan × Text) := do
  let (label, r) := constraintLabel t
  let r ← phrase? ["foreign".toList, "key".toList] r
  let (columns, r) ← columnList? r
  let r ← (keyword? "references".toList (dropBlanks r)).bind dropBlanks1?
  let (table, r) ← quotedName? r
  let (target, rest) ← columnList? r
  return (⟨columns, some (table, target), label⟩, rest)

/-- An optional name behind blanks and a column list; with `named` set, the name must be there. -/
def namedList? (named : Bool) (t : Text) : Option (Option ListSpan × ListSpan × Text) :=
  if named then do
    let (name, r) ← (dropBlanks1? t).bind constraintName?
    let (columns, rest) ← columnList? r
    return (some name, columns, rest)
  else
    (columnList? t).map fun (columns, rest) => (none, columns, rest)

/-- `[CONSTRAINT name] UNIQUE [KEY | INDEX] [name] (columns)`.  The words are read as far as
possible: `KEY` as a keyword before it is tried as the beginning of a name. -/
def uniqueSpan? (t : Text) : Option (ConstraintSpan × Text) := do
  let (label, r) := constraintLabel t
  let r ← keyword? "unique".toList r
  let behindKey := (dropBlanks1? r).bind fun s =>
    keyword? "key".toList s <|> keyword? "index".toList s
  let (name, columns, rest) ←
    behindKey.bind (namedList? true) <|> behindKey.bind (namedList? false) <|>
      namedList? true r <|> namedList? false r
  return (⟨columns, none, name <|> label⟩, rest)

/-- `[UNIQUE | PRIMARY | FOREIGN] (KEY | INDEX) name (columns)`, with the information whether one of
the words in front is there. -/
def indexSpan? (t : Text) : Option ((Bool × ConstraintSpan) × Text) := do
  let qualified := (["unique", "primary", "foreign"].findSome? fun w =>
    keyword? w.toList t).bind dropBlanks1?
  let r := qualified.getD t
  let r ← keyword? "key".toList r <|> keyword? "index".toList r
  let (name, columns, rest) ← namedList? true r
  return ((qualified.isSome, ⟨columns, none, name⟩), rest)

/-! ### All constraints -/

/-- Every constraint that `read` finds in the masked list. -/
def constraintSpans {α : Type} (read : Text → Option (α × Text)) (masked : Text) : List α :=
  findAll (fun before s => (constraintStarts before s).findSome? read) masked

/-- The constraint of the kind that a span cuts out of the list.  A constraint without columns, or
with a reference without columns, is none. -/
def ConstraintSpan.constraint? (s : ConstraintSpan) (kind : TableConstraintKind) (t : Text) :
    Option TableConstraint :=
  let cut (span : ListSpan) := between t span.1 span.2
  let columns := identifierList (cut s.columns)
  let name := s.name.map fun span => unquoteIdentifier (cut span)
  if columns.isEmpty then none
  else
    match s.reference with
    | none => some ⟨kind, columns, none, name⟩
    | some (table, target) =>
      let targets := identifierList (cut target)
      if targets.isEmpty then none
      else some ⟨kind, columns, some ⟨unquoteIdentifier (cut table), targets⟩, name⟩

/-- The table constraints of a list of definitions: primary keys, foreign keys, unique keys and
indexes, each kind in the order of its occurrence.  A key with `UNIQUE`, `PRIMARY` or `FOREIGN` in
front is no index. -/
def tableConstraints (definitions : Text) : List TableConstraint :=
  let t := maskComments definitions
  let masked := maskQuoted t
  (constraintSpans primaryKeySpan? masked).filterMap (·.constraint? .primaryKey t) ++
    (constraintSpans foreignKeySpan? masked).filterMap (·.constraint? .foreignKey t) ++
    (constraintSpans uniqueSpan? masked).filterMap (·.constraint? .unique t) ++
    ((constraintSpans indexSpan? masked).filter (!·.1)).filterMap (·.2.constraint? .index t)

end TableTypes
