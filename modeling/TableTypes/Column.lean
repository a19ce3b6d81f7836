import TableTypes.Column.Default
import TableTypes.Column.Definition
import TableTypes.Fault
import TableTypes.Literal
import TableTypes.Scan.Delimiters
import TableTypes.Scan.Split
import TableTypes.Schema
import TableTypes.Source

/-!
# Reading columns

The attributes behind the type of a column are looked for one by one, wherever they stand.  Words
inside quotes are no attributes, so keywords are searched in the masked text; values are cut from
the text itself at the same place.
-/

namespace TableTypes

open Text

/-! ### Attributes -/

/-- Whether a column with these attributes may hold no value: neither `NOT NULL` nor
`PRIMARY KEY` is among them. -/
def isNullable (attributes : Text) : Bool :=
  let masked := maskQuoted attributes
  !hasPhrase ["not".toList, "null".toList] masked &&
    !hasPhrase ["primary".toList, "key".toList] masked

/-- The comment among the attributes.  An empty comment is no comment. -/
def columnComment? (attributes : Text) : Option Text :=
  (find? (fun before s =>
      if atWordStart before then
        match (keyword? "comment".toList s).bind dropBlanks1? with
        | some (q :: t) =>
          if q = '\'' || q = '"' then (columnLiteral? q t).map (q, ·) else none
        | _ => none
      else none)
    attributes).bind fun (q, body) => if body.isEmpty then none else some (unescape q body)

/-- The reference to another table among the attributes, as `table(columns)`. -/
def references? (attributes : Text) : Option Text :=
  (find? (fun before s =>
      if atWordStart before then do
        let r ← (keyword? "references".toList s).bind dropBlanks1?
        let table ← NameSpan.read? r
        let (first, last, _) ← parenthesized? (dropBlanks table.rest)
        return strip (table.nameIn attributes) ++ ['('] ++
          strip (between attributes first last) ++ [')']
      else none)
    (maskQuoted attributes))

/-- The predicate of the first check among the attributes, when its parentheses are closed and not
empty. -/
def checkPredicate? (attributes : Text) : Option Text :=
  (find? (fun before s =>
      if atWordStart before then
        match (keyword? "check".toList s).map dropBlanks with
        | some ('(' :: t) => some ('(' :: t)
        | _ => none
      else none)
    (maskQuoted attributes)).bind fun r =>
      let source := suffixLike attributes r
      (closing? source).bind fun width =>
        let predicate := strip (slice source 1 width)
        if predicate.isEmpty then none else some predicate

/-- The constraints among the attributes, in the order primary key, unique, auto increment, foreign
key, check. -/
def columnConstraints (attributes : Text) : List ColumnConstraint :=
  let masked := maskQuoted attributes
  let flag (kind : ColumnConstraintKind) (phrases : List (List Text)) : List ColumnConstraint :=
    if phrases.any (hasPhrase · masked) then [⟨kind, none⟩] else []
  let valued (kind : ColumnConstraintKind) (value : Option Text) : List ColumnConstraint :=
    (value.map fun v => ⟨kind, some v⟩).toList
  flag .primaryKey [["primary".toList, "key".toList]] ++
    flag .unique [["unique".toList]] ++
    flag .autoIncrement [["auto_increment".toList], ["autoincrement".toList]] ++
    valued .foreignKey (references? attributes) ++
    valued .check (checkPredicate? attributes)

/-! ### Columns -/

/-- The column that a definition declares. -/
def ColumnDefinition.column (d : ColumnDefinition) : Column where
  name := d.name
  type := d.type
  nullable := isNullable d.attributes
  default := defaultValue? d.attributes
  constraints := columnConstraints d.attributes
  comment := columnComment? d.attributes

/-- The column of a definition without blanks around it. -/
def Column.read (definition : Text) : Except ParseCause Column :=
  if isTableLevel definition then .error .constraintAsColumn
  else
    match ColumnDefinition.read? definition with
    | none => .error (.unreadableColumn definition)
    | some d => if d.name.isEmpty then .error (.namelessColumn definition) else .ok d.column

/-- The column of a source that stands on a line. -/
def Column.parse (definition : Source) (line : Option Nat) : Except ParseError Column :=
  match definition.solid? with
  | none => .error (ParseCause.blankColumn.onLine line)
  | some t => (Column.read (strip t)).mapError (·.onLine line)

/-- Whether a part of a list of definitions is a column. -/
def isColumnPart (part : Text) : Bool :=
  !part.isEmpty && !isTableLevel part

/-- The column of the part with this index in a list of definitions. -/
def Column.readPart (part : Text × Nat) : Except ParseError Column :=
  (Column.read part.1).mapError fun cause =>
    ⟨.inColumn (part.2 + 1) cause, none, some (part.2 + 1)⟩

/-- The columns of a list of definitions between commas, without the empty ones and the table
constraints. -/
def Column.readAll (definitions : Text) : Except ParseError (List Column) :=
  (((splitCommas definitions).zipIdx).filter fun part => isColumnPart part.1).mapM Column.readPart

/-- The columns of a source that lists definitions. -/
def Column.parseAll (definitions : Source) : Except ParseError (List Column) :=
  match definitions.solid? with
  | none => .error ParseCause.blankColumnList.error
  | some t => Column.readAll t

end TableTypes
