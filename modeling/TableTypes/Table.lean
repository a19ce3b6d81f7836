import TableTypes.Column
import TableTypes.Limits
import TableTypes.Statement
import TableTypes.TableConstraints

/-!
# Reading tables

A table is read from its statement: its columns one by one, its constraints from the same text.
The first statement that cannot be read ends the reading; a table of a name that was there before
is kept, with a warning.
-/

namespace TableTypes

open Text

/-! ### One table -/

/-- The table that a statement declares. -/
def Statement.table (s : Statement) (o : ExtractorOptions) : Except ParseError Table := do
  let columns ← Column.readAll s.body
  if columns.isEmpty then throw ((ParseCause.noColumns s.name).onLine s.line)
  return {
    name := s.name
    columns := if o.includeComments then columns else columns.map Column.uncommented
    constraints := tableConstraints s.body
    comment := if o.includeComments then s.comment else none }

/-- The table of a statement, which keeps the limit on columns.  A fault is told with the name and
the line of the table. -/
def Statement.checkedTable (s : Statement) (o : ExtractorOptions) (l : Limits) :
    Except ParseError Table :=
  let table := do
    let table ← s.table o
    l.checkFieldCount (some table.columns.length) table.name
    return table
  table.mapError fun e => ⟨.inTable s.name e.cause, s.line, e.position⟩

/-! ### All tables -/

/-- What a table name is compared by. -/
def ExtractorOptions.key (o : ExtractorOptions) (name : Text) : Text :=
  if o.caseSensitive then name else lower name

/-- The tables of statements in order.  `seen` holds the keys of the tables so far with their
names, the latest first. -/
def readTables (o : ExtractorOptions) (l : Limits) (seen : List (Text × Text)) :
    List Statement → Report (List Table)
  | [] => pure []
  | s :: rest => do
    let table ← .ofExcept .parse (s.checkedTable o l)
    let key := o.key table.name
    match seen.lookup key with
    | some existing => .warn (.duplicateTable table.name existing s.line)
    | none => pure ()
    let tables ← readTables o l ((key, table.name) :: seen) rest
    return table :: tables

/-- The tables of a source. -/
def extractTables (sql : Source) (o : ExtractorOptions) (l : Limits) : Report (List Table) :=
  if sql.solid?.isNone then .fail (.parse ParseCause.blankSql.error)
  else do
    let statements ← .ofExcept .parse (Statement.parse sql)
    .ofExcept .parse (l.checkTableCount (some statements.length))
    readTables o l [] statements

/-- The table of a source that declares exactly one. -/
def extractTable (sql : Source) (o : ExtractorOptions) : Report Table := do
  match ← extractTables sql o .standard with
  | [table] => return table
  | tables => .fail (.parse (ParseCause.notOneTable tables.length).error)

/-- Whether tables can be read from the source, without regard to any fault; the warnings of the
reading are kept. -/
def hasTables (sql : Source) : Report Bool :=
  let r := extractTables sql .standard .standard
  ⟨r.warnings, .ok (match r.outcome with
    | .ok tables => !tables.isEmpty
    | .error _ => false)⟩

end TableTypes
