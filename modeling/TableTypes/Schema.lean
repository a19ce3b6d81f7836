import TableTypes.Text.Basic

/-!
# Schemas

The tables that a `CREATE TABLE` statement declares: columns with their types and attributes, and
the constraints over several columns.
-/

namespace TableTypes

/-! ### Columns -/

/-- The kinds of constraints that stand in a column definition. -/
inductive ColumnConstraintKind where
  | primaryKey
  | unique
  | foreignKey
  | check
  | autoIncrement
  deriving DecidableEq, Repr

/-- The name a kind of constraint is shown by. -/
def ColumnConstraintKind.name : ColumnConstraintKind → Text
  | primaryKey => "PRIMARY_KEY".toList
  | unique => "UNIQUE".toList
  | foreignKey => "FOREIGN_KEY".toList
  | check => "CHECK".toList
  | autoIncrement => "AUTO_INCREMENT".toList

/-- A constraint of one column.  A foreign key has the value `table(columns)` and a check its
predicate; the others have none. -/
structure ColumnConstraint where
  kind : ColumnConstraintKind
  value : Option Text
  deriving DecidableEq, Repr

/-- A column of a table.  The type is the text it was declared with, sizes and modifiers
included. -/
structure Column where
  name : Text
  type : Text
  nullable : Bool
  default : Option Text
  constraints : List ColumnConstraint
  comment : Option Text
  deriving DecidableEq, Repr

/-- Whether the column has a constraint of the kind. -/
def Column.has (c : Column) (kind : ColumnConstraintKind) : Bool :=
  c.constraints.any (·.kind = kind)

/-- The column without its comment. -/
def Column.uncommented (c : Column) : Column :=
  { c with comment := none }

/-! ### Tables -/

/-- The kinds of constraints that stand among the column definitions. -/
inductive TableConstraintKind where
  | primaryKey
  | foreignKey
  | unique
  | index
  deriving DecidableEq, Repr

/-- The name a kind of constraint is shown by. -/
def TableConstraintKind.name : TableConstraintKind → Text
  | primaryKey => "PRIMARY_KEY".toList
  | foreignKey => "FOREIGN_KEY".toList
  | unique => "UNIQUE".toList
  | index => "INDEX".toList

/-- The table and the columns that a foreign key refers to. -/
structure Reference where
  table : Text
  columns : List Text
  deriving DecidableEq, Repr

/-- A constraint over the columns of a table. -/
structure TableConstraint where
  kind : TableConstraintKind
  columns : List Text
  reference : Option Reference
  name : Option Text
  deriving DecidableEq, Repr

/-- A table with its columns and constraints in the order of their declaration. -/
structure Table where
  name : Text
  columns : List Column
  constraints : List TableConstraint
  comment : Option Text
  deriving DecidableEq, Repr

/-- The keys with `name` behind them, unless it is one of them already. -/
def addKey (keys : List Text) (name : Text) : List Text :=
  if keys.contains name then keys else keys ++ [name]

/-- The columns of the primary key: first those that are declared so themselves, then those that
the primary key constraints of the table name. -/
def Table.primaryKeys (t : Table) : List Text :=
  ((t.constraints.filter (·.kind = .primaryKey)).flatMap (·.columns)).foldl addKey
    ((t.columns.filter (·.has .primaryKey)).map (·.name))

/-- The first column of the name. -/
def Table.column? (t : Table) (name : Text) : Option Column :=
  t.columns.find? (·.name = name)

end TableTypes
