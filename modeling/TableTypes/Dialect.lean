import TableTypes.Text.Blank
import TableTypes.Text.Case

/-!
# SQL dialects

The three dialects whose types are known, and the choice of one: by name, or left to be read off
the SQL text.
-/

namespace TableTypes

/-- A dialect of SQL. -/
inductive Dialect where
  | mysql
  | postgresql
  | sqlite
  deriving DecidableEq, Repr

/-- The name of a dialect. -/
def Dialect.name : Dialect → Text
  | mysql => "mysql".toList
  | postgresql => "postgresql".toList
  | sqlite => "sqlite".toList

/-- A dialect, or the wish to have it detected. -/
inductive DialectChoice where
  | fixed (d : Dialect)
  | auto
  deriving DecidableEq, Repr

namespace DialectChoice

/-- The name of a choice. -/
def name : DialectChoice → Text
  | fixed d => d.name
  | auto => "auto".toList

/-- Every choice, in the order in which they are offered. -/
def all : List DialectChoice :=
  [fixed .mysql, fixed .postgresql, fixed .sqlite, auto]

/-- The choice of a name, whose case and surrounding blanks do not matter. -/
def ofName? (t : Text) : Option DialectChoice :=
  all.find? fun d => d.name = (t.strip).lower

/-- The dialect to map types by; a choice left open counts as MySQL. -/
def dialect : DialectChoice → Dialect
  | fixed d => d
  | auto => .mysql

end DialectChoice

/-- The dialect of a name; `auto` counts as MySQL. -/
def Dialect.ofName? (t : Text) : Option Dialect :=
  (DialectChoice.ofName? t).map DialectChoice.dialect

/-! ### Detection -/

/-- The words that give a dialect away, each dialect before those it is preferred to. -/
def dialectSignatures : List (Dialect × List String) :=
  [(.postgresql, ["serial", "bigserial", "smallserial", "timestamptz", "jsonb", "uuid", "bytea",
      "double precision", "character varying"]),
    (.mysql, ["auto_increment", "tinyint", "mediumint", "longtext", "mediumtext", "tinytext",
      "longblob", "mediumblob", "tinyblob", "engine=", "charset=", "collate="]),
    (.sqlite, ["autoincrement", "without rowid", "pragma"])]

/-- The first dialect of which a word occurs in the text, in any case; MySQL if there is none. -/
def Dialect.detect (sql : Text) : Dialect :=
  let content := sql.lower
  let found? := dialectSignatures.find? fun s => s.2.any fun w => Text.occursIn w.toList content
  (found?.map (·.1)).getD .mysql

end TableTypes
