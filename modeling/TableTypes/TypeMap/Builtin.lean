import TableTypes.Dialect
import TableTypes.OrderedMap

/-!
# Built-in types

The TypeScript types of the types that each dialect knows, in the order in which they are listed.
-/

namespace TableTypes

/-- A map given by the types that share a TypeScript type. -/
def typeGroups (groups : List (String × List String)) : OrderedMap Text :=
  groups.flatMap fun g => g.2.map fun sqlType => (sqlType.toList, g.1.toList)

/-- The types of MySQL. -/
def mysqlTypes : OrderedMap Text :=
  typeGroups
    [("number", ["int", "integer", "bigint", "tinyint", "smallint", "mediumint", "float", "double",
        "decimal", "numeric", "year"]),
      ("string", ["varchar", "char", "text", "longtext", "mediumtext", "tinytext", "time"]),
      ("Date", ["datetime", "timestamp", "date"]),
      ("boolean", ["boolean", "bool", "tinyint(1)", "bit"]),
      ("object", ["json"]),
      ("Buffer", ["blob", "longblob", "mediumblob", "tinyblob", "binary", "varbinary"])]

/-- The types of PostgreSQL. -/
def postgresqlTypes : OrderedMap Text :=
  typeGroups
    [("number", ["integer", "int", "int4", "bigint", "int8", "smallint", "int2", "real", "float4",
        "double precision", "float8", "numeric", "decimal", "serial", "bigserial", "smallserial"]),
      ("string", ["varchar", "character varying", "char", "character", "text", "uuid", "time",
        "timetz", "time with time zone", "time without time zone"]),
      ("Date", ["timestamp", "timestamptz", "timestamp with time zone",
        "timestamp without time zone", "date"]),
      ("boolean", ["boolean", "bool"]),
      ("object", ["json", "jsonb"]),
      ("Buffer", ["bytea"])]

/-- The types of SQLite. -/
def sqliteTypes : OrderedMap Text :=
  typeGroups
    [("number", ["integer", "int", "real", "float", "double", "numeric", "decimal"]),
      ("string", ["text", "varchar", "char", "time"]),
      ("Buffer", ["blob"]),
      ("boolean", ["boolean"]),
      ("Date", ["datetime", "timestamp", "date"])]

/-- The types of a dialect. -/
def Dialect.types : Dialect → OrderedMap Text
  | mysql => mysqlTypes
  | postgresql => postgresqlTypes
  | sqlite => sqliteTypes

end TableTypes
