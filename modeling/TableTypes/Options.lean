import TableTypes.Dialect

/-!
# Options

What a caller can choose about reading tables and writing declarations, and the limits that input
has to keep.
-/

namespace TableTypes

/-- How names are written. -/
inductive Naming where
  | camelCase
  | pascalCase
  | snakeCase
  | preserve
  deriving DecidableEq, Repr

namespace Naming

/-- Every convention, in the order in which they are offered. -/
def all : List Naming :=
  [camelCase, pascalCase, snakeCase, preserve]

/-- The name of a convention. -/
def name : Naming → Text
  | camelCase => "camelCase".toList
  | pascalCase => "PascalCase".toList
  | snakeCase => "snake_case".toList
  | preserve => "preserve".toList

/-- The convention of a name. -/
def ofName? (t : Text) : Option Naming :=
  all.find? (·.name = t)

end Naming

/-- The two forms of a declaration. -/
inductive ExportType where
  | interface
  | type
  deriving DecidableEq, Repr

namespace ExportType

/-- Every form. -/
def all : List ExportType :=
  [interface, type]

/-- The name of a form. -/
def name : ExportType → Text
  | interface => "interface".toList
  | type => "type".toList

/-- The form of a name. -/
def ofName? (t : Text) : Option ExportType :=
  all.find? (·.name = t)

end ExportType

/-- Options for reading tables. -/
structure ExtractorOptions where
  dialect : DialectChoice
  includeComments : Bool
  /-- Whether table names that differ in case only are different. -/
  caseSensitive : Bool
  deriving DecidableEq, Repr

/-- Any dialect, with comments, table names compared without regard to case. -/
def ExtractorOptions.standard : ExtractorOptions :=
  ⟨.auto, true, false⟩

/-- Options for writing declarations. -/
structure GeneratorOptions where
  naming : Naming
  /-- Whether every property is optional. -/
  optionalFields : Bool
  namePrefix : Text
  nameSuffix : Text
  includeComments : Bool
  exportType : ExportType
  deriving DecidableEq, Repr

/-- Names as they are, with comments, as interfaces. -/
def GeneratorOptions.standard : GeneratorOptions :=
  ⟨.preserve, false, [], [], true, .interface⟩

/-- What input may not exceed. -/
structure Limits where
  /-- In characters. -/
  maxSqlLength : Nat
  /-- In bytes. -/
  maxFileSize : Nat
  /-- In bytes. -/
  maxMemoryUsage : Nat
  maxTableCount : Nat
  maxFieldCount : Nat
  deriving DecidableEq, Repr

/-- 50 MB of SQL, files of 100 MB, 200 MB of memory, 1000 tables with 500 columns each. -/
def Limits.standard : Limits :=
  ⟨50 * 1024 * 1024, 100 * 1024 * 1024, 200 * 1024 * 1024, 1000, 500⟩

end TableTypes
