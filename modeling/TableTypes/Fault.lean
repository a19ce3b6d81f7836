import TableTypes.Dialect
import TableTypes.Text.Quoted

/-!
# Faults and warnings

What can go wrong, as causes, with one wording for each.  A `Report` is the outcome of a
computation together with the warnings it gave on the way; the warnings stay when it fails.
-/

namespace TableTypes

open Text

/-! ### Reading SQL -/

/-- Why SQL text cannot be read as tables. -/
inductive ParseCause where
  | notText
  | emptyText
  | noStatements
  | unbalancedParentheses (table : Text)
  /-- The parentheses of the statement, or the columns between them, are missing. -/
  | noColumns (table : Text)
  | blankColumnList
  | blankColumn
  | constraintAsColumn
  | unreadableColumn (definition : Text)
  | namelessColumn (definition : Text)
  /-- A fault in the definition that stands at `index` in its list, counted from one. -/
  | inColumn (index : Nat) (cause : ParseCause)
  | blankSql
  | inTable (table : Text) (cause : ParseCause)
  | notOneTable (count : Nat)
  | invalidTableCount
  | tooManyTables (count : Int) (limit : Nat)
  | invalidColumnCount (table : Text)
  | tooManyColumns (count : Int) (table : Text) (limit : Nat)
  deriving DecidableEq, Repr

/-- The wording of a cause. -/
def ParseCause.message : ParseCause → Text
  | notText => "SQL input must be a string".toList
  | emptyText => "SQL input cannot be empty".toList
  | noStatements => "No CREATE TABLE statements found in the provided SQL".toList
  | unbalancedParentheses table =>
    "Unbalanced parentheses in CREATE TABLE statement for table '".toList ++ table ++ ['\'']
  | noColumns table => "No field definitions found for table: ".toList ++ table
  | blankColumnList => "Invalid fields string: must be a non-empty string".toList
  | blankColumn => "Invalid field definition: must be a non-empty string".toList
  | constraintAsColumn =>
    "Table-level constraint found where field definition expected".toList
  | unreadableColumn definition =>
    "Could not parse field definition: ".toList ++ definition
  | namelessColumn definition =>
    "Could not extract field name from: ".toList ++ definition
  | inColumn index cause =>
    "Error parsing field ".toList ++ ofNat index ++ ": ".toList ++ cause.message
  | blankSql => "Invalid SQL input: must be a non-empty string".toList
  | inTable table cause =>
    "Error extracting table '".toList ++ table ++ "': ".toList ++ cause.message
  | notOneTable count =>
    "Expected single table, found ".toList ++ ofNat count ++ " tables".toList
  | invalidTableCount => "Invalid table count".toList
  | tooManyTables count limit =>
    "Table count ".toList ++ ofInt count ++ " exceeds maximum allowed count of ".toList ++
      ofNat limit
  | invalidColumnCount table => "Invalid field count for table ".toList ++ table
  | tooManyColumns count table limit =>
    "Field count ".toList ++ ofInt count ++ " in table '".toList ++ table ++
      "' exceeds maximum allowed count of ".toList ++ ofNat limit

/-- A cause with the line it belongs to and, for a fault in a list of definitions, the position of
the definition in the list. -/
structure ParseError where
  cause : ParseCause
  line : Option Nat
  position : Option Nat
  deriving DecidableEq, Repr

/-- A cause without a place. -/
def ParseCause.error (cause : ParseCause) : ParseError :=
  ⟨cause, none, none⟩

/-- A cause on a line. -/
def ParseCause.onLine (cause : ParseCause) (line : Option Nat) : ParseError :=
  ⟨cause, line, none⟩

/-! ### Mapping types -/

/-- Why a SQL type has no TypeScript type. -/
inductive MappingCause where
  | unsupportedDialect
  /-- The dialect is not known where MySQL could stand in for it. -/
  | unsupportedDialectForType
  | unrecognizedType
  deriving DecidableEq, Repr

/-- A type that could not be mapped for a dialect, which is given by the name it was asked for. -/
structure MappingError where
  cause : MappingCause
  sqlType : Text
  dialect : Text
  deriving DecidableEq, Repr

/-- That a dialect is not known and the types of MySQL are used. -/
def defaultingMessage (dialect : Text) : Text :=
  "Unsupported dialect \"".toList ++ dialect ++ "\", defaulting to MySQL mappings".toList

/-- That a type is not known in a dialect. -/
def unrecognizedMessage (sqlType dialect : Text) : Text :=
  "Unrecognized SQL type \"".toList ++ sqlType ++ "\" for dialect \"".toList ++ dialect ++ ['"']

/-- The wording of the error. -/
def MappingError.message (e : MappingError) : Text :=
  match e.cause with
  | .unsupportedDialect => "Unsupported dialect \"".toList ++ e.dialect ++ ['"']
  | .unsupportedDialectForType => defaultingMessage e.dialect
  | .unrecognizedType => unrecognizedMessage e.sqlType e.dialect

/-! ### Configuration -/

/-- The sections of a configuration. -/
inductive Section where
  | extractor
  | generator
  | limits
  deriving DecidableEq, Repr

namespace Section

/-- Every section, in order. -/
def all : List Section :=
  [extractor, generator, limits]

/-- The key of a section. -/
def key : Section → Text
  | extractor => "extractor".toList
  | generator => "generator".toList
  | limits => "limits".toList

/-- What the options of a section are called in a message. -/
def title : Section → Text
  | extractor => "extractor options".toList
  | generator => "generator options".toList
  | limits => "validation limits".toList

end Section

/-- What is wrong with the value of an option. -/
inductive OptionProblem where
  | dialect
  | naming
  | exportType
  | boolean
  | text
  | namePrefix
  | nameSuffix
  | fraction
  | unreadableNumber
  | numberTooLarge
  | notFinite
  | number
  | notPositive
  | unknownKey
  | wrongKey
  deriving DecidableEq, Repr

/-- The wording of a problem. -/
def OptionProblem.message : OptionProblem → Text
  | dialect => "Input should be 'mysql', 'postgresql', 'sqlite' or 'auto'".toList
  | naming => "Input should be 'camelCase', 'PascalCase', 'snake_case' or 'preserve'".toList
  | exportType => "Input should be 'interface' or 'type'".toList
  | boolean => "Input should be a valid boolean".toList
  | text => "Input should be a valid string".toList
  | namePrefix => "String should match pattern '^$|^[a-zA-Z_$][a-zA-Z0-9_$]*$'".toList
  | nameSuffix => "String should match pattern '^$|^[a-zA-Z0-9_$]+$'".toList
  | fraction => "Input should be a valid integer, got a number with a fractional part".toList
  | unreadableNumber =>
    "Input should be a valid integer, unable to parse string as an integer".toList
  | numberTooLarge => "Unable to parse input string as an integer, exceeded maximum size".toList
  | notFinite => "Input should be a finite number".toList
  | number => "Input should be a valid integer".toList
  | notPositive => "Input should be greater than 0".toList
  | unknownKey => "Extra inputs are not permitted".toList
  | wrongKey => "Keys should be strings".toList

/-- A problem with the option of a key. -/
structure OptionFault where
  key : Text
  problem : OptionProblem
  deriving DecidableEq, Repr

/-- The wording of a problem with an option; an empty key is shown as `options`. -/
def OptionFault.message (f : OptionFault) : Text :=
  (if f.key.isEmpty then "options".toList else f.key) ++ ": ".toList ++ f.problem.message

/-- The hint below a list of problems: what may be written for the first of the dialect, the
naming convention, the export type and the affixes that the problems speak of. -/
def suggestion (problems : Text) : Text :=
  let speaksOf (w : String) := occursIn w.toList problems.lower
  if speaksOf "dialect" then
    "\nValid dialects: mysql, postgresql, sqlite, auto".toList
  else if speaksOf "naming" then
    "\nValid naming conventions: camelCase, PascalCase, snake_case, preserve".toList
  else if speaksOf "export" then "\nValid export types: interface, type".toList
  else if speaksOf "prefix" || speaksOf "suffix" then
    "\nPrefix and suffix must be valid TypeScript identifiers".toList
  else []

/-- Why a file cannot be opened. -/
inductive OpenFault where
  | missing
  | directory
  | notDirectory
  | nameTooLong
  deriving DecidableEq, Repr

/-- The wording of a fault, with its number. -/
def OpenFault.message : OpenFault → Text
  | missing => "[Errno 2] No such file or directory".toList
  | directory => "[Errno 21] Is a directory".toList
  | notDirectory => "[Errno 20] Not a directory".toList
  | nameTooLong => "[Errno 36] File name too long".toList

/-- Why a configuration is refused. -/
inductive ConfigurationError where
  | notMapping (s : Section)
  | invalid (s : Section) (faults : List OptionFault)
  | unreadableFile (path : Text) (fault : OpenFault)
  | invalidFile (path : Text)
  | fileNotMapping (path : Text)
  | unknownSections (path : Text) (keys : List Text)
  deriving DecidableEq, Repr

/-- The wording of the error. -/
def ConfigurationError.message : ConfigurationError → Text
  | notMapping s =>
    "Configuration error in ".toList ++ s.title ++ ": options must be a mapping".toList
  | invalid s faults =>
    let problems := faults.map OptionFault.message
    "Configuration error in ".toList ++ s.title ++ ": ".toList ++ join "; ".toList problems ++
      suggestion (join " ".toList problems)
  | unreadableFile path fault =>
    "Cannot read configuration file ".toList ++ path ++ ": ".toList ++ fault.message ++
      ": ".toList ++ inQuotes path
  | invalidFile _ => "Invalid YAML in configuration file".toList
  | fileNotMapping path =>
    "Configuration file ".toList ++ path ++ " must contain a mapping".toList
  | unknownSections path keys =>
    "Unknown configuration sections in ".toList ++ path ++ ": ".toList ++ join ", ".toList keys

/-! ### Checking input -/

/-- Why an input is not accepted. -/
inductive InputError where
  | missingSql
  | notTextSql
  | emptySql
  | tooLong (length limit : Nat)
  | dangerousPattern
  | malformed
  | unmatchedDelimiters
  | untokenizable
  | dangerousStatement (keyword : Text)
  | controlCharacters
  | missingInput
  | wrongInput
  | bufferTooLarge (size limit : Nat)
  | undecodableBuffer
  | memory (estimate limit : Int)
  | missingSchemas
  | notSchemas
  deriving DecidableEq, Repr

/-- The wording of the error; memory is given in megabytes. -/
def InputError.message : InputError → Text
  | missingSql => "SQL input cannot be None".toList
  | notTextSql => "SQL input must be a string".toList
  | emptySql => "SQL input cannot be empty".toList
  | tooLong length limit =>
    "SQL input too large: ".toList ++ ofNat length ++ " bytes exceeds maximum of ".toList ++
      ofNat limit ++ " bytes".toList
  | dangerousPattern => "SQL input contains potentially dangerous patterns".toList
  | malformed => "SQL input appears to be malformed or incomplete".toList
  | unmatchedDelimiters =>
    "SQL input has unmatched parentheses, quotes, or backticks".toList
  | untokenizable => "SQL input could not be tokenized".toList
  | dangerousStatement keyword =>
    "SQL input contains potentially dangerous statement: ".toList ++ keyword
  | controlCharacters => "SQL input contains excessive control characters".toList
  | missingInput => "Input cannot be None".toList
  | wrongInput => "Input must be a string or bytes".toList
  | bufferTooLarge size limit =>
    "Buffer size ".toList ++ ofNat size ++ " bytes exceeds maximum allowed size of ".toList ++
      ofNat limit ++ " bytes".toList
  | undecodableBuffer =>
    "Failed to convert buffer to string: invalid UTF-8 encoding".toList
  | memory estimate limit =>
    "Estimated memory usage ".toList ++ ofInt estimate ++ "MB exceeds limit of ".toList ++
      ofInt limit ++ "MB".toList
  | missingSchemas => "Schemas cannot be None".toList
  | notSchemas => "Schemas must be a sequence of TableSchema".toList

/-! ### Reading files -/

/-- Why a file is not read. -/
inductive FileCause where
  | emptyPath
  | nullInPath
  | pathTraversal
  | restrictedPath
  | pathTooLong
  | invalidPathCharacters
  | missing
  | notFile
  | invalidSize
  | tooLarge (size : Int) (limit : Nat)
  | undecodable (encoding reason : Text)
  | emptyFile
  | binary
  | noPaths
  deriving DecidableEq, Repr

/-- The wording of a cause. -/
def FileCause.message : FileCause → Text
  | emptyPath => "File path must be a non-empty string".toList
  | nullInPath => "File path contains null bytes".toList
  | pathTraversal => "Path traversal detected in file path".toList
  | restrictedPath => "File path points to restricted system directory".toList
  | pathTooLong => "File path too long".toList
  | invalidPathCharacters => "File path contains invalid characters".toList
  | missing => "File does not exist or is not readable".toList
  | notFile => "Path is not a file".toList
  | invalidSize => "Invalid file size".toList
  | tooLarge size limit =>
    "File size ".toList ++ ofInt size ++ " bytes exceeds maximum allowed size of ".toList ++
      ofNat limit ++ " bytes".toList
  | undecodable encoding reason =>
    "Failed to decode file as ".toList ++ encoding ++ ": ".toList ++ reason
  | emptyFile => "File is empty".toList
  | binary => "File appears to contain binary data".toList
  | noPaths => "File paths must be a non-empty list".toList

/-- A cause with the path it belongs to. -/
structure FileError where
  cause : FileCause
  path : Text
  deriving DecidableEq, Repr

/-! ### Faults of every kind -/

/-- A fault of any kind. -/
inductive Fault where
  | parse (e : ParseError)
  | mapping (e : MappingError)
  | configuration (e : ConfigurationError)
  | input (e : InputError)
  | file (e : FileError)
  deriving DecidableEq, Repr

/-- The wording of a fault. -/
def Fault.message : Fault → Text
  | parse e => e.cause.message
  | mapping e => e.message
  | configuration e => e.message
  | input e => e.message
  | file e => e.cause.message

/-! ### Warnings -/

/-- What is worth saying without being a fault. -/
inductive Warning where
  | blankType
  | unsupportedDialect (dialect : Text)
  | unrecognizedType (sqlType : Text) (dialect : Dialect)
  | duplicateTable (name existing : Text) (line : Nat)
  | dangerousStatement (keyword : Text)
  deriving DecidableEq, Repr

/-- The wording of a warning. -/
def Warning.message : Warning → Text
  | blankType => "빈 SQL 타입이 전달되어 \"any\"로 처리합니다".toList
  | unsupportedDialect dialect => defaultingMessage dialect
  | unrecognizedType sqlType dialect =>
    unrecognizedMessage sqlType dialect.name ++ ", defaulting to \"any\"".toList
  | duplicateTable name existing line =>
    "중복된 테이블 정의: ".toList ++ name ++ " (기존: ".toList ++ existing ++ ", line ".toList ++
      ofNat line ++ [')']
  | dangerousStatement keyword => "위험한 구문 감지: ".toList ++ keyword

/-! ### Reports -/

/-- The outcome of a computation and the warnings it gave on the way. -/
structure Report (α : Type) where
  warnings : List Warning
  outcome : Except Fault α
  deriving Repr

namespace Report

variable {α β : Type}

/-- The report of a result without warnings. -/
def succeed (a : α) : Report α :=
  ⟨[], .ok a⟩

/-- The report of a fault without warnings. -/
def fail (f : Fault) : Report α :=
  ⟨[], .error f⟩

/-- Goes on with the result; the warnings of both computations are kept in order. -/
def andThen (r : Report α) (f : α → Report β) : Report β :=
  match r.outcome with
  | .error e => ⟨r.warnings, .error e⟩
  | .ok a => ⟨r.warnings ++ (f a).warnings, (f a).outcome⟩

instance : Monad Report where
  pure := succeed
  bind := andThen

/-- The report of one warning. -/
def warn (w : Warning) : Report Unit :=
  ⟨[w], .ok ()⟩

/-- The report of a computation that gives no warnings and fails in one way only. -/
def ofExcept {ε : Type} (kind : ε → Fault) (r : Except ε α) : Report α :=
  ⟨[], r.mapError kind⟩

end Report

end TableTypes
