import TableTypes.Fault
import TableTypes.Naming
import TableTypes.Options
import TableTypes.Options.Numeral
import TableTypes.Options.Setting

/-!
# Merging options with their defaults

Options are given as nothing, as a mapping from keys to settings, or as options that are already
complete.  An option is found under its camel case key, or else under its snake case key.  Every
fault is told: first those of the options in the order of their declaration, then the keys that no
option was found under.
-/

namespace TableTypes

/-! ### Single options -/

/-- The entry of an option: under its camel case key if there is one, else under its snake case
key. -/
def findOption? (camel snake : Text) (entries : OrderedMap Setting) : Option (Text × Setting) :=
  ((entries.get? camel).map (camel, ·)) <|> (entries.get? snake).map (snake, ·)

/-- A reading of options: the options so far, the keys they were found under, and the faults. -/
structure OptionReading (α : Type) where
  value : α
  keys : List Text
  faults : List OptionFault

namespace OptionReading

variable {α β : Type}

/-- Goes on with one more option, which is set with `set` if it was found and is accepted. -/
def field (r : OptionReading α) (entries : OrderedMap Setting) (camel snake : String)
    (accept : Setting → Except OptionProblem β) (set : α → β → α) : OptionReading α :=
  match findOption? camel.toList snake.toList entries with
  | none => r
  | some (key, setting) =>
    match accept setting with
    | .ok b => ⟨set r.value b, r.keys ++ [key], r.faults⟩
    | .error p => ⟨r.value, r.keys ++ [key], r.faults ++ [⟨key, p⟩]⟩

/-- The problem with the key of a setting that no option was found under. -/
def keyProblem : Setting → OptionProblem
  | .misplaced => .wrongKey
  | _ => .unknownKey

/-- The options, if no fault was found and every key belongs to an option. -/
def finish (r : OptionReading α) (s : Section) (entries : OrderedMap Setting) :
    Except ConfigurationError α :=
  let unknown := (entries.filter (!r.keys.contains ·.1)).map fun e => ⟨e.1, keyProblem e.2⟩
  match r.faults ++ unknown with
  | [] => .ok r.value
  | faults => .error (.invalid s faults)

end OptionReading

/-! ### What an option accepts -/

/-- A dialect by its name, whose case and surrounding blanks do not matter. -/
def acceptDialect : Setting → Except OptionProblem DialectChoice
  | .text t => ((DialectChoice.ofName? t).map .ok).getD (.error .dialect)
  | _ => .error .dialect

/-- A truth value. -/
def acceptBool : Setting → Except OptionProblem Bool
  | .bool b => .ok b
  | _ => .error .boolean

/-- A naming convention by its name. -/
def acceptNaming : Setting → Except OptionProblem Naming
  | .text t => ((Naming.ofName? t).map .ok).getD (.error .naming)
  | _ => .error .naming

/-- A form of declarations by its name. -/
def acceptExportType : Setting → Except OptionProblem ExportType
  | .text t => ((ExportType.ofName? t).map .ok).getD (.error .exportType)
  | _ => .error .exportType

/-- A prefix of names: nothing, or an identifier. -/
def acceptNamePrefix : Setting → Except OptionProblem Text
  | .text t => if t.isEmpty || isIdentifier t then .ok t else .error .namePrefix
  | _ => .error .text

/-- A suffix of names: characters of identifiers. -/
def acceptNameSuffix : Setting → Except OptionProblem Text
  | .text t => if t.all isIdentifierChar then .ok t else .error .nameSuffix
  | _ => .error .text

/-- The problem with a number that is written as text. -/
def OptionProblem.ofNumeralFault : NumeralFault → OptionProblem
  | .malformed => .unreadableNumber
  | .tooLong => .numberTooLarge

/-- The integer that a setting stands for; truth values count as one and zero. -/
def acceptInteger : Setting → Except OptionProblem Int
  | .int n => .ok n
  | .bool b => .ok (if b then 1 else 0)
  | .decimal d =>
    match d.whole with
    | .value n => .ok n
    | .fraction => .error .fraction
    | .tooLarge => .error .numberTooLarge
    | .infinite => .error .notFinite
  | .notFinite => .error .notFinite
  | .text t => (integerOfText t).mapError OptionProblem.ofNumeralFault
  | _ => .error .number

/-- A limit: an integer above zero. -/
def acceptLimit (s : Setting) : Except OptionProblem Nat := do
  let n ← acceptInteger s
  if n ≤ 0 then throw .notPositive
  return n.toNat

/-! ### Groups of options -/

/-- The extractor options of a mapping. -/
def ExtractorOptions.ofEntries (entries : OrderedMap Setting) :
    Except ConfigurationError ExtractorOptions :=
  ((((⟨.standard, [], []⟩ : OptionReading ExtractorOptions)
    |>.field entries "dialect" "dialect" acceptDialect fun o v => { o with dialect := v })
    |>.field entries "includeComments" "include_comments" acceptBool
      fun o v => { o with includeComments := v })
    |>.field entries "caseSensitive" "case_sensitive" acceptBool
      fun o v => { o with caseSensitive := v })
    |>.finish .extractor entries

/-- The generator options of a mapping. -/
def GeneratorOptions.ofEntries (entries : OrderedMap Setting) :
    Except ConfigurationError GeneratorOptions :=
  (((((((⟨.standard, [], []⟩ : OptionReading GeneratorOptions)
    |>.field entries "naming" "naming" acceptNaming fun o v => { o with naming := v })
    |>.field entries "optionalFields" "optional_fields" acceptBool
      fun o v => { o with optionalFields := v })
    |>.field entries "prefix" "prefix" acceptNamePrefix fun o v => { o with namePrefix := v })
    |>.field entries "suffix" "suffix" acceptNameSuffix fun o v => { o with nameSuffix := v })
    |>.field entries "includeComments" "include_comments" acceptBool
      fun o v => { o with includeComments := v })
    |>.field entries "exportType" "export_type" acceptExportType
      fun o v => { o with exportType := v })
    |>.finish .generator entries

/-- The limits of a mapping. -/
def Limits.ofEntries (entries : OrderedMap Setting) : Except ConfigurationError Limits :=
  ((((((⟨.standard, [], []⟩ : OptionReading Limits)
    |>.field entries "maxSqlLength" "max_sql_length" acceptLimit
      fun l v => { l with maxSqlLength := v })
    |>.field entries "maxFileSize" "max_file_size" acceptLimit
      fun l v => { l with maxFileSize := v })
    |>.field entries "maxMemoryUsage" "max_memory_usage" acceptLimit
      fun l v => { l with maxMemoryUsage := v })
    |>.field entries "maxTableCount" "max_table_count" acceptLimit
      fun l v => { l with maxTableCount := v })
    |>.field entries "maxFieldCount" "max_field_count" acceptLimit
      fun l v => { l with maxFieldCount := v })
    |>.finish .limits entries

/-- The extractor options as a mapping, under their snake case keys. -/
def ExtractorOptions.entries (o : ExtractorOptions) : OrderedMap Setting :=
  [("dialect".toList, .text o.dialect.name), ("include_comments".toList, .bool o.includeComments),
    ("case_sensitive".toList, .bool o.caseSensitive)]

/-- The generator options as a mapping, under their snake case keys. -/
def GeneratorOptions.entries (o : GeneratorOptions) : OrderedMap Setting :=
  [("naming".toList, .text o.naming.name), ("optional_fields".toList, .bool o.optionalFields),
    ("prefix".toList, .text o.namePrefix), ("suffix".toList, .text o.nameSuffix),
    ("include_comments".toList, .bool o.includeComments),
    ("export_type".toList, .text o.exportType.name)]

/-- The limits as a mapping, under their snake case keys. -/
def Limits.entries (l : Limits) : OrderedMap Setting :=
  [("max_sql_length".toList, .int l.maxSqlLength), ("max_file_size".toList, .int l.maxFileSize),
    ("max_memory_usage".toList, .int l.maxMemoryUsage),
    ("max_table_count".toList, .int l.maxTableCount),
    ("max_field_count".toList, .int l.maxFieldCount)]

/-! ### Options as they are given -/

/-- Options as a caller gives them: as a setting, or complete, of whichever group. -/
inductive GivenOptions where
  | setting (s : Setting)
  | extractor (o : ExtractorOptions)
  | generator (o : GeneratorOptions)
  | limits (l : Limits)

namespace GivenOptions

/-- The entries of given options; complete options are those of another group than the one that is
asked for.  Null gives none. -/
def entries? (s : Section) : GivenOptions → Except ConfigurationError (OrderedMap Setting)
  | setting .null => .ok []
  | setting (.mapping entries) => .ok entries
  | setting _ => .error (.notMapping s)
  | extractor o => .ok o.entries
  | generator o => .ok o.entries
  | limits l => .ok l.entries

/-- The extractor options that are given, with defaults for what is missing. -/
def toExtractor : GivenOptions → Except ConfigurationError ExtractorOptions
  | extractor o => .ok o
  | given => (given.entries? .extractor).bind ExtractorOptions.ofEntries

/-- The generator options that are given, with defaults for what is missing. -/
def toGenerator : GivenOptions → Except ConfigurationError GeneratorOptions
  | generator o => .ok o
  | given => (given.entries? .generator).bind GeneratorOptions.ofEntries

/-- The limits that are given, with defaults for what is missing. -/
def toLimits : GivenOptions → Except ConfigurationError Limits
  | limits l => .ok l
  | given => (given.entries? .limits).bind Limits.ofEntries

end GivenOptions

end TableTypes
