import TableTypes.Config.EnvFile
import TableTypes.Config.Yaml
import TableTypes.Files
import TableTypes.Options.Merge

/-!
# Configurations

All options together, as they are given, as a YAML file holds them, or as environment variables
set them.
-/

namespace TableTypes

open Text

/-- Options of every group. -/
structure Configuration where
  extractor : ExtractorOptions
  generator : GeneratorOptions
  limits : Limits
  deriving DecidableEq, Repr

namespace Configuration

/-- The configuration of the given options. -/
def ofGiven (extractor generator limits : GivenOptions) :
    Except ConfigurationError Configuration := do
  let extractor ← extractor.toExtractor
  let generator ← generator.toGenerator
  let limits ← limits.toLimits
  return ⟨extractor, generator, limits⟩

/-- The setting of a section, null if there is none. -/
def sectionOf (entries : OrderedMap Setting) (s : Section) : GivenOptions :=
  .setting ((entries.get? s.key).getD .null)

/-- The configuration of a mapping from sections to options, keys of other sections aside. -/
def ofEntries (entries : OrderedMap Setting) : Except ConfigurationError Configuration :=
  ofGiven (sectionOf entries .extractor) (sectionOf entries .generator) (sectionOf entries .limits)

/-- The keys of a mapping that name no section. -/
def unknownKeys (entries : OrderedMap Setting) : List Text :=
  entries.keys.filter fun key => !(Section.all.map Section.key).contains key

/-- The configuration of a setting that is a mapping from sections only. -/
def ofSetting? : Setting → Option Configuration
  | .mapping entries => if (unknownKeys entries).isEmpty then (ofEntries entries).toOption else none
  | _ => none

/-- Whether both settings are configurations, and the same one. -/
def areEqual (a b : Setting) : Bool :=
  match ofSetting? a, ofSetting? b with
  | some a, some b => a = b
  | _, _ => false

/-! ### The summary -/

/-- A truth value as it is shown. -/
def shownBool (b : Bool) : Text :=
  if b then "True".toList else "False".toList

/-- A text as it is shown. -/
def shownText (t : Text) : Text :=
  if t.isEmpty then "(none)".toList else t

/-- The options of a configuration for a reader. -/
def summary (e : ExtractorOptions) (g : GeneratorOptions) : Text :=
  join ['\n']
    ["Configuration Summary:".toList,
      "Extractor:".toList,
      "  - Dialect: ".toList ++ e.dialect.name,
      "  - Include Comments: ".toList ++ shownBool e.includeComments,
      "  - Case Sensitive: ".toList ++ shownBool e.caseSensitive,
      [],
      "Generator:".toList,
      "  - Naming Convention: ".toList ++ g.naming.name,
      "  - Optional Fields: ".toList ++ shownBool g.optionalFields,
      "  - Prefix: ".toList ++ shownText g.namePrefix,
      "  - Suffix: ".toList ++ shownText g.nameSuffix,
      "  - Include Comments: ".toList ++ shownBool g.includeComments,
      "  - Export Type: ".toList ++ g.exportType.name]

/-- The summary of the given options. -/
def summaryOf (extractor generator : GivenOptions) : Except ConfigurationError Text := do
  let e ← extractor.toExtractor
  let g ← generator.toGenerator
  return summary e g

/-! ### Configuration files -/

/-- The configuration of a YAML document that was found at a path.  A document without content
sets nothing. -/
def ofYaml (path document : Text) : Except ConfigurationError Configuration :=
  match Yaml.read? document with
  | none => .error (.invalidFile path)
  | some setting =>
    let setting := if setting.isEmpty then .mapping [] else setting
    match setting with
    | .mapping entries =>
      match unknownKeys entries with
      | [] => ofEntries entries
      | keys => .error (.unknownSections path (keys.mergeSort precedes))
    | _ => .error (.fileNotMapping path)

/-- The configuration of the YAML file at a path. -/
def ofFile (tree : FileTree) (path : Text) : Except ConfigurationError Configuration :=
  match tree.entryAt path with
  | .error fault => .error (.unreadableFile path fault)
  | .ok .directory => .error (.unreadableFile path .directory)
  | .ok (.file bytes) =>
    match readBytes .utf8 bytes with
    | .ok document => ofYaml path document
    | .error _ => .error (.invalidFile path)

end Configuration

/-! ### Environment variables -/

/-- The options that variables set: the name of the variable behind `SQL_SCHEMA_`, the section, the
key, and whether it is a truth value. -/
def variableOptions : List (String × Section × String × Bool) :=
  [("DIALECT", .extractor, "dialect", false),
    ("INCLUDE_COMMENTS", .extractor, "include_comments", true),
    ("CASE_SENSITIVE", .extractor, "case_sensitive", true),
    ("NAMING", .generator, "naming", false),
    ("OPTIONAL_FIELDS", .generator, "optional_fields", true),
    ("PREFIX", .generator, "prefix", false),
    ("SUFFIX", .generator, "suffix", false),
    ("EXPORT_TYPE", .generator, "export_type", false),
    ("MAX_SQL_LENGTH", .limits, "max_sql_length", false),
    ("MAX_FILE_SIZE", .limits, "max_file_size", false),
    ("MAX_TABLE_COUNT", .limits, "max_table_count", false),
    ("MAX_FIELD_COUNT", .limits, "max_field_count", false)]

/-- The spellings of true, in lower case. -/
def trueSpellings : List Text :=
  ["1", "true", "yes", "on"].map String.toList

/-- The spellings of false, in lower case. -/
def falseSpellings : List Text :=
  ["0", "false", "no", "off"].map String.toList

/-- The setting that the value of a variable spells. -/
def variableSetting (isBool : Bool) (value : Text) : Setting :=
  let t := strip value
  if isBool && trueSpellings.contains (lower t) then .bool true
  else if isBool && falseSpellings.contains (lower t) then .bool false
  else .text t

/-- The environment with the variables of a file that it does not set itself. -/
def withEnvFile (environment : OrderedMap Text) (document : Text) : OrderedMap Text :=
  environment ++ (EnvFile.read environment document).filterMap fun (name, value) =>
    if environment.has name then none else value.map (name, ·)

/-- The environment with the variables of the file at a path, if there is one. -/
def withEnvFileAt (environment : OrderedMap Text) (tree : FileTree) (path : Text) :
    OrderedMap Text :=
  match tree.at? path with
  | some (.file bytes) => withEnvFile environment ((readBytes .utf8 bytes).toOption.getD [])
  | _ => environment

/-- The options of a section that the environment sets. -/
def variableEntries (environment : OrderedMap Text) (s : Section) : OrderedMap Setting :=
  variableOptions.filterMap fun (name, sect, key, isBool) =>
    if sect = s then
      (environment.get? ("SQL_SCHEMA_".toList ++ name.toList)).map fun value =>
        (key.toList, variableSetting isBool value)
    else none

/-- The configuration that the environment sets. -/
def Configuration.ofEnvironment (environment : OrderedMap Text) :
    Except ConfigurationError Configuration :=
  let given (s : Section) : GivenOptions := .setting (.mapping (variableEntries environment s))
  ofGiven (given .extractor) (given .generator) (given .limits)

end TableTypes
