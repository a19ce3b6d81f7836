import TableTypes.Fault
import TableTypes.TypeMap.Builtin
import TableTypes.TypeMap.Normal

/-!
# Mapping SQL types to TypeScript types

A mapper adds its own entries to the built-in types of each dialect; under the same key its own
entry wins.  A type is mapped by the first of these that applies:

1. a rule of the dialect (`TINYINT(1)`, `ENUM`, `SET`, arrays, the integers of SQLite);
2. the entry of the type as it is written;
3. the entry of its normal form;
4. the entry of the first word of its normal form.

What cannot be mapped is `any` with a warning, or a fault if the mapper is strict.
-/

namespace TableTypes

open Text

/-- A mapper: the entries it adds for each dialect. -/
structure TypeMapper where
  strict : Bool
  custom : Dialect → OrderedMap Text

namespace TypeMapper

/-- The mapper that adds nothing. -/
def plain : TypeMapper :=
  ⟨false, fun _ => []⟩

/-! ### Entries -/

/-- The mapper with other entries for one dialect. -/
def setCustom (m : TypeMapper) (d : Dialect) (entries : OrderedMap Text) : TypeMapper :=
  { m with custom := fun d' => if d' = d then entries else m.custom d' }

/-- The key under which a type is entered. -/
def entryKey (sqlType : Text) : Text :=
  lower (strip sqlType)

/-- The mapper with an entry for a type in the dialect of a name. -/
def add (m : TypeMapper) (dialect sqlType tsType : Text) : Except MappingError TypeMapper :=
  match Dialect.ofName? dialect with
  | none => .error ⟨.unsupportedDialect, sqlType, dialect⟩
  | some d => .ok (m.setCustom d ((m.custom d).insert (entryKey sqlType) tsType))

/-- The mapper without an entry for a type in the dialect of a name. -/
def remove (m : TypeMapper) (dialect sqlType : Text) : TypeMapper :=
  match Dialect.ofName? dialect with
  | none => m
  | some d => m.setCustom d ((m.custom d).erase (entryKey sqlType))

/-- The mapper without entries in the dialect of a name. -/
def clear (m : TypeMapper) (dialect : Text) : TypeMapper :=
  match Dialect.ofName? dialect with
  | none => m
  | some d => m.setCustom d []

/-- The mapper with the given entries added in order. -/
def ofEntries (strict : Bool) (entries : List (Text × Text × Text)) :
    Except MappingError TypeMapper :=
  entries.foldlM (fun m e => m.add e.1 e.2.1 e.2.2) ⟨strict, fun _ => []⟩

/-- The entries of the mapper in the dialect of a name. -/
def customTypes (m : TypeMapper) (dialect : Text) : OrderedMap Text :=
  ((Dialect.ofName? dialect).map m.custom).getD []

/-- The built-in entries in the dialect of a name. -/
def defaultTypes (dialect : Text) : OrderedMap Text :=
  ((Dialect.ofName? dialect).map Dialect.types).getD []

/-- All entries of a dialect. -/
def types (m : TypeMapper) (d : Dialect) : OrderedMap Text :=
  d.types.merge (m.custom d)

/-- The types with an entry in the dialect of a name: the built-in ones, then those that only the
mapper has. -/
def supportedTypes (m : TypeMapper) (dialect : Text) : List Text :=
  ((Dialect.ofName? dialect).map fun d => (m.types d).keys).getD []

/-- Whether the normal form of a type, or its first word, has an entry in the dialect of a
name. -/
def isSupported (m : TypeMapper) (sqlType dialect : Text) : Bool :=
  match Dialect.ofName? dialect with
  | none => false
  | some d =>
    let normal := normalType sqlType
    !sqlType.isEmpty && ((m.types d).has normal || (m.types d).has (firstWord normal))

/-! ### Rules of the dialects -/

/-- What follows a word and blanks, when that is a parenthesis. -/
def argumentsOf? (word t : Text) : Option Text :=
  match (after? word t).map dropBlanks with
  | some ('(' :: r) => some r
  | _ => none

/-- Whether the type is `tinyint(1)`, with or without blanks, and whatever follows. -/
def isTinyintOne (t : Text) : Bool :=
  match (argumentsOf? "tinyint".toList t).map dropBlanks with
  | some ('1' :: r) => (dropBlanks r).head? = some ')'
  | _ => false

/-- Whether the type is a word with arguments. -/
def isCall (word : String) (t : Text) : Bool :=
  (argumentsOf? word.toList t).isSome

/-- The TypeScript type that a rule of the dialect gives. -/
def special? (types : OrderedMap Text) (t : Text) : Dialect → Option Text
  | .mysql =>
    if isTinyintOne t then some ((types.get? "tinyint(1)".toList).getD "boolean".toList)
    else if isCall "enum" t || isCall "set" t then some "string".toList
    else none
  | .postgresql => if isCall "enum" t then some "string".toList else none
  | .sqlite =>
    if occursIn "int".toList t && !occursIn "point".toList t then some "number".toList else none

/-! ### Mapping -/

/-- The TypeScript type of a plain type that is no array. -/
def lookup? (m : TypeMapper) (d : Dialect) (t : Text) : Option Text :=
  let types := m.types d
  let normal := normalType t
  ((special? types t d).filter (!·.isEmpty)) <|> types.get? t <|> types.get? normal <|>
    types.get? (firstWord normal)

/-- The report on a type without an entry, which is shown as it was given. -/
def unrecognized (m : TypeMapper) (sqlType : Text) (d : Dialect) : Report Text :=
  if m.strict then .fail (.mapping ⟨.unrecognizedType, sqlType, d.name⟩)
  else ⟨[.unrecognizedType sqlType d], .ok "any".toList⟩

/-- The TypeScript type of a plain type, which is shown as `sqlType`. -/
def mapPlain (m : TypeMapper) (d : Dialect) (sqlType t : Text) : Report Text :=
  if t.isEmpty then ⟨[.blankType], .ok "any".toList⟩
  else
    match m.lookup? d t with
    | some tsType => pure tsType
    | none => m.unrecognized sqlType d

/-- An array type over `tsType` of the given number of dimensions. -/
def arrayOf (tsType : Text) : Nat → Text
  | 0 => tsType
  | n + 1 => arrayOf tsType n ++ "[]".toList

/-- The TypeScript type of a type in a known dialect. -/
def mapIn (m : TypeMapper) (d : Dialect) (sqlType : Text) : Report Text :=
  let t := plainType sqlType
  let element := if d = .postgresql then elementType t else (t, 0)
  if element.2 = 0 then m.mapPlain d sqlType t
  else do
    let tsType ← m.mapPlain d element.1 element.1
    return arrayOf tsType element.2

/-- The dialect of a name; MySQL stands in for one that is not known, unless the mapper is
strict. -/
def resolve (m : TypeMapper) (sqlType dialect : Text) : Report Dialect :=
  match Dialect.ofName? dialect with
  | some d => pure d
  | none =>
    if m.strict then .fail (.mapping ⟨.unsupportedDialectForType, sqlType, dialect⟩)
    else ⟨[.unsupportedDialect dialect], .ok .mysql⟩

/-- The TypeScript type of a type in the dialect of a name. -/
def map (m : TypeMapper) (sqlType dialect : Text) : Report Text :=
  if sqlType.isAllBlank then ⟨[.blankType], .ok "any".toList⟩
  else do
    let d ← m.resolve sqlType dialect
    m.mapIn d sqlType

end TypeMapper

end TableTypes
