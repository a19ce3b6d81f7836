import TableTypes.Declaration.Layout
import TableTypes.Naming
import TableTypes.Schema
import TableTypes.TypeMap

/-!
# TypeScript declarations

Each table becomes an interface or a type with one property per column.  With comments, the file,
each declaration and each column that has a comment gets a block in front of it; comments, types and
default values are escaped, so that they cannot close a block.
-/

namespace TableTypes

open Text

/-! ### Names -/

/-- The name of the declaration of a table.  The prefix goes before the name with its first letter
raised; unless the convention is snake case or to leave names alone, the first letter of the whole
is raised too. -/
def GeneratorOptions.declarationName (o : GeneratorOptions) (table : Text) : Text :=
  let name := o.naming.apply table
  let name := if o.namePrefix.isEmpty then name else o.namePrefix ++ capitalize name
  let name := name ++ o.nameSuffix
  toIdentifier (if o.naming = .snakeCase || o.naming = .preserve then name else capitalize name)

/-- The name in single quotes, with backslashes and quotes escaped. -/
def quoteName (name : Text) : Text :=
  ['\''] ++ replace ['\''] ['\\', '\''] (replace ['\\'] ['\\', '\\'] name) ++ ['\'']

/-- The name of the property of a column, in quotes where it cannot stand without them. -/
def GeneratorOptions.propertyName (o : GeneratorOptions) (column : Text) : Text :=
  let name := o.naming.apply column
  if isPlainName name then name else quoteName name

/-- Whether the property of a column is optional: if all are, or the column has a default value. -/
def GeneratorOptions.isOptional (o : GeneratorOptions) (c : Column) : Bool :=
  o.optionalFields || c.default.isSome

/-! ### Comments -/

/-- The text as it may stand in a comment: on one line, and without an end of comment. -/
def escapeComment (t : Text) : Text :=
  replace ['\n'] [' '] (replace "*/".toList "*\\/".toList t)

/-- A block comment of lines, with `indent` in front of every line. -/
def commentBlock (indent : Text) (lines : List Text) : Text :=
  indent ++ "/**\n".toList ++ join ['\n'] (lines.map fun l => indent ++ " * ".toList ++ l) ++
    "\n".toList ++ indent ++ " */\n".toList

/-- The comment at the head of a file of so many declarations. -/
def fileComment (timestamp : Text) (count : Nat) : Text :=
  "/**\n * Auto-generated TypeScript interfaces from SQL schema\n".toList ++
    " * Generated on: ".toList ++ timestamp ++ "\n * Total interfaces: ".toList ++ ofNat count ++
    "\n *\n * @warning This file is auto-generated. Do not edit manually.\n */\n\n".toList

/-- The lines that describe a table. -/
def Table.commentLines (t : Table) : List Text :=
  ["TypeScript interface for the '".toList ++ t.name ++ "' table".toList] ++
    (match t.comment with
      | none | some [] => []
      | some c => [escapeComment (strip c)]) ++
    ["Generated from SQL schema with ".toList ++ ofNat t.columns.length ++
      (if t.columns.length = 1 then " field".toList else " fields".toList)]

/-- The lines that describe a column: its comment, its constraints and its type. -/
def Column.commentLines (c : Column) : List Text :=
  let comment := strip (c.comment.getD [])
  let default :=
    match c.default with
    | none | some [] => []
    | some d => " (default: ".toList ++ d ++ [')']
  (if comment.isEmpty then [] else [escapeComment comment]) ++
    (if c.constraints.isEmpty then []
      else
        ["Constraints: ".toList ++ join ", ".toList (c.constraints.map (·.kind.name))]) ++
    [escapeComment ("SQL type: ".toList ++ c.type ++
      (if c.nullable then " (nullable)".toList else []) ++ default)]

/-- The comment in front of a column, if it has one. -/
def Column.commentBlock (c : Column) : Text :=
  match c.comment with
  | none | some [] => []
  | some _ => TableTypes.commentBlock "  ".toList c.commentLines

/-! ### Declarations -/

/-- What declarations are written with: the types, the dialect by its name, and the options. -/
structure Generator where
  mapper : TypeMapper
  dialect : Text
  options : GeneratorOptions

namespace Generator

/-- The property of a column. -/
def property (g : Generator) (c : Column) : Report Text := do
  let tsType ← g.mapper.map c.type g.dialect
  let isOptional := g.options.isOptional c
  return (if g.options.includeComments then c.commentBlock else []) ++ "  ".toList ++
    g.options.propertyName c.name ++ (if isOptional then ['?'] else []) ++ ": ".toList ++ tsType ++
    (if c.nullable && !isOptional then " | null".toList else []) ++ [';']

/-- The declaration of a table. -/
def declaration (g : Generator) (t : Table) : Report Text := do
  let properties ← t.columns.mapM g.property
  let name := g.options.declarationName t.name
  return (if g.options.includeComments then TableTypes.commentBlock [] t.commentLines else []) ++
    (match g.options.exportType with
      | .interface => "export interface ".toList ++ name ++ " \x7b".toList
      | .type => "export type ".toList ++ name ++ " = \x7b".toList) ++
    ['\n'] ++ join ['\n'] properties ++ ['\n'] ++
    (match g.options.exportType with
      | .interface => "\x7d".toList
      | .type => "\x7d;".toList)

/-- The declarations of tables, in order and in their final layout; nothing at all for no
tables. -/
def generate (g : Generator) (timestamp : Text) (tables : List Table) : Report Text :=
  if tables.isEmpty then pure []
  else do
    let declarations ← tables.mapM g.declaration
    let head := if g.options.includeComments then fileComment timestamp tables.length else []
    return formatCode (head ++ join "\n\n".toList declarations)

end Generator

end TableTypes
