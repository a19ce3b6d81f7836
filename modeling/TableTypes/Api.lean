import TableTypes.Config
import TableTypes.Declaration
import TableTypes.Files
import TableTypes.Gate
import TableTypes.Options.Merge
import TableTypes.Table

/-!
# From SQL to declarations

The whole way from an input or a file to tables and to TypeScript code.  Options are merged before
anything is read, so that a fault in them is told first.
-/

namespace TableTypes

open Text

/-! ### From text -/

/-- The tables of an input that passes the gate. -/
def schemasOf (input : Source) (o : ExtractorOptions) (l : Limits) : Report (List Table) := do
  let sql ← acceptInput input l
  checkForProcessing (.text sql) l
  extractTables (.text sql) o l

/-- The tables of an input under the given options. -/
def extractSchemas (input : Source) (options limits : GivenOptions) : Report (List Table) := do
  let l ← .ofExcept .configuration limits.toLimits
  let o ← .ofExcept .configuration options.toExtractor
  schemasOf input o l

/-- What may be given as the tables to write declarations of. -/
inductive SchemaInput where
  | tables (ts : List Table)
  | missing
  | other

/-- The declarations of tables under the given options, for the dialect of a name. -/
def generateTypes (timestamp : Text) (schemas : SchemaInput) (options : GivenOptions)
    (dialect : Text) (mapper : TypeMapper) : Report Text :=
  match schemas with
  | .missing => .fail (.input .missingSchemas)
  | .other => .fail (.input .notSchemas)
  | .tables [] => pure []
  | .tables ts => do
    let o ← .ofExcept .configuration options.toGenerator
    Generator.generate ⟨mapper, dialect, o⟩ timestamp ts

/-- The text of a source that has passed the gate. -/
def Source.content : Source → Text
  | .text t => t
  | .bytes bs => (decodeUtf8 bs).toOption.getD []
  | _ => []

/-- The dialect to map the types of an input by: the one that was chosen, or else the one that its
text gives away. -/
def DialectChoice.resolve (d : DialectChoice) (input : Source) : Dialect :=
  match d with
  | .fixed d => d
  | .auto => Dialect.detect input.content

/-- The declarations of the tables of an input. -/
def extractAndGenerate (timestamp : Text) (input : Source)
    (extractor generator limits : GivenOptions) (mapper : TypeMapper) : Report Text := do
  let o ← .ofExcept .configuration extractor.toExtractor
  let g ← .ofExcept .configuration generator.toGenerator
  let tables ← extractSchemas input (.extractor o) limits
  generateTypes timestamp (.tables tables) (.generator g) (o.dialect.resolve input).name mapper

/-! ### From files -/

/-- The tables of the SQL file at a path. -/
def extractSchemasFromFile (tree : FileTree) (path : PathInput) (options limits : GivenOptions) :
    Report (List Table) := do
  let l ← .ofExcept .configuration limits.toLimits
  let o ← .ofExcept .configuration options.toExtractor
  let sql ← .ofExcept .file (tree.readSql path l true .utf8)
  schemasOf (.text sql) o l

/-- The declarations of the tables of the SQL file at a path. -/
def generateTypesFromFile (timestamp : Text) (tree : FileTree) (path : PathInput)
    (extractor generator limits : GivenOptions) : Report Text := do
  let l ← .ofExcept .configuration limits.toLimits
  let o ← .ofExcept .configuration extractor.toExtractor
  let g ← .ofExcept .configuration generator.toGenerator
  let sql ← .ofExcept .file (tree.readSql path l true .utf8)
  extractAndGenerate timestamp (.text sql) (.extractor o) (.generator g) (.limits l) .plain

end TableTypes
