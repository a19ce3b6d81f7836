import TableTypes.Gate.Injection
import TableTypes.Gate.Pattern
import TableTypes.Limits
import TableTypes.Scan.Delimiters
import TableTypes.Source
import TableTypes.Text.Clean
import TableTypes.Text.Encoding

/-!
# The gate

What input has to pass before it is parsed: it is text of an admissible length, holds no dangerous,
malformed or suspicious pattern, closes what it opens, and has few control characters.
-/

namespace TableTypes

open Text

/-- Whether more than one in a hundred of the characters satisfy `p`. -/
def exceedsOnePercent (p : Char → Bool) (t : Text) : Bool :=
  t.length < 100 * t.countP p

/-- The first error of an SQL text that shows before its statements are looked at. -/
def textError? (t : Text) (l : Limits) : Option InputError :=
  if t.isAllBlank then some .emptySql
  else if l.maxSqlLength < t.length then some (.tooLong t.length l.maxSqlLength)
  else if isDangerous t then some .dangerousPattern
  else if isMalformed t then some .malformed
  else if hasUnmatchedDelimiters t then some .unmatchedDelimiters
  else none

/-- Checks an SQL text. -/
def checkText (t : Text) (l : Limits) : Report Unit :=
  match textError? t l with
  | some e => .fail (.input e)
  | none =>
    match findInjection t with
    | none => .fail (.input .untokenizable)
    | some (some word) =>
      ⟨[.dangerousStatement word], .error (.input (.dangerousStatement word))⟩
    | some none =>
      if exceedsOnePercent isControl t then .fail (.input .controlCharacters) else pure ()

/-- Checks a source of SQL. -/
def checkSql (sql : Source) (l : Limits) : Report Unit :=
  match sql with
  | .text t => checkText t l
  | .missing => .fail (.input .missingSql)
  | _ => .fail (.input .notTextSql)

/-- The text without control characters, with newlines only, and without blanks at either end. -/
def sanitized (t : Text) : Text :=
  strip (unifyNewlines (dropControls t))

/-- The sanitized text of a source, empty if the source is no text. -/
def sanitizedSource : Source → Text
  | .text t => sanitized t
  | _ => []

/-- The text of an input: as it is, or read from bytes in UTF-8. -/
def inputText (input : Source) (l : Limits) : Except InputError Text :=
  match input with
  | .missing => .error .missingInput
  | .text t => .ok t
  | .bytes bs =>
    if l.maxFileSize < bs.length then .error (.bufferTooLarge bs.length l.maxFileSize)
    else (decodeUtf8 bs).mapError fun _ => .undecodableBuffer
  | .other => .error .wrongInput

/-- The sanitized text of an input that passes the checks. -/
def acceptInput (input : Source) (l : Limits) : Report Text := do
  let t ← .ofExcept .input (inputText input l)
  checkText t l
  return sanitized t

/-- The number of places where `CREATE TABLE` stands in a text, in whatever context. -/
def countCreateTable (t : Text) : Nat :=
  (findAll (fun _ s => (phrase? ["create".toList, "table".toList] s).map ((), ·)) t).length

/-- Checks a source of SQL before it is parsed, with its likely number of tables and the memory
they will take. -/
def checkForProcessing (sql : Source) (l : Limits) : Report Unit := do
  checkSql sql l
  match sql with
  | .text t =>
    let tables := countCreateTable t
    .ofExcept .parse (l.checkTableCount (some tables))
    .ofExcept .input (l.checkMemory (estimateMemory t.length tables))
  | _ => pure ()

end TableTypes
