import TableTypes.Fault
import TableTypes.Options
import TableTypes.Rounding

/-!
# Keeping limits

Counts and sizes are compared with a limit; what is no whole number, or negative, is invalid.  The
memory that reading a text will take is estimated from its length and its number of tables.
-/

namespace TableTypes

/-- Checks a number of tables; `none` stands for what is no whole number. -/
def Limits.checkTableCount (l : Limits) (count : Option Int) : Except ParseError Unit :=
  match count with
  | none => .error ParseCause.invalidTableCount.error
  | some n =>
    if n < 0 then .error ParseCause.invalidTableCount.error
    else if l.maxTableCount < n then
      .error (ParseCause.tooManyTables n l.maxTableCount).error
    else .ok ()

/-- Checks a number of columns of a table; `none` stands for what is no whole number. -/
def Limits.checkFieldCount (l : Limits) (count : Option Int) (table : Text) :
    Except ParseError Unit :=
  match count with
  | none => .error (ParseCause.invalidColumnCount table).error
  | some n =>
    if n < 0 then .error (ParseCause.invalidColumnCount table).error
    else if l.maxFieldCount < n then
      .error (ParseCause.tooManyColumns n table l.maxFieldCount).error
    else .ok ()

/-- Checks the size of a file; `none` stands for what is no whole number. -/
def Limits.checkFileSize (l : Limits) (size : Option Int) (path : Text) : Except FileError Unit :=
  match size with
  | none => .error ⟨.invalidSize, path⟩
  | some n =>
    if n < 0 then .error ⟨.invalidSize, path⟩
    else if l.maxFileSize < n then .error ⟨.tooLarge n l.maxFileSize, path⟩
    else .ok ()

/-! ### Memory -/

/-- The bytes that reading takes: two for each character, half a byte more for parsing it, and ten
thousand for each table. -/
def estimateMemory (length tables : Int) : Int :=
  length * 2 + length.fdiv 2 + tables * 10000

/-- The whole number of megabytes of a number of bytes, read with 53 binary digits; a half goes to
the even side. -/
def megabytes (bytes : Int) : Int :=
  let n : Int := divRoundEven (roundTo53Bits bytes.natAbs) (1024 * 1024)
  if bytes < 0 then -n else n

/-- Checks an estimate of memory. -/
def Limits.checkMemory (l : Limits) (estimate : Int) : Except InputError Unit :=
  if l.maxMemoryUsage < estimate then
    .error (.memory (megabytes estimate) (megabytes l.maxMemoryUsage))
  else .ok ()

end TableTypes
