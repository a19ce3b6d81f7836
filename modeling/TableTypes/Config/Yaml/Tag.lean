import TableTypes.Text.Basic

/-!
# Tags and the forms of plain scalars

The tag of a value tells its type.  A plain scalar without a tag has the tag of the first form of
YAML 1.1 that it is written in; one in no such form is a text.
-/

namespace TableTypes.Yaml

open Text

/-! ### Tags -/

/-- What the handle `!!` stands for. -/
def coreHandle : Text := "tag:yaml.org,2002:".toList

/-- The tag of a type that every document knows. -/
def coreTag (name : String) : Text :=
  coreHandle ++ name.toList

/-- The tag that leaves it to its value what type it is of. -/
def openTag : Text := ['!']

/-! ### Words -/

/-- The plain scalars that stand for nothing. -/
def nullWords : List Text :=
  ["", "~", "null", "Null", "NULL"].map String.toList

/-- The plain scalars that stand for true. -/
def trueWords : List Text :=
  ["yes", "Yes", "YES", "true", "True", "TRUE", "on", "On", "ON"].map String.toList

/-- The plain scalars that stand for false. -/
def falseWords : List Text :=
  ["no", "No", "NO", "false", "False", "FALSE", "off", "Off", "OFF"].map String.toList

/-- The numbers that are infinite or none, without their sign. -/
def infinityWords : List Text :=
  [".inf", ".Inf", ".INF"].map String.toList

/-- The words for what is no number. -/
def noNumberWords : List Text :=
  [".nan", ".NaN", ".NAN"].map String.toList

/-! ### Numbers -/

/-- A sign and what follows it. -/
def signed (t : Text) : Int × Text :=
  match t with
  | '-' :: r => (-1, r)
  | '+' :: r => (1, r)
  | r => (1, r)

/-- The number that digits of a base spell, underscores left out; there must be a character. -/
def based? (base : Nat) (t : Text) : Option Nat :=
  let isDigit (c : Char) : Bool := isHexDigit c && hexValue c < base
  if !t.isEmpty && t.all fun c => c = '_' || isDigit c then
    some ((t.filter (· ≠ '_')).foldl (fun n c => base * n + hexValue c) 0)
  else none

/-- The number that parts of sixty spell, the highest first: one or two digits each, the first of
them less than six. -/
def sixtieths? (n : Nat) (parts : List Text) : Option Nat :=
  parts.foldlM (fun n part =>
    let isPart : Bool :=
      match part with
      | [a] => isAsciiDigit a
      | [a, b] => '0' ≤ a && a ≤ '5' && isAsciiDigit b
      | _ => false
    if isPart then some (60 * n + digitsToNat part) else none) n

/-- The number that digits spell which begin with a digit other than zero, in parts of sixty behind
colons. -/
def decimalParts? (t : Text) : Option Nat :=
  match splitOnChar ':' t with
  | whole :: parts =>
    if whole.head? = some '_' then none else (based? 10 whole).bind (sixtieths? · parts)
  | [] => none

/-- The natural number that a text spells: decimal, maybe in parts of sixty, or binary, hexadecimal
or octal behind `0b`, `0x` and `0`. -/
def natural? (t : Text) : Option Nat :=
  match t with
  | ['0'] => some 0
  | '0' :: 'b' :: r => based? 2 r
  | '0' :: 'x' :: r => based? 16 r
  | '0' :: r => based? 8 r
  | t => decimalParts? t

/-- The integer that a text spells. -/
def integer? (t : Text) : Option Int :=
  (natural? (signed t).2).map ((signed t).1 * ·)

/-- The exponent behind the digits of a decimal number, which must have a sign. -/
def exponent? (t : Text) : Option Int :=
  match t with
  | [] => some 0
  | e :: s :: r =>
    if (e = 'e' || e = 'E') && (s = '-' || s = '+') && !r.isEmpty && r.all isAsciiDigit then
      some ((signed [s]).1 * (digitsToNat r : Int))
    else none
  | _ => none

/-- The number `digits * 10 ^ exponent` that a text with a point spells: digits before it, maybe in
parts of sixty and then without an exponent, or digits behind it and no sign. -/
def decimal? (t : Text) : Option (Int × Int) :=
  let (sign, r) := signed t
  let whole := r.takeWhile (· ≠ '.')
  match r.dropWhile (· ≠ '.') with
  | '.' :: r =>
    let isPart (c : Char) : Bool := isAsciiDigit c || c = '_'
    let fraction := (r.takeWhile isPart).filter (· ≠ '_')
    let number? :=
      if whole.isEmpty then
        if t.head? = some '.' && r.head?.any isAsciiDigit then some 0 else none
      else decimalParts? whole
    match number?, exponent? (r.dropWhile isPart) with
    | some n, some e =>
      if whole.contains ':' && !(r.dropWhile isPart).isEmpty then none
      else
        some (sign * (n * Nat.pow 10 fraction.length + digitsToNat fraction : Nat),
          e - (fraction.length : Int))
    | _, _ => none
  | _ => none

/-- Whether the text spells an infinite number, or that it is no number. -/
def isNotFinite (t : Text) : Bool :=
  infinityWords.contains (signed t).2 || noNumberWords.contains t

/-! ### Dates -/

/-- The text behind a number of digits between two bounds. -/
def dropDigits? (least most : Nat) (t : Text) : Option Text :=
  let n := min most (t.takeWhile isAsciiDigit).length
  if n < least then none else some (t.drop n)

/-- The text behind the hours and minutes by which a clock is shifted. -/
def dropZone? (t : Text) : Option Text :=
  match t with
  | 'Z' :: r => some r
  | s :: r => do
    if s ≠ '-' && s ≠ '+' then none
    let r ← dropDigits? 1 2 r
    match r with
    | ':' :: r => dropDigits? 2 2 r
    | r => some r
  | [] => none

/-- The text behind the hours, minutes and seconds of a day. -/
def dropClock? (t : Text) : Option Text := do
  let r ← (dropDigits? 1 2 t).bind (after? [':'])
  let r ← (dropDigits? 2 2 r).bind (after? [':'])
  let r ← dropDigits? 2 2 r
  some (((after? ['.'] r).map (·.dropWhile isAsciiDigit)).getD r)

/-- Whether the text is a time of day behind its date, maybe with a zone. -/
def isDayTime (t : Text) : Bool :=
  let isGap (c : Char) : Bool := c = ' ' || c = '\t'
  let clock? :=
    match t with
    | 'T' :: r => dropClock? r
    | 't' :: r => dropClock? r
    | c :: r => if isGap c then dropClock? (r.dropWhile isGap) else none
    | [] => none
  match clock? with
  | none => false
  | some r => r.isEmpty || dropZone? (r.dropWhile isGap) = some []

/-- Whether the text is a date, or a date and a time. -/
def isTimestamp (t : Text) : Bool :=
  let month? := (dropDigits? 4 4 t).bind (after? ['-'])
  let isDate : Bool :=
    ((month?.bind (dropDigits? 2 2)).bind (after? ['-'])).bind (dropDigits? 2 2) = some []
  isDate ||
    (((month?.bind (dropDigits? 1 2)).bind (after? ['-'])).bind (dropDigits? 1 2)).any isDayTime

/-! ### The tag of a plain scalar -/

/-- The tag of a plain scalar. -/
def plainTag (t : Text) : Text :=
  if nullWords.contains t then coreTag "null"
  else if trueWords.contains t || falseWords.contains t then coreTag "bool"
  else if (integer? t).isSome then coreTag "int"
  else if (decimal? t).isSome || isNotFinite t then coreTag "float"
  else if t = "<<".toList then coreTag "merge"
  else if t = ['='] then coreTag "value"
  else if isTimestamp t then coreTag "timestamp"
  else coreTag "str"

end TableTypes.Yaml
