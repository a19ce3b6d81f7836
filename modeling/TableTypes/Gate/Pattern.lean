import TableTypes.Text.Keyword

/-!
# Patterns that are refused

What marks a text as dangerous (a script element, the start of a shell substitution, a long
hexadecimal number, a path that climbs up inside a comment) or as malformed (too many parentheses in
a row, a `CREATE TABLE` that ends behind its name).
-/

namespace TableTypes

open Text

/-- Whether `p` holds at some position of the text, for what the text goes on with there. -/
def holdsAt (p : Text → Bool) (t : Text) : Bool :=
  (suffixes none t).any fun s => p s.2

/-- The text up to the end of its line. -/
def line (t : Text) : Text :=
  t.takeWhile (· ≠ '\n')

/-! ### Dangerous text -/

/-- Whether a script element begins here and is closed on the line on which its tag ends. -/
def startsScript (t : Text) : Bool :=
  match keyword? "<script".toList t with
  | none => false
  | some r =>
    match r.dropWhile (· ≠ '>') with
    | [] => false
    | _ :: content => holdsAt (fun s => (keyword? "</script>".toList s).isSome) (line content)

/-- Whether a shell substitution begins here. -/
def startsSubstitution : Text → Bool
  | '$' :: c :: _ => c = '(' || c = '\x7b'
  | _ => false

/-- Whether a hexadecimal number of sixteen digits or more begins here. -/
def startsLongHexadecimal (t : Text) : Bool :=
  match keyword? "0x".toList t with
  | none => false
  | some r => 16 ≤ (r.takeWhile isHexDigit).length

/-- What follows two points and a slash of either kind. -/
def climb? : Text → Option Text
  | '.' :: '.' :: c :: t => if c = '/' || c = '\\' then some t else none
  | _ => none

/-- Whether a comment begins here that climbs up a path and is closed behind it, on one line. -/
def startsClimbingComment (t : Text) : Bool :=
  match after? ['/', '*'] t with
  | none => false
  | some r =>
    match find? (fun _ => climb?) (line r) with
    | none => false
    | some rest => occursIn ['*', '/'] rest

/-- Whether the text holds a dangerous pattern. -/
def isDangerous (t : Text) : Bool :=
  holdsAt (fun s => startsScript s || startsSubstitution s || startsLongHexadecimal s ||
    startsClimbingComment s) t

/-! ### Malformed text -/

/-- Whether a `CREATE TABLE` begins here that ends, but for a semicolon, behind its name. -/
def startsBareCreate (t : Text) : Bool :=
  match (phrase? ["create".toList, "table".toList] t).bind dropBlanks1? with
  | none => false
  | some r =>
    match word? r with
    | none => false
    | some (_, rest) =>
      match dropBlanks rest with
      | ';' :: rest => isAllBlank rest
      | rest => rest.isEmpty

/-- Whether the text holds a pattern of malformed SQL. -/
def isMalformed (t : Text) : Bool :=
  holdsAt (fun s => (after? (List.replicate 10 '(') s).isSome || startsBareCreate s) t

end TableTypes
