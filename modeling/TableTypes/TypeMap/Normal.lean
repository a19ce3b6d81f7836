import TableTypes.Text.Blank
import TableTypes.Text.Case
import TableTypes.Text.Search
import TableTypes.Text.Word

/-!
# Normal forms of SQL types

A type is looked up as it is written, in lower case with single spaces, and then without its sizes
and without a sign modifier at its end.
-/

namespace TableTypes

open Text

/-- The type in lower case with single spaces. -/
def plainType (t : Text) : Text :=
  collapseBlanks (lower (strip t))

/-- What follows a parenthesis up to the next closing one. -/
def size? : Text → Option Text
  | '(' :: t => (t.dropWhile (· ≠ ')')).tail?
  | _ => none

/-- The modifiers that tell how a number is stored. -/
def signModifiers : List Text :=
  [" unsigned".toList, " signed".toList, " zerofill".toList]

/-- The type without one modifier at its end. -/
def dropSign (t : Text) : Text :=
  match signModifiers.find? (endsWith · t) with
  | some w => t.take (t.length - w.length)
  | none => t

/-- The type without sizes, single spaced, and without one modifier at its end. -/
def normalType (t : Text) : Text :=
  strip (dropSign (strip (collapseBlanks (replaceAll size? [] (lower (strip t))))))

/-- The text up to its first space. -/
def firstWord (t : Text) : Text :=
  t.takeWhile (· ≠ ' ')

/-! ### Arrays -/

/-- What is left of a reversed text behind a pair of brackets, with digits or nothing between
them, and the blanks before them. -/
def reversedBounds? : Text → Option Text
  | ']' :: t =>
    match dropBlanks ((dropBlanks t).dropWhile isDecimal) with
    | '[' :: r => some (dropBlanks r)
    | _ => none
  | _ => none

/-- The type of the elements of an array type, and the number of its array suffixes. -/
def elementType (t : Text) : Text × Nat :=
  let bounds := many (fun s => (reversedBounds? s).map ((), ·)) t.reverse
  (bounds.2.reverse, bounds.1.length)

end TableTypes
