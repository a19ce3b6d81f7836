import TableTypes.Text.Blank

/-!
# Sources of text

What a caller may hand over where a text is expected.
-/

namespace TableTypes

/-- An input: a text, bytes, nothing at all, or a value of another type. -/
inductive Source where
  | text (t : Text)
  | bytes (bs : List UInt8)
  | missing
  | other
  deriving DecidableEq, Repr

namespace Source

/-- The text of a source that is one and holds more than blanks. -/
def solid? : Source → Option Text
  | text t => if t.isAllBlank then none else some t
  | _ => none

end Source

end TableTypes
