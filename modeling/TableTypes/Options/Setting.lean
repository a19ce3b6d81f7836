import TableTypes.OrderedMap
import TableTypes.Options.Decimal

/-!
# Settings

The values that options are given by, before anything is known about what an option accepts.
-/

namespace TableTypes

/-- A value of a configuration. -/
inductive Setting where
  | null
  | bool (b : Bool)
  | int (n : Int)
  /-- A number written with a point or an exponent. -/
  | decimal (d : Decimal)
  /-- An infinite number, or what is no number though it is one by its form. -/
  | notFinite
  | text (t : Text)
  | list (items : List Setting)
  | mapping (entries : List (Text × Setting))
  /-- A value of any other kind, such as a date. -/
  | other
  /-- What stands under a key that is no text, which is held as the text that shows it.  No option
  has such a key, so it does not matter what the value is. -/
  | misplaced
  deriving Inhabited, Repr

namespace Setting

/-- Whether the value counts as no value at all: null, false, zero, or empty. -/
def isEmpty : Setting → Bool
  | null => true
  | bool b => !b
  | int n => n = 0
  | decimal d => d.whole = .value 0
  | text t => t.isEmpty
  | list items => items.isEmpty
  | mapping entries => entries.isEmpty
  | _ => false

/-- Whether the value stands under a key that is no text. -/
def isMisplaced : Setting → Bool
  | misplaced => true
  | _ => false

end Setting

end TableTypes
