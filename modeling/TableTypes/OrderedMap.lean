import TableTypes.Text.Basic

/-!
# Maps in insertion order

A map from texts to values that keeps its keys in the order in which they came.  Inserting under a
key that is present keeps its place; erasing a key and inserting it again moves it to the end.
-/

namespace TableTypes

/-- A map as its entries in order, no key twice. -/
abbrev OrderedMap (α : Type) := List (Text × α)

namespace OrderedMap

variable {α : Type}

/-- The value under a key. -/
def get? (key : Text) (m : OrderedMap α) : Option α :=
  m.lookup key

/-- Whether the key is present. -/
def has (key : Text) (m : OrderedMap α) : Bool :=
  (get? key m).isSome

/-- The map with `value` under `key`. -/
def insert (key : Text) (value : α) : OrderedMap α → OrderedMap α
  | [] => [(key, value)]
  | (k, v) :: m => if k = key then (k, value) :: m else (k, v) :: insert key value m

/-- The map without a value under `key`. -/
def erase (key : Text) (m : OrderedMap α) : OrderedMap α :=
  m.filter fun e => e.1 ≠ key

/-- The map with every entry of `new` inserted in order. -/
def merge (m new : OrderedMap α) : OrderedMap α :=
  new.foldl (fun m e => insert e.1 e.2 m) m

/-- The keys in order. -/
def keys (m : OrderedMap α) : List Text :=
  m.map (·.1)

end OrderedMap

end TableTypes
