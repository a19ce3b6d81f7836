import TableTypes.Text.Basic

/-!
# Tokens of YAML

The tokens that a document is made of.  The blocks that indentation begins and ends have tokens of
their own, and so has a key that nothing but the colon behind it shows.
-/

namespace TableTypes.Yaml

/-- A token. -/
inductive Token where
  /-- The directive that tells the version. -/
  | version (major : Nat)
  /-- The directive that tells what a handle of tags stands for. -/
  | handle (name expansion : Text)
  | otherDirective
  | documentStart
  | documentEnd
  | blockSequence
  | blockMapping
  | blockEnd
  | flowSequence
  | flowSequenceEnd
  | flowMapping
  | flowMappingEnd
  | blockEntry
  | flowEntry
  | key
  | value
  | anchor (name : Text)
  | reference (name : Text)
  /-- A tag; one without a handle is written in full. -/
  | tag (handle : Option Text) (suffix : Text)
  /-- A scalar, which is plain or else written between quotes or as a block. -/
  | scalar (plain : Bool) (text : Text)
  deriving DecidableEq, Repr

end TableTypes.Yaml
