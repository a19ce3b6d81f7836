import TableTypes.Proofs.Column.Layout
import TableTypes.TableConstraints

/-!
# Lists of definitions as they are written

A `Segment` of a list of definitions is a column or a constraint; `Segment.text` writes it, and
`Segment.constraint?` says which constraint it declares.  Masks leave a constraint as it is and
blank the quotes of a column (`maskQuoted_segments`, `maskComments_segments`).
-/

namespace TableTypes

open Text

/-! ### Constraints -/

/-- The words, in lower case, that no identifier and no type of a list may be. -/
def reservedWords : List Text :=
  ["unique".toList, "primary".toList, "foreign".toList, "key".toList, "index".toList,
    "constraint".toList, "check".toList, "references".toList, "not".toList, "null".toList,
    "default".toList, "using".toList]

/-- An identifier of a list of definitions. -/
abbrev Identifier := Bareword reservedWords

/-- A column list, which names at least one column. -/
structure ColumnList where
  first : Identifier
  rest : List Identifier

/-- The names of the columns. -/
def ColumnList.names (l : ColumnList) : List Text :=
  (l.first :: l.rest).map Bareword.text

/-- The column list as it is written between its parentheses. -/
def ColumnList.text (l : ColumnList) : Text :=
  join [',', ' '] l.names

/-- What a constraint is, its columns and its label left out. -/
inductive ConstraintHead where
  | primaryKey
  | foreignKey (table : Identifier) (target : ColumnList)
  | unique
  | uniqueKey (name : Identifier)
  | key (name : Identifier)
  | index (name : Identifier)

namespace ConstraintHead

/-- The kind of the constraint. -/
def kind : ConstraintHead → TableConstraintKind
  | primaryKey => .primaryKey
  | foreignKey _ _ => .foreignKey
  | unique => .unique
  | uniqueKey _ => .unique
  | key _ => .index
  | index _ => .index

/-- The name that the constraint has besides its label. -/
def name? : ConstraintHead → Option Identifier
  | uniqueKey name => some name
  | key name => some name
  | index name => some name
  | _ => none

/-- What stands in front of the column list. -/
def text : ConstraintHead → Text
  | primaryKey => "PRIMARY KEY".toList
  | foreignKey _ _ => "FOREIGN KEY".toList
  | unique => "UNIQUE".toList
  | uniqueKey name => "UNIQUE KEY ".toList ++ name.text
  | key name => "KEY ".toList ++ name.text
  | index name => "INDEX ".toList ++ name.text

/-- What stands behind the column list. -/
def tail : ConstraintHead → Text
  | foreignKey table target =>
    " REFERENCES ".toList ++ (table.text ++ ([' ', '('] ++ (target.text ++ [')'])))
  | _ => []

/-- The table and the columns that the constraint refers to. -/
def reference? : ConstraintHead → Option Reference
  | foreignKey table target => some ⟨table.text, target.names⟩
  | _ => none

end ConstraintHead

/-- A constraint with an optional label in front. -/
structure ConstraintText where
  label : Option Identifier
  head : ConstraintHead
  columns : ColumnList

/-- `CONSTRAINT name` as it stands in front of a constraint. -/
def labelText : Option Identifier → Text
  | none => []
  | some n => "CONSTRAINT ".toList ++ (n.text ++ [' '])

namespace ConstraintText

/-- The constraint behind its label. -/
def body (c : ConstraintText) : Text :=
  c.head.text ++ ([' ', '('] ++ (c.columns.text ++ ([')'] ++ c.head.tail)))

/-- The constraint as it is written. -/
def text (c : ConstraintText) : Text :=
  labelText c.label ++ c.body

/-- The constraint that is declared.  Its own name goes before its label. -/
def constraint (c : ConstraintText) : TableConstraint where
  kind := c.head.kind
  columns := c.columns.names
  reference := c.head.reference?
  name := (c.head.name? <|> c.label).map Bareword.text

end ConstraintText

/-! ### Segments -/

/-- A column of a list of definitions; its type is no reserved word either. -/
structure TableColumn where
  definition : ColumnText reservedWords
  type_free : definition.type.letters.map Char.toLower ∉ reservedWords

/-- A part of a list of definitions. -/
inductive Segment where
  | column (c : TableColumn)
  | constraint (c : ConstraintText)

namespace Segment

/-- The segment as it is written. -/
def text : Segment → Text
  | column c => c.definition.text
  | constraint c => c.text

/-- The segment with its quoted text masked. -/
def masked : Segment → Text
  | column c => c.definition.name.text ++
      ' ' :: (c.definition.type.text ++ clausesMasked c.definition.clauses)
  | constraint c => c.text

/-- The constraint of the table that the segment declares. -/
def constraint? : Segment → Option TableConstraint
  | column _ => none
  | constraint c => some c.constraint

end Segment

/-- Segments behind another one, each with a comma and a space in front. -/
def segmentsText (segs : List Segment) : Text :=
  segs.flatMap fun s => [',', ' '] ++ s.text

/-- Segments behind another one, with their quoted text masked. -/
def segmentsMasked (segs : List Segment) : Text :=
  segs.flatMap fun s => [',', ' '] ++ s.masked

theorem join_segments (s : Segment) (segs : List Segment) :
    join [',', ' '] ((s :: segs).map Segment.text) = s.text ++ segmentsText segs := by
  rw [List.map_cons, join_cons, List.flatMap_map]
  rfl

theorem ColumnList.text_eq (l : ColumnList) :
    l.text = l.first.text ++ l.rest.flatMap fun n => [',', ' '] ++ n.text := by
  rw [text, names, List.map_cons, join_cons, List.flatMap_map]

/-! ### Segments under the masks -/

theorem ColumnList.plain (l : ColumnList) : l.text.all isPlain = true := by
  rw [l.text_eq, List.all_append, all_isPlain_of_forall l.first.forall_word, List.all_flatMap,
    Bool.true_and, List.all_eq_true]
  intro n _
  rw [List.all_append, all_isPlain_of_forall n.forall_word]
  rfl

theorem ConstraintHead.plain_text (h : ConstraintHead) : h.text.all isPlain = true := by
  cases h with
  | uniqueKey n =>
    show ("UNIQUE KEY ".toList ++ n.text).all isPlain = true
    rw [List.all_append, all_isPlain_of_forall n.forall_word]
    rfl
  | key n =>
    show ("KEY ".toList ++ n.text).all isPlain = true
    rw [List.all_append, all_isPlain_of_forall n.forall_word]
    rfl
  | index n =>
    show ("INDEX ".toList ++ n.text).all isPlain = true
    rw [List.all_append, all_isPlain_of_forall n.forall_word]
    rfl
  | _ => rfl

theorem ConstraintHead.plain_tail (h : ConstraintHead) : h.tail.all isPlain = true := by
  cases h with
  | foreignKey t l =>
    show (" REFERENCES ".toList ++ (t.text ++ ([' ', '('] ++ (l.text ++ [')'])))).all isPlain = true
    rw [List.all_append, List.all_append, List.all_append, List.all_append,
      all_isPlain_of_forall t.forall_word, l.plain]
    rfl
  | _ => rfl

theorem ConstraintText.plain (c : ConstraintText) : c.text.all isPlain = true := by
  have hlabel : (labelText c.label).all isPlain = true := by
    cases c.label with
    | none => rfl
    | some n =>
      show ("CONSTRAINT ".toList ++ (n.text ++ [' '])).all isPlain = true
      rw [List.all_append, List.all_append, all_isPlain_of_forall n.forall_word]
      rfl
  rw [text, body, List.all_append, List.all_append, List.all_append, List.all_append,
    List.all_append, hlabel, c.head.plain_text, c.columns.plain, c.head.plain_tail]
  rfl

theorem ColumnText.plain_front {reserved : List Text} (d : ColumnText reserved) :
    (d.name.text ++ ' ' :: d.type.text).all isPlain = true := by
  rw [List.all_append, List.all_cons, all_isPlain_of_forall d.name.forall_word, d.type.plain]
  rfl

theorem maskQuoted_segment (s : Segment) (t : Text) :
    maskQuoted (s.text ++ t) = s.masked ++ maskQuoted t := by
  cases s with
  | column c =>
    have hsplit : c.definition.text ++ t =
        (c.definition.name.text ++ ' ' :: c.definition.type.text) ++
          (clausesText c.definition.clauses ++ t) := by
      rw [c.definition.text_eq]
      simp
    rw [Segment.text, hsplit, maskQuoted_plain_append _ c.definition.plain_front,
      maskQuoted_clauses, Segment.masked]
    simp
  | constraint c => exact maskQuoted_plain_append t c.plain

theorem maskComments_segment (s : Segment) (t : Text) :
    maskComments (s.text ++ t) = s.text ++ maskComments t := by
  cases s with
  | column c =>
    have hsplit : ∀ u, c.definition.text ++ u =
        (c.definition.name.text ++ ' ' :: c.definition.type.text) ++
          (clausesText c.definition.clauses ++ u) := by
      intro u
      rw [c.definition.text_eq]
      simp
    rw [Segment.text, hsplit, maskComments_plain_append _ c.definition.plain_front,
      maskComments_clauses, hsplit]
  | constraint c => exact maskComments_plain_append t c.plain

theorem maskQuoted_segments (segs : List Segment) :
    maskQuoted (segmentsText segs) = segmentsMasked segs := by
  induction segs with
  | nil => rfl
  | cons s segs ih =>
    rw [segmentsText, segmentsMasked, List.flatMap_cons, List.flatMap_cons, ← segmentsText,
      ← segmentsMasked, List.append_assoc, maskQuoted_plain_append _ rfl, maskQuoted_segment, ih,
      List.append_assoc]

theorem maskComments_segments (segs : List Segment) :
    maskComments (segmentsText segs) = segmentsText segs := by
  induction segs with
  | nil => rfl
  | cons s segs ih =>
    rw [segmentsText, List.flatMap_cons, ← segmentsText, List.append_assoc,
      maskComments_plain_append _ rfl, maskComments_segment, ih]

theorem length_segmentsMasked (segs : List Segment) :
    (segmentsMasked segs).length = (segmentsText segs).length := by
  rw [← maskQuoted_segments, length_maskQuoted]

end TableTypes
