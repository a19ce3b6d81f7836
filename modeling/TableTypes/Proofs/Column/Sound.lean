import TableTypes.Column
import TableTypes.Proofs.Report
import TableTypes.Proofs.Text.Blank

/-!
# Sound columns

A column that is read from a definition is the column of the parts of that definition
(`Column.read_eq_ok_iff`), and a list of definitions is read part by part (`Column.readAll_eq_ok`).
Every column that is read is sound (`Column.isSound_of_read`): its name and its type are neither
empty nor have blanks around them, its constraints are at most one of each kind in a fixed order,
and if it is a primary key by itself it always has a value.
-/

namespace TableTypes

open Text

/-! ### The type -/

theorem endsSolid_spacedPhrase? {phrases : List (List Text)}
    (h : ∀ ws ∈ phrases, (∀ w ∈ ws, isKeyword w = true ∧ w ≠ []) ∧ ws ≠ []) :
    EndsSolid (spacedPhrase? phrases) :=
  EndsSolid.bind isReader_dropBlanks1?.suffix (endsSolid_anyPhrase? h)

theorem endsSolid_arguments? : EndsSolid arguments? := by
  intro t r h
  unfold arguments? at h
  split at h
  · rename_i t
    have hsplit : t.takeWhile (· ≠ ')') ++ t.dropWhile (· ≠ ')') = t :=
      List.takeWhile_append_dropWhile
    have hhead := List.head?_dropWhile_not (fun c : Char => decide (c ≠ ')')) t
    cases hdrop : t.dropWhile (· ≠ ')') with
    | nil => rw [hdrop] at h; cases h
    | cons c s =>
      rw [hdrop] at h hhead hsplit
      obtain rfl : s = r := Option.some.inj h
      obtain rfl : c = ')' := by simpa using hhead
      exact ⟨'(' :: t.takeWhile (· ≠ ')'), ')', congrArg ('(' :: ·) hsplit.symm, by decide⟩
  · cases h

theorem endsSolid_arrayBounds? : EndsSolid arrayBounds? := by
  intro t r h
  unfold arrayBounds? at h
  split at h
  · rename_i s hs
    split at h
    · rename_i rest hrest
      obtain rfl : rest = r := Option.some.inj h
      have hblanks : t.takeWhile isBlank ++ '[' :: s = t := by
        rw [← hs, dropBlanks, List.takeWhile_append_dropWhile]
      have hdigits : s.takeWhile isDecimal ++ ']' :: rest = s := by
        rw [← hrest, List.takeWhile_append_dropWhile]
      refine ⟨t.takeWhile isBlank ++ '[' :: s.takeWhile isDecimal, ']', ?_, by decide⟩
      rw [List.append_assoc, List.cons_append, hdigits, hblanks]
    · cases h
  · cases h

/-- A type ends with a character that is not blank. -/
theorem endsSolid_afterType? : EndsSolid afterType? := by
  have hwords : EndsSolid (spacedPhrase? [["precision".toList], ["varying".toList]]) :=
    endsSolid_spacedPhrase? (by decide)
  have hzone : EndsSolid (spacedPhrase? [["with".toList, "time".toList, "zone".toList],
      ["without".toList, "time".toList, "zone".toList]]) :=
    endsSolid_spacedPhrase? (by decide)
  have hsign : EndsSolid (spacedPhrase? [["unsigned".toList], ["signed".toList],
      ["zerofill".toList]]) :=
    endsSolid_spacedPhrase? (by decide)
  have hunit : ∀ {f : Text → Option Text}, EndsSolid f →
      EndsSolid fun t => ((f t).map ((), ·)).map Prod.snd := by
    intro f hf t r h
    obtain ⟨_, hr, rfl⟩ := Option.map_eq_some_iff.mp h
    obtain ⟨s, hs, rfl⟩ := Option.map_eq_some_iff.mp hr
    exact hf t s hs
  -- Each part behind the word is left out or ends with a character that is not blank.
  have hprecise := endsSolid_word?.map hwords.getD
  have harguments := hprecise.map endsSolid_arguments?.getD
  have hzoned := harguments.map hzone.getD
  have harray := hzoned.map (hunit endsSolid_arrayBounds?).many
  have htype := harray.map (hunit hsign).many
  intro t r h
  refine htype t r (Eq.trans ?_ h)
  dsimp only
  rw [afterType?]
  cases word? t <;> rfl

theorem exists_word_of_afterType? {t r : Text} (h : afterType? t = some r) :
    ∃ w s, word? t = some (w, s) := by
  rw [afterType?] at h
  obtain ⟨⟨w, s⟩, hw, -⟩ := Option.bind_eq_some_iff.mp h
  exact ⟨w, s, hw⟩

/-! ### The parts of a definition -/

namespace ColumnDefinition

variable {t : Text} {d : ColumnDefinition}

theorem exists_of_read? (h : read? t = some d) :
    ∃ name r rest, NameSpan.read? t = some name ∧ dropBlanks1? name.rest = some r ∧
      afterType? r = some rest ∧ d = ⟨strip name.name, between r r rest, dropBlanks rest⟩ := by
  rw [read?] at h
  obtain ⟨name, hname, h⟩ := Option.bind_eq_some_iff.mp h
  obtain ⟨r, hr, h⟩ := Option.bind_eq_some_iff.mp h
  obtain ⟨rest, hrest, h⟩ := Option.bind_eq_some_iff.mp h
  exact ⟨name, r, rest, hname, hr, hrest, (Option.some.inj h).symm⟩

theorem strip_name (h : read? t = some d) : strip d.name = d.name := by
  obtain ⟨name, r, rest, -, -, -, rfl⟩ := exists_of_read? h
  exact strip_strip name.name

/-- The type begins with a word and ends where it was read to. -/
theorem stripped_type (h : read? t = some d) : d.type ≠ [] ∧ strip d.type = d.type := by
  obtain ⟨name, r, rest, -, -, hrest, rfl⟩ := exists_of_read? h
  obtain ⟨p, c, hsplit, hc⟩ := endsSolid_afterType? r rest hrest
  have hlength : r.length = (p ++ [c]).length + rest.length := by
    rw [hsplit, List.append_cons, List.length_append]
  have htype : between r r rest = p ++ [c] := by
    have h := between_append [] (p ++ [c]) rest hlength rfl
    rwa [List.nil_append, ← List.append_cons, ← hsplit] at h
  obtain ⟨w, s, hw⟩ := exists_word_of_afterType? hrest
  obtain ⟨hr, hne, hword⟩ := word?_eq_some hw
  show between r r rest ≠ [] ∧ strip (between r r rest) = between r r rest
  rw [htype]
  refine ⟨List.concat_ne_nil c p, strip_eq_self ?_ ?_⟩
  · -- The first character of the type is that of the word.
    have hhead : (p ++ [c]).head? = w.head? := by
      obtain ⟨x, w, rfl⟩ := List.exists_cons_of_ne_nil hne
      have h : (p ++ [c]).head? = r.head? := by
        rw [hsplit]
        cases p <;> rfl
      rw [h, hr]
      rfl
    rw [hhead]
    exact fun x hx => isBlank_eq_false_of (fun c => isWord_of_isBlank)
      (hword x (List.mem_of_mem_head? hx))
  · intro x hx
    rw [List.getLast?_concat] at hx
    exact Option.some.inj hx ▸ hc

end ColumnDefinition

/-! ### Constraints -/

theorem columnConstraints_kinds (attributes : Text) :
    ((columnConstraints attributes).map (·.kind)).Sublist
      [.primaryKey, .unique, .autoIncrement, .foreignKey, .check] := by
  have hflag : ∀ (b : Bool) (kind : ColumnConstraintKind),
      ((if b then [⟨kind, none⟩] else [] : List ColumnConstraint).map (·.kind)).Sublist [kind] := by
    intro b kind
    cases b with
    | false => exact List.nil_sublist _
    | true => exact List.Sublist.refl _
  have hvalued : ∀ (value : Option Text) (kind : ColumnConstraintKind),
      (((value.map fun v => (⟨kind, some v⟩ : ColumnConstraint)).toList).map (·.kind)).Sublist
        [kind] := by
    intro value kind
    cases value with
    | none => exact List.nil_sublist _
    | some v => exact List.Sublist.refl _
  -- Every attribute gives one constraint of its kind or none, and they are asked for in order.
  simp only [columnConstraints, List.map_append]
  exact ((((hflag _ .primaryKey).append (hflag _ .unique)).append
    (hflag _ .autoIncrement)).append (hvalued _ .foreignKey)).append (hvalued _ .check)

theorem mem_columnConstraints {attributes : Text} {k : ColumnConstraint} :
    k ∈ columnConstraints attributes ↔
      (hasPhrase ["primary".toList, "key".toList] (maskQuoted attributes) = true ∧
        k = ⟨.primaryKey, none⟩) ∨
      (hasPhrase ["unique".toList] (maskQuoted attributes) = true ∧ k = ⟨.unique, none⟩) ∨
      ((hasPhrase ["auto_increment".toList] (maskQuoted attributes) ||
        hasPhrase ["autoincrement".toList] (maskQuoted attributes)) = true ∧
          k = ⟨.autoIncrement, none⟩) ∨
      (∃ v ∈ references? attributes, ⟨.foreignKey, some v⟩ = k) ∨
      ∃ v ∈ checkPredicate? attributes, ⟨.check, some v⟩ = k := by
  simp only [columnConstraints, List.mem_append, List.mem_ite_nil_right, List.mem_singleton,
    Option.mem_toList, Option.mem_def, Option.map_eq_some_iff, List.any_cons, List.any_nil,
    Bool.or_false, or_assoc]

theorem checkPredicate?_ne_nil {attributes v : Text} (h : checkPredicate? attributes = some v) :
    v ≠ [] := by
  rw [checkPredicate?] at h
  obtain ⟨r, -, h⟩ := Option.bind_eq_some_iff.mp h
  obtain ⟨width, -, h⟩ := Option.bind_eq_some_iff.mp h
  dsimp only at h
  split at h
  · cases h
  · rename_i hne
    obtain rfl := Option.some.inj h
    exact fun hnil => hne (List.isEmpty_iff.mpr hnil)

/-- Whether the attributes of a column declare a constraint of the kind. -/
def declares (attributes : Text) (kind : ColumnConstraintKind) : Bool :=
  (columnConstraints attributes).any (·.kind = kind)

/-- A constraint is declared if its words or its value are found among the attributes. -/
theorem declares_eq (attributes : Text) (kind : ColumnConstraintKind) : declares attributes kind =
    match kind with
    | .primaryKey => hasPhrase ["primary".toList, "key".toList] (maskQuoted attributes)
    | .unique => hasPhrase ["unique".toList] (maskQuoted attributes)
    | .autoIncrement => hasPhrase ["auto_increment".toList] (maskQuoted attributes) ||
        hasPhrase ["autoincrement".toList] (maskQuoted attributes)
    | .foreignKey => (references? attributes).isSome
    | .check => (checkPredicate? attributes).isSome := by
  have hflag : ∀ (b : Bool) (k : ColumnConstraintKind),
      (if b then [⟨k, none⟩] else [] : List ColumnConstraint).any (·.kind = kind) =
        (b && decide (k = kind)) := by
    intro b k
    cases b with
    | false => rfl
    | true => exact Bool.or_false _
  have hvalued : ∀ (value : Option Text) (k : ColumnConstraintKind),
      ((value.map fun v => (⟨k, some v⟩ : ColumnConstraint)).toList).any (·.kind = kind) =
        (value.isSome && decide (k = kind)) := by
    intro value k
    cases value with
    | none => rfl
    | some v => exact Bool.or_false _
  simp only [declares, columnConstraints, List.any_append, hflag, hvalued, List.any_cons,
    List.any_nil, Bool.or_false]
  cases kind <;> simp

/-- A column is a primary key by itself if its attributes say so outside quotes. -/
theorem has_primaryKey_column (d : ColumnDefinition) : d.column.has .primaryKey =
    hasPhrase ["primary".toList, "key".toList] (maskQuoted d.attributes) :=
  declares_eq d.attributes .primaryKey

theorem nullable_eq_false_of_primaryKey {d : ColumnDefinition}
    (h : d.column.has .primaryKey = true) : d.column.nullable = false := by
  rw [has_primaryKey_column] at h
  show (_ && !hasPhrase _ _) = false
  rw [h, Bool.not_true, Bool.and_false]

/-! ### Columns -/

/-- What holds of a column that is read from a definition. -/
structure Column.IsSound (c : Column) : Prop where
  name_ne_nil : c.name ≠ []
  strip_name : strip c.name = c.name
  type_ne_nil : c.type ≠ []
  strip_type : strip c.type = c.type
  /-- A primary key always has a value. -/
  key : c.has .primaryKey = true → c.nullable = false
  /-- At most one constraint of each kind, in this order. -/
  kinds : (c.constraints.map (·.kind)).Sublist
    [.primaryKey, .unique, .autoIncrement, .foreignKey, .check]
  check : ∀ k ∈ c.constraints, k.kind = .check → ∃ v, k.value = some v ∧ v ≠ []

theorem ColumnDefinition.isSound {t : Text} {d : ColumnDefinition} (h : read? t = some d)
    (hname : d.name ≠ []) : d.column.IsSound where
  name_ne_nil := hname
  strip_name := strip_name h
  type_ne_nil := (stripped_type h).1
  strip_type := (stripped_type h).2
  key := nullable_eq_false_of_primaryKey
  kinds := columnConstraints_kinds d.attributes
  check := by
    intro k hk hkind
    rcases mem_columnConstraints.mp hk with ⟨-, rfl⟩ | ⟨-, rfl⟩ | ⟨-, rfl⟩ | ⟨v, -, rfl⟩ |
      ⟨v, hv, rfl⟩
    · exact nomatch hkind
    · exact nomatch hkind
    · exact nomatch hkind
    · exact nomatch hkind
    · exact ⟨v, rfl, checkPredicate?_ne_nil hv⟩

namespace Column

theorem IsSound.uncommented {c : Column} (h : c.IsSound) : c.uncommented.IsSound :=
  ⟨h.name_ne_nil, h.strip_name, h.type_ne_nil, h.strip_type, h.key, h.kinds, h.check⟩

/-- A column is read from the parts of its definition. -/
theorem read_eq_ok_iff {t : Text} {c : Column} : Column.read t = .ok c ↔
    isTableLevel t = false ∧
      ∃ d, ColumnDefinition.read? t = some d ∧ d.name ≠ [] ∧ d.column = c := by
  rw [Column.read]
  cases isTableLevel t with
  | true => exact ⟨fun h => (nomatch h), fun h => (nomatch h.1)⟩
  | false =>
    rw [if_neg Bool.false_ne_true]
    cases ColumnDefinition.read? t with
    | none => exact ⟨fun h => (nomatch h), fun ⟨_, _, h, _⟩ => (nomatch h)⟩
    | some d =>
      simp only [Option.some.injEq, true_and, exists_eq_left']
      cases hname : d.name.isEmpty with
      | true =>
        rw [List.isEmpty_iff] at hname
        exact ⟨fun h => (nomatch h), fun h => absurd hname h.1⟩
      | false =>
        rw [← Bool.not_eq_true, List.isEmpty_iff] at hname
        exact ⟨fun h => ⟨hname, Except.ok.inj h⟩, fun h => congrArg Except.ok h.2⟩

/-- A column that is parsed is the one that its definition declares. -/
theorem exists_of_parse {definition : Source} {line : Option Nat} {c : Column}
    (h : Column.parse definition line = .ok c) : ∃ t d, definition.solid? = some t ∧
      ColumnDefinition.read? (strip t) = some d ∧ d.column = c := by
  rw [Column.parse] at h
  cases hsolid : definition.solid? with
  | none =>
    rw [hsolid] at h
    cases h
  | some t =>
    rw [hsolid] at h
    cases hread : Column.read (strip t) with
    | error e =>
      simp only [hread] at h
      cases h
    | ok c' =>
      simp only [hread] at h
      obtain rfl : c' = c := Except.ok.inj h
      obtain ⟨-, d, hd, -, hc⟩ := read_eq_ok_iff.mp hread
      exact ⟨t, d, rfl, hd, hc⟩

/-- **A column that is read is sound.** -/
theorem isSound_of_read {t : Text} {c : Column} (h : Column.read t = .ok c) : c.IsSound := by
  obtain ⟨-, d, hd, hname, rfl⟩ := read_eq_ok_iff.mp h
  exact ColumnDefinition.isSound hd hname

/-! ### Lists of columns -/

theorem read_of_readPart {part : Text × Nat} {c : Column} (h : readPart part = .ok c) :
    Column.read part.1 = .ok c := by
  rw [readPart] at h
  cases hread : Column.read part.1 with
  | error e => rw [hread] at h; cases h
  | ok c' => exact congrArg Except.ok (Except.ok.inj (hread ▸ h))

theorem map_fst_columnParts (t : Text) :
    (((splitCommas t).zipIdx).filter fun part => isColumnPart part.1).map Prod.fst =
      (splitCommas t).filter isColumnPart := by
  show (((splitCommas t).zipIdx).filter (isColumnPart ∘ Prod.fst)).map Prod.fst = _
  rw [← List.filter_map, List.zipIdx_map_fst]

/-- The columns of a list are those of its parts that are columns, in order. -/
theorem readAll_eq_ok {t : Text} {cs : List Column} (h : Column.readAll t = .ok cs) :
    List.Forall₂ (fun part c => Column.read part = .ok c)
      ((splitCommas t).filter isColumnPart) cs := by
  have hparts := (Report.forall₂_of_mapM_ok h).imp fun part c => read_of_readPart
  rw [← map_fst_columnParts, List.forall₂_map_left_iff]
  exact hparts

/-- The definitions of the columns of a list, in order. -/
def definitions (t : Text) : List ColumnDefinition :=
  ((splitCommas t).filter isColumnPart).filterMap ColumnDefinition.read?

theorem map_column_definitions {t : Text} {cs : List Column} (h : Column.readAll t = .ok cs) :
    (definitions t).map ColumnDefinition.column = cs := by
  have hparts := readAll_eq_ok h
  rw [definitions]
  clear h
  generalize (splitCommas t).filter isColumnPart = parts at hparts
  induction hparts with
  | nil => rfl
  | cons hpart _ ih =>
    obtain ⟨-, d, hd, -, rfl⟩ := read_eq_ok_iff.mp hpart
    rw [List.filterMap_cons_some hd, List.map_cons, ih]

theorem isSound_of_readAll {t : Text} {cs : List Column} (h : Column.readAll t = .ok cs) :
    ∀ c ∈ cs, c.IsSound := by
  intro c hc
  obtain ⟨part, -, hpart⟩ := Report.exists_of_forall₂ (readAll_eq_ok h) hc
  exact isSound_of_read hpart

end Column

end TableTypes
