import TableTypes.Proofs.Column.Values
import TableTypes.Proofs.Identifier

/-!
# Reading back column definitions

A definition that is written with a name, a type and clauses of different kinds is read as the
column it declares, whatever the order of the clauses (`Column.parse_text`).
-/

namespace TableTypes

open Text

/-! ### The name -/

/-- The words, in lower case, that begin a constraint of the table. -/
def tableLevelWords : List Text :=
  ["primary".toList, "foreign".toList, "unique".toList, "index".toList, "key".toList,
    "constraint".toList, "check".toList]

theorem isTableLevel_bareword (b : Bareword tableLevelWords) {s : Text}
    (hs : atWordEnd s = true) : isTableLevel (b.text ++ s) = false := by
  have hdrop : dropBlanks (b.text ++ s) = b.text ++ s := dropBlanks_word b.ne_nil b.forall_word s
  have hnone : anyPhrase? tableLevelPhrases (b.text ++ s) = none :=
    anyPhrase?_eq_none (by decide) b.forall_word hs b.free
  rw [isTableLevel, hdrop, hnone]
  rfl

/-! ### The type -/

/-- A text with nothing at its front that could belong to a type in front of it. -/
structure EndsType (s : Text) : Prop where
  word : atWordEnd s = true
  precision : spacedPhrase? [["precision".toList], ["varying".toList]] s = none
  arguments : arguments? s = none
  zone : spacedPhrase? [["with".toList, "time".toList, "zone".toList],
    ["without".toList, "time".toList, "zone".toList]] s = none
  bounds : arrayBounds? s = none
  sign : spacedPhrase? [["unsigned".toList], ["signed".toList], ["zerofill".toList]] s = none

/-- No clause goes on with a type. -/
theorem endsType_clausesText (cs : List Clause) : EndsType (clausesText cs) := by
  cases cs with
  | nil => exact ⟨rfl, rfl, rfl, rfl, rfl, rfl⟩
  | cons c cs => cases c <;> exact ⟨rfl, rfl, rfl, rfl, rfl, rfl⟩

theorem many_none {α : Type} {m : Text → Option (α × Text)} {t : Text} (h : m t = none) :
    many m t = ([], t) := by
  rw [many]
  cases t.length with
  | zero => rfl
  | succ n => rw [manyUpTo, h]

theorem skip_none {read : Text → Option Text} {t : Text} (h : read t = none) : skip read t = t := by
  rw [skip, h]
  rfl

section

variable {s : Text}

/-- Arguments without a closing parenthesis are passed over up to the one behind them. -/
theorem skip_arguments?_of_forall {w : Text} (hw : ∀ c ∈ w, c ≠ ')') (s : Text) :
    skip arguments? ('(' :: (w ++ ')' :: s)) = s := by
  rw [skip, arguments?, dropWhile_ne fun h => hw _ h rfl]
  rfl

/-- The arguments of a type are passed over up to their parenthesis. -/
theorem skip_arguments (a : TypeArguments) (hs : EndsType s) :
    skip arguments? (a.text ++ s) = s := by
  have hdigits : ∀ d : Digits, ∀ c ∈ d.text, c ≠ ')' := by
    rintro d c hc rfl
    exact absurd (d.forall_digit _ hc) (by decide)
  cases a with
  | none => exact skip_none hs.arguments
  | one d =>
    have h := skip_arguments?_of_forall (hdigits d) s
    rw [TypeArguments.text, List.cons_append, List.append_assoc]
    exact h
  | two d e =>
    have h := skip_arguments?_of_forall (w := d.text ++ ',' :: e.text) (by
      intro c hc
      rw [List.mem_append, List.mem_cons] at hc
      rcases hc with hc | rfl | hc
      · exact hdigits d c hc
      · decide
      · exact hdigits e c hc) s
    rw [List.append_assoc, List.cons_append] at h
    rw [TypeArguments.text, List.cons_append, List.append_assoc, List.cons_append,
      List.append_assoc]
    exact h

/-- A type goes on behind its word to the end of its arguments, if nothing behind them belongs to
it. -/
theorem afterType?_of_word {w x : Text} (hword : word? (w ++ x) = some (w, x))
    (hfirst : spacedPhrase? [["precision".toList], ["varying".toList]] x = none)
    (harguments : skip arguments? x = s) (hs : EndsType s) : afterType? (w ++ x) = some s := by
  have harray : many (fun s => (arrayBounds? s).map ((), ·)) s = ([], s) :=
    many_none (by rw [hs.bounds]; rfl)
  have hsigns : many (fun s => (spacedPhrase?
      [["unsigned".toList], ["signed".toList], ["zerofill".toList]] s).map ((), ·)) s =
        ([], s) := many_none (by rw [hs.sign]; rfl)
  rw [afterType?, hword]
  show some _ = _
  rw [skip_none hfirst, harguments, skip_none hs.zone, harray, hsigns]

/-- **A type ends where nothing that follows belongs to it.** -/
theorem afterType?_append (t : TypeText) (hs : EndsType s) :
    afterType? (t.text ++ s) = some s := by
  have hend : atWordEnd (t.arguments.text ++ s) = true := by
    cases t.arguments with
    | none => exact hs.word
    | _ => rfl
  have hfirst : spacedPhrase? [["precision".toList], ["varying".toList]]
      (t.arguments.text ++ s) = none := by
    cases t.arguments with
    | none => exact hs.precision
    | _ => rfl
  rw [TypeText.text, List.append_assoc]
  exact afterType?_of_word (word?_append t.ne_nil t.forall_word hend) hfirst (skip_arguments _ hs) hs

/-! ### The definition -/

/-- The text begins with a type, and `s` follows the type. -/
structure BeginsType (type s : Text) : Prop where
  solid : dropBlanks (type ++ s) = type ++ s
  ends : afterType? (type ++ s) = some s

theorem EndsType.begins (hs : EndsType s) (t : TypeText) : BeginsType t.text s where
  solid := by
    rw [TypeText.text, List.append_assoc]
    exact dropBlanks_word t.ne_nil t.forall_word _
  ends := afterType?_append t hs

section

variable {u w type : Text} {n : NameSpan} (hname : NameSpan.read? u = some n)
  (hstrip : strip n.name = w) (htype : BeginsType type s) (hrest : n.rest = ' ' :: (type ++ s))

include hname hstrip htype hrest

/-- A definition is cut into its name, its type and what follows the blanks behind it. -/
theorem ColumnDefinition.read?_of_name :
    ColumnDefinition.read? u = some ⟨w, type, dropBlanks s⟩ := by
  have hblank : dropBlanks1? n.rest = some (type ++ s) := by
    rw [hrest]
    exact congrArg some htype.solid
  have hcut : between (type ++ s) (type ++ s) s = type :=
    between_append [] type s List.length_append rfl
  rw [ColumnDefinition.read?, hname, Option.bind_eq_bind, Option.bind_some, hblank,
    Option.bind_eq_bind, Option.bind_some, htype.ends, Option.bind_some, hstrip, hcut]
  rfl

/-- **A name and a type are read as a column**, whatever follows them. -/
theorem Column.read_of_name (hlevel : isTableLevel u = false) (hne : w ≠ []) :
    Column.read u = .ok (ColumnDefinition.column ⟨w, type, dropBlanks s⟩) := by
  have hempty : w.isEmpty = false := List.isEmpty_eq_false_iff.mpr hne
  rw [Column.read, hlevel, ColumnDefinition.read?_of_name hname hstrip htype hrest]
  simp only [hempty]
  rfl

end

theorem Column.read_bareword {reserved : List Text} (n : Bareword reserved) {type : Text}
    (htype : BeginsType type s) (hlevel : isTableLevel (n.text ++ ' ' :: (type ++ s)) = false) :
    Column.read (n.text ++ ' ' :: (type ++ s)) =
      .ok (ColumnDefinition.column ⟨n.text, type, dropBlanks s⟩) := by
  have hname : NameSpan.name ⟨n.text ++ ' ' :: (type ++ s), ' ' :: (type ++ s),
      ' ' :: (type ++ s)⟩ = n.text := NameSpan.name_word _ _
  exact Column.read_of_name (NameSpan.read?_word n.ne_nil n.forall_word rfl)
    (hname.symm ▸ n.strip_text) htype rfl hlevel n.ne_nil

theorem Column.read_append (n : Bareword tableLevelWords) (t : TypeText) (hs : EndsType s) :
    Column.read (n.text ++ ' ' :: (t.text ++ s)) =
      .ok (ColumnDefinition.column ⟨n.text, t.text, dropBlanks s⟩) :=
  Column.read_bareword n (hs.begins t) (isTableLevel_bareword n rfl)

/-- A definition with attributes behind its name and its type. -/
def columnText (n : Bareword tableLevelWords) (t : TypeText) (attributes : Text) : Text :=
  n.text ++ ' ' :: (t.text ++ ' ' :: attributes)

/-- A definition with attributes that do not belong to the type is read as the column of these
attributes without the blanks behind them. -/
theorem Column.parse_of_strip (n : Bareword tableLevelWords) (t : TypeText) {a b : Text}
    (hstrip : strip (columnText n t a) = columnText n t b) (hb : EndsType (' ' :: b))
    (hhead : ∀ c ∈ b.head?, isBlank c = false) (line : Option Nat) :
    Column.parse (.text (columnText n t a)) line =
      .ok (ColumnDefinition.column ⟨n.text, t.text, b⟩) := by
  have hsolid : (columnText n t a).isAllBlank = false :=
    isAllBlank_word n.ne_nil n.forall_word _
  have hattributes : dropBlanks (' ' :: b) = b := by
    rw [dropBlanks_space]
    cases b with
    | nil => rfl
    | cons c b => exact dropBlanks_of_head b (hhead c rfl)
  have hread := Column.read_append n t hb
  rw [hattributes] at hread
  rw [Column.parse, solid?_of_isAllBlank hsolid]
  show (Column.read (strip (columnText n t a))).mapError _ = _
  rw [hstrip, columnText, hread]
  rfl

theorem Column.parse_columnText (n : Bareword tableLevelWords) (t : TypeText) {a : Text}
    (ha : EndsType (' ' :: a)) (hhead : ∀ c ∈ a.head?, isBlank c = false)
    (hlast : ∃ c ∈ a.getLast?, isBlank c = false) (line : Option Nat) :
    Column.parse (.text (columnText n t a)) line =
      .ok (ColumnDefinition.column ⟨n.text, t.text, a⟩) := by
  obtain ⟨x, hx, hblank⟩ := hlast
  have hend : (columnText n t a).getLast? = some x := by
    rw [columnText, List.getLast?_append, List.getLast?_cons, List.getLast?_append,
      List.getLast?_cons, Option.mem_def.mp hx]
    rfl
  refine Column.parse_of_strip n t ?_ ha hhead line
  refine strip_eq_self (isBlank_head?_word n.ne_nil n.forall_word _) ?_
  intro c hc
  obtain rfl : x = c := Option.some.inj (hend.symm.trans hc)
  exact hblank

end

section

variable {reserved : List Text} (d : ColumnText reserved)

/-- There is no blank in a type. -/
theorem TypeText.forall_solid (t : TypeText) : ∀ c ∈ t.text, isBlank c = false := by
  have hdigits : ∀ d : Digits, ∀ c ∈ d.text, isBlank c = false :=
    fun d c hc => isBlank_of_isAsciiWord (d.forall_word c hc)
  intro c hc
  rw [TypeText.text, List.mem_append] at hc
  rcases hc with hc | hc
  · exact isBlank_of_isAsciiWord (t.forall_word c hc)
  · cases h : t.arguments with
    | none => rw [h] at hc; cases hc
    | one d =>
      simp only [h, TypeArguments.text, List.mem_cons, List.mem_append, List.not_mem_nil,
        or_false] at hc
      rcases hc with rfl | hc | rfl
      · rfl
      · exact hdigits d c hc
      · rfl
    | two d e =>
      simp only [h, TypeArguments.text, List.mem_cons, List.mem_append, List.not_mem_nil,
        or_false] at hc
      rcases hc with rfl | hc | rfl | hc | rfl
      · rfl
      · exact hdigits d c hc
      · rfl
      · exact hdigits e c hc
      · rfl

/-- There are no blanks around a definition. -/
theorem ColumnText.strip_text : strip d.text = d.text := by
  obtain ⟨x, hx⟩ : ∃ x, d.type.text.getLast? = some x := by
    apply Option.ne_none_iff_exists'.mp
    rw [ne_eq, List.getLast?_eq_none_iff, TypeText.text, List.append_eq_nil_iff]
    exact fun h => d.type.ne_nil h.1
  have hlast : ∀ y ∈ (d.name.text ++ ' ' :: d.type.text).getLast?, isBlank y = false := by
    intro y hy
    rw [List.getLast?_append, List.getLast?_cons, hx] at hy
    obtain rfl : x = y := Option.some.inj hy
    exact d.type.forall_solid x (List.mem_of_mem_getLast? hx)
  have hsplit : d.text = (d.name.text ++ ' ' :: d.type.text) ++ clausesText d.clauses := by
    rw [d.text_eq, List.append_assoc]
    rfl
  apply strip_eq_self
  · rw [d.text_eq]
    exact isBlank_head?_word d.name.ne_nil d.name.forall_word _
  · rw [hsplit]
    exact getLast?_clausesText _ hlast d.clauses

theorem ColumnText.solid?_text : (Source.text d.text).solid? = some d.text := by
  have hsolid : d.text.isAllBlank = false := by
    rw [d.text_eq]
    exact isAllBlank_word d.name.ne_nil d.name.forall_word _
  exact solid?_of_isAllBlank hsolid

/-- The attributes of a definition whose clauses are of different kinds declare its column. -/
theorem ColumnDefinition.column_text (hkinds : (d.clauses.map Clause.kind).Nodup) :
    ColumnDefinition.column ⟨d.name.text, d.type.text, attributesText d.clauses⟩ = d.column := by
  rw [ColumnDefinition.column, isNullable_clauses, defaultValue?_clauses hkinds,
    columnConstraints_clauses, columnComment?_clauses]
  rfl

end

/-- **Column definitions decode back to what was written**, for any order of the clauses: the name,
the type, whether a value may be missing, the default value, the constraints and the comment. -/
theorem Column.parse_text (d : ColumnText tableLevelWords)
    (hkinds : (d.clauses.map Clause.kind).Nodup) (line : Option Nat) :
    Column.parse (.text d.text) line = .ok d.column := by
  have hread := Column.read_append d.name d.type (endsType_clausesText d.clauses)
  have hcolumn : ColumnDefinition.column ⟨d.name.text, d.type.text,
      dropBlanks (clausesText d.clauses)⟩ = d.column :=
    ColumnDefinition.column_text d hkinds
  rw [← d.text_eq, hcolumn] at hread
  rw [Column.parse, d.solid?_text]
  simp only [d.strip_text, hread]
  rfl

/-- A name and a type alone are read as a column without attributes. -/
theorem Column.parse_bare (n : Bareword tableLevelWords) (t : TypeText) (line : Option Nat) :
    Column.parse (.text (n.text ++ ' ' :: t.text)) line =
      .ok (ColumnDefinition.column ⟨n.text, t.text, []⟩) := by
  have h := Column.parse_text ⟨n, t, []⟩ List.nodup_nil line
  rw [ColumnText.text_eq] at h
  have htext : t.text ++ clausesText [] = t.text := List.append_nil _
  rw [htext] at h
  exact h

/-- A definition with one clause of each kind, in no particular order. -/
def priceText : ColumnText tableLevelWords where
  name := ⟨"price".toList, by decide, rfl, by decide⟩
  type := ⟨"DECIMAL".toList, by decide, rfl,
    .two ⟨"10".toList, by decide, rfl⟩ ⟨"2".toList, by decide, rfl⟩⟩
  clauses := [.comment "UNIQUE, not (null)".toList rfl, .unique, .default (.quoted "--".toList rfl),
    .autoIncrement, .notNull, .primaryKey]

theorem Column.parse_text_price :
    (priceText.clauses.map Clause.kind).Nodup ∧
      Column.parse (.text ("price DECIMAL(10,2) COMMENT 'UNIQUE, not (null)' UNIQUE " ++
        "DEFAULT '--' AUTO_INCREMENT NOT NULL PRIMARY KEY").toList) none =
          .ok ⟨"price".toList, "DECIMAL(10,2)".toList, false, some "--".toList,
            [⟨.primaryKey, none⟩, ⟨.unique, none⟩, ⟨.autoIncrement, none⟩],
            some "UNIQUE, not (null)".toList⟩ :=
  ⟨by decide, Column.parse_text priceText (by decide) none⟩

end TableTypes
