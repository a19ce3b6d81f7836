import TableTypes.Proofs.Column.Decoding
import TableTypes.Proofs.Scan.Literal

/-!
# Lists of columns with comments

A list of columns is read part by part (`Column.readAll_of_parts`).  In a list of columns that end
with the literals of their comments, every column is found and the scan agrees with the reader of
comments on the end of every literal, if and only if in no comment a backslash stands directly in
front of a quote or at the end (`Column.parseAll_commentedList`).
-/

namespace TableTypes

open Text

/-! ### Part after part -/

theorem isColumnPart_of_read {t : Text} {c : Column} (ht : t ≠ []) (h : Column.read t = .ok c) :
    isColumnPart t = true := by
  have hlevel : isTableLevel t = false := by
    rw [← Bool.not_eq_true]
    intro hlevel
    rw [Column.read, if_pos hlevel] at h
    cases h
  rw [isColumnPart, hlevel, Bool.not_false, Bool.and_true, Bool.not_eq_true', ← Bool.not_eq_true,
    List.isEmpty_iff]
  exact ht

section

variable {α : Type} {text : α → Text} (column : α → Column)

theorem mapM_readPart {ds : List α}
    (h : ∀ d ∈ ds, isColumnPart (text d) = true → Column.read (text d) = .ok (column d)) (n : Nat) :
    (((ds.map text).zipIdx n).filter fun part => isColumnPart part.1).mapM Column.readPart =
      .ok ((ds.filter fun d => isColumnPart (text d)).map column) := by
  induction ds generalizing n with
  | nil => rfl
  | cons d ds ih =>
    have hrest := ih (fun x hx => h x (List.mem_cons_of_mem d hx)) (n + 1)
    rw [List.map_cons, List.zipIdx_cons, List.filter_cons, List.filter_cons]
    by_cases hpart : isColumnPart (text d) = true
    · have hfirst : Column.readPart (text d, n) = .ok (column d) := by
        rw [Column.readPart, h d List.mem_cons_self hpart]
        rfl
      rw [if_pos hpart, if_pos hpart, List.mapM_cons, hfirst, hrest]
      rfl
    · rw [if_neg hpart, if_neg hpart]
      exact hrest

/-- Columns are read from a list part after part, and parts that are no columns are left out. -/
theorem Column.readAll_of_parts {t : Text} {ds : List α} (ht : splitCommas t = ds.map text)
    (h : ∀ d ∈ ds, isColumnPart (text d) = true → Column.read (text d) = .ok (column d)) :
    Column.readAll t = .ok ((ds.filter fun d => isColumnPart (text d)).map column) := by
  rw [Column.readAll, ht]
  exact mapM_readPart column h 0

end

/-! ### Columns with comments -/

/-- An integer column with a comment. -/
structure CommentedColumn where
  name : Bareword tableLevelWords
  comment : Text

namespace CommentedColumn

/-- The definition of the column in front of its literal. -/
def front (d : CommentedColumn) : Text :=
  d.name.text ++ " INT COMMENT ".toList

/-- The definition of the column. -/
def text (d : CommentedColumn) : Text :=
  d.front ++ commentLiteral d.comment

/-- The column that is read. -/
def column (d : CommentedColumn) : Column :=
  ColumnDefinition.column ⟨d.name.text, "INT".toList, "COMMENT ".toList ++ commentLiteral d.comment⟩

theorem text_ne_nil (d : CommentedColumn) : d.text ≠ [] := by
  intro h
  rw [text, front, List.append_assoc, List.append_eq_nil_iff] at h
  exact d.name.ne_nil h.1

/-- Every definition is read as a column with its name, whatever stands in its comment. -/
theorem read_text (d : CommentedColumn) : Column.read d.text = .ok d.column := by
  have hends : EndsType (" COMMENT ".toList ++ commentLiteral d.comment) :=
    ⟨rfl, rfl, rfl, rfl, rfl, rfl⟩
  have hsplit : d.text = d.name.text ++
      ' ' :: ("INT".toList ++ (" COMMENT ".toList ++ commentLiteral d.comment)) := by
    rw [text, front, List.append_assoc]
    rfl
  rw [hsplit]
  exact Column.read_append d.name ⟨"INT".toList, by decide, rfl, .none⟩ hends

theorem plain_front (d : CommentedColumn) : d.front.all isPlain = true := by
  rw [front, List.all_append, all_isPlain_of_forall d.name.forall_word]
  rfl

theorem isLevel_front (d : CommentedColumn) : IsLevel true d.front := by
  apply IsLevel.of_plain d.plain_front
  have hname : ∀ c ∈ d.name.text, Region.code.weight c = 0 := by
    intro c hc
    have hopen : c ≠ '(' := fun h => absurd (d.name.forall_word c hc) (by rw [h]; decide)
    have hclose : c ≠ ')' := fun h => absurd (d.name.forall_word c hc) (by rw [h]; decide)
    rw [Region.weight, if_pos rfl, if_neg hopen, if_neg hclose]
  have hword : (" INT COMMENT ".toList).all (Region.code.weight · = 0) = true := rfl
  intro c hc
  rcases List.mem_append.mp hc with hc | hc
  · exact hname c hc
  · exact of_decide_eq_true (List.all_eq_true.mp hword c hc)

theorem comma_not_mem_front (d : CommentedColumn) : ',' ∉ d.front := by
  rw [front, List.mem_append]
  rintro (h | h)
  · exact absurd (d.name.forall_word _ h) (by decide)
  · exact absurd h (by decide)

/-- Without escaped quotes a definition is a part of a list. -/
theorem isPart_text {d : CommentedColumn} (h : ¬ EscapesQuote d.comment) : IsPart d.text := by
  have hfront : ∀ m ∈ scan true d.front, m.region = .code := region_of_plain d.plain_front
  have hliteral := region_commentLiteral h
  have hjoint : Seals true d.front (commentLiteral d.comment) := Seals.of_plain d.plain_front
  have hscan := d.isLevel_front.scan_append hjoint
  constructor
  · exact d.isLevel_front.append (isLevel_commentLiteral h) hjoint
  · intro m hm
    rw [text, hscan, List.mem_append] at hm
    rcases hm with hm | hm
    · rw [hfront m hm]; decide
    · rcases hliteral m hm with hr | ⟨hr, -⟩ <;> rw [hr] <;> decide
  · intro m hm
    rw [text, hscan, List.mem_append] at hm
    rcases hm with hm | hm
    · have hchar : m.char ∈ d.front := by
        have hmem := List.mem_map_of_mem (f := Mark.char) hm
        rw [scan_eq_marks, Spot.map_char_marks] at hmem
        exact hmem
      have hcomma : m.char ≠ ',' := fun hc => d.comma_not_mem_front (hc ▸ hchar)
      rw [decide_eq_false hcomma, Bool.false_and]
    · rcases hliteral m hm with hr | ⟨-, hc⟩
      · rw [Mark.isTopLevel, hr]
        simp
      · rw [hc]
        rfl
  · apply strip_eq_self
    · rw [text, front, List.append_assoc]
      exact isBlank_head?_word d.name.ne_nil d.name.forall_word _
    · have hlast : d.text.getLast? = some '\'' := by
        rw [text, commentLiteral, Quote.enclose, List.getLast?_append, List.getLast?_cons,
          List.getLast?_concat]
        rfl
      rw [hlast]
      rintro x ⟨⟩
      rfl
  · exact d.text_ne_nil

end CommentedColumn

/-! ### Lists of columns with comments -/

/-- The list of the columns. -/
def commentedList (ds : List CommentedColumn) : Text :=
  join [',', ' '] (ds.map CommentedColumn.text)

/-- What stands in front of the literal of `d` in a list in which `d` follows the columns `ds`. -/
def frontOf (ds : List CommentedColumn) (d : CommentedColumn) : Text :=
  join [',', ' '] (ds.map CommentedColumn.text ++ [d.front])

/-- The scan and the reader of comments see the end of the literal at position `n` at the same
place. -/
def AgreesAt (t : Text) (n : Nat) : Prop :=
  literalWidth? .single ((scan true t).drop n) =
    (columnLiteral? '\'' (t.drop (n + 1))).map (·.length + 2)

/-- The scan and the reader of comments agree on every literal of the list. -/
def LiteralsAgree (ds : List CommentedColumn) : Prop :=
  ∀ xs d ys, ds = xs ++ d :: ys → AgreesAt (commentedList ds) (frontOf xs d).length

/-- The list as it goes on behind the literal of one of its columns. -/
theorem commentedList_split (xs : List CommentedColumn) (d : CommentedColumn)
    (ys : List CommentedColumn) : ∃ s : Text, s.head? ≠ some '\'' ∧
      commentedList (xs ++ d :: ys) = frontOf xs d ++ (commentLiteral d.comment ++ s) := by
  refine ⟨(ys.map CommentedColumn.text).flatMap ([',', ' '] ++ ·), ?_, ?_⟩
  · cases ys with
    | nil => rintro ⟨⟩
    | cons y ys => rintro ⟨⟩
  · have htext : d.text = d.front ++ commentLiteral d.comment := rfl
    cases xs with
    | nil =>
      rw [commentedList, frontOf, List.nil_append, List.map_cons, List.map_nil, List.nil_append,
        join_cons, join_cons, List.flatMap_nil, List.append_nil, htext, List.append_assoc]
    | cons x xs =>
      rw [commentedList, frontOf, List.cons_append, List.map_cons, List.map_append, List.map_cons,
        List.map_cons, List.cons_append, join_cons, join_cons, List.flatMap_append,
        List.flatMap_append, List.flatMap_cons, List.flatMap_singleton, htext]
      simp only [List.append_assoc]

/-- What stands in front of a literal is level, if no quote is escaped there. -/
theorem isLevel_frontOf {xs : List CommentedColumn} (hxs : ∀ x ∈ xs, ¬ EscapesQuote x.comment)
    (d : CommentedColumn) : IsLevel true (frontOf xs d) := by
  apply IsLevel.join
  intro p hp
  rcases List.mem_append.mp hp with hp | hp
  · obtain ⟨x, hx, rfl⟩ := List.mem_map.mp hp
    exact (CommentedColumn.isPart_text (hxs x hx)).level
  · rw [List.mem_singleton] at hp
    rw [hp]
    exact d.isLevel_front

theorem getLast?_frontOf (xs : List CommentedColumn) (d : CommentedColumn) :
    (frontOf xs d).getLast? = some ' ' := by
  have hfront : d.front.getLast? = some ' ' := by
    rw [CommentedColumn.front, List.getLast?_append]
    rfl
  cases xs with
  | nil =>
    rw [frontOf, List.map_nil, List.nil_append, join_cons, List.flatMap_nil, List.append_nil]
    exact hfront
  | cons x xs =>
    rw [frontOf, List.map_cons, List.cons_append, join_cons, List.flatMap_append,
      List.flatMap_singleton, List.getLast?_append, List.getLast?_append, List.getLast?_append,
      hfront]
    rfl

/-- Behind columns without escaped quotes, the scan and the reader of comments agree on a literal if
and only if no quote is escaped in it. -/
theorem agreesAt_frontOf {xs : List CommentedColumn} (hxs : ∀ x ∈ xs, ¬ EscapesQuote x.comment)
    (d : CommentedColumn) (ys : List CommentedColumn) :
    AgreesAt (commentedList (xs ++ d :: ys)) (frontOf xs d).length ↔ ¬ EscapesQuote d.comment := by
  obtain ⟨s, hs, hlist⟩ := commentedList_split xs d ys
  have hlevel := isLevel_frontOf hxs d
  have hjoint : Seals true (frontOf xs d) (commentLiteral d.comment ++ s) :=
    Seals.of_last hlevel.place (getLast?_frontOf xs d) (by decide)
  have hmarks : (scan true (frontOf xs d ++ (commentLiteral d.comment ++ s))).drop
      (frontOf xs d).length = scan true (commentLiteral d.comment ++ s) := by
    rw [hlevel.scan_append hjoint]
    apply List.drop_left'
    rw [scan_eq_marks, Spot.length_marks]
  have htext : (frontOf xs d ++ (commentLiteral d.comment ++ s)).drop
      ((frontOf xs d).length + 1) = (commentLiteral d.comment ++ s).drop 1 := by
    rw [← List.drop_drop, List.drop_left]
  rw [AgreesAt, hlist, hmarks, htext, columnLiteral?_commentLiteral _ hs,
    literalWidth?_commentLiteral _ hs]

/-- The scan and the reader of comments agree on every literal if and only if no comment escapes a
quote. -/
theorem literalsAgree_iff (ds : List CommentedColumn) :
    LiteralsAgree ds ↔ ∀ d ∈ ds, ¬ EscapesQuote d.comment := by
  constructor
  · intro hagree d hd hescape
    -- The scan reaches the first comment that escapes a quote in code, so that is where they differ.
    have hsome : (ds.find? fun x => decide (EscapesQuote x.comment)).isSome = true :=
      List.find?_isSome.mpr ⟨d, hd, decide_eq_true hescape⟩
    obtain ⟨x, hx⟩ := Option.isSome_iff_exists.mp hsome
    obtain ⟨hescape, xs, ys, rfl, hxs⟩ := List.find?_eq_some_iff_append.mp hx
    have hfirst : ∀ y ∈ xs, ¬ EscapesQuote y.comment := by
      intro y hy
      have hnot := hxs y hy
      rw [Bool.not_eq_true', decide_eq_false_iff_not] at hnot
      exact hnot
    exact (agreesAt_frontOf hfirst x ys).mp (hagree xs x ys rfl) (of_decide_eq_true hescape)
  · rintro hgood xs d ys rfl
    refine (agreesAt_frontOf (fun x hx => hgood x ?_) d ys).mpr (hgood d ?_)
    · exact List.mem_append_left _ hx
    · exact List.mem_append_right _ List.mem_cons_self

/-- Without escaped quotes every column of the list is read. -/
theorem readAll_commentedList {ds : List CommentedColumn}
    (h : ∀ d ∈ ds, ¬ EscapesQuote d.comment) :
    Column.readAll (commentedList ds) = .ok (ds.map CommentedColumn.column) := by
  have hsplit : splitCommas (commentedList ds) = ds.map CommentedColumn.text := by
    apply splitCommas_join
    intro p hp
    obtain ⟨d, hd, rfl⟩ := List.mem_map.mp hp
    exact CommentedColumn.isPart_text (h d hd)
  have hparts : (ds.filter fun d => isColumnPart d.text) = ds :=
    List.filter_eq_self.mpr fun d _ => isColumnPart_of_read d.text_ne_nil d.read_text
  rw [Column.readAll_of_parts CommentedColumn.column hsplit fun d _ _ => d.read_text, hparts]

theorem solid?_commentedList (d : CommentedColumn) (ds : List CommentedColumn) :
    (Source.text (commentedList (d :: ds))).solid? = some (commentedList (d :: ds)) := by
  have hsolid : (commentedList (d :: ds)).isAllBlank = false := by
    rw [commentedList, List.map_cons, join_cons, CommentedColumn.text, CommentedColumn.front,
      List.append_assoc, List.append_assoc]
    exact isAllBlank_word d.name.ne_nil d.name.forall_word _
  exact solid?_of_isAllBlank hsolid

/-- **No column is lost behind a comment, and the scan agrees with the reader of comments on the end
of every literal, exactly if no backslash of a comment stands directly in front of a quote or at the
end.** -/
theorem Column.parseAll_commentedList (d : CommentedColumn) (ds : List CommentedColumn) :
    ((∃ columns, Column.parseAll (.text (commentedList (d :: ds))) = .ok columns ∧
        columns.map Column.name = (d :: ds).map (·.name.text)) ∧ LiteralsAgree (d :: ds)) ↔
      ∀ c ∈ d :: ds, ¬ EscapesQuote c.comment := by
  rw [literalsAgree_iff]
  refine and_iff_right_of_imp fun h => ⟨(d :: ds).map CommentedColumn.column, ?_, ?_⟩
  · rw [Column.parseAll, solid?_commentedList]
    exact readAll_commentedList h
  · rw [List.map_map]
    rfl

/-- Two columns, the first with a comment that is a single backslash. -/
def backslashColumns : List CommentedColumn :=
  [⟨⟨"a".toList, by decide, rfl, by decide⟩, "\\".toList⟩,
    ⟨⟨"b".toList, by decide, rfl, by decide⟩, "x".toList⟩]

/-- The second of these columns is lost: its definition is taken for a part of the literal. -/
theorem Column.parseAll_backslashColumns :
    commentedList backslashColumns = "a INT COMMENT '\\\\', b INT COMMENT 'x'".toList ∧
      Column.parseAll (.text (commentedList backslashColumns)) =
        .ok [⟨"a".toList, "INT".toList, true, none, [], some "\\\\".toList⟩] ∧
      ¬ ∃ columns, Column.parseAll (.text (commentedList backslashColumns)) = .ok columns ∧
        columns.map Column.name = backslashColumns.map (·.name.text) := by
  have hread : Column.parseAll (.text (commentedList backslashColumns)) =
      .ok [⟨"a".toList, "INT".toList, true, none, [], some "\\\\".toList⟩] := by
    decide +kernel
  refine ⟨rfl, hread, ?_⟩
  rintro ⟨columns, hcolumns, hnames⟩
  rw [hread, Except.ok.injEq] at hcolumns
  rw [← hcolumns] at hnames
  exact absurd hnames (by decide)

end TableTypes
