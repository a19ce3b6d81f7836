import TableTypes.Proofs.Column.Comments
import TableTypes.Proofs.TableConstraints.Span

/-!
# Columns by their names

A list of columns with bare names of any kind is read without an error, and no constraint of the
table is found in it.  A column is left out exactly if its name is a word that begins a constraint of
the table by itself (`Column.parseAll_integerList`).
-/

namespace TableTypes

open Text

/-! ### Names -/

/-- The words, in lower case, that begin a constraint of the table by themselves. -/
def loneTableWords : List Text :=
  ["unique".toList, "index".toList, "key".toList, "constraint".toList, "check".toList]

/-- Whether a bare word, in any mixture of cases, begins a constraint of the table by itself. -/
def Bareword.isTableWord (w : Bareword []) : Bool :=
  loneTableWords.contains (w.text.map Char.toLower)

variable {w : Bareword []} {s : Text}

/-- A word is read to its end as the keyword that it spells. -/
theorem keyword?_spelled {k : Text} (hk : isKeyword k = true) (h : w.text.map Char.toLower = k)
    (hs : atWordEnd s = true) : keyword? k (w.text ++ s) = some s := by
  rw [keyword?_append hs w.text hk, (keyword?_eq_some_nil_iff hk w.forall_word).mpr h]
  rfl

/-- A type behind a word is no second word of a phrase. -/
theorem wholePhrase?_key_eq_none {k : Text} (hk : isKeyword k = true) (w : Bareword []) :
    wholePhrase? [k, "key".toList] (w.text ++ " INTEGER".toList) = none := by
  by_cases h : w.text.map Char.toLower = k
  · rw [wholePhrase?, phrase?_cons_cons, keyword?_spelled hk h rfl]
    rfl
  · exact wholePhrase?_eq_none hk w.forall_word rfl h

theorem isTableLevel_of_isTableWord (h : w.isTableWord = true) :
    isTableLevel (w.text ++ " INTEGER".toList) = true := by
  rw [Bareword.isTableWord, List.contains_iff_mem] at h
  have hkeyword : isKeyword (w.text.map Char.toLower) = true :=
    List.all_eq_true.mp (by decide : loneTableWords.all isKeyword = true) _ h
  have hphrase : [w.text.map Char.toLower] ∈ tableLevelPhrases :=
    List.all_eq_true.mp (by decide : loneTableWords.all (fun k => decide ([k] ∈ tableLevelPhrases)) =
      true) _ h |> of_decide_eq_true
  rw [isTableLevel, dropBlanks_word w.ne_nil w.forall_word, anyPhrase?, List.findSome?_isSome_iff]
  refine ⟨_, hphrase, ?_⟩
  rw [wholePhrase?, phrase?, keyword?_spelled hkeyword rfl rfl]
  rfl

theorem isTableLevel_of_not_isTableWord (h : w.isTableWord = false) :
    isTableLevel (w.text ++ " INTEGER".toList) = false := by
  have hword : ∀ k ∈ loneTableWords, w.text.map Char.toLower ≠ k := by
    rintro k hk rfl
    rw [Bareword.isTableWord, List.contains_iff_mem.mpr hk] at h
    cases h
  have hlone : ∀ k ∈ loneTableWords,
      wholePhrase? [k] (w.text ++ " INTEGER".toList) = none := fun k hk =>
    wholePhrase?_eq_none (List.all_eq_true.mp (by decide : loneTableWords.all isKeyword = true) k hk)
      w.forall_word rfl (hword k hk)
  have hnone : anyPhrase? tableLevelPhrases (w.text ++ " INTEGER".toList) = none := by
    rw [anyPhrase?, List.findSome?_eq_none_iff]
    intro ws hws
    simp only [tableLevelPhrases, List.mem_cons, List.not_mem_nil, or_false] at hws
    rcases hws with rfl | rfl | rfl | rfl | rfl | rfl | rfl
    · exact wholePhrase?_key_eq_none (by decide) w
    · exact wholePhrase?_key_eq_none (by decide) w
    all_goals exact hlone _ (by decide)
  rw [isTableLevel, dropBlanks_word w.ne_nil w.forall_word, hnone]
  rfl

/-! ### Integer columns -/

/-- The definition of an integer column with a bare name. -/
def integerDefinition (w : Bareword []) : ColumnText [] :=
  ⟨w, ⟨"INTEGER".toList, by decide, rfl, .none⟩, []⟩

/-- The integer column of a bare name. -/
def integerColumn (w : Bareword []) : Column :=
  ⟨w.text, "INTEGER".toList, true, none, [], none⟩

theorem text_integerDefinition (w : Bareword []) :
    (integerDefinition w).text = w.text ++ " INTEGER".toList := by
  rw [ColumnText.text_eq]
  rfl

theorem isColumnPart_integerDefinition (w : Bareword []) :
    isColumnPart (integerDefinition w).text = !w.isTableWord := by
  have hne : (w.text ++ " INTEGER".toList).isEmpty = false := by
    rw [List.isEmpty_eq_false_iff, ne_eq, List.append_eq_nil_iff]
    exact fun h => w.ne_nil h.1
  have hlevel : isTableLevel (w.text ++ " INTEGER".toList) = w.isTableWord := by
    cases h : w.isTableWord with
    | true => exact isTableLevel_of_isTableWord h
    | false => exact isTableLevel_of_not_isTableWord h
  rw [text_integerDefinition, isColumnPart, hne, hlevel]
  rfl

/-- An integer column is read with its name, unless the name begins a constraint of the table. -/
theorem read_integerDefinition (h : isColumnPart (integerDefinition w).text = true) :
    Column.read (integerDefinition w).text = .ok (integerColumn w) := by
  have hlevel : isTableLevel (integerDefinition w).text = false := by
    rw [isColumnPart, Bool.and_eq_true, Bool.not_eq_true', Bool.not_eq_true'] at h
    exact h.2
  rw [ColumnText.text_eq] at hlevel ⊢
  exact Column.read_bareword w ((endsType_clausesText []).begins (integerDefinition w).type) hlevel

theorem isPlain_integerDefinition : (integerDefinition w).text.all isPlain = true := by
  rw [text_integerDefinition, List.all_append, all_isPlain_of_forall w.forall_word]
  rfl

/-- The definition of an integer column has no parenthesis and no comma. -/
theorem not_mem_integerDefinition {c : Char} (hc : isAsciiWord c = false)
    (hspace : c ≠ ' ') : c ∉ (integerDefinition w).text := by
  rw [text_integerDefinition, List.mem_append]
  rintro (h | h)
  · rw [w.forall_word c h] at hc
    cases hc
  · have hword : " INTEGER".toList.all (fun d => d = ' ' || isAsciiWord d) = true := rfl
    have hd := List.all_eq_true.mp hword c h
    rw [hc, Bool.or_false, decide_eq_true_eq] at hd
    exact hspace hd

theorem isPart_integerDefinition (w : Bareword []) : IsPart (integerDefinition w).text := by
  constructor
  · refine IsLevel.of_plain isPlain_integerDefinition fun c hc => ?_
    have hopen : c ≠ '(' := fun h => not_mem_integerDefinition rfl (by decide) (h ▸ hc)
    have hclose : c ≠ ')' := fun h => not_mem_integerDefinition rfl (by decide) (h ▸ hc)
    rw [Region.weight, if_pos rfl, if_neg hopen, if_neg hclose]
  · intro m hm
    rw [region_of_plain isPlain_integerDefinition m hm]
    decide
  · intro m hm
    have hchar : m.char ∈ (integerDefinition w).text := by
      have hmem := List.mem_map_of_mem (f := Mark.char) hm
      rwa [scan_eq_marks, Spot.map_char_marks] at hmem
    have hcomma : m.char ≠ ',' := fun h => not_mem_integerDefinition rfl (by decide) (h ▸ hchar)
    rw [decide_eq_false hcomma, Bool.false_and]
  · exact (integerDefinition w).strip_text
  · rw [text_integerDefinition, ne_eq, List.append_eq_nil_iff]
    exact fun h => w.ne_nil h.1

/-! ### Lists of integer columns -/

/-- The list of integer columns with the given names. -/
def integerList (ws : List (Bareword [])) : Text :=
  join [',', ' '] (ws.map fun w => (integerDefinition w).text)

/-- A list of integer columns is plain text without parentheses. -/
theorem forall_integerList (ws : List (Bareword [])) :
    (integerList ws).all isPlain = true ∧ '(' ∉ integerList ws := by
  have hchars : ∀ c ∈ integerList ws, isPlain c = true ∧ c ≠ '(' := by
    have hpart : ∀ w : Bareword [], ∀ c ∈ (integerDefinition w).text, isPlain c = true ∧ c ≠ '(' :=
      fun w c hc => ⟨List.all_eq_true.mp isPlain_integerDefinition c hc,
        fun h => not_mem_integerDefinition rfl (by decide) (h ▸ hc)⟩
    intro c hc
    cases ws with
    | nil => cases hc
    | cons w ws =>
      rw [integerList, List.map_cons, join_cons, List.mem_append, List.mem_flatMap] at hc
      rcases hc with hc | ⟨p, hp, hc⟩
      · exact hpart w c hc
      · obtain ⟨x, -, rfl⟩ := List.mem_map.mp hp
        rcases List.mem_append.mp hc with hc | hc
        · have hseparator : [',', ' '].all (fun d => isPlain d && d ≠ '(') = true := rfl
          have hd := List.all_eq_true.mp hseparator c hc
          rwa [Bool.and_eq_true, decide_eq_true_eq] at hd
        · exact hpart x c hc
  exact ⟨List.all_eq_true.mpr fun c hc => (hchars c hc).1, fun h => (hchars _ h).2 rfl⟩

theorem tableConstraints_integerList (ws : List (Bareword [])) :
    tableConstraints (integerList ws) = [] := by
  obtain ⟨hplain, hparen⟩ := forall_integerList ws
  apply tableConstraints_eq_nil
  rwa [maskComments_plain hplain, maskQuoted_plain hplain]

theorem readAll_integerList (ws : List (Bareword [])) : Column.readAll (integerList ws) =
    .ok ((ws.filter fun w => !w.isTableWord).map integerColumn) := by
  have hsplit : splitCommas (integerList ws) = ws.map fun w => (integerDefinition w).text := by
    apply splitCommas_join
    intro p hp
    obtain ⟨w, -, rfl⟩ := List.mem_map.mp hp
    exact isPart_integerDefinition w
  rw [Column.readAll_of_parts integerColumn hsplit fun w _ => read_integerDefinition]
  simp only [isColumnPart_integerDefinition]

/-- **No column of a list is lost, and none is taken for a constraint of the table, unless its name
begins one by itself**: in any mixture of cases it is `UNIQUE`, `INDEX`, `KEY`, `CONSTRAINT` or
`CHECK`.  The columns of such names are left out, and reading never fails. -/
theorem Column.parseAll_integerList (w : Bareword []) (ws : List (Bareword [])) :
    Column.parseAll (.text (integerList (w :: ws))) =
        .ok (((w :: ws).filter fun x => !x.isTableWord).map integerColumn) ∧
      tableConstraints (integerList (w :: ws)) = [] := by
  have hsolid : (integerList (w :: ws)).isAllBlank = false := by
    rw [integerList, List.map_cons, join_cons, text_integerDefinition, List.append_assoc]
    exact isAllBlank_word w.ne_nil w.forall_word _
  rw [Column.parseAll, solid?_of_isAllBlank hsolid]
  exact ⟨readAll_integerList (w :: ws), tableConstraints_integerList (w :: ws)⟩

/-- The name `KEY`. -/
def keyName : Bareword [] :=
  ⟨"KEY".toList, by decide, rfl, by decide⟩

/-- A column of this name is left out, and nothing fails. -/
theorem Column.parseAll_keyName :
    integerList [keyName] = "KEY INTEGER".toList ∧
      Column.parseAll (.text (integerList [keyName])) = .ok [] ∧
      ¬ ((∃ e, Column.parseAll (.text (integerList [keyName])) = .error e) ∨
        ∃ columns, Column.parseAll (.text (integerList [keyName])) = .ok columns ∧
          columns.map Column.name = [keyName].map Bareword.text) := by
  have hread : Column.parseAll (.text (integerList [keyName])) = .ok [] := by decide +kernel
  refine ⟨rfl, hread, ?_⟩
  rintro (⟨e, he⟩ | ⟨columns, hcolumns, hnames⟩)
  · rw [hread] at he
    cases he
  · rw [hread, Except.ok.injEq] at hcolumns
    rw [← hcolumns] at hnames
    cases hnames

end TableTypes
