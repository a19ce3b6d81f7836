import TableTypes.Proofs.Column.Lists
import TableTypes.Proofs.Column.Searches
import TableTypes.Proofs.Spelling

/-!
# References of a column with spelled names

A column `x INT REFERENCES t(c₁, …, cₙ)` declares the reference and nothing else, in whichever
spellings its names are written (`Column.parse_referenceText`).  The names `x` and `t` are read
without their quotes, but the columns of the reference are kept as they are written.
-/

namespace TableTypes

open Text

variable {α : Type} {f : Text → Option α} {ks : List Text} {k : Text}

/-! ### Searches that pass over names -/

/-- The reader fails at a name in front of a character that is neither a blank nor of a word. -/
def FailsAtNames (f : Text → Option α) : Prop :=
  ∀ (b : Bareword constraintKeywords) (c : Char) (t : Text), isWord c = false →
    isBlank c = false → f (b.text ++ c :: t) = none

theorem Text.Opens.failsAtNames (hf : Opens [k] f) (hk : k ∈ constraintKeywords) :
    FailsAtNames f :=
  fun b _ t hword _ => hf.at_word b.text _ b.forall_word (atWordEnd_cons hword t)
    fun h => b.free (List.mem_singleton.mp h ▸ hk)

/-- A reader that wants a blank behind its keyword fails at every name. -/
theorem failsAtNames_of_blank (hk : isKeyword k = true)
    (h : ∀ t, (keyword? k t).bind dropBlanks1? = none → f t = none) : FailsAtNames f :=
  fun b _ t hword hblank => h _ (keyword?_bind_solid hword hblank t b.forall_solid hk)

theorem failsAtNames_phrase {l : Text} {ls : List Text} (hk : isKeyword k = true) :
    FailsAtNames (wholePhrase? (k :: l :: ls)) :=
  failsAtNames_of_blank hk fun t h => by
    rw [wholePhrase?, phrase?_cons_cons, ← Option.bind_assoc, h]
    rfl

theorem failsAtNames_of_mem {ws : List Text} (hws : ws ∈ attributePhrases) :
    FailsAtNames (wholePhrase? ws) := by
  simp only [attributePhrases, List.mem_cons, List.not_mem_nil, or_false] at hws
  rcases hws with rfl | rfl | rfl | rfl | rfl
  · exact failsAtNames_phrase (by decide)
  · exact failsAtNames_phrase (by decide)
  · exact (opens_wholePhrase? rfl (by decide)).failsAtNames (by decide)
  · exact (opens_wholePhrase? rfl (by decide)).failsAtNames (by decide)
  · exact (opens_wholePhrase? rfl (by decide)).failsAtNames (by decide)

/-- The search passes over written names in front of such a character, together with it. -/
def PassesNames (f : Text → Option α) (write : SpelledName → Text) : Prop :=
  ∀ (n : SpelledName) (c : Char) (t : Text), isWord c = false → isBlank c = false →
    findWord f (write n ++ c :: t) = findWord f t

section

variable (hf : Opens ks f) (hfails : FailsAtNames f)

include hf hfails

theorem passesNames_text : PassesNames f SpelledName.text := by
  have hname : ∀ (b : Bareword constraintKeywords) (c : Char) (t : Text), isWord c = false →
      isBlank c = false → findWord f (b.text ++ c :: t) = findWord f t :=
    fun b c t hword hblank =>
      hf.findWord_fails b.ne_nil b.forall_word hword (hfails b c t hword hblank)
  rintro ⟨b, s⟩ c t hword hblank
  show findWord f (s.write b.text ++ c :: t) = _
  rw [s.write_append, hf.findWord_nonwords fun d hd => (s.of_mem_mark hd).2.1]
  -- Behind the word stands a mark, or else the character itself.
  cases s with
  | bare => exact hname b c t hword hblank
  | backticks => exact (hname b _ (c :: t) rfl rfl).trans (hf.findWord_nonword hword t)
  | doubleQuotes => exact (hname b _ (c :: t) rfl rfl).trans (hf.findWord_nonword hword t)

theorem passesNames_masked : PassesNames f SpelledName.masked := by
  intro n c t hword hblank
  have hquoted : ∀ q : Quote,
      findWord f (q.enclose (List.replicate n.word.text.length ' ') ++ c :: t) = findWord f t :=
    fun q => (hf.findWord_enclose_blank _ _).trans (hf.findWord_nonword hword t)
  have htext := passesNames_text hf hfails n c t hword hblank
  obtain ⟨b, s⟩ := n
  cases s with
  | bare => exact htext
  | backticks => exact hquoted .backtick
  | doubleQuotes => exact hquoted .double

end

/-- A search that passes over names passes over a list of them up to its parenthesis. -/
theorem PassesNames.findWord_names {write : SpelledName → Text} (h : PassesNames f write)
    (hf : Opens ks f) (n : SpelledName) (ns : List SpelledName) (t : Text) :
    findWord f (namesText write (n :: ns) ++ ')' :: t) = findWord f t := by
  induction ns generalizing n with
  | nil => rw [namesText_singleton, h n ')' t (by decide) (by decide)]
  | cons m ns ih =>
    rw [namesText_cons_cons, List.append_assoc]
    show findWord f (write n ++ ',' :: ' ' :: (namesText write (m :: ns) ++ ')' :: t)) = _
    rw [h n ',' _ (by decide) (by decide), hf.findWord_nonword (by decide), ih]

/-! ### References -/

section

variable (x t c : SpelledName) (cs : List SpelledName)

/-- `REFERENCES table(columns)`, each name as `write` has it. -/
def referenceClause (write : SpelledName → Text) (t : SpelledName) (cs : List SpelledName) : Text :=
  "REFERENCES".toList ++ ' ' :: (write t ++ '(' :: (namesText write cs ++ [')']))

/-- `name INT REFERENCES table(columns)`. -/
def referenceText (x t : SpelledName) (cs : List SpelledName) : Text :=
  x.text ++ ' ' :: ("INT".toList ++ ' ' :: referenceClause SpelledName.text t cs)

theorem maskQuoted_referenceClause : maskQuoted (referenceClause SpelledName.text t (c :: cs)) =
    referenceClause SpelledName.masked t (c :: cs) := by
  have hclose : maskQuoted [')'] = [')'] := maskQuoted_plain rfl
  show maskQuoted ("REFERENCES ".toList ++
    (t.text ++ (['('] ++ (namesText SpelledName.text (c :: cs) ++ [')'])))) = _
  rw [maskQuoted_plain_append _ rfl, t.maskQuoted_append, maskQuoted_plain_append _ rfl,
    maskQuoted_names_append, hclose]
  rfl

/-- The only word that a search can find in the clause is the first one. -/
theorem findWord_referenceClause {write : SpelledName → Text} (hf : Opens ks f)
    (h : PassesNames f write) (hks : "REFERENCES".toList.map Char.toLower ∉ ks) :
    findWord f (referenceClause write t (c :: cs)) = none := by
  unfold referenceClause
  rw [hf.findWord_upper rfl hks rfl, hf.findWord_nonword rfl,
    h t '(' _ (by decide) (by decide), h.findWord_names hf, hf.findWord_nil]

/-- A reference is cut out with its table unquoted and its columns as they are written. -/
theorem references?_referenceClause : references? (referenceClause SpelledName.text t (c :: cs)) =
    some (t.word.text ++ '(' :: (namesText SpelledName.text (c :: cs) ++ [')'])) := by
  set columns := namesText SpelledName.text (c :: cs) with hcolumns
  set masked := namesText SpelledName.masked (c :: cs) with hmasked
  have hread : ReferenceSpan.read? (referenceClause SpelledName.masked t (c :: cs)) =
      some ⟨t.spelling.span t.filler ('(' :: (masked ++ [')'])), masked ++ [')'], [')']⟩ :=
    ReferenceSpan.read?_of_name (t.encloses_filler.dropBlanks_write _)
      (t.encloses_filler.read?_write rfl) rfl (close_not_mem_namesText _)
      (namesText_ne_nil c cs _ c.masked_ne_nil)
  have hlength : masked.length = columns.length := length_namesText c cs
  have htable : NameSpan.nameIn (t.spelling.span t.filler ('(' :: (masked ++ [')'])))
      (referenceClause SpelledName.text t (c :: cs)) = t.word.text := by
    apply t.spelling.nameIn_span "REFERENCES ".toList t.length_filler
    simp only [List.length_cons, List.length_append, hlength, ← hcolumns]
  have hcut : between (referenceClause SpelledName.text t (c :: cs)) (masked ++ [')']) [')'] =
      columns := by
    have hsplit : referenceClause SpelledName.text t (c :: cs) =
        ("REFERENCES ".toList ++ (t.text ++ ['('])) ++ (columns ++ [')']) := by
      simp only [List.append_assoc]
      rfl
    rw [hsplit]
    exact between_like _ hlength rfl
  rw [ReferenceSpan.references?_eq, maskQuoted_referenceClause, findWord_of_eq_some hread,
    Option.map_some, ReferenceSpan.textIn, htable, hcut, t.word.strip_text, hcolumns,
    strip_namesText]
  simp only [List.append_assoc]
  rfl

/-! ### What else is declared -/

theorem hasPhrase_referenceClause {ws : List Text} (hws : ws ∈ attributePhrases) :
    hasPhrase ws (maskQuoted (referenceClause SpelledName.text t (c :: cs))) = false := by
  have hreferences : ∀ vs ∈ attributePhrases, ∀ v ∈ vs.head?,
      "REFERENCES".toList.map Char.toLower ∉ [v] := by decide
  have hfails := failsAtNames_of_mem hws
  obtain ⟨k, ks, rfl, hinitial, hkeywords⟩ := exists_of_mem_attributePhrases hws
  have hopens : Opens [k] (wholePhrase? (k :: ks)) :=
    opens_wholePhrase? hinitial (hkeywords k List.mem_cons_self)
  rw [hasPhrase_eq_findWord, maskQuoted_referenceClause, findWord_referenceClause t c cs hopens
    (passesNames_masked hopens hfails) (hreferences _ hws k rfl)]
  rfl

theorem defaultValue?_referenceClause :
    defaultValue? (referenceClause SpelledName.text t (c :: cs)) = none := by
  have hpasses := passesNames_masked opens_defaultWord?
    (failsAtNames_of_blank (by decide) fun _ h => h)
  rw [defaultValue?, afterDefault?_eq, maskQuoted_referenceClause,
    findWord_referenceClause t c cs opens_defaultWord? hpasses (by decide)]
  rfl

theorem checkPredicate?_referenceClause :
    checkPredicate? (referenceClause SpelledName.text t (c :: cs)) = none := by
  have hpasses := passesNames_masked opens_checkWord? (opens_checkWord?.failsAtNames (by decide))
  rw [checkPredicate?_eq, maskQuoted_referenceClause,
    findWord_referenceClause t c cs opens_checkWord? hpasses (by decide)]
  rfl

/-- The search for a comment goes through the quotes of the names as well. -/
theorem columnComment?_referenceClause :
    columnComment? (referenceClause SpelledName.text t (c :: cs)) = none := by
  have hfails : FailsAtNames commentLiteral? :=
    failsAtNames_of_blank (k := "comment".toList) (by decide) fun s h => by rw [commentLiteral?, h]
  rw [columnComment?_eq, findWord_referenceClause t c cs opens_commentLiteral?
    (passesNames_text opens_commentLiteral? hfails) (by decide)]
  rfl

theorem columnConstraints_referenceClause :
    columnConstraints (referenceClause SpelledName.text t (c :: cs)) = [⟨.foreignKey,
      some (t.word.text ++ '(' :: (namesText SpelledName.text (c :: cs) ++ [')']))⟩] := by
  have hphrase : ∀ ws ∈ attributePhrases,
      hasPhrase ws (maskQuoted (referenceClause SpelledName.text t (c :: cs))) = false :=
    fun ws => hasPhrase_referenceClause t c cs
  rw [columnConstraints]
  simp only [List.any_cons, List.any_nil, hphrase ["primary".toList, "key".toList] (by decide),
    hphrase ["unique".toList] (by decide), hphrase ["auto_increment".toList] (by decide),
    hphrase ["autoincrement".toList] (by decide), checkPredicate?_referenceClause,
    references?_referenceClause]
  rfl

/-! ### Columns with a reference -/

/-- The column that the definition declares. -/
def referenceColumn (x t : SpelledName) (cs : List SpelledName) : Column where
  name := x.word.text
  type := "INT".toList
  nullable := true
  default := none
  constraints :=
    [⟨.foreignKey, some (t.word.text ++ '(' :: (namesText SpelledName.text cs ++ [')']))⟩]
  comment := none

/-- Besides the reference nothing is declared. -/
theorem column_referenceClause : ColumnDefinition.column ⟨x.word.text, "INT".toList,
    referenceClause SpelledName.text t (c :: cs)⟩ = referenceColumn x t (c :: cs) := by
  have hnullable : isNullable (referenceClause SpelledName.text t (c :: cs)) = true := by
    rw [isNullable, hasPhrase_referenceClause t c cs (by decide),
      hasPhrase_referenceClause t c cs (by decide)]
    rfl
  rw [ColumnDefinition.column]
  simp only [hnullable, defaultValue?_referenceClause, columnConstraints_referenceClause,
    columnComment?_referenceClause]
  rfl

/-- There are no blanks around a definition. -/
theorem strip_referenceText : strip (referenceText x t cs) = referenceText x t cs := by
  obtain ⟨d, u, hd⟩ := List.exists_cons_of_ne_nil x.text_ne_nil
  apply strip_eq_self
  · unfold referenceText
    rw [hd]
    rintro e ⟨⟩
    exact x.forall_solid d (hd ▸ List.mem_cons_self)
  · have hsplit : referenceText x t cs = (x.text ++ " INT REFERENCES ".toList ++ t.text ++ ['('] ++
        namesText SpelledName.text cs) ++ [')'] := by
      simp only [List.append_assoc]
      rfl
    rw [hsplit, List.getLast?_concat]
    rintro e ⟨⟩
    rfl

/-- The definition begins no constraint of the table. -/
theorem isTableLevel_spelled {z : Text} (hz : atWordEnd z = true) :
    isTableLevel (x.text ++ z) = false := by
  obtain ⟨b, s⟩ := x
  cases s with
  | bare =>
    have hfree : b.text.map Char.toLower ∉ tableLevelWords :=
      fun h => b.free (List.mem_append_left _ h)
    show isTableLevel (Spelling.bare.write b.text ++ z) = false
    rw [Spelling.write_bare]
    exact isTableLevel_bareword ⟨b.text, b.ne_nil, b.word, hfree⟩ hz
  | backticks => rfl
  | doubleQuotes => rfl

/-- **A column with a reference is read in each spelling of its names**, but the columns of the
reference are kept as they are written. -/
theorem Column.parse_referenceText (line : Option Nat) :
    Column.parse (.text (referenceText x t (c :: cs))) line =
      .ok (referenceColumn x t (c :: cs)) := by
  have hne : referenceText x t (c :: cs) ≠ [] := by
    unfold referenceText
    exact List.append_ne_nil_of_left_ne_nil x.text_ne_nil _
  have hends : EndsType (' ' :: referenceClause SpelledName.text t (c :: cs)) :=
    ⟨rfl, rfl, rfl, rfl, rfl, rfl⟩
  have hstrip : strip (x.spelling.span x.word.text
      (' ' :: ("INT".toList ++ ' ' :: referenceClause SpelledName.text t (c :: cs)))).name =
        x.word.text := by
    rw [Spelling.name_span, x.word.strip_text]
  have hread : Column.read (referenceText x t (c :: cs)) = .ok (referenceColumn x t (c :: cs)) :=
    (Column.read_of_name (x.encloses_word.read?_write rfl) hstrip
      (hends.begins ⟨"INT".toList, by decide, rfl, .none⟩) rfl (isTableLevel_spelled x rfl)
        x.word.ne_nil).trans (congrArg Except.ok (column_referenceClause x t c cs))
  rw [Column.parse_of_solid (strip_referenceText x t (c :: cs)) hne, hread]
  rfl

/-- The column is read alike in the bare spellings of all names only if the columns of the reference
are written bare. -/
theorem referenceColumn_eq_iff : referenceColumn x t (c :: cs) =
    referenceColumn x.bare t.bare ((c :: cs).map SpelledName.bare) ↔
      ∀ m ∈ c :: cs, m.spelling = .bare := by
  rw [← namesText_bare_iff]
  unfold referenceColumn
  simp only [SpelledName.bare, Column.mk.injEq, List.cons.injEq, ColumnConstraint.mk.injEq,
    Option.some.injEq, List.append_cancel_left_eq, List.append_cancel_right_eq, true_and, and_true]

end

end TableTypes
