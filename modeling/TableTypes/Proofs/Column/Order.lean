import TableTypes.Proofs.Column.Check

/-!
# Default values beside other clauses

A check and a reference both end with a parenthesis (`ClosedClause`).  Whether a default value
stands in front of such a clause or behind it, the column has the same constraints and the same
comment and may or may not hold no value alike.  The default value itself is read right only behind
the clause: in front of it, it goes on through the clause (`Column.default_beside_clause`).
-/

namespace TableTypes

open Text

variable {α : Type}

/-! ### Clauses -/

/-- The words, in lower case, that the searches among the attributes begin with. -/
def attributeWords : List Text :=
  ["not".toList, "primary".toList, "unique".toList, "auto_increment".toList,
    "autoincrement".toList, "default".toList, "comment".toList, "references".toList,
    "check".toList]

/-- A clause that ends with a parenthesis: a check whose predicate does not have the word `DEFAULT`
outside quotes, or a reference to a column of a table. -/
inductive ClosedClause where
  | check (p : Text) (bare : IsBare p) (free : hasPhrase ["default".toList] (maskQuoted p) = false)
  | references (table column : Bareword [])

namespace ClosedClause

/-- The word that the clause begins with. -/
def word : ClosedClause → Text
  | check _ _ _ => "CHECK".toList
  | references _ _ => "REFERENCES".toList

/-- What stands between the word and the last parenthesis. -/
def inner : ClosedClause → Text
  | check p _ _ => ' ' :: '(' :: p
  | references t c => ' ' :: (t.text ++ '(' :: c.text)

/-- The clause without its last parenthesis. -/
def front (x : ClosedClause) : Text :=
  x.word ++ x.inner

/-- The clause as it is written. -/
def text (x : ClosedClause) : Text :=
  x.front ++ [')']

theorem text_append (x : ClosedClause) (z : Text) : x.text ++ z = x.front ++ ')' :: z := by
  rw [text, List.append_assoc, List.singleton_append]

theorem text_check (p : Text) (bare free) : (check p bare free).text = checkClause p := by
  rw [← List.append_nil (checkClause p), checkClause_append]
  rfl

/-- There is no quote and no comment in a reference. -/
theorem plain_references (t c : Bareword []) : (references t c).front.all isPlain = true := by
  show ("REFERENCES".toList ++ ([' '] ++ (t.text ++ (['('] ++ c.text)))).all isPlain = true
  simp only [List.all_append, all_isPlain_of_forall t.forall_word,
    all_isPlain_of_forall c.forall_word]
  rfl

theorem place_front (x : ClosedClause) : (spotBehind false x.front).place = .code := by
  cases x with
  | check p bare free => exact place_checkOpening bare
  | references t c => exact (Seals.of_plain (b := []) (plain_references t c)).place

end ClosedClause

/-- A default value as it is written. -/
def defaultClause (v : Text) : Text :=
  "DEFAULT ".toList ++ v

/-! ### Passing over a default value -/

section

variable (v : Bareword attributeWords)

theorem plain_defaultClause : (defaultClause v.text).all isPlain = true := by
  unfold defaultClause
  rw [List.all_append, all_isPlain_of_forall v.forall_word]
  rfl

/-- A search for another word passes over a default value. -/
theorem Text.Opens.findWord_defaultClause {k : Text} {f : Text → Option α} (hf : Opens [k] f)
    (hk : k ∈ attributeWords) (hne : k ≠ "default".toList) {t : Text} (ht : atWordEnd t = true) :
    findWord f (defaultClause v.text ++ t) = findWord f t := by
  have hdefault : "DEFAULT".toList.map Char.toLower ∉ [k] :=
    fun h => hne (List.mem_singleton.mp h).symm
  have hvalue : v.text.map Char.toLower ∉ [k] := fun h => v.free (List.mem_singleton.mp h ▸ hk)
  show findWord f ("DEFAULT".toList ++ (' ' :: (v.text ++ t))) = _
  rw [hf.findWord_upper rfl hdefault rfl, hf.findWord_nonword rfl,
    hf.findWord_word v.forall_word ht hvalue]

theorem mem_attributeWords_of_phrase {k : Text} {ks : List Text} (h : k :: ks ∈ attributePhrases) :
    k ∈ attributeWords ∧ k ≠ "default".toList := by
  have hall : ∀ ws ∈ attributePhrases, ∀ k ∈ ws.head?,
      k ∈ attributeWords ∧ k ≠ "default".toList := by
    decide
  exact hall _ h k rfl

theorem isSilent_defaultClause : IsSilent (' ' :: defaultClause v.text) := by
  have hmask : maskQuoted (' ' :: defaultClause v.text) = ' ' :: defaultClause v.text :=
    maskQuoted_plain (by rw [List.all_cons, plain_defaultClause]; rfl)
  have hnone : ∀ {β : Type} {k : Text} {f : Text → Option β}, Opens [k] f → k ∈ attributeWords →
      k ≠ "default".toList → findWord f (' ' :: defaultClause v.text) = none := by
    intro β k f hf hk hne
    have h := hf.findWord_defaultClause v hk hne (t := []) rfl
    rw [List.append_nil, hf.findWord_nil] at h
    rw [hf.findWord_nonword rfl, h]
  have hchars : ∀ c ∈ ' ' :: defaultClause v.text, c = ' ' ∨ isAsciiWord c = true := by
    intro c hc
    unfold defaultClause at hc
    rw [List.mem_cons, List.mem_append] at hc
    rcases hc with rfl | hc | hc
    · exact Or.inl rfl
    · have hword : ("DEFAULT ".toList.all fun c => c = ' ' || isAsciiWord c) = true := rfl
      have h := List.all_eq_true.mp hword c hc
      rwa [Bool.or_eq_true, decide_eq_true_iff] at h
    · exact Or.inr (v.forall_word c hc)
  have habsent : ∀ c : Char, c ≠ ' ' → isAsciiWord c = false → c ∉ ' ' :: defaultClause v.text := by
    intro c hspace hword hc
    rcases hchars c hc with h | h
    · exact hspace h
    · rw [hword] at h
      cases h
  refine ⟨fun ws hws => ?_, ?_, ?_, ?_, habsent ')' (by decide) (by decide),
    habsent '\'' (by decide) (by decide), habsent '"' (by decide) (by decide)⟩
  · obtain ⟨k, ks, rfl, hinitial, hks⟩ := exists_of_mem_attributePhrases hws
    obtain ⟨hk, hne⟩ := mem_attributeWords_of_phrase hws
    rw [hmask, hasPhrase_eq_findWord,
      hnone (opens_wholePhrase? hinitial (hks k List.mem_cons_self)) hk hne]
    rfl
  · rw [hmask, hnone ReferenceSpan.opens_read? (by decide) (by decide)]
  · rw [hmask, hnone opens_checkWord? (by decide) (by decide)]
  · exact hnone opens_commentLiteral? (by decide) (by decide)

end

/-! ### What is declared beside a default value -/

/-- The attributes declare the same but for the default value. -/
structure AgreesBesidesDefault (a b : Text) : Prop where
  phrases : ∀ ws ∈ attributePhrases, hasPhrase ws (maskQuoted a) = hasPhrase ws (maskQuoted b)
  reference : references? a = references? b
  check : checkPredicate? a = checkPredicate? b
  comment : columnComment? a = columnComment? b

theorem AgreesBesidesDefault.trans {a b c : Text} (h : AgreesBesidesDefault a b)
    (h' : AgreesBesidesDefault b c) : AgreesBesidesDefault a c :=
  ⟨fun ws hws => (h.phrases ws hws).trans (h'.phrases ws hws), h.reference.trans h'.reference,
    h.check.trans h'.check, h.comment.trans h'.comment⟩

theorem AgreesBesidesDefault.symm {a b : Text} (h : AgreesBesidesDefault a b) :
    AgreesBesidesDefault b a :=
  ⟨fun ws hws => (h.phrases ws hws).symm, h.reference.symm, h.check.symm, h.comment.symm⟩

theorem AgreesBesidesDefault.column {a b : Text} (h : AgreesBesidesDefault a b) (name type : Text) :
    (ColumnDefinition.column ⟨name, type, a⟩).nullable =
        (ColumnDefinition.column ⟨name, type, b⟩).nullable ∧
      (ColumnDefinition.column ⟨name, type, a⟩).constraints =
        (ColumnDefinition.column ⟨name, type, b⟩).constraints ∧
      (ColumnDefinition.column ⟨name, type, a⟩).comment =
        (ColumnDefinition.column ⟨name, type, b⟩).comment :=
  ⟨isNullable_congr h.phrases, columnConstraints_congr h.phrases h.reference h.check, h.comment⟩

namespace ClosedClause

theorem front_references (t c : Bareword []) (y : Text) : (references t c).front ++ ')' :: y =
    "REFERENCES".toList ++ ' ' :: (t.text ++ '(' :: (c.text ++ ')' :: y)) := by
  rw [front, List.append_assoc]
  show _ ++ ' ' :: ((t.text ++ '(' :: c.text) ++ ')' :: y) = _
  rw [List.append_assoc]
  rfl

theorem maskQuoted_references (t c : Bareword []) (z : Text) :
    maskQuoted ((references t c).text ++ z) =
      "REFERENCES".toList ++ ' ' :: (t.text ++ '(' :: (c.text ++ ')' :: maskQuoted z)) := by
  rw [text_append, maskQuoted_barrier (place_front _) (by decide) (by decide),
    maskQuoted_plain (plain_references t c), front_references]

/-- A reference as a search finds it, whatever follows. -/
theorem read?_references (t c : Bareword []) (y : Text) :
    ReferenceSpan.read? ("REFERENCES".toList ++ ' ' :: (t.text ++ '(' :: (c.text ++ ')' :: y))) =
      some ⟨⟨t.text ++ '(' :: (c.text ++ ')' :: y), '(' :: (c.text ++ ')' :: y),
        '(' :: (c.text ++ ')' :: y)⟩, c.text ++ ')' :: y, ')' :: y⟩ :=
  ReferenceSpan.read?_of_name (dropBlanks_word t.ne_nil t.forall_word _)
    (NameSpan.read?_word t.ne_nil t.forall_word rfl) rfl
    (fun h => absurd (c.forall_word _ h) (by decide)) c.ne_nil

/-- The value of a reference is read whatever follows it. -/
theorem references?_references (t c : Bareword []) (z : Text) :
    references? ((references t c).text ++ z) = some (t.text ++ ['('] ++ c.text ++ [')']) := by
  have hname : (references t c).text ++ z =
      "REFERENCES ".toList ++ t.text ++ '(' :: (c.text ++ ')' :: z) := by
    rw [text_append, front_references, List.append_assoc]
    rfl
  have hcolumn : (references t c).text ++ z =
      ("REFERENCES ".toList ++ t.text ++ ['(']) ++ c.text ++ ')' :: z := by
    rw [hname, List.append_assoc _ c.text, List.append_assoc _ ['(']]
    rfl
  rw [ReferenceSpan.references?_eq, maskQuoted_references,
    findWord_of_eq_some (read?_references t c _), Option.map_some, ReferenceSpan.textIn,
    NameSpan.nameIn, hname, between_append _ _ _ ?_ ?_, ← hname, hcolumn,
    between_append _ _ _ ?_ ?_, t.strip_text, c.strip_text]
  all_goals simp only [List.length_append, List.length_cons, length_maskQuoted]

/-- What follows a clause and declares nothing does not change what is declared. -/
theorem agreesBesidesDefault_append (x : ClosedClause) {z : Text} (hz : IsSilent z) :
    AgreesBesidesDefault (x.text ++ z) x.text where
  phrases := by
    intro ws hws
    have hdivides : ∀ y, Divides (x.front ++ ')' :: y) x.front y := fun y =>
      divides_barrier x.place_front (by decide) (by decide) (by decide) (by decide) y
    rw [text_append, text, (hdivides z).hasPhrase hws, (hdivides []).hasPhrase hws,
      hz.phrases ws hws, IsSilent.nil.phrases ws hws]
  reference := by
    cases x with
    | check p bare free =>
      rw [text_check, references?_check bare hz, ← references?_check bare .nil, List.append_nil]
    | references t c =>
      have h := references?_references t c []
      rw [List.append_nil] at h
      rw [references?_references, h]
  check := by
    rw [text_append, text, checkPredicate?_append x.place_front hz.paren hz.check]
  comment := by
    have hcomment : ∀ {y}, IsSilent y →
        columnComment? (x.front ++ ')' :: y) = columnComment? x.front :=
      fun hy => columnComment?_append (by decide) (by decide) (by decide) hy.quotes hy.comment
    rw [text_append, text, hcomment hz, hcomment .nil]

end ClosedClause

/-- A default value in front of attributes does not change what else they declare. -/
theorem agreesBesidesDefault_defaultClause (v : Bareword attributeWords) (a : Text) :
    AgreesBesidesDefault (defaultClause v.text ++ ' ' :: a) a := by
  have hplain : (defaultClause v.text ++ [' ']).all isPlain = true := by
    rw [List.all_append, plain_defaultClause]
    rfl
  have hpass : ∀ {β : Type} {k : Text} {f : Text → Option β}, Opens [k] f → k ∈ attributeWords →
      k ≠ "default".toList →
        ∀ t, findWord f (defaultClause v.text ++ [' '] ++ t) = findWord f t := by
    intro β k f hf hk hne t
    rw [List.append_assoc, hf.findWord_defaultClause v hk hne rfl]
    exact hf.findWord_nonword rfl t
  -- The blank behind the value goes with it, so that what is passed over ends a word.
  rw [List.append_cons]
  refine ⟨fun ws hws => ?_, references?_plain_append hplain
    (hpass ReferenceSpan.opens_read? (by decide) (by decide) _), checkPredicate?_plain_append hplain
    (hpass opens_checkWord? (by decide) (by decide) _), ?_⟩
  · obtain ⟨k, ks, rfl, hinitial, hks⟩ := exists_of_mem_attributePhrases hws
    obtain ⟨hk, hne⟩ := mem_attributeWords_of_phrase hws
    rw [maskQuoted_plain_append a hplain, hasPhrase_eq_findWord, hasPhrase_eq_findWord,
      hpass (opens_wholePhrase? hinitial (hks k List.mem_cons_self)) hk hne]
  · rw [columnComment?_eq, columnComment?_eq, hpass opens_commentLiteral? (by decide) (by decide)]

/-! ### The default value -/

namespace ClosedClause

/-- There is no word for a default value in the clause. -/
theorem findWord_defaultWord? (x : ClosedClause) (z : Text) :
    findWord defaultWord? (maskQuoted (x.text ++ z)) = findWord defaultWord? (maskQuoted z) := by
  cases x with
  | check p bare free =>
    have hnone := findWord_defaultWord?_eq_none free
    rw [text_check, maskQuoted_check bare, opens_defaultWord?.findWord_checkOpening (by decide),
      opens_defaultWord?.findWord_append (by decide) fun s _ =>
        stopsAt_defaultWord? (by decide) (by decide) s _, hnone]
    rfl
  | references t c =>
    -- A parenthesis stands behind each of the two names, whatever words they are.
    have hname : ∀ (b : Bareword []) (q : Char) (y : Text), isWord q = false → isBlank q = false →
        findWord defaultWord? (b.text ++ q :: y) = findWord defaultWord? y := by
      intro b q y hword hblank
      exact opens_defaultWord?.findWord_fails b.ne_nil b.forall_word hword
        (keyword?_bind_solid hword hblank y b.forall_solid (by decide))
    have hword : "REFERENCES".toList.map Char.toLower ∉ ["default".toList] := by decide
    rw [maskQuoted_references, opens_defaultWord?.findWord_upper rfl hword rfl,
      opens_defaultWord?.findWord_nonword rfl, hname t _ _ (by decide) (by decide),
      hname c _ _ (by decide) (by decide)]

/-- The word of the clause does not end a default value. -/
theorem exists_defaultRun (x : ClosedClause) : ∃ s,
    defaultRun ' ' none 0 false (' ' :: x.text) = ' ' :: (x.word ++ s) := by
  have hword : ∀ c ∈ x.word, isAsciiWord c = true := by
    cases x with
    | check => exact List.all_eq_true.mp (show "CHECK".toList.all isAsciiWord = true from rfl)
    | references =>
      exact List.all_eq_true.mp (show "REFERENCES".toList.all isAsciiWord = true from rfl)
  have hsplit : x.text = x.word ++ (x.inner ++ [')']) := List.append_assoc _ _ _
  -- At the blank the rest is asked for a word that ends the value, and there is none.
  have hremaining : strip (' ' :: x.text) = x.text := by
    have hspace : strip (' ' :: x.text) = strip x.text := rfl
    rw [hspace]
    apply strip_eq_self
    · intro c hc
      cases x <;> (cases hc; rfl)
    · intro c hc
      rw [text, List.getLast?_concat] at hc
      cases hc
      rfl
  have hstarts : startsClause x.text = false := by
    cases x <;> rfl
  have hupdate : (phrase? ["on".toList, "update".toList] x.text).isSome = false := by
    cases x <;> rfl
  have hrun : defaultRun ' ' none 0 false (' ' :: x.text) =
      ' ' :: defaultRun ' ' none 0 false x.text := by
    rw [defaultRun]
    simp only [hremaining, hstarts, hupdate]
    rfl
  rw [hrun, hsplit, defaultRun_word hword]
  exact ⟨_, rfl⟩

end ClosedClause

section

variable (v : Bareword attributeWords) (x : ClosedClause)

theorem ClosedClause.text_defaultClause : x.text ++ ' ' :: defaultClause v.text =
    (x.text ++ " DEFAULT ".toList) ++ v.text := by
  rw [List.append_assoc]
  rfl

theorem defaultWord?_defaultClause (y : Text) :
    defaultWord? (defaultClause v.text ++ y) = some (v.text ++ y) :=
  congrArg some (dropBlanks_word v.ne_nil v.forall_word y)

/-- Behind the clause the default value is read as it is written. -/
theorem defaultValue?_behind :
    defaultValue? (x.text ++ ' ' :: defaultClause v.text) = some v.text := by
  have hmask : maskQuoted (' ' :: defaultClause v.text) = ' ' :: (defaultClause v.text ++ []) := by
    rw [List.append_nil]
    exact maskQuoted_plain (by rw [List.all_cons, plain_defaultClause]; rfl)
  have hfind : findWord defaultWord? (maskQuoted (x.text ++ ' ' :: defaultClause v.text)) =
      some (v.text ++ []) := by
    rw [x.findWord_defaultWord?, hmask, opens_defaultWord?.findWord_nonword rfl]
    exact findWord_of_eq_some (defaultWord?_defaultClause v [])
  have hsuffix : suffixLike (x.text ++ ' ' :: defaultClause v.text) (v.text ++ []) = v.text := by
    rw [x.text_defaultClause, List.append_nil, suffixLike_append _ _ rfl]
  have hrun : defaultRun ' ' none 0 false v.text = v.text := by
    have h := defaultRun_word v.forall_word [] false ' '
    rwa [defaultRun, List.append_nil] at h
  rw [defaultValue?, afterDefault?_eq, hfind, Option.map_some, Option.map_some, hsuffix, hrun,
    v.strip_text, unquoteSimple_of_word fun c hc => v.forall_word c (List.mem_of_mem_head? hc)]

/-- In front of the clause the default value goes on through the clause. -/
theorem exists_defaultValue?_before : ∃ s,
    defaultValue? (defaultClause v.text ++ ' ' :: x.text) =
      some (v.text ++ ' ' :: (x.word ++ s)) := by
  have hmask : maskQuoted (defaultClause v.text ++ ' ' :: x.text) =
      defaultClause v.text ++ maskQuoted (' ' :: x.text) :=
    maskQuoted_plain_append _ (plain_defaultClause v)
  have hfind : findWord defaultWord? (maskQuoted (defaultClause v.text ++ ' ' :: x.text)) =
      some (v.text ++ maskQuoted (' ' :: x.text)) := by
    rw [hmask]
    exact findWord_of_eq_some (defaultWord?_defaultClause v _)
  have hsuffix : suffixLike (defaultClause v.text ++ ' ' :: x.text)
      (v.text ++ maskQuoted (' ' :: x.text)) = v.text ++ ' ' :: x.text := by
    have hsplit : defaultClause v.text ++ ' ' :: x.text =
        "DEFAULT ".toList ++ (v.text ++ ' ' :: x.text) := List.append_assoc _ _ _
    rw [hsplit]
    apply suffixLike_append
    rw [List.length_append, List.length_append, length_maskQuoted]
  obtain ⟨s, hs⟩ := x.exists_defaultRun
  have hrun : defaultRun ' ' none 0 false (v.text ++ ' ' :: x.text) =
      (v.text ++ ' ' :: x.word) ++ s := by
    rw [defaultRun_word v.forall_word, hs, List.append_assoc]
    rfl
  -- Only what the run ends with may be stripped.
  obtain ⟨c, u, hv⟩ := List.exists_cons_of_ne_nil v.ne_nil
  have hc : isAsciiWord c = true := v.forall_word c (hv ▸ List.mem_cons_self)
  have hhead : ∀ y, ∀ d ∈ (v.text ++ y).head?, isAsciiWord d = true := by
    intro y d hd
    rw [hv, List.cons_append, List.head?_cons] at hd
    exact Option.some.inj hd ▸ hc
  have hlast : ∀ d ∈ (v.text ++ ' ' :: x.word).getLast?, isBlank d = false := by
    intro d hd
    rw [List.getLast?_append] at hd
    cases x <;> (cases hd; rfl)
  obtain ⟨r, hr⟩ : ∃ r, strip ((v.text ++ ' ' :: x.word) ++ s) = (v.text ++ ' ' :: x.word) ++ r :=
    exists_strip_append (by simp) (fun d hd => isBlank_of_isAsciiWord (hhead _ d hd)) hlast s
  have hquotes :
      unquoteSimple ((v.text ++ ' ' :: x.word) ++ r) = (v.text ++ ' ' :: x.word) ++ r := by
    rw [List.append_assoc]
    exact unquoteSimple_of_word (hhead _)
  refine ⟨r, ?_⟩
  rw [defaultValue?, afterDefault?_eq, hfind, Option.map_some, Option.map_some, hsuffix, hrun, hr,
    hquotes, List.append_assoc]
  rfl

end

/-! ### Columns -/

section

variable (n : Bareword tableLevelWords) (t : TypeText) (v : Bareword attributeWords)
  (x : ClosedClause) (line : Option Nat)

theorem Column.parse_before :
    Column.parse (.text (columnText n t (defaultClause v.text ++ ' ' :: x.text))) line =
      .ok (ColumnDefinition.column ⟨n.text, t.text, defaultClause v.text ++ ' ' :: x.text⟩) := by
  apply Column.parse_columnText
  · exact ⟨rfl, rfl, rfl, rfl, rfl, rfl⟩
  · rintro c ⟨⟩
    rfl
  · refine ⟨')', ?_, rfl⟩
    rw [List.getLast?_append, List.getLast?_cons, ClosedClause.text, List.getLast?_concat]
    rfl

theorem Column.parse_behind :
    Column.parse (.text (columnText n t (x.text ++ ' ' :: defaultClause v.text))) line =
      .ok (ColumnDefinition.column ⟨n.text, t.text, x.text ++ ' ' :: defaultClause v.text⟩) := by
  have hlast := List.getLast?_eq_some_getLast v.ne_nil
  apply Column.parse_columnText
  · cases x <;> exact ⟨rfl, rfl, rfl, rfl, rfl, rfl⟩
  · intro c hc
    cases x <;> (cases hc; rfl)
  · refine ⟨v.text.getLast v.ne_nil, ?_,
      v.forall_solid _ (List.getLast_mem _)⟩
    rw [x.text_defaultClause, List.getLast?_append, hlast]
    rfl

/-- **A default value is read as it is written if it stands behind a check or a reference.**  In
front of one it goes on through the clause.  What else the column declares does not depend on the
order. -/
theorem Column.default_beside_clause : ∃ c₁ c₂ s,
    Column.parse (.text (columnText n t (defaultClause v.text ++ ' ' :: x.text))) line = .ok c₁ ∧
      Column.parse (.text (columnText n t (x.text ++ ' ' :: defaultClause v.text))) line = .ok c₂ ∧
        c₁.default = some (v.text ++ ' ' :: (x.word ++ s)) ∧ c₂.default = some v.text ∧
          c₁.nullable = c₂.nullable ∧ c₁.constraints = c₂.constraints ∧
            c₁.comment = c₂.comment := by
  have hagree : AgreesBesidesDefault (defaultClause v.text ++ ' ' :: x.text)
      (x.text ++ ' ' :: defaultClause v.text) :=
    (agreesBesidesDefault_defaultClause v x.text).trans
      (x.agreesBesidesDefault_append (isSilent_defaultClause v)).symm
  obtain ⟨s, hs⟩ := exists_defaultValue?_before v x
  exact ⟨_, _, s, Column.parse_before n t v x line, Column.parse_behind n t v x line, hs,
    defaultValue?_behind v x, hagree.column n.text t.text⟩

end

/-- The default value `0` in front of a check is read with the check. -/
theorem Column.default_before_check :
    IsBare "x > 0".toList ∧ hasPhrase ["default".toList] (maskQuoted "x > 0".toList) = false ∧
      (∃ c, Column.parse (.text "x INT DEFAULT 0 CHECK (x > 0)".toList) none = .ok c ∧
        c.default ≠ some "0".toList) ∧
      ∃ c, Column.parse (.text "x INT CHECK (x > 0) DEFAULT 0".toList) none = .ok c ∧
        c.default = some "0".toList := by
  refine ⟨isBare_iff.mpr ⟨by decide +kernel, by decide +kernel⟩, by decide +kernel,
    ⟨⟨"x".toList, "INT".toList, true, some "0 CHECK (x > 0)".toList,
      [⟨.check, some "x > 0".toList⟩], none⟩, by decide +kernel, by decide⟩,
    ⟨"x".toList, "INT".toList, true, some "0".toList, [⟨.check, some "x > 0".toList⟩], none⟩,
    by decide +kernel, rfl⟩

end TableTypes
