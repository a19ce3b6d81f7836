import TableTypes.Proofs.Text.Reader
import TableTypes.Statement

/-!
# Table options by themselves

What is read as the options of a table is read as the same options when the text is cut off behind
them (`tableOptions_cut`): no option, no literal and no repetition of options depends on what
stands behind the piece that is read.
-/

namespace TableTypes

open Text

variable {α : Type}

/-! ### Runs and equals signs -/

theorem run?_eq (p : Char → Bool) : run? p = first? p fun t => some (t.dropWhile p) := by
  funext t
  cases t <;> rfl

theorem isReader_run? (p : Char → Bool) : IsReader (run? p) :=
  run?_eq p ▸ isReader_first? (isReader_dropWhile p)

theorem grows_run? (p : Char → Bool) : Grows (run? p) :=
  run?_eq p ▸ grows_first? (grows_some _)

/-- What follows the character `x` at the front of the text, without the blanks behind it. -/
def mark? (x : Char) : Text → Option Text
  | [] => none
  | c :: t => if c = x then some (dropBlanks t) else none

theorem mark?_eq (x : Char) : mark? x = first? (· = x) fun t => some (dropBlanks t) := by
  funext t
  cases t with
  | nil => rfl
  | cons c t => simp only [mark?, first?, decide_eq_true_eq]

theorem isReader_mark? (x : Char) : IsReader (mark? x) :=
  mark?_eq x ▸ isReader_first? isReader_dropBlanks

theorem grows_mark? (x : Char) : Grows (mark? x) :=
  mark?_eq x ▸ grows_first? (grows_some dropBlanks)

/-- What does not begin with the character does not begin with it when it is longer, either. -/
theorem mark?_append {x : Char} {t : Text} (z : Text) (ht : t ≠ []) :
    (mark? x t = none → mark? x (t ++ z) = none) ∧
      ∀ r, mark? x t = some r → ∃ s, mark? x (t ++ z) = some s ∧ (r ≠ [] → s = r ++ z) := by
  obtain ⟨c, t, rfl⟩ := List.exists_cons_of_ne_nil ht
  rw [List.cons_append, mark?, mark?]
  by_cases hc : c = x
  · rw [if_pos hc, if_pos hc]
    refine ⟨fun h => absurd h (Option.some_ne_none _), ?_⟩
    intro r h
    exact ⟨_, rfl, fun hne => Option.some.inj (extends_dropBlanks t r z h hne)⟩
  · rw [if_neg hc, if_neg hc]
    exact ⟨fun _ => rfl, fun r h => absurd h.symm (Option.some_ne_none r)⟩

/-- The text behind blanks, a character that may be missing, and more blanks. -/
def dropMark (x : Char) (t : Text) : Text :=
  (mark? x (dropBlanks t)).getD (dropBlanks t)

theorem isReader_dropMark (x : Char) : IsReader fun t => some (dropMark x t) :=
  isReader_dropBlanks.bind ((isReader_mark? x).getD (grows_mark? x))

theorem extends_dropMark (x : Char) : Extends fun t => some (dropMark x t) := by
  intro t r z h hne
  have hr : dropMark x t = r := Option.some.inj h
  have hblank : dropBlanks t ≠ [] := by
    intro hnil
    rw [dropMark, hnil] at hr
    exact hne hr.symm
  have hdrop : dropBlanks (t ++ z) = dropBlanks t ++ z :=
    Option.some.inj (extends_dropBlanks t _ z rfl hblank)
  obtain ⟨hnone, hsome⟩ := mark?_append (x := x) z hblank
  show some (dropMark x (t ++ z)) = some (r ++ z)
  cases hmark : mark? x (dropBlanks t) with
  | none =>
    rw [dropMark, hmark, Option.getD_none] at hr
    rw [dropMark, hdrop, hnone hmark, Option.getD_none, hr]
  | some s =>
    rw [dropMark, hmark, Option.getD_some] at hr
    obtain ⟨s', hs', heq⟩ := hsome s hmark
    rw [dropMark, hdrop, hs', Option.getD_some, heq (hr ▸ hne), hr]

theorem equals?_eq (t : Text) : equals? t = mark? '=' (dropBlanks t) := by
  rw [equals?]
  cases hdrop : dropBlanks t with
  | nil => rfl
  | cons c r =>
    by_cases hc : c = '='
    · subst hc; rfl
    · rw [mark?, if_neg hc]
      split
      · rename_i heq
        exact absurd (List.cons.inj heq).1 hc
      · rfl

theorem dropEquals_eq (t : Text) : dropEquals t = dropMark '=' t := by
  rw [dropEquals, dropMark]
  cases hdrop : dropBlanks t with
  | nil => rfl
  | cons c r =>
    by_cases hc : c = '='
    · subst hc; rfl
    · rw [mark?, if_neg hc]
      split
      · rename_i heq
        exact absurd (List.cons.inj heq).1 hc
      · rfl

/-! ### Literals -/

theorem optionLiteral?_suffix {t body r : Text} (h : optionLiteral? t = some (body, r)) :
    r <:+ t ∧ r.length < t.length := by
  fun_induction optionLiteral? t generalizing body r with
  | case1 => cases h
  | case2 t _ _ hopen ih =>
    cases h
    obtain ⟨hsuffix, hlength⟩ := ih hopen
    refine ⟨hsuffix.trans ((List.suffix_cons _ t).trans (List.suffix_cons _ _)), ?_⟩
    simp only [List.length_cons]
    omega
  | case3 t =>
    cases h
    exact ⟨List.suffix_cons _ _, Nat.lt_succ_self _⟩
  | case4 t =>
    cases h
    exact ⟨List.suffix_cons _ _, Nat.lt_succ_self _⟩
  | case5 => cases h
  | case6 => cases h
  | case7 c t hc ih =>
    obtain ⟨p, hp, heq⟩ := Option.map_eq_some_iff.mp h
    cases heq
    obtain ⟨hsuffix, hlength⟩ := ih hp
    refine ⟨hsuffix.trans ((List.suffix_cons _ t).trans (List.suffix_cons _ _)), ?_⟩
    simp only [List.length_cons]
    omega
  | case8 c t _ _ _ _ ih =>
    obtain ⟨p, hp, heq⟩ := Option.map_eq_some_iff.mp h
    cases heq
    obtain ⟨hsuffix, hlength⟩ := ih hp
    refine ⟨hsuffix.trans (List.suffix_cons _ t), ?_⟩
    simp only [List.length_cons]
    omega

theorem optionLiteral?_close {t : Text} (ht : t.head? ≠ some '\'') :
    optionLiteral? ('\'' :: t) = some ([], t) := by
  cases t with
  | nil => rfl
  | cons c t =>
    rw [optionLiteral?]
    intro u hu
    exact ht (by rw [hu]; rfl)

/-- A character that escapes neither the end of the text nor a character is no backslash. -/
theorem ne_backslash {c : Char} {t : Text} (hend : c = '\\' → t = [] → False)
    (hescape : ∀ (d : Char) (u : Text), c = '\\' → t = d :: u → False) : c ≠ '\\' := by
  intro hc
  cases t with
  | nil => exact hend hc rfl
  | cons d t => exact hescape d t hc rfl

theorem optionLiteral?_ordinary {c : Char} (t : Text) (hquote : c ≠ '\'') (hslash : c ≠ '\\') :
    optionLiteral? (c :: t) = (optionLiteral? t).map fun r => (c :: r.1, r.2) := by
  rw [optionLiteral?]
  · rintro u rfl; exact absurd rfl hquote
  · exact hquote
  · exact fun h => absurd h hslash
  · exact fun d u h => absurd h hslash

/-- What begins with a quote can be closed there, if nowhere else. -/
theorem optionLiteral?_quote (t : Text) : ∃ p, optionLiteral? ('\'' :: t) = some p := by
  by_cases ht : t.head? = some '\''
  · obtain ⟨u, rfl⟩ := List.head?_eq_some_iff.mp ht
    rw [optionLiteral?]
    split <;> exact ⟨_, rfl⟩
  · exact ⟨_, optionLiteral?_close ht⟩

theorem grows_optionLiteral? : Grows optionLiteral? := by
  intro t z p h
  fun_induction optionLiteral? t generalizing p with
  | case1 => cases h
  | case2 => exact optionLiteral?_quote _
  | case3 => exact optionLiteral?_quote _
  | case4 => exact optionLiteral?_quote _
  | case5 => cases h
  | case6 => cases h
  | case7 c t hc ih =>
    obtain ⟨p, hp, -⟩ := Option.map_eq_some_iff.mp h
    obtain ⟨q, hq⟩ := ih p hp
    refine ⟨('\\' :: c :: q.1, q.2), ?_⟩
    rw [List.cons_append, List.cons_append, optionLiteral?, if_neg hc, hq]
    rfl
  | case8 c t _ hquote hend hescape ih =>
    obtain ⟨p, hp, -⟩ := Option.map_eq_some_iff.mp h
    obtain ⟨q, hq⟩ := ih p hp
    refine ⟨(c :: q.1, q.2), ?_⟩
    rw [List.cons_append, optionLiteral?_ordinary _ hquote (ne_backslash hend hescape), hq]
    rfl

/-- A literal leaves less over than what the text is longer by only if it does not end in it. -/
theorem optionLiteral?_beyond {z body r : Text} : optionLiteral? z ≠ some (body, r ++ z) := by
  intro h
  have hlength := (optionLiteral?_suffix h).2
  rw [List.length_append] at hlength
  omega

theorem isParser_optionLiteral? : IsParser optionLiteral? where
  suffix := fun h => (optionLiteral?_suffix h).1
  cut := by
    intro t r z a h
    fun_induction optionLiteral? t generalizing a with
    | case1 => exact absurd h optionLiteral?_beyond
    | case2 t body rest hrest ih =>
      -- Two quotes with a literal behind them, and so with one in the longer text, too.
      rw [List.cons_append, List.cons_append, optionLiteral?] at h
      obtain ⟨⟨b, s⟩, hb⟩ := grows_optionLiteral? t z _ hrest
      rw [hb] at h
      cases h
      have := ih hb
      rw [hrest] at this
      cases this
      rfl
    | case3 t hnone ih =>
      -- Two quotes, the first of which closes the literal; so it does in the longer text, or else
      -- the literal there would be cut to one that the shorter text does not have.
      rw [List.cons_append, List.cons_append, optionLiteral?] at h
      cases hb : optionLiteral? (t ++ z) with
      | some p =>
        obtain ⟨b, s⟩ := p
        rw [hb] at h
        obtain ⟨-, rfl⟩ := Prod.mk.inj (Option.some.inj h)
        have := ih hb
        rw [hnone] at this
        cases this
      | none =>
        rw [hb] at h
        obtain ⟨rfl, heq⟩ := Prod.mk.inj (Option.some.inj h)
        have hr : '\'' :: t = r := List.append_cancel_right heq
        rw [hr]
    | case4 t hclose =>
      by_cases hz : (t ++ z).head? = some '\''
      · -- The closing quote ends the shorter text; in the longer one another quote follows it.
        cases t with
        | cons c t =>
          obtain rfl : c = '\'' := Option.some.inj hz
          exact absurd rfl (hclose t)
        | nil =>
          obtain ⟨u, rfl⟩ := List.head?_eq_some_iff.mp hz
          rw [List.cons_append, List.nil_append, optionLiteral?] at h
          cases hu : optionLiteral? u with
          | some p =>
            obtain ⟨b, s⟩ := p
            rw [hu] at h
            obtain ⟨-, rfl⟩ := Prod.mk.inj (Option.some.inj h)
            have hlength := (optionLiteral?_suffix hu).2
            rw [List.length_append, List.length_cons] at hlength
            omega
          | none =>
            rw [hu] at h
            obtain ⟨rfl, heq⟩ := Prod.mk.inj (Option.some.inj h)
            rw [List.self_eq_append_left.mp heq]
      · rw [List.cons_append, optionLiteral?_close hz] at h
        obtain ⟨rfl, heq⟩ := Prod.mk.inj (Option.some.inj h)
        rw [List.append_cancel_right heq]
    | case5 =>
      -- A backslash at the end of the text escapes a character of `z`, which is then used up.
      cases z with
      | nil => cases h
      | cons c z =>
        rw [List.cons_append, List.nil_append, optionLiteral?] at h
        split at h
        · cases h
        · obtain ⟨⟨b, s⟩, hb, heq⟩ := Option.map_eq_some_iff.mp h
          obtain ⟨-, rfl⟩ := Prod.mk.inj heq
          have hlength := (optionLiteral?_suffix hb).2
          rw [List.length_append, List.length_cons] at hlength
          omega
    | case6 t =>
      rw [List.cons_append, List.cons_append, optionLiteral?, if_pos rfl] at h
      cases h
    | case7 c t hc ih =>
      rw [List.cons_append, List.cons_append, optionLiteral?, if_neg hc] at h
      obtain ⟨⟨b, s⟩, hb, heq⟩ := Option.map_eq_some_iff.mp h
      cases heq
      rw [ih hb]
      rfl
    | case8 c t _ hquote hend hescape ih =>
      rw [List.cons_append, optionLiteral?_ordinary _ hquote (ne_backslash hend hescape)] at h
      obtain ⟨⟨b, s⟩, hb, heq⟩ := Option.map_eq_some_iff.mp h
      cases heq
      rw [ih hb]
      rfl

/-! ### Options -/

theorem isReader_equals? : IsReader equals? := by
  rw [funext equals?_eq]
  exact isReader_dropBlanks.bind (isReader_mark? '=')

theorem extends_equals? : Extends equals? := by
  intro t r z h hne
  rw [equals?_eq] at h ⊢
  have hblank : dropBlanks t ≠ [] := by
    intro hnil
    rw [hnil] at h
    cases h
  have hdrop : dropBlanks (t ++ z) = dropBlanks t ++ z :=
    Option.some.inj (extends_dropBlanks t _ z rfl hblank)
  obtain ⟨s, hs, heq⟩ := (mark?_append z hblank).2 r h
  rw [hdrop, hs, heq hne]

/-- An option that is given as a keyword, an equals sign and a run of characters. -/
theorem isReader_equalsOption (k : Text) (p : Char → Bool) :
    IsReader fun t => ((keyword? k t).bind equals?).bind (run? p) :=
  ((isReader_keyword? k).bind isReader_equals?).bind (isReader_run? p)

theorem grows_equalsOption (k : Text) (p : Char → Bool) :
    Grows fun t => ((keyword? k t).bind equals?).bind (run? p) :=
  ((extends_keyword? k).bind extends_equals? isReader_equals?.suffix).bind_grows (grows_run? p) rfl

theorem isReader_charsetName : IsReader fun r => run? isCharsetChar (dropEquals r) := by
  simp only [dropEquals_eq]
  exact (isReader_dropMark '=').bind (isReader_run? isCharsetChar)

theorem grows_charsetName : Grows fun r => run? isCharsetChar (dropEquals r) := by
  simp only [dropEquals_eq]
  exact (extends_dropMark '=').bind_grows (grows_run? isCharsetChar) rfl

/-- The word `DEFAULT` may stand before an option that is no `DEFAULT` itself. -/
theorem isReader_skipDefault {g : Text → Option Text} (hg : IsReader g) :
    IsReader fun t => g (skipDefault t) :=
  (isReader_defaultWord?.getD grows_defaultWord?).bind hg

theorem grows_skipDefault {g : Text → Option α} (hg : Grows g) (hnil : g [] = none)
    (hnot : ∀ t a, g t = some a → ∃ l s, isKeyword l = true ∧ keyword? l t = some s ∧
      ¬ ("default".toList <+: l ∨ l <+: "default".toList)) :
    Grows fun t => g (skipDefault t) := by
  refine extends_defaultWord?.getD_grows hg hnil ?_
  intro t z a h _
  obtain ⟨l, s, hl, hs, hclash⟩ := hnot t a h
  rw [defaultWord?, keyword?_eq_none_of_clash (by decide) hl hclash (keyword?_append_right z hs)]
  rfl

/-- The two spellings of the option that names a character set. -/
def charsetWords? (t : Text) : Option Text :=
  keyword? "charset".toList t <|> phrase? ["character".toList, "set".toList] t

/-- The keywords that a character set is named by. -/
theorem charsetWords?_eq_some {t r : Text} (h : charsetWords? t = some r) :
    keyword? "charset".toList t = some r ∨
      (∃ s, keyword? "character".toList t = some s) ∧
        phrase? ["character".toList, "set".toList] t = some r := by
  rw [charsetWords?] at h
  cases hword : keyword? "charset".toList t with
  | some s =>
    rw [hword] at h
    exact Or.inl h
  | none =>
    rw [hword] at h
    have hphrase : phrase? ["character".toList, "set".toList] t = some r := h
    refine Or.inr ⟨?_, hphrase⟩
    rw [phrase?_cons_cons] at hphrase
    obtain ⟨s, hs, -⟩ := Option.bind_eq_some_iff.mp hphrase
    exact ⟨s, hs⟩

theorem charsetWords?_append_right {t r : Text} (z : Text) (h : charsetWords? t = some r) :
    charsetWords? (t ++ z) = some (r ++ z) := by
  rcases charsetWords?_eq_some h with h | ⟨⟨s, hs⟩, h⟩
  · rw [charsetWords?, keyword?_append_right z h]
    rfl
  · rw [charsetWords?, phrase?_append_right (by decide) z h,
      keyword?_eq_none_of_clash (by decide) (by decide) (by decide) (keyword?_append_right z hs)]
    rfl

theorem isReader_charset :
    IsReader fun t => (charsetWords? t).bind fun r => run? isCharsetChar (dropEquals r) :=
  ((isReader_keyword? _).orElse (isReader_phrase? _) (grows_keyword? _)).bind isReader_charsetName

theorem grows_charset :
    Grows fun t => (charsetWords? t).bind fun r => run? isCharsetChar (dropEquals r) :=
  Extends.bind_grows (fun _ _ z h _ => charsetWords?_append_right z h) grows_charsetName rfl

theorem grows_charsetOption : Grows fun t =>
    (charsetWords? (skipDefault t)).bind fun r => run? isCharsetChar (dropEquals r) := by
  refine grows_skipDefault grows_charset rfl ?_
  intro t a h
  obtain ⟨r, hr, -⟩ := Option.bind_eq_some_iff.mp h
  rcases charsetWords?_eq_some hr with h | ⟨⟨s, hs⟩, -⟩
  · exact ⟨_, r, by decide, h, by decide⟩
  · exact ⟨_, s, by decide, hs, by decide⟩

theorem grows_collateOption : Grows fun t =>
    (keyword? "collate".toList (skipDefault t)).bind
      fun r => run? isCharsetChar (dropEquals r) := by
  refine grows_skipDefault (grows_keyword?_bind grows_charsetName) rfl ?_
  intro t a h
  obtain ⟨r, hr, -⟩ := Option.bind_eq_some_iff.mp h
  exact ⟨_, r, by decide, hr, by decide⟩

theorem isReader_plainOption? : IsReader plainOption? := by
  have hcollate : IsReader fun t =>
      (keyword? "collate".toList t).bind fun r => run? isCharsetChar (dropEquals r) :=
    (isReader_keyword? _).bind isReader_charsetName
  exact (isReader_equalsOption _ _).orElse
    ((isReader_skipDefault isReader_charset).orElse
      ((isReader_skipDefault hcollate).orElse (isReader_equalsOption _ _) grows_collateOption)
      grows_charsetOption)
    (grows_equalsOption _ _)

theorem grows_plainOption? : Grows plainOption? :=
  (grows_equalsOption _ _).orElse
    (grows_charsetOption.orElse (grows_collateOption.orElse (grows_equalsOption _ _)))

theorem isReader_flagOption? : IsReader flagOption? :=
  (isReader_phrase? _).orElse (isReader_keyword? _) (grows_phrase? (by decide))

theorem grows_flagOption? : Grows flagOption? :=
  (grows_phrase? (by decide)).orElse (grows_keyword? _)

/-- The body of a literal in single quotes at the front of the text, and what follows it. -/
def quotedLiteral? : Text → Option (Text × Text)
  | '\'' :: r => optionLiteral? r
  | _ => none

theorem quotedLiteral?_cons {c : Char} (t : Text) (hc : c ≠ '\'') :
    quotedLiteral? (c :: t) = none := by
  rw [quotedLiteral?]
  intro r hr
  exact hc (List.cons.inj hr).1

theorem isParser_quotedLiteral? : IsParser quotedLiteral? where
  suffix := by
    intro t r a h
    cases t with
    | nil => cases h
    | cons c t =>
      by_cases hc : c = '\''
      · subst hc
        exact (isParser_optionLiteral?.suffix h).trans (List.suffix_cons _ t)
      · rw [quotedLiteral?_cons t hc] at h
        cases h
  cut := by
    intro t r z a h
    cases t with
    | nil =>
      cases z with
      | nil => cases h
      | cons c z =>
        by_cases hc : c = '\''
        · subst hc
          have hlength := (optionLiteral?_suffix h).2
          rw [List.length_append, List.length_cons] at hlength
          omega
        · rw [List.nil_append, quotedLiteral?_cons z hc] at h
          cases h
    | cons c t =>
      by_cases hc : c = '\''
      · subst hc
        exact isParser_optionLiteral?.cut h
      · rw [List.cons_append, quotedLiteral?_cons _ hc] at h
        cases h

theorem grows_quotedLiteral? : Grows quotedLiteral? := by
  intro t z p h
  cases t with
  | nil => cases h
  | cons c t =>
    by_cases hc : c = '\''
    · subst hc
      exact grows_optionLiteral? t z p h
    · rw [quotedLiteral?_cons t hc] at h
      cases h

theorem commentOption?_eq (t : Text) : commentOption? t =
    (keyword? "comment".toList t).bind fun r => quotedLiteral? (dropMark '=' r) := by
  simp only [← dropEquals_eq]
  rfl

theorem isParser_commentOption? : IsParser commentOption? := by
  rw [funext commentOption?_eq]
  exact (isReader_keyword? _).bindParser
    ((isReader_dropMark '=').bindParser isParser_quotedLiteral?)

theorem grows_commentOption? : Grows commentOption? := by
  rw [funext commentOption?_eq]
  exact grows_keyword?_bind ((extends_dropMark '=').bind_grows grows_quotedLiteral? rfl)

/-- One table option at the front of the text. -/
def bareOption? (r : Text) : Option (Option Text × Text) :=
  ((plainOption? r).map fun rest => (none, rest)) <|>
    ((commentOption? r).map fun p => (some p.1, p.2)) <|>
    ((flagOption? r).map fun rest => (none, rest))

theorem tableOption?_eq (t : Text) : tableOption? t = bareOption? (dropMark ',' t) := by
  show bareOption? _ = _
  congr 1
  rw [dropMark]
  cases hdrop : dropBlanks t with
  | nil => rfl
  | cons c r =>
    by_cases hc : c = ','
    · subst hc; rfl
    · rw [mark?, if_neg hc]
      split
      · rename_i heq
        exact absurd (List.cons.inj heq).1 hc
      · rfl

theorem isParser_bareOption? : IsParser bareOption? :=
  (isReader_plainOption?.value none).orElse
    ((isParser_commentOption?.mapValue some).orElse (isReader_flagOption?.value none)
      (grows_commentOption?.map _))
    (grows_plainOption?.map _)

theorem grows_bareOption? : Grows bareOption? :=
  (grows_plainOption?.map _).orElse ((grows_commentOption?.map _).orElse (grows_flagOption?.map _))

theorem bareOption?_nil : bareOption? [] = none := rfl

theorem isParser_tableOption? : IsParser tableOption? := by
  rw [funext tableOption?_eq]
  exact (isReader_dropMark ',').bindParser isParser_bareOption?

theorem grows_tableOption? : Grows tableOption? := by
  rw [funext tableOption?_eq]
  exact (extends_dropMark ',').bind_grows grows_bareOption? bareOption?_nil

/-! ### Options one after the other -/

theorem dropSemicolon_eq (t : Text) : dropSemicolon t =
    if (dropBlanks t).head? = some ';' then (dropBlanks t).tail else dropBlanks t := by
  rw [dropSemicolon]
  cases hdrop : dropBlanks t with
  | nil => rfl
  | cons c r =>
    by_cases hc : c = ';'
    · subst hc; rfl
    · rw [if_neg (by rw [List.head?_cons, Option.some.injEq]; exact hc)]
      split
      · rename_i heq
        exact absurd (List.cons.inj heq).1 hc
      · rfl

theorem dropSemicolon_suffix (t : Text) : dropSemicolon t <:+ t := by
  have hblank : dropBlanks t <:+ t := List.dropWhile_suffix isBlank
  rw [dropSemicolon_eq]
  split
  · exact (List.tail_suffix _).trans hblank
  · exact hblank

theorem dropSemicolon_cut {t r z : Text} (h : dropSemicolon (t ++ z) = r ++ z) :
    dropSemicolon t = r := by
  rw [dropSemicolon_eq] at h ⊢
  have hsuffix : r ++ z <:+ dropBlanks (t ++ z) := by
    rw [← h]
    split
    · exact List.tail_suffix _
    · exact List.suffix_rfl
  obtain ⟨u, hu, -⟩ := exists_eq_append_of_suffix (List.dropWhile_suffix isBlank) hsuffix
  have hdrop : dropBlanks t = u := dropWhile_cut hu
  have hlong : dropBlanks (t ++ z) = u ++ z := hu
  rw [hlong] at h
  rw [hdrop]
  cases u with
  | cons c u =>
    rw [List.cons_append, List.head?_cons, List.tail_cons] at h
    rw [List.head?_cons, List.tail_cons]
    split at h
    · rename_i hc
      rw [if_pos hc, List.append_cancel_right h]
    · rename_i hc
      rw [if_neg hc]
      exact List.append_cancel_right h
  | nil =>
    -- A semicolon that stands behind the text itself is not left over.
    have hne : ¬ (z.head? = some ';') := by
      intro hz
      obtain ⟨v, rfl⟩ := List.head?_eq_some_iff.mp hz
      rw [List.nil_append, List.head?_cons, if_pos rfl, List.tail_cons] at h
      have hlength := congrArg List.length h
      rw [List.length_append, List.length_cons] at hlength
      omega
    rw [List.nil_append, if_neg hne] at h
    rw [List.head?_nil, if_neg (by decide), List.self_eq_append_left.mp h]

theorem tableOptions_suffix (t : Text) : (tableOptions t).2 <:+ t :=
  (dropSemicolon_suffix _).trans (manyUpTo_suffix isParser_tableOption? _ t)

/-- **What is read as options is read as the same options by itself.** -/
theorem tableOptions_cut {t r z : Text} {comment : Option Text}
    (h : tableOptions (t ++ z) = (comment, r ++ z)) : tableOptions t = (comment, r) := by
  obtain ⟨hcomment, hrest⟩ := Prod.mk.inj h
  obtain ⟨u, hu, -⟩ := exists_eq_append_of_suffix (manyUpTo_suffix isParser_tableOption? _ (t ++ z))
    (hrest ▸ dropSemicolon_suffix _)
  have hmany : many tableOption? t = ((many tableOption? (t ++ z)).1, u) :=
    many_cut isParser_tableOption? grows_tableOption? (Prod.ext rfl hu)
  have hsemicolon : dropSemicolon u = r := dropSemicolon_cut (hu ▸ hrest)
  rw [tableOptions, hmany, hsemicolon]
  exact Prod.ext hcomment rfl

end TableTypes
