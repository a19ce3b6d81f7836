import TableTypes.Proofs.Column.Order
import Mathlib.Data.List.Infix

/-!
# Default values in parentheses

The reader of default values keeps the quote that is open and counts parentheses outside quotes
(`ValueSpot`).  In a text without backslashes its quote state is that of the text in front of it, so
it goes on over every character at which a value cannot end (`exists_defaultRun_append`).  At such a
character no quote is open: it is a blank outside parentheses, or the parenthesis that closes the
only open one with another clause or nothing behind it (`ValueSpot.EndsAt`).

Inside parentheses neither is the case before the parenthesis that closes them, so an expression in
parentheses and the call of a function are read whole, and an `ON UPDATE` behind them with its word
(`Column.default_expression`).
-/

namespace TableTypes

open Text

/-! ### Spots -/

/-- Where the reader of a default value stands: the quote that is open, and the number of open
parentheses. -/
structure ValueSpot where
  quote : Option Char
  depth : Int
  deriving DecidableEq, Repr

namespace ValueSpot

/-- The spot in front of a value. -/
def start : ValueSpot :=
  ⟨none, 0⟩

/-- The spot behind a character. -/
def move (s : ValueSpot) (c : Char) : ValueSpot :=
  match s.quote with
  | some q => if c = q then ⟨none, s.depth⟩ else s
  | none =>
    if c = '"' || c = '\'' then ⟨some c, s.depth⟩
    else if c = '(' then ⟨none, s.depth + 1⟩
    else if c = ')' then ⟨none, s.depth - 1⟩
    else s

/-- The spot behind a text. -/
def behind (s : ValueSpot) (t : Text) : ValueSpot :=
  t.foldl move s

/-- The spot inside another parenthesis. -/
def inside (s : ValueSpot) : ValueSpot :=
  ⟨s.quote, s.depth + 1⟩

/-- A value can end at the character `c` with `t` behind it. -/
def EndsAt (s : ValueSpot) (opened : Bool) (c : Char) (t : Text) : Prop :=
  s.quote = none ∧
    (s.depth = 1 ∧ c = ')' ∧ opened = true ∧ startsClause (strip t) = true ∨
      s.depth = 0 ∧ isBlank c = true)

theorem behind_append (s : ValueSpot) (t u : Text) : s.behind (t ++ u) = (s.behind t).behind u :=
  List.foldl_append

theorem move_inside (s : ValueSpot) (c : Char) : s.inside.move c = (s.move c).inside := by
  obtain ⟨quote, depth⟩ := s
  cases quote with
  | some q =>
    simp only [move, inside]
    split <;> rfl
  | none =>
    simp only [move, inside]
    split_ifs
    · rfl
    · rfl
    · rw [Int.sub_add_cancel, Int.add_sub_cancel]
    · rfl

/-- What is inside a parenthesis is read as it is outside. -/
theorem behind_inside (s : ValueSpot) (t : Text) : s.inside.behind t = (s.behind t).inside := by
  induction t generalizing s with
  | nil => rfl
  | cons c t ih =>
    show (s.inside.move c).behind t = _
    rw [move_inside, ih]
    rfl

end ValueSpot

/-- The text closes every quote and every parenthesis it opens, and no parenthesis before it. -/
structure IsClosedValue (t : Text) : Prop where
  nonneg : ∀ p ∈ t.inits, 0 ≤ (ValueSpot.start.behind p).depth
  ends : ValueSpot.start.behind t = .start

instance (t : Text) : Decidable (IsClosedValue t) :=
  decidable_of_iff ((∀ p ∈ t.inits, 0 ≤ (ValueSpot.start.behind p).depth) ∧
      ValueSpot.start.behind t = .start)
    ⟨fun h => ⟨h.1, h.2⟩, fun h => ⟨h.nonneg, h.ends⟩⟩

/-! ### The run of the reader -/

variable {s : ValueSpot} {before c : Char} {opened : Bool} {t : Text}

/-- The reader goes on over a character at which a value cannot end. -/
theorem defaultRun_step (hbefore : before ≠ '\\') (h : ¬ s.EndsAt opened c t) :
    defaultRun before s.quote s.depth opened (c :: t) =
      c :: defaultRun c (s.move c).quote (s.move c).depth (opened || c = '(') t := by
  obtain ⟨quote, depth⟩ := s
  cases quote with
  | some q =>
    rw [defaultRun]
    by_cases hc : c = q <;> simp [ValueSpot.move, hc, hbefore]
  | none =>
    rw [defaultRun]
    by_cases hquote : c = '"' ∨ c = '\''
    · rcases hquote with rfl | rfl <;> simp [ValueSpot.move]
    rw [not_or] at hquote
    by_cases hopen : c = '('
    · subst hopen
      simp [ValueSpot.move]
    by_cases hclose : c = ')'
    · subst hclose
      have hgoes : (depth = 1 && opened && startsClause (strip t)) = false := by
        rw [← Bool.not_eq_true, Bool.and_eq_true, Bool.and_eq_true, decide_eq_true_eq]
        exact fun hend => h ⟨rfl, Or.inl ⟨hend.1.1, rfl, hend.1.2, hend.2⟩⟩
      simp [ValueSpot.move, hgoes]
    · have hgoes : (depth = 0 && isBlank c) = false := by
        rw [← Bool.not_eq_true, Bool.and_eq_true, decide_eq_true_eq]
        exact fun hend => h ⟨rfl, Or.inr hend⟩
      simp [ValueSpot.move, hquote, hopen, hclose, hgoes]

/-- **The reader goes on over a text in which a value cannot end.** -/
theorem exists_defaultRun_append {u : Text} (hescape : '\\' ∉ u) (hbefore : before ≠ '\\')
    (h : ∀ p c r, u = p ++ c :: r →
      ¬ (s.behind p).EndsAt (opened || p.contains '(') c (r ++ t)) :
    ∃ last, defaultRun before s.quote s.depth opened (u ++ t) =
      u ++ defaultRun last (s.behind u).quote (s.behind u).depth (opened || u.contains '(') t := by
  have hopened : ∀ (o : Bool) (c : Char) (p : Text),
      (o || (c :: p).contains '(') = ((o || c = '(') || p.contains '(') := by
    intro o c p
    rw [List.contains_cons, Bool.or_assoc, Bool.beq_comm]
    rfl
  induction u generalizing s before opened with
  | nil =>
    refine ⟨before, ?_⟩
    rw [List.contains_nil, Bool.or_false]
    rfl
  | cons c u ih =>
    have hstep : ¬ s.EndsAt opened c (u ++ t) := by
      have h := h [] c u rfl
      rwa [List.contains_nil, Bool.or_false] at h
    have hc : c ≠ '\\' := fun hc => hescape (hc ▸ List.mem_cons_self)
    have hrest : ∀ p d r, u = p ++ d :: r →
        ¬ ((s.move c).behind p).EndsAt ((opened || c = '(') || p.contains '(') d (r ++ t) := by
      intro p d r hu
      have h := h (c :: p) d r (by rw [hu]; rfl)
      rwa [hopened] at h
    obtain ⟨last, hrun⟩ := ih (fun h => hescape (List.mem_cons_of_mem c h)) hc hrest
    refine ⟨last, ?_⟩
    rw [List.cons_append, defaultRun_step hbefore hstep, hrun, hopened]
    rfl

/-- Outside quotes the character in front does not matter to what follows. -/
theorem defaultRun_append {u : Text} (hescape : '\\' ∉ u) (hbefore : before ≠ '\\')
    (h : ∀ p c r, u = p ++ c :: r → ¬ (s.behind p).EndsAt (opened || p.contains '(') c (r ++ t))
    (hend : (s.behind u).quote = none) :
    defaultRun before s.quote s.depth opened (u ++ t) =
      u ++ defaultRun ' ' none (s.behind u).depth (opened || u.contains '(') t := by
  obtain ⟨last, hrun⟩ := exists_defaultRun_append hescape hbefore h
  rw [hrun, hend, defaultRun_before last ' ']

/-- Inside its parentheses an expression cannot end. -/
theorem IsClosedValue.not_endsAt {e p r : Text} (he : IsClosedValue e) (hsplit : e = p ++ c :: r) :
    ¬ (ValueSpot.start.inside.behind p).EndsAt opened c t := by
  have hnonneg : ∀ {x}, x <+: e → 0 ≤ (ValueSpot.start.behind x).depth := fun hx =>
    he.nonneg _ ((List.mem_inits _ _).mpr hx)
  have hdepth : 0 ≤ (ValueSpot.start.behind p).depth := hnonneg ⟨c :: r, hsplit.symm⟩
  rw [ValueSpot.behind_inside]
  rintro ⟨hquote, ⟨hone, rfl, -⟩ | ⟨hzero, -⟩⟩
  · -- The parenthesis that closes the only open one would close none of the expression.
    have hnext : 0 ≤ (ValueSpot.start.behind (p ++ [')'])).depth :=
      hnonneg ⟨r, by rw [hsplit, List.append_assoc]; rfl⟩
    have hmove : (ValueSpot.start.behind (p ++ [')'])).depth =
        (ValueSpot.start.behind p).depth - 1 := by
      have hquote : (ValueSpot.start.behind p).quote = none := hquote
      rw [ValueSpot.behind_append]
      show ((ValueSpot.start.behind p).move ')').depth = _
      rw [ValueSpot.move, hquote]
      rfl
    have hone : (ValueSpot.start.behind p).depth + 1 = 1 := hone
    omega
  · have hzero : (ValueSpot.start.behind p).depth + 1 = 0 := hzero
    omega

/-- The reader goes on to the parenthesis that closes the first one. -/
theorem defaultRun_parenthesized {f e : Text} (hf : ∀ c ∈ f, isAsciiWord c = true)
    (he : IsClosedValue e) (hescape : '\\' ∉ e) (t : Text) :
    defaultRun ' ' none 0 false (f ++ '(' :: (e ++ t)) =
      f ++ '(' :: (e ++ defaultRun ' ' none 1 true t) := by
  have hspot : ValueSpot.start.inside.behind e = ⟨none, 1⟩ := by
    rw [ValueSpot.behind_inside, he.ends]
    rfl
  have hrun : defaultRun '(' none 1 true (e ++ t) = _ :=
    defaultRun_append (s := ValueSpot.start.inside) hescape (by decide)
      (fun p c r hsplit => he.not_endsAt hsplit) (by rw [hspot])
  rw [hspot, Bool.true_or] at hrun
  have hopen : defaultRun ' ' none 0 false ('(' :: (e ++ t)) =
      '(' :: defaultRun '(' none 1 true (e ++ t) := rfl
  rw [defaultRun_word hf, hopen]
  exact congrArg (f ++ '(' :: ·) hrun

/-! ### What follows a default value -/

/-- The words that may follow a default value behind a space. -/
def followingWords : List Text :=
  ["NOT NULL".toList, "NULL".toList, "PRIMARY KEY".toList, "UNIQUE".toList,
    "AUTO_INCREMENT".toList, "COMMENT".toList]

/-- The definition ends behind a default value or goes on with another clause. -/
inductive FollowsValue : Text → Prop
  | nil : FollowsValue []
  | clause {k : Text} (hk : k ∈ followingWords) (x : Text) : FollowsValue (' ' :: (k ++ x))

namespace FollowsValue

variable {a tail : Text}

theorem ends_of_mem {k : Text} (hk : k ∈ followingWords) :
    k ≠ [] ∧ (∀ c ∈ k.head?, isBlank c = false) ∧ ∀ c ∈ k.getLast?, isBlank c = false := by
  simp only [followingWords, List.mem_cons, List.not_mem_nil, or_false] at hk
  rcases hk with rfl | rfl | rfl | rfl | rfl | rfl <;>
    exact ⟨List.cons_ne_nil _ _, by rintro c ⟨⟩; rfl, by rintro c ⟨⟩; rfl⟩

/-- Stripping takes blanks off the end, behind the words that follow the value. -/
theorem exists_strip (h : FollowsValue tail) (hne : a ≠ [])
    (hhead : ∀ c ∈ a.head?, isBlank c = false) (hlast : ∀ c ∈ a.getLast?, isBlank c = false) :
    ∃ r, FollowsValue r ∧ strip (a ++ tail) = a ++ r := by
  cases h with
  | nil =>
    refine ⟨[], .nil, ?_⟩
    rw [List.append_nil]
    exact strip_eq_self hhead hlast
  | @clause k hk x =>
    obtain ⟨hk', -, hkLast⟩ := ends_of_mem hk
    obtain ⟨y, hy⟩ := List.getLast?_isSome.mpr hk' |> Option.isSome_iff_exists.mp
    obtain ⟨r, hr⟩ := exists_strip_append (a := a ++ ' ' :: k) (by simp) (by
        rwa [List.head?_append_of_ne_nil _ hne]) (by
        intro c hc
        rw [List.getLast?_append, List.getLast?_cons, hy] at hc
        exact hkLast c (hy.trans hc)) x
    refine ⟨' ' :: (k ++ r), .clause hk r, ?_⟩
    rw [List.append_assoc, List.cons_append, List.append_assoc] at hr
    exact hr

/-- What follows a value starts with a clause or is nothing. -/
theorem startsClause_strip (h : FollowsValue tail) : startsClause (strip tail) = true := by
  cases h with
  | nil => rfl
  | @clause k hk x =>
    obtain ⟨hne, hhead, hlast⟩ := ends_of_mem hk
    obtain ⟨r, hr⟩ := exists_strip_append hne hhead hlast x
    have hspace : strip (' ' :: (k ++ x)) = strip (k ++ x) := rfl
    rw [hspace, hr]
    simp only [followingWords, List.mem_cons, List.not_mem_nil, or_false] at hk
    rcases hk with rfl | rfl | rfl | rfl | rfl | rfl <;> rfl

end FollowsValue

/-! ### Behind the last parenthesis -/

variable {tail w : Text}

theorem defaultRun_closing (htail : FollowsValue tail) :
    defaultRun ' ' none 1 true (')' :: tail) = [')'] := by
  rw [defaultRun]
  simp [htail.startsClause_strip]

/-- At a space an `ON UPDATE` ends the value and is taken along. -/
theorem defaultRun_space {r : Text} (hr : strip (' ' :: t) = r) (hstarts : startsClause r = false)
    (hupdate : (phrase? ["on".toList, "update".toList] r).isSome = true) :
    defaultRun before none 0 opened (' ' :: t) = onUpdate r := by
  rw [defaultRun, hr]
  show (if startsClause r then [] else
    if (phrase? ["on".toList, "update".toList] r).isSome then onUpdate r else _) = _
  rw [hstarts, if_neg (by decide), if_pos hupdate]

/-- An `ON UPDATE` is taken along with the word behind it. -/
theorem onUpdate_word {r : Text} (hne : w ≠ []) (hw : ∀ c ∈ w, isBlank c = false)
    (hr : ∀ c ∈ r.head?, isBlank c = true) :
    onUpdate ("ON UPDATE ".toList ++ (w ++ r)) = " ON UPDATE ".toList ++ w := by
  obtain ⟨c, v, hv⟩ := List.exists_cons_of_ne_nil hne
  have hblank : dropBlanks (w ++ r) = w ++ r := by
    rw [hv, List.cons_append]
    exact dropBlanks_of_head _ (hw c (hv ▸ List.mem_cons_self))
  have hphrase : (phrase? ["on".toList, "update".toList] ("ON UPDATE ".toList ++ (w ++ r))).bind
      dropBlanks1? = some (w ++ r) := congrArg some hblank
  have hword : (w ++ r).takeWhile (!isBlank ·) = w :=
    takeWhile_run (fun c hc => by rw [hw c hc]; rfl) (fun c hc => by rw [hr c hc]; rfl)
  rw [onUpdate, hphrase]
  simp only [hword]

/-- An `ON UPDATE` behind the parenthesis is taken along with its word. -/
theorem defaultRun_onUpdate (hne : w ≠ []) (hw : ∀ c ∈ w, isBlank c = false)
    (htail : FollowsValue tail) :
    defaultRun ' ' none 1 true (')' :: (" ON UPDATE ".toList ++ (w ++ tail))) =
      ')' :: (" ON UPDATE ".toList ++ w) := by
  obtain ⟨r, hr, hstrip⟩ := htail.exists_strip (a := "ON UPDATE ".toList ++ w) (by simp)
    (by rintro c ⟨⟩; rfl) (by
      intro c hc
      rw [List.getLast?_append_of_ne_nil _ hne] at hc
      exact hw c (List.mem_of_mem_getLast? hc))
  have hremaining : strip (" ON UPDATE ".toList ++ (w ++ tail)) =
      "ON UPDATE ".toList ++ (w ++ r) := by
    rw [← List.append_assoc]
    exact hstrip.trans (List.append_assoc _ _ _)
  have hupdate : onUpdate ("ON UPDATE ".toList ++ (w ++ r)) = " ON UPDATE ".toList ++ w :=
    onUpdate_word hne hw fun c hc => by cases hr <;> cases hc; rfl
  have hgoes : ¬ (ValueSpot.mk none 1).EndsAt true ')' (" ON UPDATE ".toList ++ (w ++ tail)) := by
    rintro ⟨-, ⟨-, -, -, hstarts⟩ | ⟨hzero, -⟩⟩
    · rw [hremaining] at hstarts
      cases hstarts
    · cases hzero
  have hclose : defaultRun ' ' none 1 true (')' :: (" ON UPDATE ".toList ++ (w ++ tail))) = _ :=
    defaultRun_step (by decide) hgoes
  have hspace : defaultRun ')' none 0 true (" ON UPDATE ".toList ++ (w ++ tail)) =
      onUpdate ("ON UPDATE ".toList ++ (w ++ r)) := defaultRun_space hremaining rfl rfl
  rw [← hupdate, ← hspace]
  exact hclose

/-! ### The default value of a definition -/

/-- Masking what is quoted leaves the first character, if only as a quote. -/
theorem head?_maskQuoted (t : Text) : (maskQuoted t).head? = t.head? := by
  cases t with
  | nil => rfl
  | cons c t =>
    have hmark : Mark.unquotedChar ⟨c, (Place.code.step false none c t.head?).1,
        0 + (Place.code.step false none c t.head?).1.weight c⟩ = c := by
      cases h : Quote.ofChar? c with
      | none => simp [Place.step, Place.enter, h, Mark.unquotedChar, Mark.isQuotedContent]
      | some q =>
        have hc : q.char = c := Quote.ofChar?_eq_some_iff.mp h
        simp [Place.step, Place.enter, h, hc, Mark.unquotedChar, Mark.isQuotedContent]
    rw [maskQuoted_eq_map]
    exact congrArg some hmark

/-- The default value behind the word at the front of the attributes. -/
theorem defaultValue?_defaultClause {v : Text} (hv : ∀ c ∈ v.head?, isBlank c = false) :
    defaultValue? (defaultClause v) =
      some (unquoteSimple (strip (defaultRun ' ' none 0 false v))) := by
  have hmask : maskQuoted (defaultClause v) = "DEFAULT ".toList ++ maskQuoted v :=
    maskQuoted_plain_append v rfl
  have hblank : dropBlanks (maskQuoted v) = maskQuoted v := by
    have hhead := head?_maskQuoted v
    cases hm : maskQuoted v with
    | nil => rfl
    | cons c m =>
      rw [hm] at hhead
      exact dropBlanks_of_head m (hv c hhead.symm)
  have hfind : findWord defaultWord? (maskQuoted (defaultClause v)) = some (maskQuoted v) := by
    rw [hmask]
    exact findWord_of_eq_some (congrArg some hblank)
  have hsuffix : suffixLike (defaultClause v) (maskQuoted v) = v :=
    suffixLike_append "DEFAULT ".toList v (length_maskQuoted v)
  rw [defaultValue?, afterDefault?_eq, hfind, Option.map_some, Option.map_some, hsuffix]

section

variable (n : Bareword tableLevelWords) (t : TypeText) (line : Option Nat) {v tail : Text}

/-- A definition with a default value is read with the value that the reader finds there, and blanks
at the end of the definition do not count. -/
theorem Column.exists_parse_default (hne : v ≠ []) (hhead : ∀ c ∈ v.head?, isBlank c = false)
    (hlast : ∀ c ∈ v.getLast?, isBlank c = false) (htail : FollowsValue tail) :
    ∃ d r, Column.parse (.text (columnText n t (defaultClause (v ++ tail)))) line = .ok d ∧
      FollowsValue r ∧
        d.default = some (unquoteSimple (strip (defaultRun ' ' none 0 false (v ++ r)))) := by
  have happend : ∀ r, columnText n t (defaultClause (v ++ r)) =
      columnText n t (defaultClause v) ++ r := by
    intro r
    have h : defaultClause (v ++ r) = defaultClause v ++ r := (List.append_assoc _ v r).symm
    rw [h, columnText, columnText]
    simp only [List.append_assoc, List.cons_append]
  have hfront : ∀ c ∈ (columnText n t (defaultClause v)).head?, isBlank c = false :=
    isBlank_head?_word n.ne_nil n.forall_word _
  have hback : ∀ c ∈ (columnText n t (defaultClause v)).getLast?, isBlank c = false := by
    show ∀ c ∈ (n.text ++ ' ' :: (t.text ++ ' ' :: ("DEFAULT ".toList ++ v))).getLast?, _
    obtain ⟨x, hx⟩ := Option.isSome_iff_exists.mp (List.getLast?_isSome.mpr hne)
    intro c hc
    rw [List.getLast?_append, List.getLast?_cons, List.getLast?_append, List.getLast?_cons,
      List.getLast?_append, hx] at hc
    exact hlast c (hx.trans hc)
  obtain ⟨r, hr, hstrip⟩ := htail.exists_strip (by simp [columnText]) hfront hback
  rw [← happend, ← happend] at hstrip
  have hvalue : ∀ c ∈ (v ++ r).head?, isBlank c = false := by
    rwa [List.head?_append_of_ne_nil _ hne]
  exact ⟨_, r, Column.parse_of_strip n t hstrip ⟨rfl, rfl, rfl, rfl, rfl, rfl⟩
    (by rintro c ⟨⟩; rfl) line, hr, defaultValue?_defaultClause hvalue⟩

/-- **Expressions in parentheses and calls are read whole** as default values, whatever blanks,
commas or keywords they hold; and an `ON UPDATE` behind them is taken along with its word. -/
theorem Column.default_expression {f e : Text} (hf : ∀ c ∈ f, isAsciiWord c = true)
    (he : IsClosedValue e) (hescape : '\\' ∉ e) (htail : FollowsValue tail) :
    (∃ d, Column.parse (.text (columnText n t
        ("DEFAULT ".toList ++ (f ++ '(' :: (e ++ ')' :: tail))))) line = .ok d ∧
      d.default = some (f ++ '(' :: (e ++ [')']))) ∧
    ∀ w, w ≠ [] → (∀ c ∈ w, isBlank c = false) →
      ∃ d, Column.parse (.text (columnText n t ("DEFAULT ".toList ++
          (f ++ '(' :: (e ++ ')' :: (" ON UPDATE ".toList ++ (w ++ tail))))))) line = .ok d ∧
        d.default = some (f ++ '(' :: (e ++ ')' :: (" ON UPDATE ".toList ++ w))) := by
  -- Both values begin with a name or a parenthesis, so there are no quotes around them.
  have hhead : ∀ x, ∀ c ∈ (f ++ '(' :: x).head?,
      isBlank c = false ∧ c ≠ '"' ∧ c ≠ '\'' := by
    intro x c hc
    cases f with
    | nil =>
      cases hc
      decide
    | cons d f =>
      cases hc
      have hword := hf c List.mem_cons_self
      refine ⟨isBlank_of_isAsciiWord hword, ?_, ?_⟩ <;>
        (rintro rfl; exact absurd hword (by decide))
  have hvalue : ∀ u, (∀ c ∈ u.getLast?, isBlank c = false) →
      (∀ r, FollowsValue r → defaultRun ' ' none 1 true (')' :: (u ++ r)) = ')' :: u) →
      ∃ d, Column.parse (.text (columnText n t ("DEFAULT ".toList ++
          (f ++ '(' :: (e ++ ')' :: (u ++ tail)))))) line = .ok d ∧
        d.default = some (f ++ '(' :: (e ++ ')' :: u)) := by
    intro u hu hrun
    set v := f ++ '(' :: (e ++ ')' :: u) with hv
    have happend : ∀ r, v ++ r = f ++ '(' :: (e ++ ')' :: (u ++ r)) := by
      intro r
      simp [hv]
    have hlast : ∀ c ∈ v.getLast?, isBlank c = false := by
      intro c hc
      rw [hv, List.getLast?_append, List.getLast?_cons, List.getLast?_append,
        List.getLast?_cons] at hc
      cases h : u.getLast? with
      | none =>
        rw [h] at hc
        cases hc
        rfl
      | some d =>
        rw [h] at hc
        cases hc
        exact hu d h
    obtain ⟨d, r, hd, hr, hdefault⟩ := Column.exists_parse_default n t line (v := v) (by simp [hv])
      (fun c hc => (hhead _ c hc).1) hlast htail
    refine ⟨d, by rw [← happend]; exact hd, ?_⟩
    have hall : defaultRun ' ' none 0 false (v ++ r) = v := by
      rw [happend, defaultRun_parenthesized hf he hescape, hrun r hr]
    rw [hdefault, hall, strip_eq_self (fun c hc => (hhead _ c hc).1) hlast,
      unquoteSimple_of_head fun c hc => (hhead _ c hc).2]
  constructor
  · exact hvalue [] (by rintro c ⟨⟩) fun r hr => defaultRun_closing hr
  · intro w hne hw
    have h := hvalue (" ON UPDATE ".toList ++ w) (by
        intro c hc
        rw [List.getLast?_append_of_ne_nil _ hne] at hc
        exact hw c (List.mem_of_mem_getLast? hc)) fun r hr => by
      rw [List.append_assoc]
      exact defaultRun_onUpdate hne hw hr
    rwa [List.append_assoc] at h

end

/-- A call with a blank, a comma and a keyword in its parentheses, in front of another clause and
with an `ON UPDATE`. -/
theorem Column.default_expression_call :
    (∀ c ∈ "COALESCE".toList, isAsciiWord c = true) ∧
      IsClosedValue "NULL, concat('a)', (1))".toList ∧ '\\' ∉ "NULL, concat('a)', (1))".toList ∧
      FollowsValue " NOT NULL UNIQUE".toList ∧
      (∃ d, Column.parse (.text
          "c TEXT DEFAULT COALESCE(NULL, concat('a)', (1))) NOT NULL UNIQUE".toList) none = .ok d ∧
        d.default = some "COALESCE(NULL, concat('a)', (1)))".toList) ∧
      "NOW()".toList ≠ [] ∧ (∀ c ∈ "NOW()".toList, isBlank c = false) ∧
      ∃ d, Column.parse (.text ("c TEXT DEFAULT COALESCE(NULL, concat('a)', (1))) " ++
          "ON UPDATE NOW() NOT NULL UNIQUE").toList) none = .ok d ∧
        d.default = some "COALESCE(NULL, concat('a)', (1))) ON UPDATE NOW()".toList := by
  have hf : ∀ c ∈ "COALESCE".toList, isAsciiWord c = true := List.all_eq_true.mp rfl
  have hw : ∀ c ∈ "NOW()".toList, isBlank c = false := forall_eq_false rfl
  have he : IsClosedValue "NULL, concat('a)', (1))".toList := by decide +kernel
  have hescape : '\\' ∉ "NULL, concat('a)', (1))".toList := by decide
  have htail : FollowsValue " NOT NULL UNIQUE".toList :=
    .clause (k := "NOT NULL".toList) (by decide) " UNIQUE".toList
  obtain ⟨hcall, hupdate⟩ := Column.default_expression ⟨"c".toList, by decide, rfl, by decide⟩
    ⟨"TEXT".toList, by decide, rfl, .none⟩ none hf he hescape htail
  exact ⟨hf, he, hescape, htail, hcall, by decide, hw, hupdate "NOW()".toList (by decide) hw⟩

end TableTypes
