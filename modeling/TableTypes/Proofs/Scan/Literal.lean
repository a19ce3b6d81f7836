import TableTypes.Literal
import TableTypes.Proofs.Scan.Split
import TableTypes.Proofs.Text.Replace

/-!
# Literals with doubled quotes and backslashes

A `commentLiteral` stands in single quotes, with every quote and every backslash in it doubled.  The
reader of comments takes all of it (`columnLiteral?_commentLiteral`).  The scan looks back by a
single character to tell whether a quote is escaped, so it takes the second of two backslashes for an
escape: it finds the end of the literal if and only if no backslash of the comment stands directly in
front of a quote or at the end (`literalWidth?_commentLiteral`).
-/

namespace TableTypes

open Text

/-! ### Literals as they are written -/

/-- A character of a comment as it is written in a literal. -/
def escapeChar (c : Char) : Text :=
  if c = '\'' || c = '\\' then [c, c] else [c]

/-- A comment as it is written between the quotes of a literal. -/
def escaped (t : Text) : Text :=
  t.flatMap escapeChar

/-- The literal of a comment. -/
def commentLiteral (t : Text) : Text :=
  Quote.single.enclose (escaped t)

/-- A backslash of the comment stands directly in front of a quote or at the end, where the quote
follows that closes the literal. -/
def EscapesQuote (t : Text) : Prop :=
  ['\\', '\''] <:+: t ++ ['\'']

instance (t : Text) : Decidable (EscapesQuote t) :=
  inferInstanceAs (Decidable (['\\', '\''] <:+: t ++ ['\'']))

theorem escaped_cons (c : Char) (t : Text) : escaped (c :: t) = escapeChar c ++ escaped t :=
  List.flatMap_cons

theorem escapeChar_of_ne {c : Char} (hq : c ≠ '\'') (hb : c ≠ '\\') : escapeChar c = [c] := by
  rw [escapeChar, decide_eq_false hq, decide_eq_false hb]
  rfl

/-- The reader of comments takes a literal up to the quote that closes it. -/
theorem columnLiteral?_escaped (t : Text) {s : Text} (hs : s.head? ≠ some '\'') :
    columnLiteral? '\'' (escaped t ++ '\'' :: s) = some (escaped t) := by
  have hcontains : ∀ u : Text, (u ++ '\'' :: s).contains '\'' = true := by
    intro u
    rw [List.contains_iff_mem]
    exact List.mem_append_right u List.mem_cons_self
  induction t with
  | nil =>
    cases s with
    | nil => rfl
    | cons d s =>
      have hd : d ≠ '\'' := fun h => hs (congrArg some h)
      show columnLiteral? '\'' ('\'' :: d :: s) = some []
      rw [columnLiteral?, if_pos rfl, decide_eq_false hd]
      rfl
  | cons c t ih =>
    rw [escaped_cons, List.append_assoc]
    by_cases hq : c = '\''
    · subst hq
      show columnLiteral? '\'' ('\'' :: '\'' :: (escaped t ++ '\'' :: s)) = _
      rw [columnLiteral?, if_pos rfl, hcontains, ih]
      rfl
    by_cases hb : c = '\\'
    · subst hb
      show columnLiteral? '\'' ('\\' :: '\\' :: (escaped t ++ '\'' :: s)) = _
      rw [columnLiteral?, if_neg hq, hcontains, ih]
      rfl
    obtain ⟨d, u, hu⟩ : ∃ d u, escaped t ++ '\'' :: s = d :: u :=
      List.exists_cons_of_ne_nil (by simp)
    rw [escapeChar_of_ne hq hb]
    rw [hu] at ih ⊢
    show columnLiteral? '\'' (c :: d :: u) = _
    rw [columnLiteral?, if_neg hq, decide_eq_false hb, ih]
    rfl

/-! ### Inside a literal -/

/-- The spot inside a literal behind the character `b`. -/
def insideLiteral (b : Char) : Spot :=
  ⟨some b, .quoted .single, 0⟩

/-- The marks of a character as it is written in a literal: the first of two quotes closes it and
the second opens it again. -/
def escapedMarks (c : Char) : List Mark :=
  if c = '\'' then [⟨c, .code, 0⟩, ⟨c, .quoted .single, 0⟩]
  else (escapeChar c).map (⟨·, .quoted .single, 0⟩)

/-- Unless a quote comes behind a backslash, the scan stays inside the literal. -/
theorem marks_escapeChar {b c : Char} (h : ¬ (b = '\\' ∧ c = '\'')) (next : Option Char)
    (t : Text) : (insideLiteral b).marks true next (escapeChar c ++ t) =
      escapedMarks c ++ (insideLiteral c).marks true next t := by
  by_cases hq : c = '\''
  · subst hq
    have hb : b ≠ '\\' := fun hb => h ⟨hb, rfl⟩
    simp [escapeChar, escapedMarks, insideLiteral, Spot.marks, Spot.mark, Spot.move, Place.step,
      Place.enter, Quote.char, Quote.ofChar?, Region.weight, hb]
  by_cases hb : c = '\\'
  · subst hb
    simp [escapeChar, escapedMarks, insideLiteral, Spot.marks, Spot.mark, Spot.move, Place.step,
      Quote.char, Region.weight]
  · simp [escapeChar_of_ne hq hb, escapedMarks, insideLiteral, Spot.marks, Spot.mark, Spot.move,
      Place.step, Quote.char, Region.weight, hq]

/-- A quote behind a backslash stays inside the literal, and the second one closes it. -/
theorem marks_escaped_quote (next : Option Char) (t : Text) :
    (insideLiteral '\\').marks true next ('\'' :: '\'' :: t) =
      ⟨'\'', .quoted .single, 0⟩ :: ⟨'\'', .code, 0⟩ ::
        (Spot.mk (some '\'') .code 0).marks true next t := by
  simp [insideLiteral, Spot.marks, Spot.mark, Spot.move, Place.step, Quote.char, Region.weight]

/-! ### Where the scan sees the end -/

/-- The width of the literal that the marks begin with.  It goes on behind a closing quote if the
next character opens it again. -/
def literalWidth? (q : Quote) : List Mark → Option Nat
  | [] => none
  | m :: ms =>
    if m.region ≠ .quoted q ∧ ms.head?.map Mark.region ≠ some (.quoted q) then some 1
    else (literalWidth? q ms).map (· + 1)

section

variable {q : Quote} {m : Mark} {ms : List Mark}

theorem literalWidth?_quoted (hm : m.region = .quoted q) :
    literalWidth? q (m :: ms) = (literalWidth? q ms).map (· + 1) := by
  rw [literalWidth?, if_neg fun h => h.1 hm]

theorem literalWidth?_reopened (hms : ms.head?.map Mark.region = some (.quoted q)) :
    literalWidth? q (m :: ms) = (literalWidth? q ms).map (· + 1) := by
  rw [literalWidth?, if_neg fun h => h.2 hms]

theorem literalWidth?_closed (hm : m.region ≠ .quoted q)
    (hms : ms.head?.map Mark.region ≠ some (.quoted q)) : literalWidth? q (m :: ms) = some 1 := by
  rw [literalWidth?, if_pos ⟨hm, hms⟩]

theorem literalWidth?_ne_zero (ms : List Mark) : literalWidth? q ms ≠ some 0 := by
  cases ms with
  | nil => rintro ⟨⟩
  | cons m ms =>
    rw [literalWidth?]
    split
    · decide
    · rw [ne_eq, Option.map_eq_some_iff]
      rintro ⟨n, -, hn⟩
      omega

theorem map_succ_eq_some {w : Option Nat} {n : Nat} :
    w.map (· + 1) = some (n + 1) ↔ w = some n := by
  cases w <;> simp

end

/-- In code only a quote opens a literal. -/
theorem head?_marks_ne {before : Option Char} {s : Text} (hs : s.head? ≠ some '\'') :
    ((Spot.mk before .code 0).marks true none s).head?.map Mark.region ≠
      some (.quoted .single) := by
  cases s with
  | nil => rintro ⟨⟩
  | cons c s =>
    have hc : c ≠ '\'' := fun h => hs (congrArg some h)
    simp only [Spot.marks, Spot.mark, Place.step, Place.enter, List.head?_cons, Option.map_some,
      Quote.ofChar?, if_neg hc]
    grind

variable {s : Text}

/-- A mark of code does not begin a literal of more than one character, unless a quote opens behind
it. -/
theorem literalWidth?_code_ne {q : Quote} {c : Char} {d : Int} {ms : List Mark} {n : Nat}
    (h : ms.head?.map Mark.region = some (.quoted q) → literalWidth? q ms ≠ some (n + 1)) :
    literalWidth? q (⟨c, .code, d⟩ :: ms) ≠ some (n + 1 + 1) := by
  by_cases hopen : ms.head?.map Mark.region = some (.quoted q)
  · rw [literalWidth?_reopened hopen, ne_eq, map_succ_eq_some]
    exact h hopen
  · rw [literalWidth?_closed (fun h => Region.noConfusion h) hopen, ne_eq, Option.some.injEq]
    omega

/-- Once a quote has closed the literal too early, the scan does not find its end any more: it stops
before it, or it reaches the closing quote outside the literal and takes it for an opening one. -/
theorem literalWidth?_early (t : Text) :
    literalWidth? .single (⟨'\'', .code, 0⟩ ::
        (Spot.mk (some '\'') .code 0).marks true none (escaped t ++ '\'' :: s)) ≠
      some ((escaped t).length + 1 + 1) := by
  induction t with
  | nil =>
    apply literalWidth?_code_ne
    intro hopen h
    have hquoted : ((Spot.mk (some '\'') .code 0).mark true '\'' (s.head?.or none)).region =
        .quoted .single := Option.some.inj hopen
    rw [escaped, List.flatMap_nil, List.nil_append, Spot.marks, literalWidth?_quoted hquoted] at h
    exact literalWidth?_ne_zero _ (map_succ_eq_some.mp h)
  | cons c t ih =>
    apply literalWidth?_code_ne
    intro hopen
    -- Only a quote opens the literal again, and the quote behind it closes it once more.
    by_cases hc : c = '\''
    · subst hc
      have hmarks : (Spot.mk (some '\'') .code 0).marks true none
          (escaped ('\'' :: t) ++ '\'' :: s) = ⟨'\'', .quoted .single, 0⟩ :: ⟨'\'', .code, 0⟩ ::
            (Spot.mk (some '\'') .code 0).marks true none (escaped t ++ '\'' :: s) := by
        simp [escaped_cons, escapeChar, Spot.marks, Spot.mark, Spot.move, Place.step, Place.enter,
          Quote.char, Quote.ofChar?, Region.weight]
      have hlength : (escaped ('\'' :: t)).length = (escaped t).length + 1 + 1 := by
        rw [escaped_cons, List.length_append]
        exact Nat.add_comm 2 _
      rw [hmarks, hlength, literalWidth?_quoted rfl, ne_eq, map_succ_eq_some]
      exact ih
    · refine absurd hopen (head?_marks_ne ?_)
      obtain ⟨u, hu⟩ : ∃ u, escapeChar c = c :: u := by
        rw [escapeChar]
        split <;> exact ⟨_, rfl⟩
      rw [escaped_cons, hu, List.cons_append, List.cons_append, List.head?_cons]
      exact fun h => hc (Option.some.inj h)

theorem literalWidth?_escapedMarks (c : Char) (ms : List Mark) :
    literalWidth? .single (escapedMarks c ++ ms) =
      (literalWidth? .single ms).map (· + (escapeChar c).length) := by
  by_cases hq : c = '\''
  · subst hq
    show literalWidth? .single (⟨'\'', .code, 0⟩ :: ⟨'\'', .quoted .single, 0⟩ :: ms) = _
    rw [literalWidth?_reopened rfl, literalWidth?_quoted rfl, Option.map_map]
    rfl
  · rw [escapedMarks, if_neg hq]
    by_cases hb : c = '\\'
    · subst hb
      show literalWidth? .single
        (⟨'\\', .quoted .single, 0⟩ :: ⟨'\\', .quoted .single, 0⟩ :: ms) = _
      rw [literalWidth?_quoted rfl, literalWidth?_quoted rfl, Option.map_map]
      rfl
    · rw [escapeChar_of_ne hq hb]
      exact literalWidth?_quoted rfl

/-- At the end of the comment the scan finds the end of the literal unless a backslash comes
first. -/
theorem literalWidth?_inside_nil (hs : s.head? ≠ some '\'') (b : Char) :
    literalWidth? .single ((insideLiteral b).marks true none ('\'' :: s)) = some 1 ↔ b ≠ '\\' := by
  rw [Spot.marks]
  by_cases hb : b = '\\'
  · subst hb
    have hquoted : ((insideLiteral '\\').mark true '\'' (s.head?.or none)).region =
        .quoted .single := rfl
    rw [literalWidth?_quoted hquoted, map_succ_eq_some]
    exact iff_of_false (literalWidth?_ne_zero _) fun h => h rfl
  · have hmark : ((insideLiteral b).mark true '\'' (s.head?.or none)).region = .code := by
      simp [insideLiteral, Spot.mark, Place.step, Quote.char, hb]
    have hmove : (insideLiteral b).move true '\'' (s.head?.or none) = ⟨some '\'', .code, 0⟩ := by
      simp [insideLiteral, Spot.move, Place.step, Quote.char, Region.weight, hb]
    have hclosed : ((insideLiteral b).mark true '\'' (s.head?.or none)).region ≠
        .quoted .single := by
      rw [hmark]
      exact Region.noConfusion
    rw [hmove, literalWidth?_closed hclosed (head?_marks_ne hs)]
    exact iff_of_true rfl hb

/-- An escaped quote keeps the scan from finding the end. -/
theorem literalWidth?_inside_quote (t : Text) :
    literalWidth? .single
        ((insideLiteral '\\').marks true none (escapeChar '\'' ++ (escaped t ++ '\'' :: s))) ≠
      some ((escapeChar '\'' ++ escaped t).length + 1) := by
  have hmarks : (insideLiteral '\\').marks true none
      (escapeChar '\'' ++ (escaped t ++ '\'' :: s)) = _ :=
    marks_escaped_quote none (escaped t ++ '\'' :: s)
  have hlength : (escapeChar '\'' ++ escaped t).length + 1 = (escaped t).length + 1 + 1 + 1 := by
    rw [List.length_append]
    exact congrArg (· + 1) (Nat.add_comm 2 _)
  rw [hmarks, hlength, literalWidth?_quoted rfl, ne_eq, map_succ_eq_some]
  exact literalWidth?_early t

/-- From inside the literal the scan finds its end if and only if no quote comes behind a
backslash. -/
theorem literalWidth?_inside (hs : s.head? ≠ some '\'') (t : Text) : ∀ b : Char,
    literalWidth? .single ((insideLiteral b).marks true none (escaped t ++ '\'' :: s)) =
        some ((escaped t).length + 1) ↔ ¬ ['\\', '\''] <:+: b :: (t ++ ['\'']) := by
  induction t with
  | nil =>
    intro b
    rw [List.nil_append, pair_infix_cons, or_iff_left (not_pair_infix_singleton _ _ _),
      and_iff_left rfl]
    exact literalWidth?_inside_nil hs b
  | cons c t ih =>
    intro b
    rw [List.cons_append, pair_infix_cons, escaped_cons, List.append_assoc]
    by_cases hesc : b = '\\' ∧ c = '\''
    · obtain ⟨rfl, rfl⟩ := hesc
      exact iff_of_false (literalWidth?_inside_quote t) fun h => h (Or.inl ⟨rfl, rfl⟩)
    · have hwidth : ∀ w : Option Nat, w.map (· + (escapeChar c).length) =
          some ((escapeChar c ++ escaped t).length + 1) ↔ w = some ((escaped t).length + 1) := by
        intro w
        rw [List.length_append]
        cases w with
        | none => simp
        | some n =>
          rw [Option.map_some, Option.some.injEq, Option.some.injEq]
          omega
      rw [marks_escapeChar hesc, literalWidth?_escapedMarks, hwidth, ih c, or_iff_right hesc]

/-! ### Whole literals -/

theorem escapesQuote_iff (t : Text) :
    EscapesQuote t ↔ ['\\', '\''] <:+: '\'' :: (t ++ ['\'']) := by
  obtain ⟨c, u, hu⟩ : ∃ c u, t ++ ['\''] = c :: u := List.exists_cons_of_ne_nil (by simp)
  rw [EscapesQuote, hu, pair_infix_cons]
  exact (or_iff_right fun h => absurd h.1 (by decide)).symm

/-- A literal begins with the quote that opens it. -/
theorem scan_commentLiteral_append (t s : Text) : scan true (commentLiteral t ++ s) =
    ⟨'\'', .quoted .single, 0⟩ ::
      (insideLiteral '\'').marks true none (escaped t ++ '\'' :: s) := by
  have hsplit : commentLiteral t ++ s = '\'' :: (escaped t ++ '\'' :: s) := by
    rw [commentLiteral, Quote.enclose, List.cons_append, List.append_assoc]
    rfl
  rw [scan_eq_marks, hsplit]
  simp [Spot.marks, Spot.mark, Spot.move, Spot.start, insideLiteral, Place.step, Place.enter,
    Quote.ofChar?, Region.weight]

/-- **The scan finds the end of a literal exactly if no backslash of the comment stands in front of
a quote or at the end.** -/
theorem literalWidth?_commentLiteral (t : Text) {s : Text} (hs : s.head? ≠ some '\'') :
    literalWidth? .single (scan true (commentLiteral t ++ s)) = some (commentLiteral t).length ↔
      ¬ EscapesQuote t := by
  have hlength : (commentLiteral t).length = (escaped t).length + 1 + 1 := by
    rw [commentLiteral, Quote.enclose, List.length_cons, List.length_append]
    rfl
  rw [scan_commentLiteral_append, literalWidth?_quoted rfl, hlength, map_succ_eq_some,
    literalWidth?_inside hs, escapesQuote_iff]

/-- **The reader of comments finds the end of every literal.** -/
theorem columnLiteral?_commentLiteral (t : Text) {s : Text} (hs : s.head? ≠ some '\'') :
    (columnLiteral? '\'' ((commentLiteral t ++ s).drop 1)).map (·.length + 2) =
      some (commentLiteral t).length := by
  have hdrop : (commentLiteral t ++ s).drop 1 = escaped t ++ '\'' :: s := by
    rw [commentLiteral, Quote.enclose, List.cons_append, List.drop_one, List.tail_cons,
      List.append_assoc]
    rfl
  rw [hdrop, columnLiteral?_escaped t hs, commentLiteral, Quote.enclose, List.length_cons,
    List.length_append]
  rfl

theorem marks_escaped (t : Text) : ∀ b : Char, ¬ ['\\', '\''] <:+: b :: (t ++ ['\'']) →
    (insideLiteral b).marks true none (escaped t ++ ['\'']) =
      t.flatMap escapedMarks ++ [⟨'\'', .code, 0⟩] := by
  induction t with
  | nil =>
    intro b h
    rw [List.nil_append, pair_infix_cons, not_or] at h
    have hb : b ≠ '\\' := fun hb => h.1 ⟨hb, rfl⟩
    show (insideLiteral b).marks true none ['\''] = [⟨'\'', .code, 0⟩]
    simp [insideLiteral, Spot.marks, Spot.mark, Place.step, Quote.char, Region.weight, hb]
  | cons c t ih =>
    intro b h
    rw [List.cons_append, pair_infix_cons, not_or] at h
    rw [escaped_cons, List.append_assoc, marks_escapeChar h.1, ih c h.2, List.flatMap_cons,
      List.append_assoc]

variable {t : Text}

/-- The marks of a literal in which no quote is escaped. -/
theorem scan_commentLiteral (h : ¬ EscapesQuote t) : scan true (commentLiteral t) =
    ⟨'\'', .quoted .single, 0⟩ :: (t.flatMap escapedMarks ++ [⟨'\'', .code, 0⟩]) := by
  rw [escapesQuote_iff] at h
  have hscan := scan_commentLiteral_append t []
  rw [List.append_nil, marks_escaped t '\'' h] at hscan
  exact hscan

theorem isLevel_commentLiteral (h : ¬ EscapesQuote t) : IsLevel true (commentLiteral t) := by
  refine IsLevel.of_getLast? fun m hm => ?_
  rw [scan_commentLiteral h, List.getLast?_cons, List.getLast?_concat] at hm
  obtain rfl := Option.some.inj hm
  exact ⟨rfl, rfl⟩

/-- All that stands outside quotes in a literal are quotes. -/
theorem region_commentLiteral (h : ¬ EscapesQuote t) :
    ∀ m ∈ scan true (commentLiteral t),
      m.region = .quoted .single ∨ (m.region = .code ∧ m.char = '\'') := by
  intro m hm
  rw [scan_commentLiteral h, List.mem_cons, List.mem_append, List.mem_singleton,
    List.mem_flatMap] at hm
  rcases hm with rfl | ⟨c, -, hm⟩ | rfl
  · exact Or.inl rfl
  · rw [escapedMarks] at hm
    split at hm
    · next hc =>
      simp only [List.mem_cons, List.not_mem_nil, or_false] at hm
      rcases hm with rfl | rfl
      · exact Or.inr ⟨rfl, hc⟩
      · exact Or.inl rfl
    · obtain ⟨d, -, rfl⟩ := List.mem_map.mp hm
      exact Or.inl rfl
  · exact Or.inr ⟨rfl, rfl⟩

end TableTypes
