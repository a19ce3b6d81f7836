import TableTypes.Proofs.Column.DefaultRun

/-!
# Quotes around a default value

A default value without blanks ends only at a parenthesis that closes the only open one with a
clause directly behind it (`ClauseBehind`), so it is read whole if there is none
(`defaultRun_solid`), and else up to the first such parenthesis (`defaultRun_closed`).  What is read
loses a pair of equal quotes around it.  So a value in quotes that do not occur in it is read as its
content, and one that does not both begin and end with the same quote is read as it is written
(`Column.default_unquoted`).
-/

namespace TableTypes

open Text

/-! ### Where a value without blanks ends -/

/-- The parenthesis behind `p` closes the only one that is open in the value, and a clause stands
directly behind it. -/
structure ClauseBehind (v p s : Text) : Prop where
  split : v = p ++ ')' :: s
  closes : ValueSpot.start.behind p = ⟨none, 1⟩
  clause : s ≠ [] ∧ startsClause s = true

/-- Without an opening parenthesis no parenthesis is open. -/
theorem ValueSpot.depth_behind_le {p : Text} (hp : '(' ∉ p) (s : ValueSpot) :
    (s.behind p).depth ≤ s.depth := by
  induction p generalizing s with
  | nil => exact Int.le_refl _
  | cons c p ih =>
    have hc : c ≠ '(' := fun h => hp (h ▸ List.mem_cons_self)
    have hmove : (s.move c).depth ≤ s.depth := by
      obtain ⟨quote, depth⟩ := s
      cases quote with
      | some q =>
        simp only [move]
        split <;> exact Int.le_refl _
      | none =>
        simp only [move, if_neg hc]
        split_ifs <;> simp
    exact (ih (fun h => hp (List.mem_cons_of_mem c h)) _).trans hmove

variable {v p s : Text}

section

variable {c : Char} {r : Text}

/-- A value without blanks ends only where a clause or nothing follows its parentheses. -/
theorem ClauseBehind.of_endsAt (hsolid : ∀ d ∈ v, isBlank d = false) (hsplit : v = p ++ c :: r)
    (hr : r ≠ []) {opened : Bool} (h : (ValueSpot.start.behind p).EndsAt opened c r) :
    ClauseBehind v p r := by
  have hmem : ∀ d ∈ c :: r, d ∈ v := fun d hd => hsplit ▸ List.mem_append_right p hd
  obtain ⟨hquote, ⟨hdepth, rfl, -, hstarts⟩ | ⟨-, hblank⟩⟩ := h
  · have hstrip : strip r = r :=
      strip_of_forall fun d hd => hsolid d (hmem d (List.mem_cons_of_mem _ hd))
    rw [hstrip] at hstarts
    refine ⟨hsplit, ?_, hr, hstarts⟩
    rw [← hquote, ← hdepth]
  · rw [hsolid c (hmem c List.mem_cons_self)] at hblank
    cases hblank

/-- A value ends with its last character. -/
theorem defaultRun_last (hc : isBlank c = false) (before : Char) (quote : Option Char) (depth : Int)
    (opened : Bool) : defaultRun before quote depth opened [c] = [c] := by
  cases quote with
  | some q => rfl
  | none =>
    rw [defaultRun]
    simp [hc, defaultRun]

/-- **A value without blanks is read whole** if no clause stands behind its parentheses. -/
theorem defaultRun_solid (hsolid : ∀ c ∈ v, isBlank c = false) (hescape : '\\' ∉ v)
    (hclause : ∀ p s, ¬ ClauseBehind v p s) : defaultRun ' ' none 0 false v = v := by
  rcases List.eq_nil_or_concat' v with rfl | ⟨u, c, rfl⟩
  · rfl
  · have hgoes : ∀ p d r, u = p ++ d :: r →
        ¬ (ValueSpot.start.behind p).EndsAt (false || p.contains '(') d (r ++ [c]) := by
      rintro p d r rfl h
      exact hclause p (r ++ [c])
        (.of_endsAt hsolid (List.append_assoc p (d :: r) [c]) (by simp) h)
    have hbefore : ' ' ≠ '\\' := by decide
    obtain ⟨last, hrun⟩ :=
      exists_defaultRun_append (fun h => hescape (List.mem_append_left _ h)) hbefore hgoes
    rw [defaultRun_last (hsolid c (by simp))] at hrun
    exact hrun

/-- **A value is read up to the first parenthesis with a clause behind it.** -/
theorem defaultRun_closed (hsolid : ∀ c ∈ v, isBlank c = false) (hescape : '\\' ∉ v)
    (h : ClauseBehind v p s) (hfirst : ∀ p' s', ClauseBehind v p' s' → p.length ≤ p'.length) :
    defaultRun ' ' none 0 false v = p ++ [')'] := by
  obtain ⟨rfl, hcloses, hs, hstarts⟩ := h
  have hopen : '(' ∈ p := by
    by_contra hp
    have hdepth := ValueSpot.start.depth_behind_le hp
    rw [hcloses] at hdepth
    exact absurd hdepth (by decide)
  have hstrip : strip s = s := strip_of_forall fun d hd => hsolid d (by simp [hd])
  have hgoes : ∀ p' d r, p = p' ++ d :: r →
      ¬ (ValueSpot.start.behind p').EndsAt (false || p'.contains '(') d (r ++ ')' :: s) := by
    -- An earlier end would be an earlier parenthesis with a clause behind it.
    intro p' d r hp h
    have hclause := ClauseBehind.of_endsAt hsolid (p := p') (c := d) (r := r ++ ')' :: s)
      (by rw [hp, List.append_assoc]; rfl) (by simp) h
    have hle := hfirst p' _ hclause
    rw [hp, List.length_append, List.length_cons] at hle
    omega
  have hbefore : ' ' ≠ '\\' := by decide
  have hrun := defaultRun_append (fun h => hescape (List.mem_append_left _ h)) hbefore hgoes
    (by rw [hcloses])
  rw [hcloses, Bool.false_or, List.contains_iff_mem.mpr hopen] at hrun
  have hend : defaultRun ' ' none 1 true (')' :: s) = [')'] := by
    rw [defaultRun]
    simp [hstrip, hstarts]
  rw [hend] at hrun
  exact hrun

end

/-! ### Quotes around a value -/

theorem eq_single_or_double {q : Quote} (hq : q ∈ [Quote.single, .double]) :
    q = .single ∨ q = .double := by
  simpa using hq

/-- A pair of quotes is taken off a text without spaces. -/
theorem unquoteSimple_enclose {q : Quote} (hq : q ∈ [Quote.single, .double]) {x : Text}
    (hspace : ' ' ∉ x) : unquoteSimple (q.enclose x) = x := by
  obtain ⟨c, rest, hrest⟩ := List.exists_cons_of_ne_nil (l := x ++ [q.char]) (by simp)
  rw [Quote.enclose, hrest, unquoteSimple]
  simp only [← hrest, List.getLast?_concat, List.dropLast_concat]
  rcases eq_single_or_double hq with rfl | rfl <;> simp [hspace, Quote.char]

/-- What does not both begin and end with the same quote is left as it is. -/
theorem unquoteSimple_eq_self {t : Text}
    (ht : ∀ q ∈ [Quote.single, .double], ∀ x, t ≠ q.enclose x) : unquoteSimple t = t := by
  unfold unquoteSimple
  split
  · rename_i c d rest
    refine if_neg fun h => ?_
    simp only [Bool.and_eq_true, Bool.or_eq_true, decide_eq_true_eq] at h
    obtain ⟨⟨hquote, hlast⟩, -⟩ := h
    have hsplit : d :: rest = (d :: rest).dropLast ++ [c] :=
      (List.dropLast_append_getLast? c hlast).symm
    rcases hquote with rfl | rfl
    · exact ht .double (by decide) _ (congrArg ('"' :: ·) hsplit)
    · exact ht .single (by decide) _ (congrArg ('\'' :: ·) hsplit)
  · rfl

/-- Inside a quote the spot does not change. -/
theorem ValueSpot.behind_quoted {q : Char} {t : Text} (ht : q ∉ t) (depth : Int) :
    (ValueSpot.mk (some q) depth).behind t = ⟨some q, depth⟩ := by
  induction t with
  | nil => rfl
  | cons c t ih =>
    have hc : c ≠ q := fun h => ht (h ▸ List.mem_cons_self)
    have hmove : (ValueSpot.mk (some q) depth).move c = ⟨some q, depth⟩ := if_neg hc
    show ((ValueSpot.mk (some q) depth).move c).behind t = _
    rw [hmove, ih fun h => ht (List.mem_cons_of_mem c h)]

/-- No clause stands inside a literal. -/
theorem not_clauseBehind_enclose {q : Quote} (hq : q ∈ [Quote.single, .double]) {x : Text}
    (hx : q.char ∉ x) : ¬ ClauseBehind (q.enclose x) p s := by
  rintro ⟨hsplit, hcloses, hs, -⟩
  cases p with
  | nil =>
    have hhead : q.char = ')' := (List.cons.inj hsplit).1
    rcases eq_single_or_double hq with rfl | rfl <;> exact absurd hhead (by decide)
  | cons c p =>
    obtain rfl : q.char = c := (List.cons.inj hsplit).1
    have hrest : x ++ [q.char] = p ++ ')' :: s := (List.cons.inj hsplit).2
    -- Something stands behind the parenthesis, so what is in front of it ends inside the literal.
    have hfront : p <+: x := by
      refine List.prefix_of_prefix_length_le ⟨_, hrest.symm⟩ (List.prefix_append x [q.char]) ?_
      have hlength := congrArg List.length hrest
      have hpos := List.length_pos_iff.mpr hs
      simp only [List.length_append, List.length_cons, List.length_nil] at hlength
      omega
    have hopen : ValueSpot.start.behind (q.char :: p) = ⟨some q.char, 0⟩ := by
      have hmove : ValueSpot.start.move q.char = ⟨some q.char, 0⟩ := by
        rcases eq_single_or_double hq with rfl | rfl <;> rfl
      show (ValueSpot.start.move q.char).behind p = _
      rw [hmove, ValueSpot.behind_quoted fun h => hx (hfront.subset h)]
    rw [hopen] at hcloses
    cases hcloses

/-! ### The default value of a definition -/

/-- **Quotes around a default value.**  A value without blanks in quotes that do not occur in it is
read as its content.  One that does not both begin and end with the same quote is read as it is
written, unless a clause stands directly behind its parentheses, where the value ends. -/
theorem Column.default_unquoted (n : Bareword tableLevelWords) (t : TypeText) (line : Option Nat)
    (hne : v ≠ []) (hsolid : ∀ c ∈ v, isBlank c = false) (hescape : '\\' ∉ v) :
    ∃ d, Column.parse (.text (columnText n t ("DEFAULT ".toList ++ v))) line = .ok d ∧
      (∀ q ∈ [Quote.single, .double], ∀ x, v = q.enclose x → q.char ∉ x → d.default = some x) ∧
      ((∀ q ∈ [Quote.single, .double], ∀ x, v ≠ q.enclose x) → (∀ p s, ¬ ClauseBehind v p s) →
        d.default = some v) ∧
      ∀ p s, ClauseBehind v p s → (∀ p' s', ClauseBehind v p' s' → p.length ≤ p'.length) →
        d.default = some (p ++ [')']) := by
  have hhead : ∀ c ∈ v.head?, isBlank c = false := fun c hc => hsolid c (List.mem_of_mem_head? hc)
  have hlast : ∀ c ∈ v.getLast?, isBlank c = false :=
    fun c hc => hsolid c (List.mem_of_mem_getLast? hc)
  have hend : ∃ c ∈ (defaultClause v).getLast?, isBlank c = false := by
    have h : ("DEFAULT ".toList ++ v).getLast? = some (v.getLast hne) := by
      rw [List.getLast?_append_of_ne_nil _ hne, List.getLast?_eq_some_getLast hne]
    exact ⟨_, h, hsolid _ (List.getLast_mem hne)⟩
  have hparse := Column.parse_columnText n t (a := defaultClause v) ⟨rfl, rfl, rfl, rfl, rfl, rfl⟩
    (by rintro c ⟨⟩; rfl) hend line
  have hdefault := defaultValue?_defaultClause hhead
  refine ⟨_, hparse, ?_, ?_, ?_⟩
  · rintro q hq x rfl hx
    rw [defaultRun_solid hsolid hescape fun p s => not_clauseBehind_enclose hq hx,
      strip_of_forall hsolid, unquoteSimple_enclose hq] at hdefault
    · exact hdefault
    · intro h
      exact absurd (hsolid ' ' (List.mem_cons_of_mem _ (List.mem_append_left _ h))) (by decide)
  · intro hquotes hclause
    rw [defaultRun_solid hsolid hescape hclause, strip_of_forall hsolid,
      unquoteSimple_eq_self hquotes] at hdefault
    exact hdefault
  · intro p s h hfirst
    have hstrip : strip (p ++ [')']) = p ++ [')'] := by
      refine strip_of_forall fun c hc => ?_
      rcases List.mem_append.mp hc with hc | hc
      · exact hsolid c (h.split ▸ List.mem_append_left _ hc)
      · rw [List.mem_singleton.mp hc]
        rfl
    have hquotes : unquoteSimple (p ++ [')']) = p ++ [')'] := by
      refine unquoteSimple_eq_self fun q hq x hx => ?_
      have hlast := congrArg List.getLast? hx
      rw [Quote.enclose, List.getLast?_concat, List.getLast?_cons, List.getLast?_concat] at hlast
      rcases eq_single_or_double hq with rfl | rfl <;> cases hlast
    rw [defaultRun_closed hsolid hescape h hfirst, hstrip, hquotes] at hdefault
    exact hdefault

/-- A literal with a comma and a quote of the other kind. -/
theorem Column.default_unquoted_literal :
    "'a,\"b'".toList ≠ [] ∧ (∀ c ∈ "'a,\"b'".toList, isBlank c = false) ∧
      '\\' ∉ "'a,\"b'".toList ∧
      ∃ d, Column.parse (.text "c TEXT DEFAULT 'a,\"b'".toList) none = .ok d ∧
        d.default = some "a,\"b".toList := by
  have hne : "'a,\"b'".toList ≠ [] := by decide
  have hsolid : ∀ c ∈ "'a,\"b'".toList, isBlank c = false := forall_eq_false rfl
  have hescape : '\\' ∉ "'a,\"b'".toList := by decide
  obtain ⟨d, hd, hliteral, -⟩ := Column.default_unquoted ⟨"c".toList, by decide, rfl, by decide⟩
    ⟨"TEXT".toList, by decide, rfl, .none⟩ none hne hsolid hescape
  exact ⟨hne, hsolid, hescape, d, hd, hliteral .single (by decide) _ rfl (by decide)⟩

/-- A clause directly behind its parentheses ends a value.  The quotes at the ends of an expression
are taken for a pair, and a doubled quote stays doubled. -/
theorem Column.default_cut :
    (∀ v ∈ ["(1)NULL".toList, "'a'||'b'".toList, "'it''s'".toList],
      IsClosedValue v ∧ ∀ c ∈ v, isBlank c = false ∧ c ≠ '\\' ∧ c ≠ ',') ∧
    Column.parse (.text "c TEXT DEFAULT (1)NULL".toList) none =
      .ok ⟨"c".toList, "TEXT".toList, true, some "(1)".toList, [], none⟩ ∧
    Column.parse (.text "c TEXT DEFAULT 'a'||'b'".toList) none =
      .ok ⟨"c".toList, "TEXT".toList, true, some "a'||'b".toList, [], none⟩ ∧
    Column.parse (.text "c TEXT DEFAULT 'it''s'".toList) none =
      .ok ⟨"c".toList, "TEXT".toList, true, some "it''s".toList, [], none⟩ := by
  have hplain : ∀ {v : Text}, v.any (fun c => isBlank c || c == '\\' || c == ',') = false →
      ∀ c ∈ v, isBlank c = false ∧ c ≠ '\\' ∧ c ≠ ',' := by
    intro v h c hc
    simpa [and_assoc] using forall_eq_false h c hc
  refine ⟨?_, by decide +kernel, by decide +kernel, by decide +kernel⟩
  simp only [List.forall_mem_cons]
  exact ⟨⟨by decide +kernel, hplain rfl⟩, ⟨by decide +kernel, hplain rfl⟩,
    ⟨by decide +kernel, hplain rfl⟩, fun v hv => absurd hv List.not_mem_nil⟩

end TableTypes
