import TableTypes.Proofs.Column.Order

/-!
# Where the comment of a column is read

The search for a comment runs over the attributes as they are written, quoted text included, and
takes the first place where the word `COMMENT` and a literal can be read.  So the comment is one of
the code if and only if each such place in quotes has one in code in front of it
(`CommentBehind.wordInCode_iff`).  In particular a quoted default value may hold a comment, or begin
one that ends behind it: the comment behind the value is read if and only if none begins in the
value (`columnComment?_commentedDefault_iff`).
-/

namespace TableTypes

open Text

variable {s t w z : Text}

/-! ### Places of comments -/

/-- A comment can be read in the attributes behind `u`. -/
def ReadsComment (attributes u : Text) : Prop :=
  ∃ s, attributes = u ++ s ∧ atWordStart u.getLast? = true ∧ (commentLiteral? s).isSome = true

/-- The seven letters of `COMMENT` behind `u` stand in code. -/
def WordInCode (attributes u : Text) : Prop :=
  ∀ m ∈ ((scan false attributes).drop u.length).take 7, m.region = .code

/-- Each place in quotes where a comment can be read has one in code in front of it. -/
def CodeComesFirst (attributes : Text) : Prop :=
  ∀ v, ReadsComment attributes v → ¬ WordInCode attributes v →
    ∃ w, w.length < v.length ∧ ReadsComment attributes w ∧ WordInCode attributes w

/-- The comment `k` is read behind `u`, and none can be read in front of that. -/
def CommentBehind (attributes u k : Text) : Prop :=
  ∃ s q body, attributes = u ++ s ∧ FirstBehind commentLiteral? none u s (q, body) ∧
    k = unescape q body

section

variable {a u k : Text}

theorem CommentBehind.reads (h : CommentBehind a u k) : ReadsComment a u := by
  obtain ⟨s, q, body, rfl, hfirst, -⟩ := h
  have hstart := hfirst.start
  rw [Option.or_none] at hstart
  exact ⟨s, rfl, hstart, by rw [hfirst.reads]; rfl⟩

/-- No comment can be read in front of the first place. -/
theorem CommentBehind.length_le {v : Text} (h : CommentBehind a u k) (hv : ReadsComment a v) :
    u.length ≤ v.length := by
  obtain ⟨s, q, body, rfl, hfirst, -⟩ := h
  obtain ⟨r, hr, hstart, hread⟩ := hv
  rcases List.append_eq_append_iff.mp hr with ⟨y, rfl, -⟩ | ⟨y, rfl, rfl⟩
  · rw [List.length_append]
    exact Nat.le_add_right _ _
  · -- A place in front of the first one would have been found.
    by_cases hne : y = []
    · rw [hne, List.append_nil]
    · rw [hfirst.first v y rfl hne (by rwa [Option.or_none])] at hread
      cases hread

/-- The first place is in code if and only if code comes first. -/
theorem CommentBehind.wordInCode_iff (h : CommentBehind a u k) :
    WordInCode a u ↔ CodeComesFirst a := by
  constructor
  · intro hcode v hv hnot
    refine ⟨u, Nat.lt_of_le_of_ne (h.length_le hv) fun hlength => hnot ?_, h.reads, hcode⟩
    obtain ⟨s, hs, -⟩ := h.reads
    obtain ⟨r, hr, -⟩ := hv
    rwa [← (List.append_inj (hs.symm.trans hr) hlength).1]
  · intro hfirst
    by_contra hnot
    obtain ⟨w, hlt, hw, -⟩ := hfirst u h.reads hnot
    exact absurd (h.length_le hw) (Nat.not_le.mpr hlt)

/-- **A comment is read at the first place where one can be read.** -/
theorem exists_of_columnComment? (h : columnComment? a = some k) : ∃ u, CommentBehind a u k := by
  rw [columnComment?_eq] at h
  obtain ⟨⟨q, body⟩, hfind, hvalue⟩ := Option.bind_eq_some_iff.mp h
  obtain ⟨u, s, rfl, hfirst⟩ := findWord_eq_some_iff.mp hfind
  refine ⟨u, s, q, body, rfl, hfirst, ?_⟩
  change (if body.isEmpty then none else some (unescape q body)) = some k at hvalue
  split at hvalue
  · cases hvalue
  · exact (Option.some.inj hvalue).symm

end

/-- A literal can be closed if its quote follows anywhere. -/
theorem isSome_columnLiteral? (q : Char) (t : Text) :
    (columnLiteral? q t).isSome = t.contains q := by
  fun_induction columnLiteral? q t with
  | case1 => rfl
  | case2 => simp
  | case3 c hc => simp [Ne.symm hc]
  | case4 d t hdouble ih =>
    rw [Bool.and_eq_true] at hdouble
    rw [Option.isSome_map, ih, hdouble.2]
    simp
  | case5 => simp
  | case6 c d t hc hescape ih =>
    rw [Bool.and_eq_true] at hescape
    rw [Option.isSome_map, ih, List.contains_cons, List.contains_cons, hescape.2, Bool.or_true,
      Bool.or_true]
  | case7 c d t hc _ ih =>
    have hne : (q == c) = false := beq_eq_false_iff_ne.mpr (Ne.symm hc)
    rw [Option.isSome_map, ih, List.contains_cons (a := c), hne, Bool.false_or]

/-! ### Comments that begin in a quoted text -/

/-- What follows the word `COMMENT` and blanks when it is nothing or a double quote. -/
def beginsComment? (s : Text) : Option Text :=
  (commentWord? s).filter fun r => r.isEmpty || r.head? = some '"'

/-- The comment that one with `r` behind its word becomes when a single quote and `z` follow. -/
def closedComment? (z r : Text) : Option (Char × Text) :=
  match r with
  | [] => (columnLiteral? '\'' z).map ('\'', ·)
  | _ :: t => (columnLiteral? '"' (t ++ '\'' :: z)).map ('"', ·)

/-- A comment that begins in a text without single quotes is read behind the quote that ends it. -/
theorem commentLiteral?_closed (hw : '\'' ∉ w) (z : Text) :
    commentLiteral? (w ++ '\'' :: z) = (beginsComment? w).bind (closedComment? z) := by
  rw [commentLiteral?_eq, stopsAt_commentWord? (by decide) (by decide) w z, beginsComment?]
  cases h : commentWord? w with
  | none => rfl
  | some r =>
    cases r with
    | nil => rfl
    | cons c t =>
      have hc : c ≠ '\'' := fun hc =>
        hw (hc ▸ (commentWord?_suffix h).subset List.mem_cons_self)
      by_cases hdouble : c = '"'
      · subst hdouble
        rfl
      · have hnone :
            Option.filter (fun r => r.isEmpty || r.head? = some '"') (some (c :: t)) = none := by
          simp [hdouble]
        rw [hnone]
        simp [hc, hdouble]

/-- The quote that ends a text does not end a comment in it. -/
theorem commentLiteral?_single (hw : '\'' ∉ w) :
    commentLiteral? (w ++ ['\'']) = commentLiteral? w := by
  rw [commentLiteral?_eq, stopsAt_commentWord? (by decide) (by decide) w [], commentLiteral?_eq]
  cases h : commentWord? w with
  | none => rfl
  | some r =>
    cases r with
    | nil => rfl
    | cons c t =>
      have hc : c ≠ '\'' := fun hc =>
        hw (hc ▸ (commentWord?_suffix h).subset List.mem_cons_self)
      show (if c = '\'' || c = '"' then (columnLiteral? c (t ++ ['\''])).map (c, ·) else none) =
        if c = '\'' || c = '"' then (columnLiteral? c t).map (c, ·) else none
      rw [columnLiteral?_append t fun h => hc (List.mem_singleton.mp h)]

/-! ### Quoted default values -/

/-- A quoted default value as it is written. -/
def quotedDefault (s : Text) : Text :=
  defaultClause (Quote.single.enclose s)

/-- A quoted default value and a comment behind it. -/
def commentedDefault (s : Text) (q : Quote) (k : Text) : Text :=
  quotedDefault s ++ " COMMENT ".toList ++ q.enclose k

/-- A comment is looked for in the content of a quoted default value and then behind it. -/
theorem findWord_comment_quotedDefault {g : Text → Option (Char × Text)}
    (hg : ∀ w, w <:+ s → commentLiteral? (w ++ '\'' :: z) = g w) :
    findWord commentLiteral? (quotedDefault s ++ z) =
      (findWord g s).or (findWord commentLiteral? z) := by
  have hsplit : quotedDefault s ++ z = "DEFAULT".toList ++ (' ' :: '\'' :: (s ++ '\'' :: z)) := by
    show ("DEFAULT ".toList ++ ('\'' :: (s ++ ['\'']))) ++ z = _
    rw [List.append_assoc, List.cons_append, List.append_assoc]
    rfl
  have hdefault : "DEFAULT".toList.map Char.toLower ∉ ["comment".toList] := by decide
  rw [hsplit, opens_commentLiteral?.findWord_upper rfl hdefault rfl,
    opens_commentLiteral?.findWord_nonword rfl, opens_commentLiteral?.findWord_nonword rfl,
    opens_commentLiteral?.findWord_barrier rfl hg]

/-- **A quoted default value has the comment that its content has as attributes.** -/
theorem columnComment?_quotedDefault (hs : '\'' ∉ s) :
    columnComment? (quotedDefault s) = columnComment? s := by
  have hfind := findWord_comment_quotedDefault (s := s) (z := []) fun w hw =>
    commentLiteral?_single fun h => hs (hw.subset h)
  rw [List.append_nil, opens_commentLiteral?.findWord_nil, Option.or_none] at hfind
  rw [columnComment?_eq, columnComment?_eq, hfind]

section

variable {q : Quote} {k : Text}

theorem findWord_commentedDefault (hs : '\'' ∉ s) :
    findWord commentLiteral? (commentedDefault s q k) =
      (findWord (fun w => (beginsComment? w).bind
        (closedComment? (" COMMENT ".toList ++ q.enclose k))) s).or
          (findWord commentLiteral? ("COMMENT ".toList ++ q.enclose k)) := by
  have hblank : findWord commentLiteral? (" COMMENT ".toList ++ q.enclose k) =
      findWord commentLiteral? ("COMMENT ".toList ++ q.enclose k) :=
    opens_commentLiteral?.findWord_nonword rfl _
  rw [commentedDefault, List.append_assoc, findWord_comment_quotedDefault fun w hw =>
    commentLiteral?_closed (fun h => hs (hw.subset h)) _, hblank]

/-- The comment behind a quoted default value is read if no comment begins in the value. -/
theorem columnComment?_commentedDefault (hs : '\'' ∉ s) (hq : q = .single ∨ q = .double)
    (hne : k ≠ []) (hquote : q.char ∉ k) (hescape : '\\' ∉ k)
    (hbegins : findWord beginsComment? s = none) :
    columnComment? (commentedDefault s q k) = some k := by
  have hliteral : columnLiteral? q.char (k ++ [q.char]) = some k :=
    columnLiteral?_plain hquote hescape nofun
  have hread : commentLiteral? ("COMMENT ".toList ++ q.enclose k) = some (q.char, k) := by
    have hmap : commentLiteral? ("COMMENT ".toList ++ q.enclose k) =
        (columnLiteral? q.char (k ++ [q.char])).map (q.char, ·) := by
      rcases hq with rfl | rfl <;> rfl
    rw [hmap, hliteral]
    rfl
  rw [columnComment?_eq, findWord_commentedDefault hs, findWord_bind_eq_none _ hbegins,
    Option.none_or, findWord_of_eq_some hread]
  show (if k.isEmpty then none else some (unescape q.char k)) = some k
  rw [if_neg (by simpa using hne), unescape_plain hquote hescape]

/-- A comment that begins in a quoted default value is read first, if it is closed. -/
theorem columnComment?_of_begins {u r : Text} {a : Char × Text} (hs : '\'' ∉ u ++ w)
    (hfirst : FirstBehind beginsComment? none u w r)
    (hclosed : closedComment? (" COMMENT ".toList ++ q.enclose k) r = some a) :
    columnComment? (commentedDefault (u ++ w) q k) =
      if a.2.isEmpty then none else some (unescape a.1 a.2) := by
  have hfind := findWord_eq_some_iff.mpr ⟨u, w, rfl, hfirst.bind hclosed⟩
  rw [columnComment?_eq, findWord_commentedDefault hs, hfind]
  rfl

end

/-- Behind a value in which a comment begins some comment is not read. -/
theorem exists_columnComment?_ne {u r : Text} (hs : '\'' ∉ u ++ w) (hescape : '\\' ∉ u ++ w)
    (hfirst : FirstBehind beginsComment? none u w r) :
    ∃ q ∈ [Quote.single, .double], ∃ k, k ≠ [] ∧ ('\'' ∉ k ∧ '"' ∉ k ∧ '\\' ∉ k) ∧
      columnComment? (commentedDefault (u ++ w) q k) ≠ some k := by
  cases r with
  | nil =>
    -- The quote that ends the value opens a literal, and the one behind `COMMENT` closes it.
    have hcomment := columnComment?_of_begins (q := .single) (k := ['x']) hs hfirst rfl
    refine ⟨.single, by decide, ['x'], by decide, by decide, ?_⟩
    rw [hcomment]
    decide
  | cons c t =>
    cases ht : columnLiteral? '"' t with
    | some body =>
      -- The comment is the one in the value, whatever stands behind.
      have hcomment : ∀ k, '"' ∉ k → columnComment? (commentedDefault (u ++ w) .single k) =
          if body.isEmpty then none else some (unescape '"' body) := by
        intro k hk
        have hz : '"' ∉ '\'' :: (" COMMENT ".toList ++ Quote.single.enclose k) := by
          simp [Quote.enclose, Quote.char, hk]
        have hclosed : closedComment? (" COMMENT ".toList ++ Quote.single.enclose k) (c :: t) =
            some ('"', body) := by
          rw [closedComment?, columnLiteral?_append t hz, ht]
          rfl
        exact columnComment?_of_begins hs hfirst hclosed
      have hne : columnComment? (commentedDefault (u ++ w) .single ['x']) ≠ some ['x'] ∨
          columnComment? (commentedDefault (u ++ w) .single ['y']) ≠ some ['y'] := by
        rw [hcomment _ (by decide), hcomment _ (by decide), ← not_and_or]
        rintro ⟨hx, hy⟩
        exact absurd (hx.symm.trans hy) (by decide)
      rcases hne with hne | hne
      · exact ⟨.single, by decide, _, by decide, by decide, hne⟩
      · exact ⟨.single, by decide, _, by decide, by decide, hne⟩
    | none =>
      -- The literal that begins in the value is closed by the quote behind `COMMENT`.
      have hquote : '"' ∉ t := by
        have hcontains := isSome_columnLiteral? '"' t
        rw [ht] at hcontains
        simpa using hcontains.symm
      have hplain : '\\' ∉ t := by
        obtain ⟨hread, -⟩ := Option.filter_eq_some_iff.mp hfirst.reads
        exact fun h => hescape (List.mem_append_right u
          ((commentWord?_suffix hread).subset (List.mem_cons_of_mem c h)))
      have hsplit : t ++ '\'' :: (" COMMENT ".toList ++ Quote.double.enclose ['x']) =
          (t ++ "' COMMENT ".toList) ++ '"' :: "x\"".toList := by
        rw [List.append_assoc]
        rfl
      have hbody : '"' ∉ t ++ "' COMMENT ".toList ∧ '\\' ∉ t ++ "' COMMENT ".toList := by
        simp [hquote, hplain]
      have hclosed : closedComment? (" COMMENT ".toList ++ Quote.double.enclose ['x']) (c :: t) =
          some ('"', t ++ "' COMMENT ".toList) := by
        rw [closedComment?, hsplit, columnLiteral?_plain hbody.1 hbody.2 (by decide)]
        rfl
      refine ⟨.double, by decide, ['x'], by decide, by decide, ?_⟩
      rw [columnComment?_of_begins hs hfirst hclosed, unescape_plain hbody.1 hbody.2]
      intro h
      have hmem : '\'' ∈ t ++ "' COMMENT ".toList :=
        List.mem_append_right t List.mem_cons_self
      rw [if_neg (by simp)] at h
      rw [Option.some.inj h] at hmem
      exact absurd hmem (by decide)

/-- **The comment behind a quoted default value is read, whatever it is, if and only if no comment
begins in the value.** -/
theorem columnComment?_commentedDefault_iff (hs : '\'' ∉ s) (hescape : '\\' ∉ s) :
    (∀ q ∈ [Quote.single, .double], ∀ k, k ≠ [] → '\'' ∉ k ∧ '"' ∉ k ∧ '\\' ∉ k →
      columnComment? (commentedDefault s q k) = some k) ↔ findWord beginsComment? s = none := by
  constructor
  · intro hall
    by_contra hsome
    obtain ⟨r, hr⟩ := Option.ne_none_iff_exists'.mp hsome
    obtain ⟨u, w, rfl, hfirst⟩ := findWord_eq_some_iff.mp hr
    obtain ⟨q, hq, k, hne, hk, hcomment⟩ := exists_columnComment?_ne hs hescape hfirst
    exact hcomment (hall q hq k hne hk)
  · intro hbegins q hq k hne hk
    have hquote : q = .single ∨ q = .double := by simpa using hq
    refine columnComment?_commentedDefault hs hquote hne ?_ hk.2.2 hbegins
    rcases hquote with rfl | rfl
    · exact hk.1
    · exact hk.2.1

/-! ### Columns -/

section

variable (n : Bareword tableLevelWords) (t : TypeText) (s : Text) (line : Option Nat)

theorem Column.parse_quotedDefault :
    Column.parse (.text (columnText n t (quotedDefault s))) line =
      .ok (ColumnDefinition.column ⟨n.text, t.text, quotedDefault s⟩) := by
  apply Column.parse_columnText
  · exact ⟨rfl, rfl, rfl, rfl, rfl, rfl⟩
  · rintro c ⟨⟩
    rfl
  · refine ⟨'\'', ?_, rfl⟩
    have hsplit : quotedDefault s = ("DEFAULT '".toList ++ s) ++ ['\''] := by
      rw [List.append_assoc]
      rfl
    rw [hsplit, List.getLast?_concat]
    rfl

theorem Column.parse_commentedDefault (q : Quote) (k : Text) :
    Column.parse (.text (columnText n t (commentedDefault s q k))) line =
      .ok (ColumnDefinition.column ⟨n.text, t.text, commentedDefault s q k⟩) := by
  apply Column.parse_columnText
  · exact ⟨rfl, rfl, rfl, rfl, rfl, rfl⟩
  · rintro c ⟨⟩
    rfl
  · refine ⟨q.char, ?_, by cases q <;> rfl⟩
    rw [commentedDefault, Quote.enclose, List.getLast?_append, List.getLast?_cons,
      List.getLast?_concat]
    rfl

end

/-- **Where the comment of a column is read.**  It is read at the first place of the attributes
where one can be read; that is in code if and only if code comes first.  A quoted default value has
the comment that its content has as attributes, and a comment behind it is read, whatever it is, if
and only if none begins in the value. -/
theorem Column.comment_read (definition : Source) (line : Option Nat)
    (n : Bareword tableLevelWords) (t : TypeText) (s : Text) (hs : '\'' ∉ s) (hescape : '\\' ∉ s) :
    (∀ c k, Column.parse definition line = .ok c → c.comment = some k →
      ∃ r d u, definition.solid? = some r ∧ ColumnDefinition.read? (strip r) = some d ∧
        CommentBehind d.attributes u k ∧
        (WordInCode d.attributes u ↔ CodeComesFirst d.attributes)) ∧
      (∃ c, Column.parse (.text (columnText n t (quotedDefault s))) line = .ok c ∧
        c.comment = columnComment? s) ∧
      ((∀ q ∈ [Quote.single, .double], ∀ k, k ≠ [] → '\'' ∉ k ∧ '"' ∉ k ∧ '\\' ∉ k →
        ∃ c, Column.parse (.text (columnText n t (commentedDefault s q k))) line = .ok c ∧
          c.comment = some k) ↔ findWord beginsComment? s = none) := by
  refine ⟨fun c k hparse hk => ?_, ?_, ?_⟩
  · obtain ⟨r, d, hsolid, hd, rfl⟩ := Column.exists_of_parse hparse
    obtain ⟨u, hu⟩ := exists_of_columnComment? (a := d.attributes) hk
    exact ⟨r, d, u, hsolid, hd, hu, hu.wordInCode_iff⟩
  · exact ⟨_, Column.parse_quotedDefault n t s line, columnComment?_quotedDefault hs⟩
  · rw [← columnComment?_commentedDefault_iff hs hescape]
    refine forall₂_congr fun q _ => forall₃_congr fun k _ _ => ?_
    rw [Column.parse_commentedDefault]
    constructor
    · rintro ⟨c, hc, hcomment⟩
      rw [← hcomment, ← Except.ok.inj hc]
      rfl
    · exact fun h => ⟨_, rfl, h⟩

/-- The default value holds the word, but no quote behind it; so the comment behind it is read. -/
theorem Column.comment_read_word :
    '\'' ∉ "comment: none".toList ∧ '\\' ∉ "comment: none".toList ∧
      ∃ c d u, Column.parse (.text "c TEXT DEFAULT 'comment: none' COMMENT \"k\"".toList) none =
          .ok c ∧
        c.comment = some "k".toList ∧
        ColumnDefinition.read? "c TEXT DEFAULT 'comment: none' COMMENT \"k\"".toList = some d ∧
        CommentBehind d.attributes u "k".toList := by
  have hnone : findWord beginsComment? "comment: none".toList = none := by decide +kernel
  obtain ⟨hplace, -, hbehind⟩ := Column.comment_read
    (.text "c TEXT DEFAULT 'comment: none' COMMENT \"k\"".toList) none
    ⟨"c".toList, by decide, rfl, by decide⟩ ⟨"TEXT".toList, by decide, rfl, .none⟩
    "comment: none".toList (by decide) (by decide)
  obtain ⟨c, hc, hk⟩ :=
    hbehind.mpr hnone .double (by decide) "k".toList (by decide) (by decide)
  obtain ⟨r, d, u, hr, hd, hu, -⟩ := hplace c "k".toList hc hk
  obtain rfl := Option.some.inj hr
  exact ⟨by decide, by decide, c, d, u, hc, hk, hd, hu⟩

/-- The comment is read out of the default value, where no letter of its word is in code; and the
quote that ends a default value is taken for the one that begins the comment. -/
theorem Column.comment_read_default :
    (Column.parse (.text "c TEXT DEFAULT 'COMMENT \"x\"'".toList) none =
        .ok ⟨"c".toList, "TEXT".toList, true, some "'COMMENT \"x\"'".toList, [], some "x".toList⟩ ∧
      ColumnDefinition.read? "c TEXT DEFAULT 'COMMENT \"x\"'".toList =
        some ⟨"c".toList, "TEXT".toList, "DEFAULT 'COMMENT \"x\"'".toList⟩ ∧
      CommentBehind "DEFAULT 'COMMENT \"x\"'".toList "DEFAULT '".toList "x".toList ∧
      ¬ WordInCode "DEFAULT 'COMMENT \"x\"'".toList "DEFAULT '".toList) ∧
    Column.parse (.text "c TEXT DEFAULT 'COMMENT ' COMMENT 'k'".toList) none =
      .ok ⟨"c".toList, "TEXT".toList, true, some "'COMMENT '".toList, [],
        some " COMMENT ".toList⟩ := by
  have hfirst : FirstBehind commentLiteral? none "DEFAULT '".toList "COMMENT \"x\"'".toList
      ('"', "x".toList) := by
    iterate 9 refine FirstBehind.cons_iff.mpr ⟨by decide, ?_⟩
    exact .nil (by decide) (by decide)
  refine ⟨⟨by decide +kernel, by decide +kernel, ⟨_, _, _, rfl, hfirst, by decide⟩, ?_⟩,
    by decide +kernel⟩
  intro hcode
  exact absurd (hcode ⟨'C', .quoted .single, 0⟩ (by decide +kernel)) (by decide)

end TableTypes
