import TableTypes.Proofs.Scan.Enclosed
import TableTypes.Proofs.Statement.Extraction
import TableTypes.Proofs.Statement.Head
import TableTypes.Proofs.Statement.Options
import TableTypes.Proofs.Text.Search

/-!
# Where statements stand

A statement that is read comes with the positions of its parts in the text: where it starts, where
its name begins, where the parentheses of its body stand, and where it stops.  `StandsIn` says what
the positions have to do with the text; it holds of what is read at a position, and of nothing else
(`StandsIn.of_at?`, `StandsIn.at?`).  The positions are not part of the program, and leaving them
out leaves its result (`readAll_statements`).
-/

namespace TableTypes

open Text

/-! ### Suffixes by their positions -/

namespace Text

theorem suffixLike_of_length (t : Text) {r : Text} {i : Nat} (hi : i ≤ t.length)
    (hr : r.length = t.length - i) : suffixLike t r = t.drop i := by
  rw [suffixLike, hr, Nat.sub_sub_self hi]

theorem slice_drop (t : Text) (o start stop : Nat) :
    slice (t.drop o) start stop = slice t (o + start) (o + stop) := by
  rw [slice, slice, List.drop_drop, Nat.add_sub_add_left]

theorem slice_isInfix (t : Text) {start stop start' stop' : Nat} (hstart : start' ≤ start)
    (hstop : stop ≤ stop') : slice t start stop <:+: slice t start' stop' := by
  have hslice : slice t start stop =
      ((slice t start' stop').drop (start - start')).take (stop - start) := by
    rw [slice, slice, List.drop_take, List.drop_drop, List.take_take,
      Nat.add_sub_cancel' hstart, Nat.min_eq_left (by omega)]
  rw [hslice]
  have htake := List.take_prefix (stop - start) ((slice t start' stop').drop (start - start'))
  exact htake.isInfix.trans (List.drop_suffix _ _).isInfix

end Text

/-! ### Statements with their positions -/

/-- A statement with the positions of its parts in the text. -/
structure PlacedStatement where
  statement : Statement
  /-- The first character of the statement. -/
  start : Nat
  /-- The first character of the name, a quote left out. -/
  name : Nat
  /-- The parenthesis in front of the body. -/
  opening : Nat
  /-- The parenthesis behind the body. -/
  closing : Nat
  /-- The position behind the options of the statement. -/
  stop : Nat
  deriving DecidableEq, Repr

namespace PlacedStatement

/-- The statement that begins at the front of `masked`, a suffix of `t` with its comments masked,
with its positions, and what follows it in `masked`. -/
def at? (t masked : Text) : Option (Except ParseError PlacedStatement × Text) :=
  (StatementHead.read? masked).bind fun head =>
    (Statement.at? t masked).map fun result =>
      (result.1.map fun statement =>
        { statement
          start := t.length - masked.length
          name := t.length - head.name.start.length
          opening := t.length - head.opening.length
          closing := t.length - head.opening.length + (closing? head.opening).getD 0
          stop := t.length - result.2.length }, result.2)

/-- What is found in a cleaned text, faults included. -/
def found (t : Text) : List (Except ParseError PlacedStatement) :=
  findAll (fun _ => at? t) (maskComments t)

/-- The statements of a cleaned text in order with their positions, up to the first fault. -/
def readAll (t : Text) : Except ParseError (List PlacedStatement) :=
  (found t).mapM id

end PlacedStatement

/-! ### The program without the positions -/

namespace Text

theorem findAllFrom_map {α β : Type} {f : Text → Option (α × Text)} {g : Text → Option (β × Text)}
    (v : α → β) (h : ∀ t, (f t).map (Prod.map v id) = g t) (t : Text) :
    ∀ (skip : Nat) (before : Option Char), (findAllFrom (fun _ => f) skip before t).map v =
      findAllFrom (fun _ => g) skip before t := by
  induction t with
  | nil => intro skip before; rw [findAllFrom, findAllFrom]; rfl
  | cons c t ih =>
    intro skip before
    cases skip with
    | succ skip => exact ih skip (some c)
    | zero =>
      have hg := h (c :: t)
      rw [findAllFrom, findAllFrom, ← hg]
      cases f (c :: t) with
      | none => exact ih 0 (some c)
      | some p =>
        obtain ⟨a, r⟩ := p
        exact congrArg (v a :: ·) (ih _ (some c))

end Text

theorem mapM_id_map {ε α β : Type} (v : α → β) (l : List (Except ε α)) :
    (l.map (Except.map v)).mapM id = (l.mapM id).map (List.map v) := by
  induction l with
  | nil => rfl
  | cons r l ih =>
    rw [List.map_cons, List.mapM_cons, ih, List.mapM_cons]
    cases r with
    | error e => rfl
    | ok a =>
      show (Except.map (List.map v) (l.mapM id)).bind _ =
        Except.map (List.map v) ((l.mapM id).bind _)
      cases l.mapM id <;> rfl

theorem eq_map_ok_of_mapM {ε α : Type} {l : List (Except ε α)} {as : List α}
    (h : l.mapM id = .ok as) : l = as.map .ok := by
  induction l generalizing as with
  | nil =>
    obtain rfl : [] = as := Except.ok.inj h
    rfl
  | cons r l ih =>
    rw [List.mapM_cons] at h
    cases r with
    | error e => cases h
    | ok a =>
      cases hl : l.mapM id with
      | error e => rw [hl] at h; cases h
      | ok bs =>
        rw [hl] at h
        obtain rfl : a :: bs = as := Except.ok.inj h
        rw [ih hl]
        rfl

/-- A statement is read or refused exactly where a head is read. -/
theorem Statement.at?_eq_none_iff {t masked : Text} :
    Statement.at? t masked = none ↔ StatementHead.read? masked = none := by
  rw [Statement.at?, Option.map_eq_none_iff]

namespace PlacedStatement

theorem at?_statement (t masked : Text) :
    (at? t masked).map (Prod.map (Except.map statement) id) = Statement.at? t masked := by
  rw [at?, Statement.at?]
  cases StatementHead.read? masked with
  | none => rfl
  | some head =>
    rw [Option.bind_some, Option.map_some, Option.map_some, Option.map_some, Option.some.injEq]
    refine Prod.ext ?_ rfl
    show Except.map statement (Except.map _ _) = _
    split
    · rfl
    · dsimp only
      split <;> rfl

theorem at?_eq_none_iff {t masked : Text} :
    at? t masked = none ↔ StatementHead.read? masked = none := by
  rw [← Statement.at?_eq_none_iff, ← at?_statement, Option.map_eq_none_iff]

/-- **Without their positions the statements are those that the program reads.** -/
theorem readAll_statements (t : Text) :
    (readAll t).map (List.map statement) = Statement.readAll t := by
  rw [readAll, ← mapM_id_map, found, findAll, findAllFrom_map _ (at?_statement t)]
  rfl

/-! ### Reading at a position -/

/-- What the positions of a statement have to do with the text. -/
structure StandsIn (p : PlacedStatement) (t : Text) : Prop where
  head : ∃ h, StatementHead.read? ((maskComments t).drop p.start) = some h ∧
    h.name.start = (maskComments t).drop p.name ∧ h.opening = (maskComments t).drop p.opening ∧
      strip h.name.name = p.statement.name
  closes : closing? ((maskComments t).drop p.opening) = some (p.closing - p.opening)
  start_lt : p.start < p.name
  name_lt : p.name < p.opening
  opening_lt : p.opening < p.closing
  closing_lt : p.closing < p.stop
  stop_le : p.stop ≤ t.length
  body : strip (slice t (p.opening + 1) p.closing) = p.statement.body
  solid : p.statement.body ≠ []
  line : p.statement.line = newlines (t.take p.name) + 1
  source : p.statement.source = slice t p.start p.stop
  options : tableOptions (t.drop (p.closing + 1)) = (p.statement.comment, t.drop p.stop)

/-- The parts of a head stand at positions behind its start. -/
theorem exists_positions {t : Text} {i : Nat} {h : StatementHead}
    (hread : StatementHead.read? ((maskComments t).drop i) = some h) :
    ∃ n o, i < n ∧ n < o ∧ o < t.length ∧ h.name.start = (maskComments t).drop n ∧
      h.opening = (maskComments t).drop o := by
  obtain ⟨⟨u, hu⟩, hstart, ⟨v, hv⟩, hopening⟩ := StatementHead.suffix_of_read? hread
  have hne : h.opening ≠ [] := by
    obtain ⟨-, -, -, -, -, -, hhead⟩ := StatementHead.read?_eq_some_iff.mp hread
    rintro hnil
    rw [hnil] at hhead
    cases hhead
  have hpos := List.length_pos_iff.mpr hne
  have hlength := congrArg List.length hu
  have hlength' := congrArg List.length hv
  rw [List.length_drop, length_maskComments] at hstart
  rw [List.length_append, List.length_drop, length_maskComments] at hlength
  rw [List.length_append] at hlength'
  -- `u` stands in front of the name, and `v` between the name and the parenthesis.
  refine ⟨i + u.length, i + u.length + v.length, by omega, by omega, by omega, ?_, ?_⟩
  · rw [← List.drop_drop, ← hu, List.drop_left]
  · rw [← List.drop_drop, ← List.drop_drop, ← hu, List.drop_left, ← hv, List.drop_left]

end PlacedStatement

section

variable {t : Text} {i n o : Nat} {h : StatementHead}

/-- What the program makes of a head, with its parts given by positions. -/
theorem Statement.at?_of_head (hread : StatementHead.read? ((maskComments t).drop i) = some h)
    (hname : h.name.start = (maskComments t).drop n)
    (hopening : h.opening = (maskComments t).drop o)
    (hi : i < n) (hn : n < o) (ho : o < t.length) :
    Statement.at? t ((maskComments t).drop i) = some (
      match closing? ((maskComments t).drop o) with
      | none =>
        (.error ((ParseCause.unbalancedParentheses (strip h.name.name)).onLine
          (some (newlines (t.take n) + 1))), (maskComments t).drop o)
      | some width =>
        let options := tableOptions (t.drop (o + (width + 1)))
        let body := strip (slice t (o + 1) (o + width))
        let stop := t.length - options.2.length
        if body.isEmpty then
          (.error ((ParseCause.noColumns (strip h.name.name)).onLine
            (some (newlines (t.take n) + 1))), (maskComments t).drop o)
        else
          (.ok ⟨strip h.name.name, body, newlines (t.take n) + 1, slice t i stop, options.1⟩,
            (maskComments t).drop stop)) := by
  -- The masked text is as long as the text, so suffixes of the one give positions in the other.
  have hline : lineAt t ((t.length : Int) - (h.name.start.length : Int)) =
      newlines (t.take n) + 1 := by
    have hposition : (t.length : Int) - (h.name.start.length : Int) = (n : Int) := by
      rw [hname, List.length_drop, length_maskComments]
      omega
    rw [lineAt, hposition, if_neg, Int.toNat_natCast]
    simp only [Bool.or_eq_true, decide_eq_true_eq]
    omega
  have hsource : suffixLike t h.opening = t.drop o :=
    suffixLike_of_length t (Nat.le_of_lt ho)
      (by rw [hopening, List.length_drop, length_maskComments])
  rw [Statement.at?, hread, Option.map_some, hline, hsource, hopening]
  cases hclose : closing? ((maskComments t).drop o) with
  | none => rfl
  | some width =>
    have hrest : (tableOptions (t.drop (o + (width + 1)))).2.length ≤ t.length - i := by
      have hle := (tableOptions_suffix (t.drop (o + (width + 1)))).length_le
      rw [List.length_drop] at hle
      omega
    simp only [slice_drop, List.drop_drop]
    set r := (tableOptions (t.drop (o + (width + 1)))).2 with hr
    have htext : between t ((maskComments t).drop i) r = slice t i (t.length - r.length) := by
      rw [between, List.length_drop, length_maskComments, Nat.sub_sub_self (by omega)]
    have hmasked : suffixLike ((maskComments t).drop i) r =
        (maskComments t).drop (t.length - r.length) := by
      rw [suffixLike, List.drop_drop, List.length_drop, length_maskComments]
      congr 1
      omega
    rw [htext, hmasked]

namespace PlacedStatement

/-- The positions of a statement are those of its head, of its closing parenthesis and of what is
left over. -/
theorem at?_of_head (hread : StatementHead.read? ((maskComments t).drop i) = some h)
    (hname : h.name.start = (maskComments t).drop n)
    (hopening : h.opening = (maskComments t).drop o)
    (hi : i < n) (hn : n < o) (ho : o < t.length) :
    at? t ((maskComments t).drop i) = (Statement.at? t ((maskComments t).drop i)).map fun result =>
      (result.1.map fun statement => ⟨statement, i, n, o,
        o + (closing? ((maskComments t).drop o)).getD 0, t.length - result.2.length⟩,
          result.2) := by
  have hlength : ∀ {k : Nat}, k ≤ t.length → t.length - ((maskComments t).drop k).length = k := by
    intro k hk
    rw [List.length_drop, length_maskComments, Nat.sub_sub_self hk]
  rw [at?, hread, Option.bind_some, hname, hopening, hlength (by omega), hlength (by omega),
    hlength (by omega)]

/-- The parenthesis that closes the body stands in the text. -/
theorem lt_of_closing? {width : Nat} (h : closing? ((maskComments t).drop o) = some width) :
    0 < width ∧ o + width < t.length := by
  obtain ⟨b, r, hdrop, rfl, -⟩ := exists_of_closing? h
  have hlength := congrArg List.length hdrop
  rw [List.length_drop, length_maskComments] at hlength
  simp only [List.length_cons, List.length_append] at hlength
  omega

/-- **What is read at a position stands there.** -/
theorem StandsIn.of_at? {p : PlacedStatement} {r : Text}
    (hat : at? t ((maskComments t).drop i) = some (.ok p, r)) :
    p.StandsIn t ∧ p.start = i ∧ r = (maskComments t).drop p.stop := by
  obtain ⟨h, hread, -⟩ := Option.bind_eq_some_iff.mp hat
  obtain ⟨n, o, hi, hn, ho, hname, hopening⟩ := exists_positions hread
  rw [at?_of_head hread hname hopening hi hn ho,
    Statement.at?_of_head hread hname hopening hi hn ho, Option.map_some, Option.some.injEq] at hat
  cases hclose : closing? ((maskComments t).drop o) with
  | none =>
    rw [hclose] at hat
    cases (Prod.mk.inj hat).1
  | some width =>
    obtain ⟨hpos, hwidth⟩ := lt_of_closing? hclose
    rw [hclose] at hat
    dsimp only at hat
    split at hat
    · cases (Prod.mk.inj hat).1
    · rename_i hbody
      obtain ⟨hp, rfl⟩ := Prod.mk.inj hat
      have hsuffix := tableOptions_suffix (t.drop (o + (width + 1)))
      have hle := hsuffix.length_le
      rw [List.length_drop] at hle
      have hstop : t.length - ((maskComments t).drop
          (t.length - (tableOptions (t.drop (o + (width + 1)))).2.length)).length =
            t.length - (tableOptions (t.drop (o + (width + 1)))).2.length := by
        rw [List.length_drop, length_maskComments, Nat.sub_sub_self (Nat.sub_le _ _)]
      obtain rfl := Except.ok.inj hp
      rw [hstop]
      refine ⟨{
        head := ⟨h, hread, hname, hopening, rfl⟩
        closes := by simpa using hclose
        start_lt := hi
        name_lt := hn
        opening_lt := by show o < o + width; omega
        closing_lt := by show o + width < t.length - _; omega
        stop_le := Nat.sub_le _ _
        body := rfl
        solid := fun hnil => hbody (List.isEmpty_iff.mpr hnil)
        line := rfl
        source := rfl
        options := ?_ }, rfl, rfl⟩
      -- What the options leave over is a suffix of the text, so it is given by its length.
      refine Prod.ext rfl ?_
      obtain ⟨u, hu⟩ := hsuffix.trans (List.drop_suffix _ t)
      have hlength := congrArg List.length hu
      rw [List.length_append] at hlength
      show (tableOptions (t.drop (o + (width + 1)))).2 = t.drop (t.length - _)
      rw [← hlength, Nat.add_sub_cancel]
      conv_rhs => rw [← hu]
      rw [List.drop_left]

/-- What stands at a position is read there. -/
theorem StandsIn.at? {p : PlacedStatement} (hp : p.StandsIn t) :
    at? t ((maskComments t).drop p.start) = some (.ok p, (maskComments t).drop p.stop) := by
  obtain ⟨h, hread, hname, hopening, hstrip⟩ := hp.head
  have hclosing : p.opening + (p.closing - p.opening) = p.closing :=
    Nat.add_sub_cancel' (Nat.le_of_lt hp.opening_lt)
  have hclosing' : p.opening + (p.closing - p.opening + 1) = p.closing + 1 := by
    rw [← Nat.add_assoc, hclosing]
  have hopen : p.opening < t.length := by
    have h₁ := hp.opening_lt
    have h₂ := hp.closing_lt
    have h₃ := hp.stop_le
    omega
  have hstop : t.length - (t.drop p.stop).length = p.stop := by
    rw [List.length_drop, Nat.sub_sub_self hp.stop_le]
  have hsolid : ¬ p.statement.body.isEmpty = true := fun hnil => hp.solid (List.isEmpty_iff.mp hnil)
  rw [at?_of_head hread hname hopening hp.start_lt hp.name_lt hopen,
    Statement.at?_of_head hread hname hopening hp.start_lt hp.name_lt hopen, hp.closes]
  simp only [hclosing', hclosing, hp.options, hp.body, hstop, ← hp.source, ← hp.line, hstrip,
    if_neg hsolid, Option.map_some, Option.getD_some]
  rw [List.length_drop, length_maskComments, Nat.sub_sub_self hp.stop_le]
  rfl

namespace StandsIn

variable {p : PlacedStatement}

theorem start_lt_stop (hp : p.StandsIn t) : p.start < p.stop :=
  hp.start_lt.trans (hp.name_lt.trans (hp.opening_lt.trans hp.closing_lt))

theorem getElem?_opening (hp : p.StandsIn t) : t[p.opening]? = some '(' := by
  obtain ⟨b, r, hdrop, -, -⟩ := exists_of_closing? hp.closes
  have hmasked : (maskComments t)[p.opening]? = some '(' := by
    rw [← List.head?_drop, hdrop, List.head?_cons]
  exact getElem?_of_maskComments (by decide) (by decide) hmasked

theorem getElem?_closing (hp : p.StandsIn t) : t[p.closing]? = some ')' := by
  obtain ⟨b, r, hdrop, hwidth, -⟩ := exists_of_closing? hp.closes
  have hclosing : p.closing = p.opening + (b.length + 1) := by
    rw [← hwidth, Nat.add_sub_cancel' (Nat.le_of_lt hp.opening_lt)]
  have hmasked : (maskComments t)[p.closing]? = some ')' := by
    rw [hclosing, ← List.getElem?_drop, hdrop, List.getElem?_cons_succ,
      List.getElem?_append_right (Nat.le_refl _), Nat.sub_self, List.getElem?_cons_zero]
  exact getElem?_of_maskComments (by decide) (by decide) hmasked

end StandsIn

/-- The head of a statement begins with a letter of the text itself, outside comments. -/
theorem exists_first {k : Nat} {head : StatementHead}
    (hread : StatementHead.read? ((maskComments t).drop k) = some head) :
    ∃ m, (scan true t)[k]? = some m ∧ isWord m.char = true ∧ m.region ≠ .comment := by
  obtain ⟨c, hc, hword⟩ := StatementHead.exists_head?_of_read? hread
  rw [List.head?_drop] at hc
  have hne : ∀ d : Char, isWord d = false → c ≠ d := by
    rintro d hd rfl
    rw [hd] at hword
    cases hword
  obtain ⟨m, hm, rfl, hregion⟩ :=
    exists_mark_of_maskComments (hne ' ' (by decide)) (hne '\n' (by decide)) hc
  exact ⟨m, hm, hword, hregion⟩

/-! ### All statements -/

theorem consumes_at? (t : Text) : Consumes (PlacedStatement.at? t) := by
  intro masked r result hplaced
  obtain ⟨h, hread, hmap⟩ := Option.bind_eq_some_iff.mp hplaced
  obtain ⟨⟨s, rest⟩, hat, hrest⟩ := Option.map_eq_some_iff.mp hmap
  obtain ⟨-, rfl⟩ := Prod.mk.inj hrest
  obtain ⟨hstart, hlength, hopening, hlength'⟩ := StatementHead.suffix_of_read? hread
  -- A fault leaves over what begins with the parenthesis, a statement what is behind its options.
  have hopen : h.opening <:+ masked ∧ h.opening.length < masked.length :=
    ⟨hopening.trans hstart, by omega⟩
  rw [Statement.at?, hread, Option.map_some, Option.some.injEq] at hat
  split at hat
  · obtain ⟨-, rfl⟩ := Prod.mk.inj hat
    exact hopen
  · dsimp only at hat
    split at hat
    · obtain ⟨-, rfl⟩ := Prod.mk.inj hat
      exact hopen
    · obtain ⟨-, rfl⟩ := Prod.mk.inj hat
      refine ⟨List.drop_suffix _ _, ?_⟩
      rename_i width _ _
      have hle := (tableOptions_suffix ((suffixLike t h.opening).drop (width + 1))).length_le
      have hlike : (suffixLike t h.opening).length ≤ h.opening.length := by
        rw [suffixLike, List.length_drop]
        omega
      rw [List.length_drop] at hle
      rw [suffixLike, List.length_drop]
      omega

/-- The search runs through the whole masked text. -/
theorem found_run (t : Text) : Found (PlacedStatement.at? t) (maskComments t) 0 (found t) :=
  found_findAll (consumes_at? t) (maskComments t)

theorem standsIn_of_mem_found {p : PlacedStatement} (hp : .ok p ∈ found t) :
    p.StandsIn t ∧ at? t ((maskComments t).drop p.start) =
      some (.ok p, (maskComments t).drop p.stop) := by
  obtain ⟨k, j, -, -, -, hat⟩ := (found_run t).exists_of_mem hp
  have hstands := (StandsIn.of_at? hat).1
  exact ⟨hstands, hstands.at?⟩

section

variable {ps : List PlacedStatement}

theorem found_of_readAll (h : readAll t = .ok ps) : found t = ps.map .ok :=
  eq_map_ok_of_mapM h

/-- **What is read stands in the text.** -/
theorem standsIn_of_readAll (h : readAll t = .ok ps) {p : PlacedStatement} (hp : p ∈ ps) :
    p.StandsIn t :=
  (standsIn_of_mem_found (found_of_readAll h ▸ List.mem_map_of_mem hp)).1

/-- **The statements stand one behind the other.** -/
theorem pairwise_of_readAll (h : readAll t = .ok ps) :
    ps.Pairwise fun p q => p.stop ≤ q.start := by
  -- Faults have no positions, so the order is stated of the whole run first.
  have hpair : (found t).Pairwise fun a b => ∀ p q : PlacedStatement, a = .ok p → b = .ok q →
      p.stop ≤ q.start := by
    refine (found_run t).pairwise ?_
    rintro k j k' j' a b ha hb hkj hjk' hkj' hj' p q rfl rfl
    obtain ⟨hp, -, hstop⟩ := StandsIn.of_at? ha
    obtain ⟨-, hstart, -⟩ := StandsIn.of_at? hb
    have hlength := congrArg List.length hstop
    have hle := hp.stop_le
    rw [length_maskComments] at hj'
    rw [List.length_drop, List.length_drop, length_maskComments] at hlength
    omega
  rw [found_of_readAll h, List.pairwise_map] at hpair
  exact hpair.imp fun hpq => hpq _ _ rfl rfl

/-- **Where the head of a statement stands, a statement is read**, or one that is read reaches over
it. -/
theorem exists_covering_of_readAll (h : readAll t = .ok ps) {k : Nat} {head : StatementHead}
    (hread : StatementHead.read? ((maskComments t).drop k) = some head) :
    ∃ p ∈ ps, p.start ≤ k ∧ k < p.stop := by
  obtain ⟨n, o, hkn, hno, ho, -, -⟩ := exists_positions hread
  have hat : at? t ((maskComments t).drop k) ≠ none := by
    rw [ne_eq, at?_eq_none_iff, hread]
    exact Option.some_ne_none head
  have hk : k < (maskComments t).length := by
    rw [length_maskComments]
    omega
  obtain ⟨a, ha, l, j, hal, hj, hlk, hkj⟩ := (found_run t).exists_covering (Nat.zero_le k) hk hat
  rw [found_of_readAll h] at ha
  obtain ⟨p, hp, rfl⟩ := List.mem_map.mp ha
  obtain ⟨hstands, hstart, hstop⟩ := StandsIn.of_at? hal
  have hlength := congrArg List.length hstop
  have hle := hstands.stop_le
  rw [length_maskComments] at hj
  rw [List.length_drop, List.length_drop, length_maskComments] at hlength
  exact ⟨p, hp, by omega, by omega⟩

end

theorem StandsIn.isAllBlank {p : PlacedStatement} (hp : p.StandsIn t) : t.isAllBlank = false := by
  rw [← Bool.not_eq_true, Text.isAllBlank, List.all_eq_true]
  intro hall
  exact absurd (hall '(' (List.mem_of_getElem? hp.getElem?_opening)) (by decide)

/-- What is read of a cleaned text, it is parsed as. -/
theorem parse_of_readAll {ps : List PlacedStatement} (hclean : cleaned t = t)
    (h : readAll t = .ok ps) (hne : ps ≠ []) :
    Statement.parse (.text t) = .ok (ps.map statement) := by
  obtain ⟨p, ps, rfl⟩ := List.exists_cons_of_ne_nil hne
  have hall : Statement.readAll t = .ok ((p :: ps).map statement) := by
    rw [← readAll_statements, h]
    rfl
  rw [Statement.parse, (standsIn_of_readAll h List.mem_cons_self).isAllBlank, hclean, hall]
  rfl

/-- What is read without its positions is read with them. -/
theorem exists_of_readAll {ss : List Statement} (h : Statement.readAll t = .ok ss) :
    ∃ ps, readAll t = .ok ps ∧ ps.map statement = ss := by
  rw [← readAll_statements] at h
  cases hps : readAll t with
  | error e => rw [hps] at h; cases h
  | ok ps =>
    rw [hps] at h
    exact ⟨ps, rfl, Except.ok.inj h⟩

/-- What a source is parsed as stands in the cleaned text. -/
theorem exists_of_parse {sql : Text} {ss : List Statement}
    (h : Statement.parse (.text sql) = .ok ss) :
    ∃ ps, readAll (cleaned sql) = .ok ps ∧ ps.map statement = ss ∧ ps ≠ [] := by
  obtain ⟨hall, hne⟩ : Statement.readAll (cleaned sql) = .ok ss ∧ ss ≠ [] := by
    rw [Statement.parse] at h
    split at h
    · cases h
    · split at h
      · cases h
      · rename_i hnil
        refine ⟨h, ?_⟩
        rintro rfl
        exact hnil h
  obtain ⟨ps, hread, rfl⟩ := exists_of_readAll hall
  exact ⟨ps, hread, rfl, fun hnil => hne (hnil ▸ rfl)⟩

end PlacedStatement

end

end TableTypes
