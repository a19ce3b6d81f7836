import TableTypes.Proofs.Statement.Place

/-!
# Statements in quoted text

The search for statements passes over comments but not over quoted text: a head inside quotes is
read as a statement unless a statement that is read reaches over it (`Statement.parse_quoted`).
-/

namespace TableTypes

open Text

namespace PlacedStatement

variable {t : Text} {ps : List PlacedStatement}

/-- No statement is read from a comment. -/
theorem StandsIn.regionAt_start {p : PlacedStatement} (hp : p.StandsIn t) :
    regionAt t p.start = some .code ∨ ∃ q, regionAt t p.start = some (.quoted q) := by
  obtain ⟨h, hread, -⟩ := hp.head
  obtain ⟨m, hm, -, hcomment⟩ := exists_first hread
  rw [regionAt, hm, Option.map_some]
  cases hregion : m.region with
  | code => exact Or.inl rfl
  | quoted q => exact Or.inr ⟨q, rfl⟩
  | comment => exact absurd hregion hcomment

/-- A head where no statement starts is reached over by one. -/
theorem exists_reaching (h : readAll t = .ok ps) {i : Nat} {head : StatementHead}
    (hread : StatementHead.read? ((maskComments t).drop i) = some head)
    (hstart : ∀ p ∈ ps, p.start ≠ i) : ∃ p ∈ ps, p.start < i ∧ i < p.stop := by
  obtain ⟨p, hp, hle, hlt⟩ := exists_covering_of_readAll h hread
  exact ⟨p, hp, Nat.lt_of_le_of_ne hle (hstart p hp), hlt⟩

/-- No statement that is read reaches over the start of another. -/
theorem not_reaching (h : readAll t = .ok ps) {p q : PlacedStatement} (hp : p ∈ ps) (hq : q ∈ ps) :
    ¬ (q.start < p.start ∧ p.start < q.stop) := by
  rintro ⟨hlt, hreach⟩
  have hpairwise := List.pairwise_iff_getElem.mp (pairwise_of_readAll h)
  have hpos := (standsIn_of_readAll h hp).start_lt_stop
  obtain ⟨i, hi, rfl⟩ := List.getElem_of_mem hp
  obtain ⟨j, hj, rfl⟩ := List.getElem_of_mem hq
  rcases Nat.lt_trichotomy i j with hij | rfl | hij
  · have := hpairwise i j hi hj hij
    omega
  · exact Nat.lt_irrefl _ hlt
  · have := hpairwise j i hj hi hij
    omega

end PlacedStatement

/-- **Which statements are read from quoted text.**  No statement is read from a comment, and all
are read from code if and only if every head inside quotes is reached over by a statement that
starts in front of it. -/
theorem Statement.parse_quoted {sql : Text} {ss : List Statement}
    (h : Statement.parse (.text sql) = .ok ss) :
    ∃ ps, PlacedStatement.readAll (cleaned sql) = .ok ps ∧
      ps.map PlacedStatement.statement = ss ∧
      (∀ p ∈ ps, regionAt (cleaned sql) p.start ≠ some .comment) ∧
      ((∀ p ∈ ps, regionAt (cleaned sql) p.start = some .code) ↔
        ∀ (i : Nat) (q : Quote) (head : StatementHead),
          StatementHead.read? ((maskComments (cleaned sql)).drop i) = some head →
            regionAt (cleaned sql) i = some (.quoted q) →
              ∃ p ∈ ps, p.start < i ∧ i < p.stop) := by
  obtain ⟨ps, hread, rfl, -⟩ := PlacedStatement.exists_of_parse h
  have hstands : ∀ p ∈ ps, p.StandsIn (cleaned sql) := fun p hp =>
    PlacedStatement.standsIn_of_readAll hread hp
  refine ⟨ps, hread, rfl, ?_, ?_, ?_⟩
  · intro p hp
    rcases (hstands p hp).regionAt_start with hcode | ⟨q, hquoted⟩
    · rw [hcode]; decide
    · rw [hquoted]
      intro heq
      cases heq
  · intro hcode i q head hhead hquoted
    refine PlacedStatement.exists_reaching hread hhead ?_
    rintro p hp rfl
    rw [hcode p hp] at hquoted
    cases hquoted
  · intro hreach p hp
    rcases (hstands p hp).regionAt_start with hcode | ⟨q, hquoted⟩
    · exact hcode
    · -- The head of `p` itself would be reached over by another statement.
      obtain ⟨head, hhead, -⟩ := (hstands p hp).head
      obtain ⟨p', hp', hover⟩ := hreach p.start q head hhead hquoted
      exact absurd hover (PlacedStatement.not_reaching hread hp hp')

/-- A head in the literal of a comment option is reached over by the statement of the option. -/
theorem Statement.parse_quoted_option :
    Statement.parse (.text "CREATE TABLE a (x INT) COMMENT='CREATE TABLE b (y INT)';".toList) =
        .ok [⟨['a'], "x INT".toList, 1,
          "CREATE TABLE a (x INT) COMMENT='CREATE TABLE b (y INT)';".toList,
          some "CREATE TABLE b (y INT)".toList⟩] ∧
      ∃ ps, PlacedStatement.readAll
          (cleaned "CREATE TABLE a (x INT) COMMENT='CREATE TABLE b (y INT)';".toList) = .ok ps ∧
        ∃ p ∈ ps, p.start < 32 ∧ 32 < p.stop := by
  have hparse : Statement.parse
      (.text "CREATE TABLE a (x INT) COMMENT='CREATE TABLE b (y INT)';".toList) =
        .ok [⟨['a'], "x INT".toList, 1,
          "CREATE TABLE a (x INT) COMMENT='CREATE TABLE b (y INT)';".toList,
          some "CREATE TABLE b (y INT)".toList⟩] := by
    decide +kernel
  have hplaced : PlacedStatement.readAll
      (cleaned "CREATE TABLE a (x INT) COMMENT='CREATE TABLE b (y INT)';".toList) =
        .ok [⟨⟨['a'], "x INT".toList, 1,
          "CREATE TABLE a (x INT) COMMENT='CREATE TABLE b (y INT)';".toList,
          some "CREATE TABLE b (y INT)".toList⟩, 0, 13, 15, 21, 56⟩] := by
    decide +kernel
  obtain ⟨ps, hread, -, -, hiff⟩ := Statement.parse_quoted hparse
  obtain rfl := Except.ok.inj (hread.symm.trans hplaced)
  refine ⟨hparse, _, hread, hiff.mp ?_ 32 .single ⟨⟨"b (y INT)';".toList, " (y INT)';".toList,
    " (y INT)';".toList⟩, "(y INT)';".toList⟩ rfl (by decide +kernel)⟩
  intro p hp
  obtain rfl := List.mem_singleton.mp hp
  decide +kernel

/-- A statement is read from the literal of an `INSERT`. -/
theorem Statement.parse_quotedInsert :
    ∃ p, Statement.parse (.text "INSERT INTO t VALUES ('CREATE TABLE x (a INT)');".toList) =
        .ok [p.statement] ∧
      PlacedStatement.readAll
        (cleaned "INSERT INTO t VALUES ('CREATE TABLE x (a INT)');".toList) = .ok [p] ∧
      regionAt (cleaned "INSERT INTO t VALUES ('CREATE TABLE x (a INT)');".toList) p.start =
        some (.quoted .single) :=
  ⟨⟨⟨['x'], "a INT".toList, 1, "CREATE TABLE x (a INT)".toList, none⟩, 23, 36, 38, 44, 45⟩,
    by decide +kernel⟩

end TableTypes
