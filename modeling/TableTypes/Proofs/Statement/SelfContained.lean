import TableTypes.Proofs.Statement.Place
import TableTypes.Proofs.Table

/-!
# Statements by themselves

A statement that begins in code is read as the same statement, and gives the same table, when
everything around it is cut off (`Statement.parse_selfContained`).  In front of it the cut is made
where the scan of comments begins anew (`StandsIn.drop_start`), behind it where neither the
parentheses nor the options look any further (`StandsIn.take_stop`).
-/

namespace TableTypes

open Text

theorem Text.slice_take (t : Text) {n start stop : Nat} (hstop : stop ≤ n) :
    slice (t.take n) start stop = slice t start stop := by
  rw [slice, slice, List.drop_take, List.take_take, Nat.min_eq_left (by omega)]

namespace PlacedStatement

/-- The statement as it stands in its own text. -/
def alone (p : PlacedStatement) : PlacedStatement where
  statement :=
    { p.statement with line := newlines (p.statement.source.take (p.name - p.start)) + 1 }
  start := 0
  name := p.name - p.start
  opening := p.opening - p.start
  closing := p.closing - p.start
  stop := p.stop - p.start

variable {t : Text} {p : PlacedStatement}

namespace StandsIn

/-- Where a statement begins in code, comments are masked as in the text from there on. -/
theorem maskComments_start (hp : p.StandsIn t) (hcode : regionAt t p.start = some .code) :
    (maskComments t).drop p.start = maskComments (t.drop p.start) := by
  obtain ⟨h, hread, -⟩ := hp.head
  obtain ⟨m, hm, hword, -⟩ := exists_first hread
  have hne : ∀ c : Char, isWord c = false → m.char ≠ c := by
    rintro c hc rfl
    rw [hc] at hword
    cases hword
  -- The statement begins with a letter, not with a quote or newline that would end something.
  have hchar : (t.drop p.start).head? = some m.char := by
    rw [List.head?_drop, ← map_char_scan true t, List.getElem?_map, hm, Option.map_some]
  obtain ⟨u, hu⟩ := List.head?_eq_some_iff.mp hchar
  have hquote : Quote.ofChar? m.char = none := by
    simp [Quote.ofChar?, hne '\'' (by decide), hne '"' (by decide), hne '\x60' (by decide)]
  obtain ⟨hplace, hescape⟩ := spotAt_of_regionAt hu hquote (hne '\n' (by decide)) hcode
  exact maskComments_restart hplace hescape

/-- **The text in front of a statement can be cut off**, if the statement begins in code. -/
theorem drop_start (hp : p.StandsIn t) (hcode : regionAt t p.start = some .code) :
    p.alone.StandsIn (t.drop p.start) := by
  obtain ⟨h, hread, hname, hopening, hstrip⟩ := hp.head
  have hmask := hp.maskComments_start hcode
  have h₁ := hp.start_lt
  have h₂ := hp.name_lt
  have h₃ := hp.opening_lt
  have h₄ := hp.closing_lt
  have hadd : ∀ {k : Nat}, p.start ≤ k → p.start + (k - p.start) = k := fun hk =>
    Nat.add_sub_cancel' hk
  exact {
    head := by
      refine ⟨h, ?_, ?_, ?_, hstrip⟩
      · rw [← hmask]
        exact hread
      · rw [← hmask, List.drop_drop]
        show _ = (maskComments t).drop (p.start + (p.name - p.start))
        rw [hadd (by omega), hname]
      · rw [← hmask, List.drop_drop]
        show _ = (maskComments t).drop (p.start + (p.opening - p.start))
        rw [hadd (by omega), hopening]
    closes := by
      rw [← hmask, List.drop_drop]
      show closing? ((maskComments t).drop (p.start + (p.opening - p.start))) =
        some (p.closing - p.start - (p.opening - p.start))
      rw [hadd (by omega), hp.closes]
      congr 1
      omega
    start_lt := by show 0 < p.name - p.start; omega
    name_lt := by show p.name - p.start < p.opening - p.start; omega
    opening_lt := by show p.opening - p.start < p.closing - p.start; omega
    closing_lt := by show p.closing - p.start < p.stop - p.start; omega
    stop_le := by
      rw [List.length_drop]
      exact Nat.sub_le_sub_right hp.stop_le _
    body := by
      show strip (slice (t.drop p.start) (p.opening - p.start + 1) (p.closing - p.start)) = _
      rw [slice_drop, ← Nat.add_assoc, hadd (by omega), hadd (by omega)]
      exact hp.body
    solid := hp.solid
    line := by
      show newlines (p.statement.source.take (p.name - p.start)) + 1 = _
      rw [hp.source, slice, List.take_take, Nat.min_eq_left (by omega)]
      rfl
    source := by
      show p.statement.source = slice (t.drop p.start) 0 (p.stop - p.start)
      rw [slice_drop, hadd (by omega)]
      exact hp.source
    options := by
      show tableOptions ((t.drop p.start).drop (p.closing - p.start + 1)) =
        (p.statement.comment, (t.drop p.start).drop (p.stop - p.start))
      rw [List.drop_drop, List.drop_drop, ← Nat.add_assoc, hadd (by omega), hadd (by omega)]
      exact hp.options }

/-- Behind the closing parenthesis of a statement the masked text does not matter to its head and
its parentheses. -/
theorem exists_masks (hp : p.StandsIn t) : ∃ x z z' : Text, x.length = p.closing + 1 ∧
    maskComments t = x ++ z ∧ maskComments (t.take p.stop) = x ++ z' := by
  have hstop := hp.closing_lt
  -- Both texts begin with the one that ends in the closing parenthesis, which starts no comment.
  have hlast : (t.take (p.closing + 1)).getLast? = some ')' := by
    rw [List.getLast?_take, if_neg (Nat.succ_ne_zero _), Nat.add_sub_cancel, hp.getElem?_closing]
    rfl
  have hchar : ')' ≠ '-' ∧ ')' ≠ '/' ∧ ')' ≠ '*' := by decide
  obtain ⟨z, hz, -⟩ := maskComments_front (t.drop (p.closing + 1)) hlast hchar
  obtain ⟨z', hz', -⟩ := maskComments_front ((t.take p.stop).drop (p.closing + 1)) hlast hchar
  have htake : t.take (p.closing + 1) = (t.take p.stop).take (p.closing + 1) := by
    rw [List.take_take, Nat.min_eq_left hstop]
  rw [List.take_append_drop] at hz
  nth_rewrite 1 [htake] at hz'
  rw [List.take_append_drop] at hz'
  refine ⟨maskComments (t.take (p.closing + 1)), z, z', ?_, hz, hz'⟩
  rw [length_maskComments, List.length_take]
  have := hp.stop_le
  omega

/-- **The text behind a statement can be cut off.** -/
theorem take_stop (hp : p.StandsIn t) : p.StandsIn (t.take p.stop) := by
  obtain ⟨h, hread, hname, hopening, hstrip⟩ := hp.head
  obtain ⟨x, z, z', hx, hmask, hmask'⟩ := hp.exists_masks
  have h₁ := hp.start_lt
  have h₂ := hp.name_lt
  have h₃ := hp.opening_lt
  have h₄ := hp.closing_lt
  have hdrop : ∀ {k : Nat}, k ≤ p.closing → (maskComments t).drop k = x.drop k ++ z ∧
      (maskComments (t.take p.stop)).drop k = x.drop k ++ z' := by
    intro k hk
    rw [hmask, hmask']
    exact ⟨List.drop_append_of_le_length (by omega), List.drop_append_of_le_length (by omega)⟩
  -- The head of the whole is one of `x` alone, and is then read in front of `z'` just as well.
  rw [(hdrop (by omega)).1] at hread hname hopening
  have hne : x.drop p.opening ≠ [] := by
    rw [← List.length_pos_iff, List.length_drop]
    omega
  obtain ⟨g, rfl, hgopening, hgread⟩ := StatementHead.read?_cut hread hopening hne
  obtain ⟨r, s, -, -, hspells, -⟩ := StatementHead.read?_eq_some_iff.mp hgread
  have hgname : g.name.start = x.drop p.name := List.append_cancel_right hname
  have hslice : slice (t.take p.stop) (p.opening + 1) p.closing =
      slice t (p.opening + 1) p.closing := slice_take t (Nat.le_of_lt h₄)
  have hoptions :
      tableOptions ((t.take p.stop).drop (p.closing + 1)) = (p.statement.comment, []) := by
    have hsplit : (t.take p.stop).drop (p.closing + 1) ++ t.drop p.stop =
        t.drop (p.closing + 1) := by
      have hle : p.closing + 1 ≤ (t.take p.stop).length := by
        rw [List.length_take]
        have := hp.stop_le
        omega
      rw [← List.drop_append_of_le_length hle, List.take_append_drop]
    apply tableOptions_cut (z := t.drop p.stop)
    rw [hsplit]
    exact hp.options
  exact {
    head := by
      refine ⟨g.append z', ?_, ?_, ?_, ?_⟩
      · rw [(hdrop (by omega)).2]
        exact StatementHead.read?_append z' hgread
      · rw [(hdrop (by omega)).2, ← hgname]
        rfl
      · rw [(hdrop (by omega)).2, ← hgopening]
        rfl
      · rw [← hstrip]
        show strip (g.name.append z').name = strip (g.name.append z).name
        rw [hspells.name_append, hspells.name_append]
    closes := by
      have hcloses := hp.closes
      rw [(hdrop (by omega)).1] at hcloses
      rw [(hdrop (by omega)).2]
      refine closing?_append_congr hcloses ?_
      rw [List.length_drop]
      omega
    start_lt := h₁
    name_lt := h₂
    opening_lt := h₃
    closing_lt := h₄
    stop_le := by
      rw [List.length_take, Nat.min_eq_left hp.stop_le]
    body := hslice ▸ hp.body
    solid := hp.solid
    line := by
      rw [List.take_take, Nat.min_eq_left (by omega)]
      exact hp.line
    source := by
      rw [slice_take t (Nat.le_refl _)]
      exact hp.source
    options := by
      rw [hoptions, List.drop_eq_nil_of_le (List.length_take_le _ _)] }

/-- A statement that begins in code stands in its own text, from the front to the end. -/
theorem source_alone (hp : p.StandsIn t) (hcode : regionAt t p.start = some .code) :
    p.alone.StandsIn p.statement.source ∧ p.alone.stop = p.statement.source.length := by
  have hsource : p.statement.source = (t.drop p.start).take p.alone.stop := hp.source
  -- The text in front goes first: the restart needs the position of the statement in the whole.
  have hstands := (hp.drop_start hcode).take_stop
  rw [← hsource] at hstands
  refine ⟨hstands, ?_⟩
  rw [hsource, List.length_take, List.length_drop]
  exact (Nat.min_eq_left (Nat.sub_le_sub_right hp.stop_le _)).symm

end StandsIn

/-- **A statement that begins in code is read from its own text**, and nothing else is. -/
theorem found_source (hp : p.StandsIn t) (hcode : regionAt t p.start = some .code) :
    found p.statement.source = [.ok p.alone] := by
  obtain ⟨hstands, hstop⟩ := hp.source_alone hcode
  set x := p.statement.source
  have hlength : p.alone.stop = (maskComments x).length := by rw [length_maskComments, hstop]
  have hat : at? x ((maskComments x).drop 0) =
      some (.ok p.alone, (maskComments x).drop p.alone.stop) :=
    hstands.at?
  have hpos : 0 < p.alone.stop := hstands.start_lt_stop
  have hrun : Found (at? x) (maskComments x) 0 [.ok p.alone] :=
    .hit hpos (Nat.le_of_eq hlength) hat (.done (Nat.le_of_eq hlength.symm))
  exact hrun.findAllFrom_eq none

theorem parse_source {sql : Text} (hp : p.StandsIn (cleaned sql))
    (hcode : regionAt (cleaned sql) p.start = some .code) :
    Statement.parse (.text p.statement.source) = .ok [p.alone.statement] := by
  have hclean : cleaned p.statement.source = p.statement.source := by
    apply cleaned_eq_self_of_subset (t := sql)
    rw [hp.source]
    exact List.Subset.trans (List.take_subset _ _) (List.drop_subset _ _)
  have hread : readAll p.statement.source = .ok [p.alone] := by
    rw [readAll, found_source hp hcode]
    rfl
  exact parse_of_readAll hclean hread (List.cons_ne_nil _ _)

end PlacedStatement

/-- **Extracted statements are self-contained.**  A statement whose keyword stands in code is read
from its own text as it is read from the whole, up to the line, which is counted from the front of
its own text; the table it declares is extracted from its own text, too. -/
theorem Statement.parse_selfContained {sql : Text} {ss : List Statement}
    (h : Statement.parse (.text sql) = .ok ss) :
    ∃ ps, PlacedStatement.readAll (cleaned sql) = .ok ps ∧
      ps.map PlacedStatement.statement = ss ∧
      (∀ p ∈ ps, regionAt (cleaned sql) p.start = some .code →
        Statement.parse (.text p.statement.source) =
          .ok [{ p.statement with
            line := newlines (p.statement.source.take (p.name - p.start)) + 1 }]) ∧
      ∀ (o : ExtractorOptions) (tables : List Table),
        (extractTables (.text sql) o .standard).outcome = .ok tables →
          List.Forall₂ (fun p table => regionAt (cleaned sql) p.start = some .code →
            extractTable (.text p.statement.source) o = .succeed table) ps tables := by
  obtain ⟨ps, hread, rfl, -⟩ := PlacedStatement.exists_of_parse h
  have hstands : ∀ p ∈ ps, p.StandsIn (cleaned sql) := fun p hp =>
    PlacedStatement.standsIn_of_readAll hread hp
  refine ⟨ps, hread, rfl, fun p hp hcode => PlacedStatement.parse_source (hstands p hp) hcode, ?_⟩
  intro o tables hextract
  obtain ⟨ss, hparse, htables⟩ := exists_parse_of_extractTables hextract
  rw [h] at hparse
  obtain rfl := Except.ok.inj hparse
  rw [List.forall₂_map_left_iff] at htables
  refine ((List.forall₂_and_left ps tables).mpr ⟨hstands, htables⟩).imp ?_
  rintro p table ⟨hp, htable⟩ hcode
  exact extractTable_of_parse (hp.source_alone hcode).1.isAllBlank
    (PlacedStatement.parse_source hp hcode) (Statement.checkedTable_line _ htable)

/-- A statement behind a comment with a quote in it, on the third line of the text and with its
name on the second line of its own text. -/
theorem Statement.parse_selfContained_behindComment :
    Statement.parse (.text "/* '\n */ CREATE TABLE\na (x INT) COMMENT='c';".toList) =
        .ok [⟨['a'], "x INT".toList, 3, "CREATE TABLE\na (x INT) COMMENT='c';".toList, some ['c']⟩] ∧
      Statement.parse (.text "CREATE TABLE\na (x INT) COMMENT='c';".toList) =
        .ok [⟨['a'], "x INT".toList, 2, "CREATE TABLE\na (x INT) COMMENT='c';".toList,
          some ['c']⟩] := by
  have hparse : Statement.parse (.text "/* '\n */ CREATE TABLE\na (x INT) COMMENT='c';".toList) =
      .ok [⟨['a'], "x INT".toList, 3, "CREATE TABLE\na (x INT) COMMENT='c';".toList, some ['c']⟩] := by
    decide +kernel
  obtain ⟨ps, hread, -, halone, -⟩ := Statement.parse_selfContained hparse
  have hplaced : PlacedStatement.readAll
      (cleaned "/* '\n */ CREATE TABLE\na (x INT) COMMENT='c';".toList) =
        .ok [⟨⟨['a'], "x INT".toList, 3, "CREATE TABLE\na (x INT) COMMENT='c';".toList, some ['c']⟩,
          9, 22, 24, 30, 44⟩] := by
    decide +kernel
  obtain rfl := Except.ok.inj (hread.symm.trans hplaced)
  exact ⟨hparse, halone _ List.mem_cons_self (by decide +kernel)⟩

end TableTypes
