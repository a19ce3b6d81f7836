import TableTypes.Proofs.Report
import TableTypes.Proofs.Statement.Place

/-!
# The gate and the parentheses of statements

A text that passes the check of delimiters ends at the depth it began at, and was never below it.
So the depth comes back behind every parenthesis that is opened in code
(`exists_closing?_of_gate`), and where a statement is refused for a parenthesis that is not closed,
that parenthesis stands in quotes (`Statement.closes_of_gate`).
-/

namespace TableTypes

open Text

/-- Every character stands in some region. -/
theorem exists_regionAt {t : Text} {i : Nat} {c : Char} (h : t[i]? = some c) :
    ∃ region, regionAt t i = some region := by
  have hi : i < (scan true t).length := by
    rw [length_scan]
    exact (List.getElem?_eq_some_iff.mp h).1
  exact ⟨((scan true t)[i]).region, by rw [regionAt, List.getElem?_eq_getElem hi, Option.map_some]⟩

/-! ### Depths -/

/-- Behind a parenthesis that is opened in code and not closed, the depth stays above what it was in
front of it. -/
theorem depthBefore_lt_of_closing? {t u : Text} {i : Nat} (hu : t.drop i = '(' :: u)
    (hcode : regionAt t i = some .code) (hclose : closing? (t.drop i) = none) :
    ∀ m ∈ (scan true t).drop i, depthBefore t i < m.depth := by
  obtain ⟨hplace, hescape⟩ := spotAt_of_regionAt hu rfl (by decide) hcode
  rw [hu, closing?_cons, Option.map_eq_none_iff, List.findIdx?_eq_none_iff] at hclose
  -- Counted from behind the parenthesis, the depth never falls below zero.
  have hinside := Spot.depth_nonneg u Spot.start (Int.le_refl 0)
    (by rw [← scan_eq_marks]; exact fun m hm => hclose m hm)
  rw [← scan_eq_marks] at hinside
  have hopen : scan true ('(' :: u) = ⟨'(', .code, 1⟩ :: (scan true u).map (Mark.lift 1) :=
    scan_append (Seals.of_plain (a := ['(']) rfl)
  intro m hm
  rw [scan_restart hplace hescape, ← depthBefore_eq, hu, hopen] at hm
  obtain ⟨n, hn, rfl⟩ := List.mem_map.mp hm
  have hnpos : 1 ≤ n.depth := by
    rcases List.mem_cons.mp hn with rfl | hn
    · exact Int.le_refl 1
    · obtain ⟨x, hx, rfl⟩ := List.mem_map.mp hn
      have hxnonneg := hinside x hx
      rw [Mark.lift_depth]
      omega
  rw [Mark.lift_depth]
  omega

section

variable {t : Text} (hgate : hasUnmatchedDelimiters t = false)
include hgate

theorem depthBefore_nonneg_of_gate (i : Nat) : 0 ≤ depthBefore t i := by
  rw [depthBefore]
  cases hlast : ((scan true t).take i).getLast? with
  | none => exact Int.le_refl 0
  | some m =>
    have hm : m ∈ scan true t := List.mem_of_mem_take (List.mem_of_getLast? hlast)
    exact (hasUnmatchedDelimiters_eq_false_iff.mp hgate).1 m hm

/-- **What is opened in code is closed** in a text that passes the check. -/
theorem exists_closing?_of_gate {i : Nat} (hparen : t[i]? = some '(')
    (hcode : regionAt t i = some .code) : ∃ width, closing? (t.drop i) = some width := by
  rw [← Option.ne_none_iff_exists']
  intro hclose
  have hlt : i < (scan true t).length := by
    rw [length_scan]
    exact (List.getElem?_eq_some_iff.mp hparen).1
  rw [← List.head?_drop] at hparen
  obtain ⟨u, hu⟩ := List.head?_eq_some_iff.mp hparen
  have hdeep := depthBefore_lt_of_closing? hu hcode hclose
  have hbefore := depthBefore_nonneg_of_gate hgate i
  -- The last mark of the text stands behind the parenthesis, and at depth zero.
  have hne : (scan true t).drop i ≠ [] := by
    rw [ne_eq, List.drop_eq_nil_iff]
    omega
  obtain ⟨m, hm⟩ := Option.ne_none_iff_exists'.mp (mt List.getLast?_eq_none_iff.mp hne)
  have habove := hdeep m (List.mem_of_getLast? hm)
  rw [List.getLast?_drop, if_neg (by omega)] at hm
  have hzero := ((hasUnmatchedDelimiters_eq_false_iff.mp hgate).2 m hm).1
  omega

end

/-! ### Statements -/

namespace Statement

/-- A fault in a cleaned text is a fault at one of its heads, or there is no head at all. -/
theorem exists_head_of_parse {t : Text} {e : ParseError} (hclean : cleaned t = t)
    (h : parse (.text t) = .error e) :
    e = ParseCause.emptyText.error ∨ e = ParseCause.noStatements.error ∨
      ∃ i j, PlacedStatement.at? t ((maskComments t).drop i) =
        some (.error e, (maskComments t).drop j) := by
  rw [parse, hclean] at h
  split at h
  · exact Or.inl (Except.error.inj h).symm
  · split at h
    · exact Or.inr (Or.inl (Except.error.inj h).symm)
    · have hplaced : PlacedStatement.readAll t = .error e := by
        rw [← PlacedStatement.readAll_statements] at h
        cases hread : PlacedStatement.readAll t with
        | ok ps => rw [hread] at h; cases h
        | error e' => rw [hread] at h; exact congrArg _ (Except.error.inj h)
      obtain ⟨i, j, -, -, -, hat⟩ :=
        (PlacedStatement.found_run t).exists_of_mem (Report.error_mem_of_mapM hplaced)
      exact Or.inr (Or.inr ⟨i, j, hat⟩)

/-- A head whose parenthesis is not closed is all that is refused for it. -/
theorem closing?_of_unbalanced {t : Text} {i : Nat} {name r : Text} {line position : Option Nat}
    (h : PlacedStatement.at? t ((maskComments t).drop i) =
      some (.error ⟨.unbalancedParentheses name, line, position⟩, r)) :
    ∃ head o, StatementHead.read? ((maskComments t).drop i) = some head ∧
      strip head.name.name = name ∧ head.opening = (maskComments t).drop o ∧
        closing? ((maskComments t).drop o) = none := by
  obtain ⟨head, hread, -⟩ := Option.bind_eq_some_iff.mp h
  obtain ⟨n, o, hin, hno, ho, hname, hopening⟩ := PlacedStatement.exists_positions hread
  rw [PlacedStatement.at?_of_head hread hname hopening hin hno ho,
    Statement.at?_of_head hread hname hopening hin hno ho] at h
  cases hclose : closing? ((maskComments t).drop o) with
  | none =>
    rw [hclose] at h
    obtain ⟨herror, -⟩ := Prod.mk.inj (Option.some.inj h)
    obtain ⟨hcause, -⟩ := ParseError.mk.inj (Except.error.inj herror)
    exact ⟨head, o, hread, ParseCause.unbalancedParentheses.inj hcause, hopening,
      hclose⟩
  | some width =>
    -- A parenthesis that is closed leaves only an empty body to be refused.
    rw [hclose] at h
    dsimp only at h
    split at h
    · obtain ⟨herror, -⟩ := Prod.mk.inj (Option.some.inj h)
      obtain ⟨hcause, -⟩ := ParseError.mk.inj (Except.error.inj herror)
      cases hcause
    · cases (Prod.mk.inj (Option.some.inj h)).1

end Statement

namespace StatementHead

/-- The parenthesis of a head stands in the text itself, outside comments. -/
theorem paren_of_read? {t : Text} {i o : Nat} {head : StatementHead}
    (hread : read? ((maskComments t).drop i) = some head)
    (hopening : head.opening = (maskComments t).drop o) :
    t[o]? = some '(' ∧ regionAt t o ≠ some .comment := by
  obtain ⟨-, -, -, -, -, -, hhead⟩ := read?_eq_some_iff.mp hread
  rw [hopening, List.head?_drop] at hhead
  obtain ⟨m, hm, hchar, hregion⟩ := exists_mark_of_maskComments (by decide) (by decide) hhead
  refine ⟨getElem?_of_maskComments (by decide) (by decide) hhead, ?_⟩
  rw [regionAt, hm, Option.map_some]
  exact fun h => hregion (Option.some.inj h)

end StatementHead

/-- **The gate protects the statements.**  In a clean text that passes the check of delimiters,
every head of a statement whose parenthesis stands in code finds the parenthesis that closes it,
where the depth of the text comes back.  If the text is refused for a parenthesis that is not
closed, it is that of a head in quotes. -/
theorem Statement.closes_of_gate {sql : Text} (hclean : isClean sql = true)
    (hgate : hasUnmatchedDelimiters sql = false) :
    (∀ (i : Nat) (head : StatementHead),
      StatementHead.read? ((maskComments sql).drop i) = some head →
        ∃ o, sql[o]? = some '(' ∧ head.opening = (maskComments sql).drop o ∧
          (regionAt sql o = some .code →
            ∃ j, matchingParen? (maskComments sql) o = some j ∧ ReturnsAt sql o j)) ∧
    ∀ (name : Text) (line position : Option Nat),
      Statement.parse (.text sql) = .error ⟨.unbalancedParentheses name, line, position⟩ →
        ∃ i o q, ∃ head, StatementHead.read? ((maskComments sql).drop i) = some head ∧
          strip head.name.name = name ∧ head.opening = (maskComments sql).drop o ∧
          sql[o]? = some '(' ∧ matchingParen? (maskComments sql) o = none ∧
          regionAt sql o = some (.quoted q) := by
  have hcloses : ∀ {o : Nat}, sql[o]? = some '(' → regionAt sql o = some .code →
      ∃ width, closing? (sql.drop o) = some width ∧
        closing? ((maskComments sql).drop o) = some width := by
    intro o hparen hcode
    obtain ⟨width, hwidth⟩ := exists_closing?_of_gate hgate hparen hcode
    exact ⟨width, hwidth, by rw [closing?_drop_maskComments hparen hcode, hwidth]⟩
  constructor
  · intro i head hread
    obtain ⟨n, o, -, -, -, -, hopening⟩ := PlacedStatement.exists_positions hread
    obtain ⟨hparen, -⟩ := StatementHead.paren_of_read? hread hopening
    refine ⟨o, hparen, hopening, fun hcode => ?_⟩
    obtain ⟨width, hwidth, hmasked⟩ := hcloses hparen hcode
    refine ⟨o + width, ?_, returnsAt_of_closing? hcode hwidth⟩
    rw [matchingParen?_natCast, hmasked, Option.map_some]
  · intro name line position hparse
    rcases exists_head_of_parse (cleaned_eq_self hclean) hparse with h | h | ⟨i, j, hat⟩
    · cases h
    · cases h
    · obtain ⟨head, o, hread, hname, hopening, hopen⟩ := closing?_of_unbalanced hat
      obtain ⟨hparen, hcomment⟩ := StatementHead.paren_of_read? hread hopening
      have hmatch : matchingParen? (maskComments sql) o = none := by
        rw [matchingParen?_natCast, hopen, Option.map_none]
      obtain ⟨region, hregion⟩ := exists_regionAt hparen
      cases region with
      | comment => exact absurd hregion hcomment
      | quoted q => exact ⟨i, o, q, head, hread, hname, hopening, hparen, hmatch, hregion⟩
      | code =>
        obtain ⟨width, -, hmasked⟩ := hcloses hparen hregion
        rw [hmasked] at hopen
        cases hopen

theorem Statement.closes_of_gate_quotedHead :
    let sql := "INSERT INTO u VALUES ('CREATE TABLE t (a INT');".toList
    (isClean sql = true ∧ hasUnmatchedDelimiters sql = false ∧
      Statement.parse (.text sql) =
        .error ⟨.unbalancedParentheses "t".toList, some 1, none⟩) ∧
    ∃ i o q, ∃ head, StatementHead.read? ((maskComments sql).drop i) = some head ∧
      strip head.name.name = "t".toList ∧ head.opening = (maskComments sql).drop o ∧
      sql[o]? = some '(' ∧ matchingParen? (maskComments sql) o = none ∧
      regionAt sql o = some (.quoted q) := by
  intro sql
  have hclean : isClean sql = true := by decide +kernel
  have hgate : hasUnmatchedDelimiters sql = false := by decide +kernel
  have hparse : Statement.parse (.text sql) =
      .error ⟨.unbalancedParentheses "t".toList, some 1, none⟩ := by decide +kernel
  exact ⟨⟨hclean, hgate, hparse⟩, (Statement.closes_of_gate hclean hgate).2 _ _ _ hparse⟩

end TableTypes
