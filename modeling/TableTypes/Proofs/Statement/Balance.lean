import TableTypes.Proofs.Scan.LineEnds
import TableTypes.Proofs.Statement.Place

/-!
# Statements are balanced pieces of the text

The statements that are read are pieces of the text, one behind the other, and the body of each is
what stands between two parentheses (`Statement.parse_balanced`).  The closing parenthesis is looked
for in the text with its comments masked, from the opening one on; where that one stands in code, it
is the parenthesis at which the scan of the whole text returns to the depth it came from.
-/

namespace TableTypes

open Text

theorem newlines_take_le (t : Text) {i j : Nat} (hij : i ≤ j) :
    newlines (t.take i) ≤ newlines (t.take j) := by
  have hsub : List.Sublist (t.take i) (t.take j) := by
    rw [← Nat.min_eq_left hij, ← List.take_take]
    exact List.take_sublist _ _
  exact hsub.count_le '\n'

namespace PlacedStatement.StandsIn

variable {t : Text} {p q : PlacedStatement}

theorem line_le (hp : p.StandsIn t) (hq : q.StandsIn t) (hpq : p.stop ≤ q.start) :
    p.statement.line ≤ q.statement.line := by
  have hname : p.name ≤ q.name := by
    have h₁ := hp.name_lt.trans (hp.opening_lt.trans hp.closing_lt)
    have h₂ := hq.start_lt
    omega
  rw [hp.line, hq.line]
  exact Nat.succ_le_succ (newlines_take_le t hname)

theorem strip_body (hp : p.StandsIn t) : strip p.statement.body = p.statement.body := by
  rw [← hp.body, strip_strip]

/-- The body is cut out of the statement. -/
theorem body_isInfix (hp : p.StandsIn t) : p.statement.body <:+: p.statement.source := by
  have hslice : slice t (p.opening + 1) p.closing <:+: p.statement.source := by
    rw [hp.source]
    refine slice_isInfix t ?_ (Nat.le_of_lt hp.closing_lt)
    have h₁ := hp.start_lt
    have h₂ := hp.name_lt
    omega
  obtain ⟨l, r, hsplit, -⟩ := strip_split (slice t (p.opening + 1) p.closing)
  rw [← hp.body]
  refine List.IsInfix.trans ⟨l, r, ?_⟩ hslice
  rw [List.append_assoc]
  exact hsplit.symm

/-- If the body is opened in code, its closing parenthesis is that of the text itself. -/
theorem closing?_text (hp : p.StandsIn t) (hcode : regionAt t p.opening = some .code) :
    closing? (t.drop p.opening) = some (p.closing - p.opening) := by
  rw [← closing?_drop_maskComments hp.getElem?_opening hcode]
  exact hp.closes

theorem returnsAt (hp : p.StandsIn t) (hcode : regionAt t p.opening = some .code) :
    ReturnsAt t p.opening p.closing := by
  have h := returnsAt_of_closing? hcode (hp.closing?_text hcode)
  rwa [Nat.add_sub_cancel' (Nat.le_of_lt hp.opening_lt)] at h

theorem hasUnmatchedDelimiters (hp : p.StandsIn t) (hcode : regionAt t p.opening = some .code) :
    hasUnmatchedDelimiters p.statement.body = false := by
  obtain ⟨b, r, hdrop, hwidth, hb⟩ := exists_of_closing? (hp.closing?_text hcode)
  have hslice : slice t (p.opening + 1) p.closing = b := by
    have h := slice_drop t p.opening 1 (p.closing - p.opening)
    rw [Nat.add_sub_cancel' (Nat.le_of_lt hp.opening_lt)] at h
    rw [← h, hdrop, hwidth]
    exact slice_append ['('] b (')' :: r) rfl (Nat.add_comm _ _)
  rw [← hp.body, hslice]
  exact hb.hasUnmatchedDelimiters_strip

end PlacedStatement.StandsIn

/-- **What is read is always a balanced piece of the text.**  The statements are cut out of the
cleaned text one behind the other, on lines that never go back.  A body is not empty, has no blank
at either end and stands in its statement; if the parenthesis in front of it stands in code, it
closes what it opens and goes on to the first parenthesis that brings the depth back. -/
theorem Statement.parse_balanced {sql : Text} {ss : List Statement}
    (h : Statement.parse (.text sql) = .ok ss) :
    ∃ ps, PlacedStatement.readAll (cleaned sql) = .ok ps ∧
      ps.map PlacedStatement.statement = ss ∧
      ps.Pairwise (fun p q => p.stop ≤ q.start) ∧
      ss.Pairwise (fun s s' => s.line ≤ s'.line) ∧
      ∀ p ∈ ps, p.start < p.stop ∧ p.stop ≤ (cleaned sql).length ∧
        slice (cleaned sql) p.start p.stop = p.statement.source ∧
        p.statement.body ≠ [] ∧ strip p.statement.body = p.statement.body ∧
        p.statement.body <:+: p.statement.source ∧
        (cleaned sql)[p.opening]? = some '(' ∧
        (regionAt (cleaned sql) p.opening = some .code →
          hasUnmatchedDelimiters p.statement.body = false ∧
          ReturnsAt (cleaned sql) p.opening p.closing ∧
          p.statement.body = strip (slice (cleaned sql) (p.opening + 1) p.closing)) := by
  obtain ⟨ps, hread, rfl, -⟩ := PlacedStatement.exists_of_parse h
  have hpairwise := PlacedStatement.pairwise_of_readAll hread
  have hstands : ∀ p ∈ ps, p.StandsIn (cleaned sql) := fun p hp =>
    PlacedStatement.standsIn_of_readAll hread hp
  refine ⟨ps, hread, rfl, hpairwise, ?_, ?_⟩
  · rw [List.pairwise_map]
    exact hpairwise.imp_of_mem fun hp hq hpq => (hstands _ hp).line_le (hstands _ hq) hpq
  · intro p hp
    have hp := hstands p hp
    exact ⟨hp.start_lt_stop, hp.stop_le, hp.source.symm, hp.solid, hp.strip_body, hp.body_isInfix,
      hp.getElem?_opening, fun hcode =>
        ⟨hp.hasUnmatchedDelimiters hcode, hp.returnsAt hcode, hp.body.symm⟩⟩

/-- Two statements, the first with parentheses in its body and one more in a comment. -/
theorem Statement.parse_balanced_pair :
    Statement.parse (.text
        "CREATE TABLE a (x CHAR(2) -- )\n);\nCREATE TABLE b (y INT);".toList) =
      .ok [⟨['a'], "x CHAR(2) -- )".toList, 1, "CREATE TABLE a (x CHAR(2) -- )\n);".toList, none⟩,
        ⟨['b'], "y INT".toList, 3, "CREATE TABLE b (y INT);".toList, none⟩] ∧
      ∃ ps, PlacedStatement.readAll (cleaned
          "CREATE TABLE a (x CHAR(2) -- )\n);\nCREATE TABLE b (y INT);".toList) = .ok ps ∧
        ps.length = 2 ∧ ps.Pairwise (fun p q => p.stop ≤ q.start) ∧
        ∀ p ∈ ps, p.statement.body <:+: p.statement.source := by
  have hparse : Statement.parse (.text
      "CREATE TABLE a (x CHAR(2) -- )\n);\nCREATE TABLE b (y INT);".toList) =
      .ok [⟨['a'], "x CHAR(2) -- )".toList, 1, "CREATE TABLE a (x CHAR(2) -- )\n);".toList, none⟩,
        ⟨['b'], "y INT".toList, 3, "CREATE TABLE b (y INT);".toList, none⟩] := by
    decide +kernel
  obtain ⟨ps, hread, hmap, hpairwise, -, hall⟩ := Statement.parse_balanced hparse
  have hlength := congrArg List.length hmap
  rw [List.length_map] at hlength
  refine ⟨hparse, ps, hread, hlength, hpairwise, fun p hp => ?_⟩
  obtain ⟨-, -, -, -, -, hcut, -⟩ := hall p hp
  exact hcut

end TableTypes
