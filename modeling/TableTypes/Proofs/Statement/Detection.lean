import TableTypes.Proofs.Report
import TableTypes.Proofs.Statement.Place

/-!
# Detecting statements

A text is looked through for the head of a statement by the same reader that parsing starts a
statement with, so the one finds nothing exactly if the other does.  Whatever is found is read as a
statement or refused, and a statement is refused on the line of its name
(`Statement.exists_of_at?_error`), which is a line of the text (`lineAt_bounds`).
-/

namespace TableTypes

open Text

/-! ### Lines -/

/-- Every position, also one outside the text, counts to a line of the text. -/
theorem Text.lineAt_bounds (t : Text) (position : Int) :
    1 ≤ lineAt t position ∧ lineAt t position ≤ newlines t + 1 := by
  unfold lineAt newlines
  split_ifs
  · omega
  · have hcount : (t.take position.toNat).count '\n' ≤ t.count '\n' :=
      (List.take_sublist position.toNat t).count_le '\n'
    omega

/-! ### Heads and statements -/

namespace Statement

variable {t masked : Text}

/-- **A statement is found exactly where a head is detected.** -/
theorem absent_at?_iff : Absent (at? t) masked ↔ Absent StatementHead.read? masked :=
  forall_congr' fun _ => imp_congr_right fun _ => imp_congr_right fun _ => at?_eq_none_iff

/-- What is refused at a head is a parenthesis that is not closed or an empty body, on a line of the
text. -/
theorem exists_of_at?_error {r : Text} {e : ParseError} (h : at? t masked = some (.error e, r)) :
    ∃ name line, (e = (ParseCause.unbalancedParentheses name).onLine (some line) ∨
      e = (ParseCause.noColumns name).onLine (some line)) ∧ 1 ≤ line ∧ line ≤ newlines t + 1 := by
  unfold at? at h
  obtain ⟨head, -, h⟩ := Option.map_eq_some_iff.mp h
  refine ⟨strip head.name.name, lineAt t (t.length - head.name.start.length), ?_,
    lineAt_bounds _ _⟩
  dsimp only at h
  split at h
  · exact Or.inl (Except.error.inj (Prod.mk.inj h).1).symm
  · split_ifs at h
    · exact Or.inr (Except.error.inj (Prod.mk.inj h).1).symm
    · cases (Prod.mk.inj h).1

theorem occursIn_eq_false_iff (ht : t.isAllBlank = false) : occursIn (.text t) = false ↔
    findAll (fun _ => at? (cleaned t)) (maskComments (cleaned t)) = [] := by
  have hnil : StatementHead.read? [] = none := by decide
  rw [findAll_eq_nil_iff, absent_at?_iff, ← find?_eq_none_iff hnil, occursIn, Source.solid?, ht,
    if_neg Bool.false_ne_true, Option.isSome_eq_false_iff, Option.isNone_iff_eq_none]

/-- The number of statements that are found decides what parsing can end with. -/
theorem parse_cases (ht : t.isAllBlank = false) :
    (findAll (fun _ => at? (cleaned t)) (maskComments (cleaned t)) = [] ∧
      parse (.text t) = .error ParseCause.noStatements.error) ∨
    (findAll (fun _ => at? (cleaned t)) (maskComments (cleaned t)) ≠ [] ∧
      ((∃ s ss, parse (.text t) = .ok (s :: ss)) ∨
        ∃ e, parse (.text t) = .error e ∧
          .error e ∈ findAll (fun _ => at? (cleaned t)) (maskComments (cleaned t)))) := by
  rw [parse, ht, if_neg Bool.false_ne_true, readAll]
  obtain ⟨ss, hread, hlength⟩ | ⟨e, hread, hmem⟩ :=
    Report.mapM_id_cases (findAll (fun _ => at? (cleaned t)) (maskComments (cleaned t)))
  · rw [hread]
    simp only [ne_eq, ← List.length_eq_zero_iff, ← hlength]
    cases ss with
    | nil => exact Or.inl ⟨rfl, rfl⟩
    | cons s ss => exact Or.inr ⟨by simp, Or.inl ⟨s, ss, rfl⟩⟩
  · rw [hread]
    exact Or.inr ⟨List.ne_nil_of_mem hmem, Or.inr ⟨e, rfl, hmem⟩⟩

/-- **Detection and parsing agree.**  In a text that is not blank no statement is detected exactly
if parsing it fails because there is none, with no line.  If one is detected, parsing gives
statements, or it fails at one of them, for parentheses that are not balanced or for an empty body,
and names a line of the cleaned text. -/
theorem parse_agrees_occursIn (ht : t.isAllBlank = false) :
    (occursIn (.text t) = false ↔ ∃ e, parse (.text t) = .error e ∧ e.line = none ∧
      e.cause.message = "No CREATE TABLE statements found in the provided SQL".toList) ∧
    (occursIn (.text t) = true →
      (∃ s ss, parse (.text t) = .ok (s :: ss)) ∨
      ∃ name line, (parse (.text t) =
          .error ((ParseCause.unbalancedParentheses name).onLine (some line)) ∨
        parse (.text t) = .error ((ParseCause.noColumns name).onLine (some line))) ∧
        1 ≤ line ∧ line ≤ newlines (cleaned t) + 1) := by
  rw [← Bool.not_eq_false, occursIn_eq_false_iff ht]
  obtain ⟨hnone, hparse⟩ | ⟨hsome, ⟨s, ss, hparse⟩ | ⟨e, hparse, hmem⟩⟩ := parse_cases ht
  · refine ⟨iff_of_true hnone ⟨_, hparse, rfl, rfl⟩, fun h => absurd hnone h⟩
  · refine ⟨iff_of_false hsome ?_, fun _ => Or.inl ⟨s, ss, hparse⟩⟩
    rintro ⟨e, herror, -⟩
    rw [hparse] at herror
    cases herror
  · obtain ⟨_, u, r, -, hat⟩ := exists_of_mem_findAllFrom hmem
    obtain ⟨name, line, hcause, hline⟩ := exists_of_at?_error hat
    refine ⟨iff_of_false hsome ?_, fun _ => Or.inr ⟨name, line, ?_, hline⟩⟩
    · -- A statement that is refused has a line.
      rintro ⟨e', herror, hno, -⟩
      obtain rfl := Except.error.inj (hparse.symm.trans herror)
      obtain rfl | rfl := hcause <;> cases hno
    · rw [hparse]
      exact hcause.imp (congrArg _) (congrArg _)

/-- The second statement is not closed, so it is detected and refused on its line, the third and
last of the cleaned text. -/
theorem parse_agrees_occursIn_unclosed :
    let sql : Text := "CREATE TABLE a (x INT);\r\n\rCREATE TABLE b (".toList
    sql.isAllBlank = false ∧ occursIn (.text sql) = true ∧ newlines (cleaned sql) + 1 = 3 ∧
    parse (.text sql) = .error ((ParseCause.unbalancedParentheses "b".toList).onLine (some 3)) ∧
    ∃ name line, (parse (.text sql) =
        .error ((ParseCause.unbalancedParentheses name).onLine (some line)) ∨
      parse (.text sql) = .error ((ParseCause.noColumns name).onLine (some line))) ∧
      1 ≤ line ∧ line ≤ newlines (cleaned sql) + 1 := by
  intro sql
  have hsolid : sql.isAllBlank = false := by decide
  have hoccurs : occursIn (.text sql) = true := by decide +kernel
  have hparse : parse (.text sql) =
      .error ((ParseCause.unbalancedParentheses "b".toList).onLine (some 3)) := by decide +kernel
  refine ⟨hsolid, hoccurs, by decide, hparse, ?_⟩
  refine ((parse_agrees_occursIn hsolid).2 hoccurs).resolve_left ?_
  rintro ⟨s, ss, hread⟩
  rw [hparse] at hread
  cases hread

end Statement

end TableTypes
