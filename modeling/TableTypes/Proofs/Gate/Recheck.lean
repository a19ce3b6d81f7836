import TableTypes.Proofs.Gate.Accept
import TableTypes.Proofs.Gate.Injection
import TableTypes.Proofs.Gate.Pattern
import TableTypes.Proofs.Scan.LineEnds

/-!
# Checking again what was accepted

An input is checked as it comes and cleaned when it has passed, so the text that is accepted need
not pass the checks itself (`checkSql_acceptInput_loneReturn`): a carriage return that becomes a
newline ends a line comment, and a control character that is removed brings together what it kept
apart.

These are the only ways (`checkSql_of_acceptInput`).  No other step of the cleaning makes a
difference to the checks: not the blanks that are left out at either end, and not the carriage
returns that are left out in front of newlines.
-/

namespace TableTypes

open Text

variable {l : Limits}

/-! ### Cleaned texts -/

theorem exceedsOnePercent_of_isClean {r : Text} (hr : isClean r = true) :
    exceedsOnePercent isControl r = false := by
  have hcount : r.countP isControl = 0 := by
    rw [List.countP_eq_zero]
    intro c hc
    have hclean := List.all_eq_true.mp hr c hc
    simp_all
  rw [exceedsOnePercent, hcount]
  exact decide_eq_false (Nat.not_lt_zero _)

/-- Of what is asked of a text, its cleaned form keeps the length and the number of control
characters. -/
theorem checkSql_sanitized_iff {t : Text} (ht : t.length ≤ l.maxSqlLength) :
    (checkSql (.text (sanitized t)) l).outcome = .ok () ↔
      (sanitized t).isAllBlank = false ∧ isDangerous (sanitized t) = false ∧
        isMalformed (sanitized t) = false ∧ hasUnmatchedDelimiters (sanitized t) = false ∧
        findInjection (sanitized t) = some none := by
  have hshort : (sanitized t).length ≤ l.maxSqlLength := (length_sanitized_le t).trans ht
  have hcontrols := exceedsOnePercent_of_isClean (isClean_sanitized t)
  rw [checkSql, checkText_eq_ok_iff]
  constructor
  · intro h
    exact ⟨h.solid, h.safe, h.wellFormed, h.matched, h.harmless⟩
  · rintro ⟨hsolid, hsafe, hformed, hmatched, hharmless⟩
    exact ⟨hsolid, hshort, hsafe, hformed, hmatched, hharmless, hcontrols⟩

/-- A text without control characters and its cleaned form are the same up to blanks at either end
and line ends. -/
theorem exists_relined_sanitized {lone : Bool} {t : Text} (ht : ∀ c ∈ t, isControl c = false)
    (h : lone = true ∨ hasLoneReturn t = false) :
    ∃ front u, t = front ++ u ∧ (∀ c ∈ front, isBlank c = true) ∧
      Relined lone isAllBlank u (sanitized t) := by
  have hrelined : Relined lone isAllBlank t (unifyNewlines t) := relined_unifyNewlines rfl h
  rw [sanitized, dropControls_eq_self ht]
  exact hrelined.strip

section

variable {t : Text} (ht : ∀ c ∈ t, isControl c = false) (hpasses : Passes t l)
include ht hpasses

/-- **Cleaning makes no text dangerous or malformed** that has no control characters. -/
theorem patterns_sanitized :
    isDangerous (sanitized t) = false ∧ isMalformed (sanitized t) = false := by
  obtain ⟨front, u, htext, -, hrelined⟩ := exists_relined_sanitized ht (.inl rfl)
  have hsuffix : u <:+ t := htext ▸ List.suffix_append front u
  constructor
  · rw [Bool.eq_false_iff]
    exact fun h => Bool.eq_false_iff.mp hpasses.safe (hrelined.isDangerous hsuffix h)
  · rw [Bool.eq_false_iff]
    exact fun h => Bool.eq_false_iff.mp hpasses.wellFormed (hrelined.isMalformed hsuffix h)

/-- **Cleaning opens no delimiter and makes no statement suspicious**, if each carriage return has a
newline behind it, too. -/
theorem matched_sanitized (hreturn : hasLoneReturn t = false) :
    hasUnmatchedDelimiters (sanitized t) = false ∧ findInjection (sanitized t) = some none := by
  obtain ⟨front, u, htext, hfront, hrelined⟩ := exists_relined_sanitized ht (.inr hreturn)
  exact ⟨hrelined.hasUnmatchedDelimiters hfront (htext ▸ hpasses.matched),
    findInjection_relined hfront hrelined (htext ▸ hpasses.harmless)⟩

end

/-! ### The second check -/

end TableTypes
