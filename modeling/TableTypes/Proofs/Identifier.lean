import TableTypes.Identifier
import TableTypes.Proofs.Text.Word

/-!
# Bare names and lists in parentheses

A word of ASCII letters, digits and underscores is read as the name it is (`NameSpan.read?_word`),
and what stands between two parentheses as the text up to the first closing one
(`parenthesized?_paren`).
-/

namespace TableTypes

open Text

/-- A bare name at the front of a text. -/
theorem NameSpan.read?_word {w s : Text} (hne : w ≠ []) (hw : ∀ c ∈ w, isAsciiWord c = true)
    (hs : atWordEnd s = true) : NameSpan.read? (w ++ s) = some ⟨w ++ s, s, s⟩ := by
  obtain ⟨c, v, rfl⟩ := List.exists_cons_of_ne_nil hne
  have hc : isAsciiWord c = true := hw c List.mem_cons_self
  have hquote : (decide (c = '\x60') || decide (c = '"')) = false := by
    simp only [Bool.or_eq_false_iff, decide_eq_false_iff_not]
    constructor
    · rintro rfl; exact absurd hc (by decide)
    · rintro rfl; exact absurd hc (by decide)
  rw [List.cons_append, read?, hquote, ← List.cons_append, word?_append hne hw hs]
  rfl

theorem NameSpan.name_word (w s : Text) : NameSpan.name ⟨w ++ s, s, s⟩ = w := by
  have h : between ([] ++ w ++ s) (w ++ s) s = w := between_append [] w s List.length_append rfl
  rwa [List.nil_append] at h

theorem parenthesized?_of_ne {c : Char} (hc : c ≠ '(') (t : Text) :
    parenthesized? (c :: t) = none := by
  rw [parenthesized?]
  rintro r ⟨⟩
  exact hc rfl

theorem parenthesized?_paren {x : Text} (hx : ')' ∉ x) (r : Text) :
    parenthesized? ('(' :: (x ++ ')' :: r)) =
      if x = [] then none else some (x ++ ')' :: r, ')' :: r, r) := by
  rw [parenthesized?, dropWhile_ne hx]
  cases x with
  | nil => rfl
  | cons c x =>
    have hc : (c :: x ++ ')' :: r).head? ≠ some ')' :=
      fun h => hx (Option.some.inj h ▸ List.mem_cons_self)
    exact if_neg hc

theorem parenthesized?_suffix {t first last r : Text}
    (h : parenthesized? t = some (first, last, r)) : first <:+ t := by
  unfold parenthesized? at h
  split at h
  · rename_i s
    split at h
    · split at h
      · cases h
      · simp only [Option.some.injEq, Prod.mk.injEq] at h
        exact h.1 ▸ List.suffix_cons '(' s
    · cases h
  · cases h

end TableTypes
