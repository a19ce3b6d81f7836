import TableTypes.Proofs.Scan.Piece

/-!
# The parenthesis that closes a text

A text that closes what it opens can be put in parentheses: the one in front of it is then closed
by the one behind it (`closing?_enclosed`).
-/

namespace TableTypes

/-- The text closes every parenthesis, quote and comment it opens, and no parenthesis before it:
the depth is never negative, and at its end the scan is back in code at depth zero. -/
structure IsClosed (t : Text) : Prop where
  nonneg : ∀ m ∈ scan true t, 0 ≤ m.depth
  ends : ∀ m ∈ (scan true t).getLast?, m.depth = 0 ∧ m.region = .code

namespace IsClosed

variable {t : Text}

theorem isLevel (h : IsClosed t) : IsLevel true t :=
  IsLevel.of_getLast? fun m hm => (h.ends m hm).symm

theorem seals (h : IsClosed t) {c : Char} (b : Text)
    (hc : Quote.ofChar? c = none ∧ c ≠ '-' ∧ c ≠ '*') : Seals true t (c :: b) :=
  Seals.of_head h.isLevel.place rfl hc

/-- The parenthesis in front of a closed text is closed by the one behind it. -/
theorem closing?_enclosed (h : IsClosed t) (rest : Text) :
    closing? ('(' :: (t ++ ')' :: rest)) = some (t.length + 1) := by
  have hopen : scan true ('(' :: (t ++ ')' :: rest)) =
      ⟨'(', .code, 1⟩ :: (scan true (t ++ ')' :: rest)).map (Mark.lift 1) :=
    scan_append (Seals.of_plain (a := ['(']) rfl)
  have hclose : scan true (')' :: rest) =
      ⟨')', .code, -1⟩ :: (scan true rest).map (Mark.lift (-1)) :=
    scan_append (Seals.of_plain (a := [')']) rfl)
  have hinside : ∀ m ∈ (scan true t).map (Mark.lift 1),
      (decide (m.char = ')') && m.isTopLevel) = false := by
    intro m hm
    obtain ⟨n, hn, rfl⟩ := List.mem_map.mp hm
    have := h.nonneg n hn
    have hne : n.depth + 1 ≠ 0 := by omega
    simp [Mark.isTopLevel, hne]
  rw [closing?, hopen, scan_append (h.seals rest (by decide)), h.isLevel.depth, hclose,
    List.map_append, List.findIdx?_cons, List.findIdx?_append,
    List.findIdx?_eq_none_iff.mpr hinside]
  simp [Mark.isTopLevel, Mark.lift, scan_eq_marks, List.findIdx?_cons]

end IsClosed

end TableTypes
