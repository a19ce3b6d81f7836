import TableTypes.Proofs.Text.Case
import TableTypes.Proofs.Text.Reader
import TableTypes.TypeMap.Normal

/-!
# Marks in normal forms

The normal form of a type is what is left of it, in lower case and with single spaces, so it has no
more of any mark than the type (`count_normalType_le`).  The element type of an array has fewer
closing brackets than the array (`count_elementType_lt`), hence no form of it is the array type
itself.
-/

namespace TableTypes

open Text

/-! ### What is left of a text -/

theorem Text.strip_sublist (t : Text) : (strip t).Sublist t := by
  obtain ⟨l, r, ht, -⟩ := strip_split t
  have hmiddle : (strip t).Sublist (l ++ (strip t ++ r)) :=
    (List.sublist_append_left (strip t) r).trans (List.sublist_append_right l _)
  rwa [← ht] at hmiddle

/-- When matches are taken out, the rest of the text is left. -/
theorem Text.replaceFrom_nil_sublist (m : Text → Option Text) (t : Text) :
    ∀ skip, (replaceFrom m [] skip t).Sublist t := by
  induction t with
  | nil => exact fun skip => by cases skip <;> exact List.Sublist.slnil
  | cons c t ih =>
    intro skip
    cases skip with
    | succ skip => exact (ih skip).cons c
    | zero =>
      rw [replaceFrom]
      split
      · rw [List.nil_append]
        exact (ih _).cons c
      · exact (ih 0).cons_cons c

theorem dropSign_sublist (t : Text) : (dropSign t).Sublist t := by
  rw [dropSign]
  split
  · exact List.take_sublist _ t
  · exact List.Sublist.refl t

/-! ### Marks -/

variable {x : Char}

theorem Text.count_collapseBlanks (hx : isBlank x = false) (t : Text) :
    (collapseBlanks t).count x = t.count x := by
  -- A blank is no mark, and neither is the space that is written for it.
  have hblank : ∀ {c : Char} (u : Text), isBlank c = true → (c :: u).count x = u.count x :=
    fun u hc => List.count_cons_of_ne (ne_of_isBlank hx hc)
  fun_induction collapseBlanks t with
  | case1 => rfl
  | case2 c hc => rw [hblank [] hc, hblank [] (by decide)]
  | case3 c hc => rfl
  | case4 c d t hc hd ih => rw [ih, hblank _ hc]
  | case5 c d t hc hd ih => rw [hblank _ (by decide), ih, hblank _ hc]
  | case6 c d t hc ih => rw [List.count_cons, ih, ← List.count_cons]

theorem count_normalType_le (hx : isCaseless x = true) (hblank : isBlank x = false) (t : Text) :
    (normalType t).count x ≤ t.count x := by
  rw [normalType]
  calc (strip (dropSign (strip (collapseBlanks (replaceAll size? [] (lower (strip t))))))).count x
    _ ≤ (dropSign (strip (collapseBlanks (replaceAll size? [] (lower (strip t)))))).count x :=
        (strip_sublist _).count_le x
    _ ≤ (strip (collapseBlanks (replaceAll size? [] (lower (strip t))))).count x :=
        (dropSign_sublist _).count_le x
    _ ≤ (collapseBlanks (replaceAll size? [] (lower (strip t)))).count x :=
        (strip_sublist _).count_le x
    _ = (replaceAll size? [] (lower (strip t))).count x := count_collapseBlanks hblank _
    _ ≤ (lower (strip t)).count x := (replaceFrom_nil_sublist size? _ 0).count_le x
    _ = (strip t).count x := count_lower hx _
    _ ≤ t.count x := (strip_sublist t).count_le x

theorem count_firstWord_le (t : Text) : (firstWord t).count x ≤ t.count x :=
  (List.takeWhile_sublist _).count_le x

/-! ### Arrays -/

/-- A pair of brackets is taken off with its closing bracket. -/
theorem count_reversedBounds?_lt {t r : Text} (h : reversedBounds? t = some r) :
    r.count ']' < t.count ']' := by
  unfold reversedBounds? at h
  split at h
  · rename_i t
    split at h
    · rename_i s hs
      obtain rfl := Option.some.inj h
      rw [List.count_cons_self, Nat.lt_succ_iff]
      -- What is left stands behind the opening bracket.
      have hrest : ('[' :: s).Sublist t := by
        rw [← hs]
        exact (List.dropWhile_sublist _).trans
          ((List.dropWhile_sublist _).trans (List.dropWhile_sublist _))
      exact ((List.dropWhile_sublist _).trans ((List.sublist_cons_self '[' s).trans hrest)).count_le
        ']'
    · cases h
  · cases h

theorem count_manyUpTo_bounds (n : Nat) : ∀ t : Text,
    let bounds := manyUpTo (fun s => (reversedBounds? s).map ((), ·)) n t
    bounds.2.count ']' + bounds.1.length ≤ t.count ']' := by
  induction n with
  | zero => exact fun t => Nat.le_refl _
  | succ n ih =>
    intro t
    rw [manyUpTo]
    cases hr : reversedBounds? t with
    | none => exact Nat.le_refl _
    | some r =>
      have hlt := count_reversedBounds?_lt hr
      have hrest := ih r
      dsimp only [Option.map_some]
      split_ifs
      · simp only [List.length_cons]
        omega
      · exact Nat.le_refl _

/-- The type of the elements has fewer closing brackets than the array. -/
theorem count_elementType_lt {t : Text} (h : (elementType t).2 ≠ 0) :
    (elementType t).1.count ']' < t.count ']' := by
  have hbounds := count_manyUpTo_bounds t.reverse.length t.reverse
  rw [List.count_reverse] at hbounds
  rw [elementType] at h ⊢
  rw [many] at h ⊢
  dsimp only at h hbounds ⊢
  rw [List.count_reverse]
  omega

end TableTypes
