import TableTypes.Proofs.Text.Word
import TableTypes.Text.Clean

/-!
# Cleaned texts

A text without control characters and carriage returns is left as it is by cleaning (`isClean`), and
what has been cleaned is such a text.  Writing line ends as newlines keeps a text blank or solid,
and makes it no longer.
-/

namespace TableTypes

open Text

/-- Whether cleaning leaves the text as it is. -/
def isClean (t : Text) : Bool :=
  t.all fun c => !isControl c && c ≠ '\r'

theorem unifyNewlines_eq_self {t : Text} (ht : '\r' ∉ t) : unifyNewlines t = t := by
  induction t with
  | nil => rfl
  | cons c t ih =>
    have hc : c ≠ '\r' := fun h => ht (h ▸ List.mem_cons_self)
    have hrest := ih fun h => ht (List.mem_cons_of_mem c h)
    rw [unifyNewlines, hrest, if_neg hc]
    intro _ h
    exact absurd h hc

theorem cleaned_eq_self {t : Text} (ht : isClean t = true) : cleaned t = t := by
  simp only [isClean, List.all_eq_true, Bool.and_eq_true, Bool.not_eq_true', decide_eq_true_eq]
    at ht
  rw [cleaned, unifyNewlines_eq_self fun h => (ht _ h).2 rfl, dropControls, List.filter_eq_self]
  intro c hc
  rw [(ht c hc).1]
  rfl

theorem not_mem_unifyNewlines (t : Text) : '\r' ∉ unifyNewlines t := by
  fun_induction unifyNewlines t with
  | case1 => exact List.not_mem_nil
  | case2 t ih =>
    intro h
    rcases List.mem_cons.mp h with h | h
    · cases h
    · exact ih h
  | case3 c t _ ih =>
    intro h
    rcases List.mem_cons.mp h with h | h
    · split at h
      · cases h
      · rename_i hc
        exact hc h.symm
    · exact ih h

theorem isClean_cleaned (t : Text) : isClean (cleaned t) = true := by
  rw [isClean, List.all_eq_true]
  intro c hc
  obtain ⟨hmem, hcontrol⟩ := List.mem_filter.mp hc
  have hreturn : c ≠ '\r' := fun h => not_mem_unifyNewlines t (h ▸ hmem)
  rw [hcontrol, Bool.true_and]
  exact decide_eq_true hreturn

/-- A piece of a cleaned text is left as it is. -/
theorem cleaned_eq_self_of_subset {t x : Text} (hx : x ⊆ cleaned t) : cleaned x = x := by
  apply cleaned_eq_self
  rw [isClean, List.all_eq_true]
  exact fun c hc => List.all_eq_true.mp (isClean_cleaned t) c (hx hc)

theorem isClean_append (a b : Text) : isClean (a ++ b) = (isClean a && isClean b) :=
  List.all_append

theorem isClean_of_isAsciiWord {t : Text} (ht : ∀ c ∈ t, isAsciiWord c = true) :
    isClean t = true := by
  rw [isClean, List.all_eq_true]
  intro c hc
  have hne : c ≠ '\r' := fun h => absurd (h ▸ ht c hc) (by decide)
  have hword := isAsciiWord_iff.mp (ht c hc)
  have hcontrol : isControl c = false := by
    simp only [isControl, Bool.or_eq_false_iff, Bool.and_eq_false_iff, decide_eq_false_iff_not]
    omega
  simp [hcontrol, hne]

/-! ### Line ends -/

theorem mem_of_mem_unifyNewlines {c : Char} {t : Text} (h : c ∈ unifyNewlines t) :
    c ∈ t ∨ c = '\n' := by
  fun_induction unifyNewlines t with
  | case1 => exact absurd h List.not_mem_nil
  | case2 t ih =>
    rcases List.mem_cons.mp h with h | h
    · exact Or.inr h
    · exact (ih h).imp_left fun h => List.mem_cons_of_mem _ (List.mem_cons_of_mem _ h)
  | case3 d t _ ih =>
    rcases List.mem_cons.mp h with h | h
    · split at h
      · exact Or.inr h
      · exact Or.inl (h ▸ List.mem_cons_self)
    · exact (ih h).imp_left (List.mem_cons_of_mem d)

theorem length_unifyNewlines_le (t : Text) : (unifyNewlines t).length ≤ t.length := by
  fun_induction unifyNewlines t with
  | case1 => exact Nat.le_refl 0
  | case2 t ih =>
    simp only [List.length_cons]
    omega
  | case3 c t _ ih =>
    simp only [List.length_cons]
    omega

/-- The line ends are blanks, however they are written. -/
theorem isAllBlank_unifyNewlines (t : Text) : isAllBlank (unifyNewlines t) = isAllBlank t := by
  fun_induction unifyNewlines t with
  | case1 => rfl
  | case2 t ih =>
    simp only [isAllBlank, List.all_cons] at ih ⊢
    rw [ih]
    rfl
  | case3 c t _ ih =>
    simp only [isAllBlank, List.all_cons] at ih ⊢
    rw [ih]
    split
    · rename_i hc
      rw [hc]
      rfl
    · rfl

/-! ### Parts of a text -/

/-- Two parts are written with newlines one by one, unless the second begins with a newline. -/
theorem unifyNewlines_append (x : Text) {y : Text} (hy : y.head? ≠ some '\n') :
    unifyNewlines (x ++ y) = unifyNewlines x ++ unifyNewlines y := by
  fun_induction unifyNewlines x with
  | case1 => rfl
  | case2 t ih => rw [List.cons_append, List.cons_append, unifyNewlines, ih, List.cons_append]
  | case3 c t hpair ih =>
    have hpair' : ∀ s : Text, c = '\r' → t ++ y = '\n' :: s → False := by
      intro s hc hs
      cases t with
      | nil => exact hy (congrArg List.head? hs)
      | cons d t =>
        rw [List.cons_append, List.cons.injEq] at hs
        exact hpair t hc (hs.1 ▸ rfl)
    rw [List.cons_append, unifyNewlines.eq_3 c (t ++ y) hpair', ih, List.cons_append]

/-- Each part of a text with newlines only is written for a part of the text. -/
theorem exists_of_unifyNewlines {t x y : Text} (h : unifyNewlines t = x ++ y) :
    ∃ u v, t = u ++ v ∧ unifyNewlines u = x ∧ unifyNewlines v = y := by
  fun_induction unifyNewlines t generalizing x with
  | case1 =>
    obtain ⟨rfl, rfl⟩ := List.append_eq_nil_iff.mp h.symm
    exact ⟨[], [], rfl, rfl, rfl⟩
  | case2 t ih =>
    cases x with
    | nil => exact ⟨[], _, rfl, rfl, h⟩
    | cons d x =>
      obtain ⟨rfl, hrest⟩ := List.cons.inj h
      obtain ⟨u, v, rfl, rfl, rfl⟩ := ih hrest
      exact ⟨'\r' :: '\n' :: u, v, rfl, rfl, rfl⟩
  | case3 c t hpair ih =>
    cases x with
    | nil => exact ⟨[], c :: t, rfl, rfl, (unifyNewlines.eq_3 c t hpair).trans h⟩
    | cons d x =>
      obtain ⟨rfl, hrest⟩ := List.cons.inj h
      obtain ⟨u, v, rfl, rfl, rfl⟩ := ih hrest
      refine ⟨c :: u, v, rfl, unifyNewlines.eq_3 c u ?_, rfl⟩
      rintro s hc rfl
      exact hpair (s ++ v) hc rfl

theorem cleaned_append (x : Text) {y : Text} (hy : y.head? ≠ some '\n') :
    cleaned (x ++ y) = cleaned x ++ cleaned y := by
  rw [cleaned, unifyNewlines_append x hy, dropControls, List.filter_append]
  rfl

theorem cleaned_cons {c : Char} (hc : isClean [c] = true) (t : Text) :
    cleaned (c :: t) = c :: cleaned t := by
  simp only [isClean, List.all_cons, List.all_nil, Bool.and_true, Bool.and_eq_true,
    decide_eq_true_eq] at hc
  have hpair : ∀ s : Text, c = '\r' → t = '\n' :: s → False := fun _ h => absurd h hc.2
  rw [cleaned, unifyNewlines.eq_3 c t hpair, if_neg hc.2, dropControls, List.filter_cons,
    if_pos hc.1]
  rfl

/-! ### Control characters -/

section

variable {t : Text} (ht : ∀ c ∈ t, isControl c = false)
include ht

theorem dropControls_eq_self : dropControls t = t := by
  rw [dropControls, List.filter_eq_self]
  intro c hc
  rw [ht c hc]
  rfl

/-- Without control characters only line ends are left to clean. -/
theorem cleaned_of_isControl : cleaned t = unifyNewlines t := by
  apply dropControls_eq_self
  intro c hc
  rcases mem_of_mem_unifyNewlines hc with hc | rfl
  · exact ht c hc
  · rfl

end

end TableTypes
