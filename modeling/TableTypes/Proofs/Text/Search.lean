import TableTypes.Text.Search

/-!
# Searching a text piece by piece

A search over `u ++ t` passes over `u` where the matcher succeeds nowhere in it
(`findAllFrom_pass`), and goes on behind a match that takes up all of `u` (`findAllFrom_hit`).

`Found` describes the whole run of a search by positions: every match stands in the text
(`Found.exists_of_mem`), the matches do not overlap (`Found.pairwise`), and where the matcher could
succeed there is one of them (`Found.exists_covering`).
-/

namespace TableTypes.Text

variable {α : Type} {m : Option Char → Text → Option (α × Text)}

/-- The character in front of what follows `u`, if `before` is the one in front of `c` and `u`. -/
theorem getLast?_cons_or (c : Char) (u : Text) (before : Option Char) :
    (c :: u).getLast?.or before = u.getLast?.or (some c) := by
  rw [List.getLast?_cons]
  cases u.getLast? <;> rfl

theorem findAllFrom_skip (u t : Text) : ∀ before : Option Char,
    findAllFrom m u.length before (u ++ t) = findAllFrom m 0 (u.getLast?.or before) t := by
  induction u with
  | nil => intro before; rfl
  | cons c u ih =>
    intro before
    rw [List.length_cons, List.cons_append, findAllFrom, ih, getLast?_cons_or]

/-- Characters at which the matcher never succeeds are passed over. -/
theorem findAllFrom_pass (u t : Text)
    (h : ∀ c ∈ u, ∀ (before : Option Char) (r : Text), m before (c :: r) = none) :
    ∀ before : Option Char,
      findAllFrom m 0 before (u ++ t) = findAllFrom m 0 (u.getLast?.or before) t := by
  induction u with
  | nil => intro before; rfl
  | cons c u ih =>
    intro before
    have hc := h c List.mem_cons_self before (u ++ t)
    rw [List.cons_append, findAllFrom, hc]
    show findAllFrom m 0 (some c) (u ++ t) = _
    rw [ih (fun x hx => h x (List.mem_cons_of_mem c hx)), getLast?_cons_or]

/-- A match takes its piece out of the text. -/
theorem findAllFrom_hit {a : α} {before : Option Char} (c : Char) (u t : Text)
    (h : m before (c :: (u ++ t)) = some (a, t)) :
    findAllFrom m 0 before (c :: (u ++ t)) = a :: findAllFrom m 0 (u.getLast?.or (some c)) t := by
  rw [findAllFrom, h]
  show a :: findAllFrom m ((u ++ t).length - t.length) (some c) (u ++ t) = _
  rw [List.length_append, Nat.add_sub_cancel, findAllFrom_skip]

/-- What is found is read somewhere in the text. -/
theorem exists_of_mem_findAllFrom {a : α} {skip : Nat} {before : Option Char} {t : Text}
    (h : a ∈ findAllFrom m skip before t) : ∃ b s r, s <:+ t ∧ m b s = some (a, r) := by
  have hcons : ∀ {c : Char} {t : Text}, (∃ b s r, s <:+ t ∧ m b s = some (a, r)) →
      ∃ b s r, s <:+ c :: t ∧ m b s = some (a, r) := fun ⟨b, s, r, hs, hm⟩ =>
    ⟨b, s, r, hs.trans (List.suffix_cons _ _), hm⟩
  fun_induction findAllFrom m skip before t with
  | case1 => exact absurd h List.not_mem_nil
  | case2 _ _ _ _ ih => exact hcons (ih h)
  | case3 before c t b r hm ih =>
    rcases List.mem_cons.mp h with rfl | h
    · exact ⟨before, c :: t, r, List.suffix_rfl, hm⟩
    · exact hcons (ih h)
  | case4 _ _ _ _ ih => exact hcons (ih h)

/-! ### Texts without a match -/

/-- No match of `f` begins at any character of the text. -/
def Absent (f : Text → Option α) (t : Text) : Prop :=
  ∀ u, u ≠ [] → u <:+ t → f u = none

section

variable {f : Text → Option α} {c : Char} {t : Text}

theorem absent_nil (f : Text → Option α) : Absent f [] :=
  fun _ hne hu => absurd (List.suffix_nil.mp hu) hne

theorem absent_cons : Absent f (c :: t) ↔ f (c :: t) = none ∧ Absent f t := by
  constructor
  · intro h
    refine ⟨h _ (List.cons_ne_nil c t) List.suffix_rfl, fun u hne hu => ?_⟩
    exact h u hne (hu.trans (List.suffix_cons c t))
  · rintro ⟨hfront, hrest⟩ u hne hu
    rcases List.suffix_cons_iff.mp hu with rfl | hu
    · exact hfront
    · exact hrest u hne hu

/-- A search for the first match finds nothing exactly if there is no match. -/
theorem find?_eq_none_iff (hnil : f [] = none) : find? (fun _ => f) t = none ↔ Absent f t := by
  rw [find?]
  generalize (none : Option Char) = before
  induction t generalizing before with
  | nil => simp [suffixes, hnil, absent_nil]
  | cons c t ih =>
    rw [absent_cons, suffixes, List.findSome?_cons]
    cases h : f (c :: t) with
    | none => simp [ih]
    | some a => simp

/-- So does a search for all matches. -/
theorem findAll_eq_nil_iff {f : Text → Option (α × Text)} :
    findAll (fun _ => f) t = [] ↔ Absent f t := by
  rw [findAll]
  generalize (none : Option Char) = before
  induction t generalizing before with
  | nil => exact iff_of_true (by rw [findAllFrom]) (absent_nil f)
  | cons c t ih =>
    rw [absent_cons, findAllFrom]
    cases h : f (c :: t) with
    | none => simp [ih]
    | some p => simp

end

/-! ### The run of a search -/

/-- A matcher that leaves over a proper suffix of the text it is applied to. -/
def Consumes (m : Text → Option (α × Text)) : Prop :=
  ∀ {t r : Text} {a : α}, m t = some (a, r) → r <:+ t ∧ r.length < t.length

/-- `Found m t i as`: a search for `m` in `t` that has come to position `i` goes on to find `as`. -/
inductive Found (m : Text → Option (α × Text)) (t : Text) : Nat → List α → Prop
  | done {i : Nat} (hi : t.length ≤ i) : Found m t i []
  | pass {i : Nat} {as : List α} (hi : i < t.length) (h : m (t.drop i) = none)
      (rest : Found m t (i + 1) as) : Found m t i as
  | hit {i j : Nat} {a : α} {as : List α} (hij : i < j) (hj : j ≤ t.length)
      (h : m (t.drop i) = some (a, t.drop j)) (rest : Found m t j as) : Found m t i (a :: as)

section

variable {f : Text → Option (α × Text)} {t : Text}

/-- What a match leaves over is given by a position behind it. -/
theorem Consumes.exists_stop (hf : Consumes f) {i : Nat} {a : α} {r : Text}
    (h : f (t.drop i) = some (a, r)) : ∃ j, i < j ∧ j ≤ t.length ∧ r = t.drop j := by
  obtain ⟨⟨u, hu⟩, hlength⟩ := hf h
  have hadd : u.length + r.length = t.length - i := by
    rw [← List.length_append, hu, List.length_drop]
  rw [List.length_drop] at hlength
  refine ⟨i + u.length, by omega, by omega, ?_⟩
  rw [← List.drop_drop, ← hu, List.drop_left]

theorem findAllFrom_drop {i j : Nat} (hij : i < j) (hj : j ≤ t.length) (before : Option Char)
    {c : Char} {u : Text} (hu : t.drop i = c :: u) : ∃ last : Option Char,
      findAllFrom (fun _ => f) (u.length - (t.drop j).length) before u =
        findAllFrom (fun _ => f) 0 last (t.drop j) := by
  have hlength : u.length + 1 = t.length - i := by rw [← List.length_drop, hu, List.length_cons]
  have hdrop : u.drop (j - i - 1) = t.drop j := by
    have h : (c :: u).drop (j - i - 1 + 1) = t.drop j := by
      rw [← hu, List.drop_drop]
      congr 1
      omega
    exact h
  have hskip := findAllFrom_skip (m := fun _ => f) (u.take (j - i - 1)) (t.drop j) before
  rw [← hdrop, List.take_append_drop, List.length_take, hdrop] at hskip
  have heq : u.length - (t.drop j).length = min (j - i - 1) u.length := by
    rw [List.length_drop]
    omega
  rw [heq]
  exact ⟨_, hskip⟩

/-- The run of a search tells what the search returns. -/
theorem Found.findAllFrom_eq {i : Nat} {as : List α} (h : Found f t i as) :
    ∀ before : Option Char, findAllFrom (fun _ => f) 0 before (t.drop i) = as := by
  induction h with
  | done hi =>
    intro before
    rw [List.drop_eq_nil_of_le hi, findAllFrom]
  | @pass i as hi h _ ih =>
    intro before
    rw [List.drop_eq_getElem_cons hi] at h ⊢
    rw [findAllFrom, h]
    exact ih _
  | @hit i j a as hij hj h _ ih =>
    intro before
    have hu := List.drop_eq_getElem_cons (Nat.lt_of_lt_of_le hij hj)
    obtain ⟨last, hlast⟩ := findAllFrom_drop (f := f) hij hj (some t[i]) hu
    rw [hu] at h ⊢
    rw [findAllFrom, h]
    show a :: findAllFrom _ _ _ _ = _
    rw [hlast, ih]

/-- Every search runs to the end of the text.  The recursion follows the search, which leaps behind
each match. -/
theorem exists_found (hf : Consumes f) (t : Text) (i : Nat) : ∃ as, Found f t i as := by
  by_cases hi : t.length ≤ i
  · exact ⟨[], .done hi⟩
  · have hlt : i < t.length := Nat.lt_of_not_le hi
    cases h : f (t.drop i) with
    | none =>
      obtain ⟨as, has⟩ := exists_found hf t (i + 1)
      exact ⟨as, .pass hlt h has⟩
    | some p =>
      obtain ⟨a, r⟩ := p
      obtain ⟨j, hij, hj, rfl⟩ := hf.exists_stop h
      obtain ⟨as, has⟩ := exists_found hf t j
      exact ⟨a :: as, .hit hij hj h has⟩
termination_by t.length - i

/-- **A search is a run from the front of the text.** -/
theorem found_findAll (hf : Consumes f) (t : Text) : Found f t 0 (findAll (fun _ => f) t) := by
  obtain ⟨as, has⟩ := exists_found hf t 0
  have heq := has.findAllFrom_eq none
  rw [List.drop_zero] at heq
  rwa [findAll, heq]

namespace Found

variable {i : Nat} {as : List α}

/-- What is found stands in the text, from some position to another. -/
theorem exists_of_mem (h : Found f t i as) {a : α} (ha : a ∈ as) :
    ∃ k j, i ≤ k ∧ k < j ∧ j ≤ t.length ∧ f (t.drop k) = some (a, t.drop j) := by
  induction h with
  | done => exact absurd ha List.not_mem_nil
  | pass _ _ _ ih =>
    obtain ⟨k, j, hk, hkj⟩ := ih ha
    exact ⟨k, j, by omega, hkj⟩
  | @hit i j b as hij hj h _ ih =>
    rcases List.mem_cons.mp ha with rfl | ha
    · exact ⟨i, j, Nat.le_refl i, hij, hj, h⟩
    · obtain ⟨k, l, hk, hkl⟩ := ih ha
      exact ⟨k, l, by omega, hkl⟩

/-- What is found later stands behind what is found before it. -/
theorem pairwise {R : α → α → Prop} (h : Found f t i as)
    (hR : ∀ {k j k' j' : Nat} {a b : α}, f (t.drop k) = some (a, t.drop j) →
      f (t.drop k') = some (b, t.drop j') → k < j → j ≤ k' → k' < j' → j' ≤ t.length → R a b) :
    as.Pairwise R := by
  induction h with
  | done => exact List.Pairwise.nil
  | pass _ _ _ ih => exact ih
  | hit hij _ hat rest ih =>
    refine List.Pairwise.cons (fun b hb => ?_) ih
    obtain ⟨k, l, hk, hkl, hl, hb⟩ := rest.exists_of_mem hb
    exact hR hat hb hij hk hkl hl

/-- A matcher that succeeds where another does, with values that depend on those of the other, finds
these values. -/
theorem map {β : Type} {g : Text → Option (β × Text)} {v : α → β} (h : Found f t i as)
    (hnone : ∀ k, f (t.drop k) = none → g (t.drop k) = none)
    (hsome : ∀ {k j : Nat} {a : α}, a ∈ as → f (t.drop k) = some (a, t.drop j) →
      g (t.drop k) = some (v a, t.drop j)) : Found g t i (as.map v) := by
  induction h with
  | done hi => exact .done hi
  | pass hi hat _ ih => exact .pass hi (hnone _ hat) (ih hsome)
  | hit hij hj hat _ ih =>
    exact .hit hij hj (hsome List.mem_cons_self hat)
      (ih fun ha => hsome (List.mem_cons_of_mem _ ha))

theorem eq_nil (h : Found f t i as) (hi : t.length ≤ i) : as = [] := by
  cases h with
  | done => rfl
  | pass hlt => omega
  | hit hij hj => omega

/-- Positions at which the matcher does not succeed are passed over. -/
theorem of_none {j : Nat} (hij : i ≤ j) (hj : j ≤ t.length)
    (hnone : ∀ k, i ≤ k → k < j → f (t.drop k) = none) (rest : Found f t j as) :
    Found f t i as := by
  obtain ⟨d, rfl⟩ := Nat.exists_eq_add_of_le hij
  induction d generalizing i with
  | zero => exact rest
  | succ d ih =>
    have hnext : i + (d + 1) = i + 1 + d := by omega
    rw [hnext] at rest
    refine .pass (by omega) (hnone i (Nat.le_refl i) (by omega)) (ih (by omega) (by omega) ?_ rest)
    exact fun k hk hkd => hnone k (by omega) (by omega)

/-- Where the matcher could succeed, there is a match that begins there or reaches over it. -/
theorem exists_covering (h : Found f t i as) {k : Nat} (hik : i ≤ k) (hk : k < t.length)
    (hat : f (t.drop k) ≠ none) :
    ∃ a ∈ as, ∃ l j, f (t.drop l) = some (a, t.drop j) ∧ j ≤ t.length ∧ l ≤ k ∧ k < j := by
  induction h with
  | done hi => omega
  | @pass i as _ hnone _ ih =>
    have hne : i ≠ k := by
      rintro rfl
      exact hat hnone
    exact ih (by omega)
  | @hit i j a as hij hj h _ ih =>
    by_cases hjk : j ≤ k
    · obtain ⟨b, hb, hcover⟩ := ih hjk
      exact ⟨b, List.mem_cons_of_mem a hb, hcover⟩
    · exact ⟨a, List.mem_cons_self, i, j, h, hj, hik, by omega⟩

end Found

end

end TableTypes.Text
