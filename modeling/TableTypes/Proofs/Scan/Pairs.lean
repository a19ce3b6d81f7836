import TableTypes.Proofs.Scan.Enclosed
import Mathlib.Order.Bounds.Basic

/-!
# Pairs of parentheses

The depth in front of a position goes up by one behind an opening parenthesis in code, down by one
behind a closing one, and stays otherwise (`depthBefore_opening`, `depthBefore_closing`,
`depthBefore_other`).  So it takes every value on its way up at an opening parenthesis
(`exists_opening_before`), and on its way down at a closing one (`exists_closing_behind`).

A parenthesis is closed where the depth first comes back to what it is in front of it
(`matchingParen?_eq_some_iff`).  So the scan that begins anew at a parenthesis finds the partner
that the scan of the whole text shows (`matchingParen?_restart`), and the depth is never negative and
ends at zero exactly if every parenthesis has one partner.
-/

namespace TableTypes

variable {t : Text}

/-! ### Parentheses in code -/

/-- The text has the character `c` at position `i`, marked as code. -/
def IsCodeAt (t : Text) (c : Char) (i : Nat) : Prop :=
  ∃ m, (scan true t)[i]? = some m ∧ m.char = c ∧ m.region = .code

/-- An opening parenthesis in code. -/
def IsOpening (t : Text) (i : Nat) : Prop :=
  IsCodeAt t '(' i

/-- A closing parenthesis in code. -/
def IsClosing (t : Text) (i : Nat) : Prop :=
  IsCodeAt t ')' i

/-- The parenthesis in code at position `o` is closed at position `c`. -/
def Paired (t : Text) (o c : Nat) : Prop :=
  IsOpening t o ∧ matchingParen? t o = some c

theorem IsCodeAt.drop {c : Char} {i : Nat} (h : IsCodeAt t c i) :
    ∃ r, t.drop i = c :: r := by
  obtain ⟨m, hm, rfl, -⟩ := h
  apply List.head?_eq_some_iff.mp
  rw [List.head?_drop, ← map_char_scan true t, List.getElem?_map, hm, Option.map_some]

theorem IsCodeAt.regionAt_eq {c : Char} {i : Nat} (h : IsCodeAt t c i) :
    regionAt t i = some .code := by
  obtain ⟨m, hm, -, hregion⟩ := h
  rw [regionAt, hm, Option.map_some, hregion]

theorem IsCodeAt.lt_length {c : Char} {i : Nat} (h : IsCodeAt t c i) : i < t.length := by
  obtain ⟨m, hm, -⟩ := h
  rw [← length_scan true t]
  exact (List.getElem?_eq_some_iff.mp hm).1

/-! ### The depth along a text -/

theorem depthBefore_zero : depthBefore t 0 = 0 :=
  rfl

/-- The depth of a mark is the depth in front of the next position. -/
theorem depthBefore_succ_eq {i : Nat} {m : Mark} (h : (scan true t)[i]? = some m) :
    depthBefore t (i + 1) = m.depth := by
  rw [depthBefore, List.take_add_one, h, Option.toList_some, List.getLast?_concat]
  rfl

/-- **One character** moves the depth by its weight in its region. -/
theorem depthBefore_succ {i : Nat} {m : Mark} (h : (scan true t)[i]? = some m) :
    depthBefore t (i + 1) = depthBefore t i + m.region.weight m.char := by
  rw [depthBefore_succ_eq h, depthBefore_eq]
  rw [← List.head?_drop, scan_drop] at h
  cases hdrop : t.drop i with
  | nil =>
    rw [hdrop] at h
    cases h
  | cons c r =>
    rw [hdrop] at h
    obtain rfl := Option.some.inj h
    rfl

theorem depthBefore_opening {o : Nat} (ho : IsOpening t o) :
    depthBefore t (o + 1) = depthBefore t o + 1 := by
  obtain ⟨m, hm, hchar, hregion⟩ := ho
  rw [depthBefore_succ hm, hchar, hregion]
  rfl

theorem depthBefore_closing {c : Nat} (hc : IsClosing t c) :
    depthBefore t (c + 1) = depthBefore t c - 1 := by
  obtain ⟨m, hm, hchar, hregion⟩ := hc
  rw [depthBefore_succ hm, hchar, hregion]
  rfl

theorem depthBefore_other {i : Nat} (ho : ¬ IsOpening t i) (hc : ¬ IsClosing t i) :
    depthBefore t (i + 1) = depthBefore t i := by
  cases hm : (scan true t)[i]? with
  | some m =>
    have hweight : m.region.weight m.char = 0 := by
      unfold Region.weight
      split_ifs with hregion hopen hclose
      · exact absurd ⟨m, hm, hopen, hregion⟩ ho
      · exact absurd ⟨m, hm, hclose, hregion⟩ hc
      · rfl
      · rfl
    rw [depthBefore_succ hm, hweight, Int.add_zero]
  | none => rw [depthBefore, depthBefore, List.take_add_one, hm, Option.toList_none,
      List.append_nil]

/-- **Up through every depth**: if the depth rises above `v` between two positions, then it does so
for good at an opening parenthesis. -/
theorem exists_opening_before {a b : Nat} {v : Int} (hab : a ≤ b) (ha : depthBefore t a ≤ v)
    (hb : v < depthBefore t b) :
    ∃ o, o < b ∧ IsOpening t o ∧ depthBefore t o = v ∧
      ∀ k, o < k → k ≤ b → v < depthBefore t k := by
  induction b, hab using Nat.le_induction with
  | base => omega
  | succ b hab ih =>
    by_cases hlow : v < depthBefore t b
    · obtain ⟨o, hob, ho, hdepth, habove⟩ := ih hlow
      refine ⟨o, by omega, ho, hdepth, fun k hok hkb => ?_⟩
      rcases Nat.le_succ_iff.mp hkb with hkb | rfl
      · exact habove k hok hkb
      · exact hb
    · -- The last step is the one upwards.
      have ho : IsOpening t b := by
        by_contra ho
        by_cases hc : IsClosing t b
        · have := depthBefore_closing hc
          omega
        · have := depthBefore_other ho hc
          omega
      have hstep := depthBefore_opening ho
      refine ⟨b, by omega, ho, by omega, fun k hbk hkb => ?_⟩
      obtain rfl : k = b + 1 := by omega
      exact hb

/-- **Down through every depth**: if the depth falls to `v` or below between two positions, then it
comes to `v` at a closing parenthesis. -/
theorem exists_closing_behind {a b : Nat} {v : Int} (hab : a ≤ b) (ha : v < depthBefore t a)
    (hb : depthBefore t b ≤ v) :
    ∃ c, a ≤ c ∧ c < b ∧ IsClosing t c ∧ depthBefore t (c + 1) = v := by
  induction b, hab using Nat.le_induction with
  | base => omega
  | succ b hab ih =>
    by_cases hlow : depthBefore t b ≤ v
    · obtain ⟨c, hac, hcb, hc, hdepth⟩ := ih hlow
      exact ⟨c, hac, by omega, hc, hdepth⟩
    · have hc : IsClosing t b := by
        by_contra hc
        by_cases ho : IsOpening t b
        · have := depthBefore_opening ho
          omega
        · have := depthBefore_other ho hc
          omega
      have hstep := depthBefore_closing hc
      exact ⟨b, hab, by omega, hc, by omega⟩

/-! ### The partner of a parenthesis -/

/-- Whether the mark is of a parenthesis that leads back to the depth `d`. -/
def Mark.closesTo (d : Int) (m : Mark) : Bool :=
  m.char = ')' && m.region = .code && m.depth = d

/-- A parenthesis is closed by the first one in the scan of the whole text that leads back to the
depth in front of it. -/
theorem closing?_drop {o : Nat} (ho : IsOpening t o) :
    closing? (t.drop o) =
      ((scan true t).drop o).findIdx? (Mark.closesTo (depthBefore t o)) := by
  obtain ⟨r, hr⟩ := ho.drop
  obtain ⟨hplace, hescape⟩ := spotAt_of_regionAt hr rfl (by decide) ho.regionAt_eq
  have hcloses : ∀ m : Mark, (m.lift (depthBefore t o)).closesTo (depthBefore t o) =
      (decide (m.char = ')') && m.isTopLevel) := by
    intro m
    have hdepth : decide (m.depth + depthBefore t o = depthBefore t o) = decide (m.depth = 0) :=
      decide_eq_decide.mpr (by omega)
    rw [Mark.closesTo, Mark.isTopLevel, Mark.lift_char, Mark.lift_region, Mark.lift_depth, hdepth,
      Bool.and_assoc]
  rw [scan_restart hplace hescape, List.findIdx?_map, ← depthBefore_eq, hr, closing?]
  simp only [Function.comp_def, hcloses]

/-- The depth is back at no two positions for the first time. -/
theorem ReturnsAt.unique {o c c' : Nat} (h : ReturnsAt t o c) (h' : ReturnsAt t o c') :
    c = c' := by
  have hnot : ∀ {a b : Nat}, ReturnsAt t o a → ReturnsAt t o b → ¬ a < b := by
    intro a b ha hb hab
    exact lt_irrefl _ (hb.first a _ (le_of_lt ha.behind) hab ha.closes)
  exact le_antisymm (not_lt.mp (hnot h' h)) (not_lt.mp (hnot h h'))

/-- **A parenthesis is closed where the depth first comes back** to what it is in front of it. -/
theorem matchingParen?_eq_some_iff {o c : Nat} (ho : IsOpening t o) :
    matchingParen? t o = some c ↔ ReturnsAt t o c := by
  have hreturns : ∀ {c'}, matchingParen? t o = some c' → ReturnsAt t o c' := by
    intro c' h
    rw [matchingParen?_natCast, Option.map_eq_some_iff] at h
    obtain ⟨w, hw, rfl⟩ := h
    exact returnsAt_of_closing? ho.regionAt_eq hw
  refine ⟨hreturns, fun h => ?_⟩
  cases hmatch : matchingParen? t o with
  | some c' => rw [h.unique (hreturns hmatch)]
  | none =>
    -- The search cannot fail: it would have to pass over position `c`.
    rw [matchingParen?_natCast, Option.map_eq_none_iff, closing?_drop ho,
      List.findIdx?_eq_none_iff] at hmatch
    have hc : ((scan true t).drop o)[c - o]? = some ⟨')', .code, depthBefore t o⟩ := by
      rw [List.getElem?_drop, Nat.add_sub_cancel' (le_of_lt h.behind), h.closes]
    have hfalse := hmatch _ (List.mem_of_getElem? hc)
    simp [Mark.closesTo] at hfalse

theorem matchingParen?_ne_none {o c : Nat} (ho : IsOpening t o) (hoc : o < c)
    (hc : IsClosing t c) (hdepth : depthBefore t (c + 1) = depthBefore t o) :
    matchingParen? t o ≠ none := by
  obtain ⟨m, hm, hchar, hregion⟩ := hc
  have hdrop : ((scan true t).drop o)[c - o]? = some m := by
    rw [List.getElem?_drop, Nat.add_sub_cancel' (le_of_lt hoc), hm]
  have hcloses : m.closesTo (depthBefore t o) = true := by
    simp [Mark.closesTo, hchar, hregion, ← depthBefore_succ_eq hm, hdepth]
  rw [matchingParen?_natCast, closing?_drop ho]
  intro hnone
  rw [Option.map_eq_none_iff, List.findIdx?_eq_none_iff] at hnone
  rw [hnone m (List.mem_of_getElem? hdrop)] at hcloses
  cases hcloses

/-! ### Beginning anew at a parenthesis -/

/-- The positions behind `o` where the scan of the whole text reports a closing parenthesis in code
that leads to the depth `d`. -/
def closersBehind (t : Text) (o : Nat) (d : Int) : Set Nat :=
  {r | o < r ∧ (scan true t)[r]? = some ⟨')', .code, d⟩}

theorem ReturnsAt.isLeast {o c : Nat} (h : ReturnsAt t o c) :
    IsLeast (closersBehind t o (depthBefore t o)) c := by
  refine ⟨⟨h.behind, h.closes⟩, fun r ⟨hor, hr⟩ => ?_⟩
  -- In front of `c` every mark lies deeper than the parenthesis at `o` begins.
  by_contra hlt
  exact lt_irrefl _ (h.first r _ (le_of_lt hor) (not_le.mp hlt) hr)

theorem matchingParen?_eq_some_iff_isLeast {o c : Nat} (ho : IsOpening t o) :
    matchingParen? t o = some c ↔ IsLeast (closersBehind t o (depthBefore t o)) c := by
  rw [matchingParen?_eq_some_iff ho]
  refine ⟨ReturnsAt.isLeast, fun hleast => ?_⟩
  obtain ⟨hoc, hc⟩ := hleast.1
  -- The search does not fail, and what it finds is least as well.
  have hne := matchingParen?_ne_none ho hoc ⟨_, hc, rfl, rfl⟩ (depthBefore_succ_eq hc)
  obtain ⟨c', hc'⟩ := Option.ne_none_iff_exists'.mp hne
  have hreturns := (matchingParen?_eq_some_iff ho).mp hc'
  rwa [hleast.unique hreturns.isLeast]

theorem matchingParen?_eq_none_iff {o : Nat} (ho : IsOpening t o) :
    matchingParen? t o = none ↔ closersBehind t o (depthBefore t o) = ∅ := by
  constructor
  · intro hnone
    rw [Set.eq_empty_iff_forall_notMem]
    rintro c ⟨hoc, hc⟩
    exact matchingParen?_ne_none ho hoc ⟨_, hc, rfl, rfl⟩ (depthBefore_succ_eq hc) hnone
  · intro hempty
    by_contra hne
    obtain ⟨c, hc⟩ := Option.ne_none_iff_exists'.mp hne
    have hmem := ((matchingParen?_eq_some_iff_isLeast ho).mp hc).1
    rw [hempty] at hmem
    exact hmem

/-- Only a parenthesis of the text can be closed. -/
theorem matchingParen?_eq_none {o : Int} (h : o < 0 ∨ t[o.toNat]? ≠ some '(') :
    matchingParen? t o = none := by
  rw [matchingParen?]
  split_ifs with hneg
  · rfl
  · have hhead : (t.drop o.toNat).head? ≠ some '(' := by
      rw [List.head?_drop]
      exact h.resolve_left hneg
    rw [Option.map_eq_none_iff, closing?.eq_def]
    split
    · rename_i r hr
      exact absurd (congrArg List.head? hr) hhead
    · rfl

/-- **A scan that begins anew at a parenthesis agrees with the scan of the whole text.**  For a
parenthesis that opens in code and leads to the depth `d`, it finds the first closing parenthesis
behind it that the scan of the whole text reports in code with the depth `d - 1`, and nothing if
there is none.  At a position outside the text, or of another character, nothing is found. -/
theorem matchingParen?_restart (t : Text) :
    (∀ (o : Nat) (d : Int), (scan true t)[o]? = some ⟨'(', .code, d⟩ →
      (∀ r, matchingParen? t o = some r ↔ IsLeast (closersBehind t o (d - 1)) r) ∧
      (matchingParen? t o = none ↔ closersBehind t o (d - 1) = ∅)) ∧
    ∀ o : Int, o < 0 ∨ t.length ≤ o ∨ t[o.toNat]? ≠ some '(' → matchingParen? t o = none := by
  refine ⟨fun o d hm => ?_, fun o h => matchingParen?_eq_none ?_⟩
  · have ho : IsOpening t o := ⟨_, hm, rfl, rfl⟩
    have hdepth : depthBefore t o = d - 1 := by
      have hup := depthBefore_opening ho
      rw [depthBefore_succ_eq hm] at hup
      exact eq_sub_of_add_eq hup.symm
    rw [← hdepth]
    exact ⟨fun r => matchingParen?_eq_some_iff_isLeast ho, matchingParen?_eq_none_iff ho⟩
  · rcases h with hneg | hlong | hother
    · exact Or.inl hneg
    · right
      rw [List.getElem?_eq_none (by omega)]
      nofun
    · exact Or.inr hother

/-- A parenthesis inside another one, and behind it parentheses in a comment and behind an escaped
quote. -/
def nestedParens : Text :=
  "(a, (b /* ) */ '\\')' (c)) -- )".toList

/-- The inner one is closed at the first parenthesis that the scan of the whole text shows. -/
theorem matchingParen?_restart_nested :
    (scan true nestedParens)[4]? = some ⟨'(', .code, 2⟩ ∧
      matchingParen? nestedParens 4 = some 24 ∧
      IsLeast (closersBehind nestedParens 4 (2 - 1)) 24 := by
  have hopens : (scan true nestedParens)[4]? = some ⟨'(', .code, 2⟩ := by decide
  have hcloses : matchingParen? nestedParens 4 = some 24 := by decide
  exact ⟨hopens, hcloses, (((matchingParen?_restart nestedParens).1 4 2 hopens).1 24).mp hcloses⟩

/-! ### Pairs -/

/-- What the depth does between two partners. -/
structure Spans (t : Text) (o c : Nat) : Prop where
  behind : o < c
  opens : IsOpening t o
  closes : IsClosing t c
  returns : depthBefore t (c + 1) = depthBefore t o
  above : ∀ k, o < k → k ≤ c → depthBefore t o < depthBefore t k

theorem paired_iff_spans {o c : Nat} : Paired t o c ↔ Spans t o c := by
  constructor
  · rintro ⟨ho, hmatch⟩
    have h := (matchingParen?_eq_some_iff ho).mp hmatch
    refine ⟨h.behind, ho, ⟨_, h.closes, rfl, rfl⟩, depthBefore_succ_eq h.closes, ?_⟩
    intro k hok hkc
    obtain ⟨j, rfl⟩ := Nat.exists_eq_add_of_lt hok
    have hj : o + j < (scan true t).length := by
      obtain ⟨hc, -⟩ := List.getElem?_eq_some_iff.mp h.closes
      omega
    have hm := List.getElem?_eq_getElem hj
    rw [depthBefore_succ_eq hm]
    exact h.first (o + j) _ (by omega) (by omega) hm
  · intro h
    refine ⟨h.opens, (matchingParen?_eq_some_iff h.opens).mpr ⟨h.behind, ?_, ?_⟩⟩
    · obtain ⟨⟨char, region, depth⟩, hm, rfl, rfl⟩ := h.closes
      rw [hm, ← h.returns, depthBefore_succ_eq hm]
    · intro k m hok hkc hm
      rw [← depthBefore_succ_eq hm]
      exact h.above (k + 1) (by omega) (by omega)

/-- A closing parenthesis has at most one partner. -/
theorem Spans.opening_unique {o o' c : Nat} (h : Spans t o c) (h' : Spans t o' c) : o = o' := by
  have hnot : ∀ {a b : Nat}, Spans t a c → Spans t b c → ¬ a < b := by
    intro a b ha hb hab
    have hinside := ha.above b hab (le_of_lt hb.behind)
    have := ha.returns
    have := hb.returns
    omega
  exact le_antisymm (not_lt.mp (hnot h' h)) (not_lt.mp (hnot h h'))

/-- **Pairs do not cross**: the second of two pairs stands behind the first or inside it. -/
theorem Spans.nested {o₁ c₁ o₂ c₂ : Nat} (h₁ : Spans t o₁ c₁) (h₂ : Spans t o₂ c₂)
    (ho : o₁ < o₂) : c₁ < o₂ ∨ c₂ < c₁ := by
  by_contra hcross
  have hinside := h₁.above o₂ ho (by omega)
  have hreturns₁ := h₁.returns
  have hreturns₂ := h₂.returns
  rcases Nat.lt_or_ge c₁ c₂ with hlt | hge
  · -- The first pair would be closed inside the second one, below the depth it starts at.
    have := h₂.above (c₁ + 1) (by omega) (by omega)
    omega
  · obtain rfl : c₁ = c₂ := by omega
    omega

/-! ### Balance -/

/-- The depth in front of the end is the depth of the last mark. -/
theorem depthBefore_length (t : Text) :
    depthBefore t t.length = ((scan true t).getLast?.map Mark.depth).getD 0 := by
  rw [depthBefore, List.take_of_length_le (le_of_eq (length_scan true t))]

theorem depths_nonneg_iff :
    (∀ m ∈ scan true t, 0 ≤ m.depth) ↔ ∀ i ≤ t.length, 0 ≤ depthBefore t i := by
  constructor
  · intro h i hi
    cases i with
    | zero => exact le_rfl
    | succ i =>
      have hi : i < (scan true t).length := by
        rw [length_scan]
        omega
      rw [depthBefore_succ_eq (List.getElem?_eq_getElem hi)]
      exact h _ (List.getElem_mem hi)
  · intro h m hm
    obtain ⟨i, hi, rfl⟩ := List.getElem_of_mem hm
    rw [← depthBefore_succ_eq (List.getElem?_eq_getElem hi)]
    rw [length_scan] at hi
    exact h (i + 1) hi

/-- The delimiters match if the depth is never negative and ends at zero, outside quotes. -/
theorem hasUnmatchedDelimiters_eq_false_iff_depthBefore : hasUnmatchedDelimiters t = false ↔
    (∀ m ∈ (scan true t).getLast?, m.region = .code ∨ m.region = .comment) ∧
      (∀ i ≤ t.length, 0 ≤ depthBefore t i) ∧ depthBefore t t.length = 0 := by
  have hleaves : ∀ m : Mark, m.leavesQuote = false ↔ m.region = .code ∨ m.region = .comment := by
    intro m
    cases hm : m.region <;> simp [Mark.leavesQuote, hm]
  rw [hasUnmatchedDelimiters_eq_false_iff, depths_nonneg_iff, depthBefore_length]
  cases (scan true t).getLast? with
  | none => simp
  | some m =>
    simp only [Option.mem_def, Option.some.injEq, forall_eq', hleaves, Option.map_some,
      Option.getD_some]
    tauto

/-- In a balanced text every parenthesis is closed. -/
theorem matchingParen?_of_balanced {o : Nat} (hnonneg : ∀ i ≤ t.length, 0 ≤ depthBefore t i)
    (hend : depthBefore t t.length = 0) (ho : IsOpening t o) : matchingParen? t o ≠ none := by
  have hlt := ho.lt_length
  have hup := depthBefore_opening ho
  have hlow := hnonneg o (le_of_lt hlt)
  obtain ⟨c, hoc, -, hc, hdepth⟩ := exists_closing_behind (t := t) (a := o + 1)
    (v := depthBefore t o) hlt (by omega) (by omega)
  exact matchingParen?_ne_none ho hoc hc hdepth

/-- Where the depth has not been negative, a closing parenthesis closes one. -/
theorem exists_spans_of_closing {c : Nat} (hc : IsClosing t c)
    (hnonneg : 0 ≤ depthBefore t (c + 1)) : ∃ o, Spans t o c := by
  have hdown := depthBefore_closing hc
  obtain ⟨o, hoc, ho, hdepth, habove⟩ := exists_opening_before (t := t)
    (v := depthBefore t (c + 1)) (Nat.zero_le c) hnonneg (by omega)
  refine ⟨o, hoc, ho, hc, hdepth.symm, fun k hok hkc => ?_⟩
  rw [hdepth]
  exact habove k hok hkc

/-- If every closing parenthesis has a partner, the depth is never negative. -/
theorem depthBefore_nonneg_of_paired (h : ∀ c, IsClosing t c → ∃ o, Spans t o c) :
    ∀ i, 0 ≤ depthBefore t i := by
  intro i
  induction i using Nat.strong_induction_on with
  | h i ih =>
    cases i with
    | zero => exact le_rfl
    | succ i =>
      by_cases hc : IsClosing t i
      · obtain ⟨o, ho⟩ := h i hc
        have hbehind := ho.behind
        rw [ho.returns]
        exact ih o (by omega)
      · have hi := ih i (Nat.lt_succ_self i)
        by_cases ho : IsOpening t i
        · have := depthBefore_opening ho
          omega
        · have := depthBefore_other ho hc
          omega

/-- If every opening parenthesis has a partner, the depth does not end above zero. -/
theorem depthBefore_length_le_of_paired (h : ∀ o, IsOpening t o → ∃ c, Spans t o c) :
    depthBefore t t.length ≤ 0 := by
  by_contra hpos
  obtain ⟨o, -, ho, hdepth, habove⟩ := exists_opening_before (t := t) (v := 0)
    (Nat.zero_le t.length) (le_of_eq depthBefore_zero) (by omega)
  obtain ⟨c, hspans⟩ := h o ho
  have hlt := hspans.closes.lt_length
  have hbehind := hspans.behind
  have hreturns := hspans.returns
  have := habove (c + 1) (by omega) hlt
  omega

/-- **The balance of the depth is the pairing of the parentheses.**  A text has no unmatched
delimiters exactly if it does not end inside quotes, every parenthesis opened in code is closed, and
every one closed in code closes exactly one.  In any text the pairs stand one behind the other or
one inside the other. -/
theorem hasUnmatchedDelimiters_eq_false_iff_paired (t : Text) :
    (hasUnmatchedDelimiters t = false ↔
      (∀ m ∈ (scan true t).getLast?, m.region = .code ∨ m.region = .comment) ∧
      (∀ o, IsOpening t o → matchingParen? t o ≠ none) ∧
      ∀ c, IsClosing t c → ∃! o, Paired t o c) ∧
    (∀ o c, Paired t o c → o < c ∧ IsClosing t c) ∧
    ∀ o₁ c₁ o₂ c₂, Paired t o₁ c₁ → Paired t o₂ c₂ → o₁ < o₂ → c₁ < o₂ ∨ c₂ < c₁ := by
  simp only [paired_iff_spans]
  refine ⟨?_, fun o c h => ⟨h.behind, h.closes⟩, fun _ _ _ _ h₁ h₂ => h₁.nested h₂⟩
  rw [hasUnmatchedDelimiters_eq_false_iff_depthBefore]
  refine and_congr_right fun _ => ⟨?_, ?_⟩
  · rintro ⟨hnonneg, hend⟩
    refine ⟨fun o => matchingParen?_of_balanced hnonneg hend, fun c hc => ?_⟩
    obtain ⟨o, ho⟩ := exists_spans_of_closing hc (hnonneg (c + 1) hc.lt_length)
    exact ⟨o, ho, fun o' ho' => ho'.opening_unique ho⟩
  · rintro ⟨hopen, hclose⟩
    have hnonneg := depthBefore_nonneg_of_paired fun c hc => (hclose c hc).exists
    have hend : depthBefore t t.length ≤ 0 := by
      apply depthBefore_length_le_of_paired
      intro o ho
      obtain ⟨c, hc⟩ := Option.ne_none_iff_exists'.mp (hopen o ho)
      exact ⟨c, paired_iff_spans.mp ⟨ho, hc⟩⟩
    exact ⟨fun i _ => hnonneg i, le_antisymm hend (hnonneg _)⟩

end TableTypes
