import TableTypes.Proofs.Text.Blank
import TableTypes.Text.Case

/-!
# Characters without a case

The case mappings move letters to letters, so a mark of ASCII such as a bracket, a star or a newline
stays where it is and comes out of no other character (`mem_lowerChar`, `mem_upperChar`).  Hence a
text in lower case has as many of them as the text itself (`count_lower`).
-/

namespace TableTypes.Text

/-- Whether `x` is an ASCII character, not NUL, that is no letter. -/
def isCaseless (x : Char) : Bool :=
  0 < x.toNat && x.toNat < 0x80 && !isAsciiLetter x

/-- Whether a code point that a letter is mapped to is above ASCII or that of a letter again. -/
def isCasedTarget (n : Nat) : Bool :=
  0x80 ≤ n || isAsciiLetter (Char.ofNat n)

/-- Whether every letter of a run is mapped to such a code point.  A run that is mapped into ASCII
is a single letter. -/
def CaseRun.isCased (r : CaseRun) : Bool :=
  0x80 ≤ r.first + r.shift || (r.first = r.last && isCasedTarget (r.first + r.shift).toNat)

/-! ### Code points -/

theorem ofNat_ne_of_isCasedTarget {x : Char} {n : Nat} (hx : isCaseless x = true)
    (hn : isCasedTarget n = true) : Char.ofNat n ≠ x := by
  rintro rfl
  simp only [isCaseless, Bool.and_eq_true, decide_eq_true_eq, Bool.not_eq_true'] at hx
  rw [isCasedTarget, hx.2, Bool.or_false, decide_eq_true_eq] at hn
  obtain ⟨hpos, hsmall⟩ := hx.1
  by_cases hvalid : n.isValidChar
  · rw [Char.ofNat, dif_pos hvalid] at hsmall
    have hsmall : n < 0x80 := hsmall
    omega
  · -- A number that is no code point stands for NUL.
    rw [Char.ofNat, dif_neg hvalid] at hpos
    exact absurd hpos (Nat.lt_irrefl 0)

theorem isCasedTarget_shiftBy {n : Nat} (hn : 0x80 ≤ n) {runs : List CaseRun}
    (hruns : runs.all CaseRun.isCased = true) : isCasedTarget (shiftBy n runs) = true := by
  have hself : isCasedTarget n = true := by rw [isCasedTarget, decide_eq_true hn, Bool.true_or]
  induction runs with
  | nil => exact hself
  | cons r runs ih =>
    rw [List.all_cons, Bool.and_eq_true] at hruns
    rw [shiftBy]
    split_ifs with hfirst hlast hstep
    · exact hself
    · -- The run moves `n`, and all its letters by the same distance.
      obtain hrun | hrun := Bool.or_eq_true_iff.mp hruns.1
      · rw [isCasedTarget, Bool.or_eq_true, decide_eq_true_eq]
        have hrun := of_decide_eq_true hrun
        left
        omega
      · rw [Bool.and_eq_true, decide_eq_true_eq] at hrun
        obtain rfl : n = r.first := by omega
        exact hrun.2
    · exact ih hruns.2
    · exact ih hruns.2

theorem mem_of_expansion? {n : Nat} {ns : List Nat} {entries : List (Nat × List Nat)}
    (h : expansion? n entries = some ns) : (n, ns) ∈ entries := by
  induction entries with
  | nil => cases h
  | cons e entries ih =>
    obtain ⟨m, cs⟩ := e
    rw [expansion?] at h
    split_ifs at h with hlt heq
    · obtain rfl := Option.some.inj h
      rw [heq]
      exact List.mem_cons_self
    · exact List.mem_cons_of_mem _ (ih h)

/-! ### Mappings of one character -/

/-- What holds of each character of ASCII, looked up one by one, holds of what is in ASCII. -/
theorem of_ascii {p : Char → Bool} (h : ((List.range 0x80).all fun n => p (Char.ofNat n)) = true)
    {c : Char} (hc : c.toNat < 0x80) : p c = true := by
  have hp := List.all_eq_true.mp h c.toNat (List.mem_range.mpr hc)
  rwa [Char.ofNat_toNat] at hp

section

variable {ascii : Char → Char} {expansions : List (Nat × List Nat)} {runs : List CaseRun}

/-- A case mapping of one character, by its values in ASCII and its tables above. -/
def caseMap (ascii : Char → Char) (expansions : List (Nat × List Nat)) (runs : List CaseRun)
    (c : Char) : Text :=
  if c.toNat < 0x80 then [ascii c]
  else
    match expansion? c.toNat expansions with
    | some ns => ns.map Char.ofNat
    | none => [Char.ofNat (shiftBy c.toNat runs)]

theorem lowerChar_eq : lowerChar = caseMap Char.toLower lowerExpansions lowerRuns := rfl

/-- The mapping moves letters only, and to letters only. -/
structure MovesLetters (ascii : Char → Char) (expansions : List (Nat × List Nat))
    (runs : List CaseRun) : Prop where
  ascii : ((List.range 0x80).all fun n => ascii (Char.ofNat n) = Char.ofNat n ||
    (isAsciiLetter (Char.ofNat n) && isAsciiLetter (ascii (Char.ofNat n)))) = true
  expansions : (expansions.all fun e => !e.2.isEmpty && e.2.all isCasedTarget) = true
  runs : runs.all CaseRun.isCased = true

theorem MovesLetters.ascii_cases (h : MovesLetters ascii expansions runs) {c : Char}
    (hc : c.toNat < 0x80) :
    ascii c = c ∨ isAsciiLetter c = true ∧ isAsciiLetter (ascii c) = true := by
  have hcase := of_ascii (p := fun c => ascii c = c || (isAsciiLetter c && isAsciiLetter (ascii c)))
    h.ascii hc
  rwa [Bool.or_eq_true, decide_eq_true_eq, Bool.and_eq_true] at hcase

/-- What has no case comes out of nothing but itself. -/
theorem MovesLetters.mem_iff (h : MovesLetters ascii expansions runs) {x : Char}
    (hx : isCaseless x = true) (c : Char) : x ∈ caseMap ascii expansions runs c ↔ c = x := by
  have hx' := hx
  simp only [isCaseless, Bool.and_eq_true, decide_eq_true_eq, Bool.not_eq_true'] at hx'
  obtain ⟨⟨-, hsmall⟩, hletter⟩ := hx'
  rw [caseMap]
  split_ifs with hc
  · rw [List.mem_singleton]
    obtain heq | ⟨hfrom, hto⟩ := h.ascii_cases hc
    · rw [heq, eq_comm]
    · constructor
      · rintro rfl
        rw [hto] at hletter
        cases hletter
      · rintro rfl
        rw [hfrom] at hletter
        cases hletter
  · refine iff_of_false ?_ (by rintro rfl; exact hc hsmall)
    split
    · rename_i ns hns
      have hall := List.all_eq_true.mp h.expansions _ (mem_of_expansion? hns)
      rw [Bool.and_eq_true] at hall
      rintro hmem
      obtain ⟨n, hn, rfl⟩ := List.mem_map.mp hmem
      exact ofNat_ne_of_isCasedTarget hx (List.all_eq_true.mp hall.2 n hn) rfl
    · rw [List.mem_singleton]
      exact Ne.symm (ofNat_ne_of_isCasedTarget hx
        (isCasedTarget_shiftBy (Nat.le_of_not_lt hc) h.runs))

theorem MovesLetters.ne_nil (h : MovesLetters ascii expansions runs) (c : Char) :
    caseMap ascii expansions runs c ≠ [] := by
  rw [caseMap]
  split_ifs
  · exact List.cons_ne_nil _ _
  · split
    · rename_i ns hns
      have hall := List.all_eq_true.mp h.expansions _ (mem_of_expansion? hns)
      rw [Bool.and_eq_true, Bool.not_eq_true', List.isEmpty_eq_false_iff] at hall
      rw [ne_eq, List.map_eq_nil_iff]
      exact hall.1
    · exact List.cons_ne_nil _ _

theorem MovesLetters.count_eq (h : MovesLetters ascii expansions runs) {x : Char}
    (hx : isCaseless x = true) (c : Char) :
    (caseMap ascii expansions runs c).count x = if c = x then 1 else 0 := by
  split_ifs with hc
  · subst hc
    have hx' := hx
    simp only [isCaseless, Bool.and_eq_true, decide_eq_true_eq, Bool.not_eq_true'] at hx'
    obtain ⟨⟨-, hsmall⟩, hletter⟩ := hx'
    obtain heq | ⟨hfrom, -⟩ := h.ascii_cases hsmall
    · rw [caseMap, if_pos hsmall, heq, List.count_singleton_self]
    · rw [hfrom] at hletter
      cases hletter
  · exact List.count_eq_zero.mpr fun hmem => hc ((h.mem_iff hx c).mp hmem)

end

theorem movesLetters_lower : MovesLetters Char.toLower lowerExpansions lowerRuns :=
  ⟨by decide +kernel, by decide +kernel, by decide +kernel⟩

theorem movesLetters_upper : MovesLetters Char.toUpper upperExpansions upperRuns :=
  ⟨by decide +kernel, by decide +kernel, by decide +kernel⟩

/-! ### Texts -/

variable {x : Char} (hx : isCaseless x = true)

theorem lowerChar_ne_nil (c : Char) : lowerChar c ≠ [] :=
  movesLetters_lower.ne_nil c

include hx

theorem mem_lowerChar {c : Char} : x ∈ lowerChar c ↔ c = x :=
  movesLetters_lower.mem_iff hx c

theorem mem_upperChar {c : Char} : x ∈ upperChar c ↔ c = x :=
  movesLetters_upper.mem_iff hx c

theorem count_lowerAfter (t : Text) : ∀ before, (lowerAfter before t).count x = t.count x := by
  induction t with
  | nil => exact fun before => rfl
  | cons c t ih =>
    intro before
    rw [lowerAfter, List.count_append, ih, List.count_cons, Nat.add_comm]
    refine congrArg₂ (· + ·) rfl ?_
    by_cases hc : c = 'Σ'
    · have hsigma : ∀ y : Char, isCaseless y = false → x ≠ y := by
        rintro y hy rfl
        rw [hx] at hy
        cases hy
      have hcx : ¬(c == x) = true := by
        rw [hc, beq_iff_eq]
        exact Ne.symm (hsigma _ (by decide))
      rw [if_pos hc, if_neg hcx, List.count_eq_zero, List.mem_singleton]
      split
      · exact hsigma _ (by decide)
      · exact hsigma _ (by decide)
    · rw [if_neg hc, lowerChar_eq, movesLetters_lower.count_eq hx]
      by_cases hcx : c = x
      · rw [if_pos hcx, if_pos (beq_iff_eq.mpr hcx)]
      · rw [if_neg hcx, if_neg (mt beq_iff_eq.mp hcx)]

theorem count_lower (t : Text) : (lower t).count x = t.count x :=
  count_lowerAfter hx t []

theorem mem_lower {t : Text} : x ∈ lower t ↔ x ∈ t := by
  rw [← List.count_pos_iff, ← List.count_pos_iff, count_lower hx]

omit hx in
theorem lower_eq_nil_iff {t : Text} : lower t = [] ↔ t = [] := by
  constructor
  · intro h
    cases t with
    | nil => rfl
    | cons c t =>
      rw [lower, lowerAfter, List.append_eq_nil_iff] at h
      have hhead := h.1
      split at hhead
      · cases hhead
      · exact absurd hhead (lowerChar_ne_nil c)
  · rintro rfl
    rfl

end TableTypes.Text
