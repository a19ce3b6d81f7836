import TableTypes.Proofs.Text.Case
import TableTypes.Proofs.Text.Word

/-!
# Texts in lower case

What a letter is lowered to has no other lower case (`lowerChar_of_mem`), so lowering a text twice is
lowering it once (`lower_lower`), and blanks come out of blanks alone (`isBlank_of_mem_lowerChar`).
What a sigma is lowered to depends on the letters around it; so a text is lowered by itself in front
of one that does not begin with a letter, and what has no other lower case stays as it is behind it
(`lower_append`).
-/

namespace TableTypes.Text

/-! ### Runs of letters -/

namespace CaseRun

/-- Whether the run moves `n`. -/
def moves (r : CaseRun) (n : Nat) : Bool :=
  Nat.ble r.first n && Nat.ble n r.last && (n - r.first) % r.step == 0

/-- The least and the greatest code point that the run moves a letter to. -/
def targets (r : CaseRun) : Nat × Nat :=
  ((r.first + r.shift).toNat, (r.last + r.shift).toNat)

/-- Whether `s` moves nothing that `r` has moved: the targets of `r` lie in front of `s` or behind
it, or between its steps. -/
def avoids (r s : CaseRun) : Bool :=
  Nat.blt r.targets.2 s.first || Nat.blt s.last r.targets.1 ||
    ((r.first == r.last || r.step % s.step == 0) && Nat.ble s.first r.targets.1 &&
      (r.targets.1 - s.first) % s.step != 0)

variable {r s : CaseRun} {n : Nat}

theorem moves_iff : r.moves n = true ↔ r.first ≤ n ∧ n ≤ r.last ∧ (n - r.first) % r.step = 0 := by
  simp only [moves, Bool.and_eq_true, Nat.ble_eq, beq_iff_eq, and_assoc]

/-- The letters of a run are moved by the same distance. -/
theorem target_eq (hfirst : r.first ≤ n) (hpos : 0 < r.targets.1) :
    (n + r.shift).toNat = r.targets.1 + (n - r.first) := by
  unfold targets at hpos ⊢
  omega

theorem moves_target (havoids : r.avoids s = true) (hn : r.moves n = true) :
    s.moves (n + r.shift).toNat = false := by
  rw [Bool.eq_false_iff]
  intro hmoves
  obtain ⟨hfirst, hlast, hstep⟩ := moves_iff.mp hn
  obtain ⟨hfirst', hlast', hstep'⟩ := moves_iff.mp hmoves
  simp only [avoids, Bool.or_eq_true, Bool.and_eq_true, Nat.blt_eq, Nat.ble_eq, beq_iff_eq,
    bne_iff_ne, and_assoc] at havoids
  obtain (hfront | hback) | ⟨haligned, hle, hoff⟩ := havoids
  · unfold targets at hfront
    omega
  · unfold targets at hback
    omega
  · -- All targets are as far from the steps of `s` as the first one, which is not on them.
    have hpos : 0 < r.targets.1 := by
      by_contra hzero
      rw [Nat.eq_zero_of_not_pos hzero, Nat.zero_sub, Nat.zero_mod] at hoff
      exact hoff rfl
    have hsame : (n - r.first) % s.step = 0 := by
      rcases haligned with hsingle | hsteps
      · have hzero : n - r.first = 0 := by omega
        rw [hzero, Nat.zero_mod]
      · exact Nat.mod_eq_zero_of_dvd (Nat.dvd_trans (Nat.dvd_of_mod_eq_zero hsteps)
          (Nat.dvd_of_mod_eq_zero hstep))
    rw [target_eq hfirst hpos, Nat.sub_add_comm hle, Nat.add_mod, hsame, Nat.add_zero,
      Nat.mod_mod] at hstep'
    exact hoff hstep'

end CaseRun

/-- A code point is moved by the first run that has it in its steps, if there is one. -/
theorem shiftBy_cases (n : Nat) (runs : List CaseRun) : shiftBy n runs = n ∨
    ∃ r ∈ runs, r.moves n = true ∧ shiftBy n runs = (n + r.shift).toNat := by
  induction runs with
  | nil => exact Or.inl rfl
  | cons r runs ih =>
    have hrest : shiftBy n runs = n ∨ ∃ r' ∈ r :: runs, r'.moves n = true ∧
        shiftBy n runs = (n + r'.shift).toNat :=
      ih.imp_right fun ⟨r', hr', h⟩ => ⟨r', List.mem_cons_of_mem r hr', h⟩
    rw [shiftBy]
    split_ifs with hfirst hlast hstep
    · exact Or.inl rfl
    · exact Or.inr ⟨r, List.mem_cons_self,
        CaseRun.moves_iff.mpr ⟨Nat.le_of_not_lt hfirst, hlast, hstep⟩, rfl⟩
    · exact hrest
    · exact hrest

theorem shiftBy_eq_self {n : Nat} {runs : List CaseRun} (h : ∀ r ∈ runs, r.moves n = false) :
    shiftBy n runs = n := by
  obtain hself | ⟨r, hr, hmoves, -⟩ := shiftBy_cases n runs
  · exact hself
  · rw [h r hr] at hmoves
    cases hmoves

/-! ### One character -/

/-- Everything with another lower case: the letters of ASCII, the letter with a lower case of two
characters, and the others. -/
def capitalRuns : List CaseRun :=
  ⟨0x41, 0x5a, 1, 32⟩ :: ⟨0x130, 0x130, 1, 0⟩ :: lowerRuns

/-- What the tables say of each other, entry by entry: no run moves a letter to a capital or to a
blank, a lower case of two characters has neither of them, and no capital is a blank or a digit. -/
theorem lowerTables :
    (∀ r ∈ lowerRuns, ∀ s ∈ capitalRuns, r.avoids s = true) ∧
    (∀ r ∈ lowerRuns, ∀ b ∈ blankCodes, r.avoids ⟨b, b, 1, 0⟩ = true) ∧
    (∀ e ∈ lowerExpansions, ∀ n ∈ e.2, lowerChar (Char.ofNat n) = [Char.ofNat n] ∧
      isBlank (Char.ofNat n) = false) ∧
    (∀ r ∈ capitalRuns, ∀ b ∈ blankCodes, r.moves b = false) ∧
    ∀ r ∈ capitalRuns, ∀ d ∈ (48, 57) :: decimalRanges, r.last < d.1 ∨ d.2 < r.first := by
  have hall : (lowerRuns.all (fun r => capitalRuns.all r.avoids) &&
      lowerRuns.all (fun r => blankCodes.all fun b => r.avoids ⟨b, b, 1, 0⟩) &&
      lowerExpansions.all (fun e => e.2.all fun n => lowerChar (Char.ofNat n) = [Char.ofNat n] &&
        !isBlank (Char.ofNat n)) &&
      capitalRuns.all (fun r => blankCodes.all fun b => !r.moves b) &&
      capitalRuns.all fun r => ((48, 57) :: decimalRanges).all fun d =>
        Nat.blt r.last d.1 || Nat.blt d.2 r.first) = true := by decide +kernel
  simpa only [Bool.and_eq_true, and_assoc, List.all_eq_true, decide_eq_true_eq, Bool.not_eq_true',
    Bool.or_eq_true, Nat.blt_eq] using hall

/-- In ASCII a character that is no capital stays as it is, and what it is lowered to is no capital,
and a blank if the character is one. -/
theorem toLower_ascii {c : Char} (hc : c.toNat < 0x80) :
    (CaseRun.moves ⟨0x41, 0x5a, 1, 32⟩ c.toNat = true ∨ c.toLower = c) ∧
      lowerChar c.toLower = [c.toLower] ∧ isBlank c.toLower = isBlank c := by
  have hone := of_ascii (p := fun c =>
    (CaseRun.moves ⟨0x41, 0x5a, 1, 32⟩ c.toNat || c.toLower = c) &&
      (lowerChar c.toLower = [c.toLower] && isBlank c.toLower == isBlank c)) (by decide +kernel) hc
  simpa only [Bool.and_eq_true, Bool.or_eq_true, decide_eq_true_eq, beq_iff_eq] using hone

theorem lowerChar_eq_self {c : Char} (h : ∀ r ∈ capitalRuns, r.moves c.toNat = false) :
    lowerChar c = [c] := by
  rw [lowerChar]
  split_ifs with hc
  · have hlower := (toLower_ascii hc).1
    rw [h _ List.mem_cons_self] at hlower
    rw [hlower.resolve_left Bool.false_ne_true]
  · have hexpansion : expansion? c.toNat lowerExpansions = none := by
      have hne : c.toNat ≠ 0x130 := by
        intro heq
        have hmoves := h ⟨0x130, 0x130, 1, 0⟩ (by simp [capitalRuns])
        rw [heq] at hmoves
        cases hmoves
      simp only [lowerExpansions, expansion?, if_neg hne, ite_self]
    have hself : shiftBy c.toNat lowerRuns = c.toNat :=
      shiftBy_eq_self fun r hr => h r (by simp [capitalRuns, hr])
    rw [hexpansion, hself, Char.ofNat_toNat]

/-- A character stays as it is, or it becomes a letter of ASCII, one of two characters, or one that
a run moves it to. -/
theorem lowerChar_cases {c x : Char} (hx : x ∈ lowerChar c) : (lowerChar c = [c] ∧ x = c) ∨
    (c.toNat < 0x80 ∧ x = c.toLower) ∨
      (∃ e ∈ lowerExpansions, ∃ n ∈ e.2, x = Char.ofNat n) ∨
      ∃ r ∈ lowerRuns, ∃ n, r.moves n = true ∧ x = Char.ofNat (n + r.shift).toNat := by
  rw [lowerChar] at hx ⊢
  split_ifs at hx ⊢ with hc
  · obtain rfl := List.mem_singleton.mp hx
    exact Or.inr (Or.inl ⟨hc, rfl⟩)
  · split at hx
    · rename_i ns hns
      obtain ⟨n, hn, rfl⟩ := List.mem_map.mp hx
      exact Or.inr (Or.inr (Or.inl ⟨_, mem_of_expansion? hns, n, hn, rfl⟩))
    · obtain rfl := List.mem_singleton.mp hx
      obtain hself | ⟨r, hr, hmoves, htarget⟩ := shiftBy_cases c.toNat lowerRuns
      · rw [hself, Char.ofNat_toNat]
        exact Or.inl ⟨rfl, rfl⟩
      · exact Or.inr (Or.inr (Or.inr ⟨r, hr, c.toNat, hmoves, by rw [htarget]⟩))

/-- A number that is no code point stands for NUL. -/
theorem toNat_ofNat_eq (n : Nat) : (Char.ofNat n).toNat = n ∨ Char.ofNat n = Char.ofNat 0 := by
  by_cases hvalid : n.isValidChar
  · exact Or.inl (by rw [Char.ofNat, dif_pos hvalid]; rfl)
  · exact Or.inr (by rw [Char.ofNat, dif_neg hvalid]; rfl)

/-- **The lower case of a character is in lower case.** -/
theorem lowerChar_of_mem {c x : Char} (hx : x ∈ lowerChar c) : lowerChar x = [x] := by
  obtain ⟨havoids, -, hexpansions, -⟩ := lowerTables
  obtain ⟨hself, rfl⟩ | ⟨hc, rfl⟩ | ⟨e, he, n, hn, rfl⟩ | ⟨r, hr, n, hn, rfl⟩ := lowerChar_cases hx
  · exact hself
  · exact (toLower_ascii hc).2.1
  · exact (hexpansions e he n hn).1
  · obtain htarget | hnul := toNat_ofNat_eq (n + r.shift).toNat
    · refine lowerChar_eq_self fun s hs => ?_
      rw [htarget]
      exact CaseRun.moves_target (havoids r hr s hs) hn
    · rw [hnul]
      decide

theorem lowerChar_of_isBlank {c : Char} (hc : isBlank c = true) : lowerChar c = [c] := by
  obtain ⟨-, -, -, hblank, -⟩ := lowerTables
  exact lowerChar_eq_self fun r hr => hblank r hr _ (toNat_mem_blankCodes hc)

/-- A character that is no blank is lowered to none. -/
theorem isBlank_of_mem_lowerChar {c x : Char} (hc : isBlank c = false) (hx : x ∈ lowerChar c) :
    isBlank x = false := by
  obtain ⟨-, havoids, hexpansions, -⟩ := lowerTables
  obtain ⟨-, rfl⟩ | ⟨hsmall, rfl⟩ | ⟨e, he, n, hn, rfl⟩ | ⟨r, hr, n, hn, rfl⟩ :=
    lowerChar_cases hx
  · exact hc
  · rw [(toLower_ascii hsmall).2.2, hc]
  · exact (hexpansions e he n hn).2
  · rw [Bool.eq_false_iff]
    intro hblank
    obtain htarget | hnul := toNat_ofNat_eq (n + r.shift).toNat
    · have hcode := toNat_mem_blankCodes hblank
      rw [htarget] at hcode
      have hmoves := CaseRun.moves_target (havoids r hr _ hcode) hn
      rw [Bool.eq_false_iff] at hmoves
      exact hmoves (CaseRun.moves_iff.mpr ⟨le_rfl, le_rfl, Nat.mod_one _⟩)
    · rw [hnul] at hblank
      cases hblank

theorem exists_of_inRanges {n : Nat} {ranges : List (Nat × Nat)} (h : inRanges n ranges = true) :
    ∃ d ∈ ranges, d.1 ≤ n ∧ n ≤ d.2 := by
  induction ranges with
  | nil => cases h
  | cons d ranges ih =>
    obtain ⟨lo, hi⟩ := d
    rw [inRanges, Bool.and_eq_true, Bool.or_eq_true, decide_eq_true_eq, decide_eq_true_eq] at h
    obtain ⟨hlo, hhi | h⟩ := h
    · exact ⟨(lo, hi), List.mem_cons_self, hlo, hhi⟩
    · obtain ⟨d, hd, h⟩ := ih h
      exact ⟨d, List.mem_cons_of_mem _ hd, h⟩

/-- Digits have no case. -/
theorem lowerChar_of_isDecimal {c : Char} (hc : isDecimal c = true) : lowerChar c = [c] := by
  obtain ⟨-, -, -, -, hdecimal⟩ := lowerTables
  obtain ⟨d, hd, hlo, hhi⟩ : ∃ d ∈ (48, 57) :: decimalRanges, d.1 ≤ c.toNat ∧ c.toNat ≤ d.2 := by
    rw [isDecimal] at hc
    split_ifs at hc
    · exact ⟨(48, 57), List.mem_cons_self, isAsciiDigit_iff.mp hc⟩
    · obtain ⟨d, hd, h⟩ := exists_of_inRanges hc
      exact ⟨d, List.mem_cons_of_mem _ hd, h⟩
  refine lowerChar_eq_self fun r hr => ?_
  have hapart := hdecimal r hr d hd
  rw [Bool.eq_false_iff, ne_eq, CaseRun.moves_iff]
  omega

/-! ### Texts -/

variable {t z : Text}

theorem lowerAfter_eq_self (h : ∀ c ∈ t, lowerChar c = [c]) : ∀ before, lowerAfter before t = t := by
  induction t with
  | nil => exact fun before => rfl
  | cons c t ih =>
    intro before
    have hc := h c List.mem_cons_self
    have hsigma : c ≠ 'Σ' := by
      rintro rfl
      revert hc
      decide
    rw [lowerAfter, if_neg hsigma, hc, ih fun c hc => h c (List.mem_cons_of_mem _ hc)]
    rfl

theorem lower_eq_self (h : ∀ c ∈ t, lowerChar c = [c]) : lower t = t :=
  lowerAfter_eq_self h []

/-- ASCII is lowered letter by letter. -/
theorem lower_ascii (h : ∀ c ∈ t, c.toNat < 0x80) : lower t = t.map Char.toLower := by
  suffices hafter : ∀ before, lowerAfter before t = t.map Char.toLower from hafter []
  induction t with
  | nil => exact fun before => rfl
  | cons c t ih =>
    rw [List.forall_mem_cons] at h
    have hsigma : c ≠ 'Σ' := by
      rintro rfl
      exact absurd h.1 (by decide)
    intro before
    rw [lowerAfter, if_neg hsigma, lowerChar, if_pos h.1, ih h.2]
    rfl

/-- A text is lowered character by character, the first one to at least one other. -/
theorem exists_piece (before : Text) (c : Char) (t : Text) : ∃ p, p ≠ [] ∧
    (∀ x ∈ p, lowerChar x = [x]) ∧ (isBlank c = false → ∀ x ∈ p, isBlank x = false) ∧
      lowerAfter before (c :: t) = p ++ lowerAfter (c :: before) t := by
  refine ⟨_, ?_, ?_, ?_, rfl⟩
  · split_ifs
    · exact List.cons_ne_nil _ _
    · exact List.cons_ne_nil _ _
    · exact lowerChar_ne_nil c
  · split_ifs
    · exact List.forall_mem_singleton.mpr (by decide)
    · exact List.forall_mem_singleton.mpr (by decide)
    · exact fun x hx => lowerChar_of_mem hx
  · split_ifs
    · exact fun _ => List.forall_mem_singleton.mpr (by decide)
    · exact fun _ => List.forall_mem_singleton.mpr (by decide)
    · exact fun hc x hx => isBlank_of_mem_lowerChar hc hx

theorem lowerChar_of_mem_lower {x : Char} (hx : x ∈ lower t) : lowerChar x = [x] := by
  suffices hafter : ∀ before, x ∈ lowerAfter before t → lowerChar x = [x] from hafter [] hx
  clear hx
  induction t with
  | nil => exact fun before hx => nomatch hx
  | cons c t ih =>
    intro before hx
    obtain ⟨p, -, hp, -, hlower⟩ := exists_piece before c t
    rw [hlower, List.mem_append] at hx
    exact hx.elim (hp x) (ih (c :: before))

/-- **Lowering a text twice is lowering it once.** -/
theorem lower_lower (t : Text) : lower (lower t) = lower t :=
  lower_eq_self fun _ hx => lowerChar_of_mem_lower hx

/-- What a text begins with when it is lowered is no blank, if the text begins with none. -/
theorem isBlank_of_head?_lower (ht : ∀ c ∈ t.head?, isBlank c = false) :
    ∀ x ∈ (lower t).head?, isBlank x = false := by
  cases t with
  | nil => exact fun x hx => nomatch hx
  | cons c t =>
    obtain ⟨p, hne, -, hp, hlower⟩ := exists_piece [] c t
    intro x hx
    rw [lower, hlower, List.head?_append_of_ne_nil _ hne] at hx
    exact hp (ht c rfl) x (List.mem_of_mem_head? hx)

/-- What a text ends with when it is lowered is no blank, if the text ends with none. -/
theorem isBlank_of_getLast?_lower (ht : ∀ c ∈ t.getLast?, isBlank c = false) :
    ∀ x ∈ (lower t).getLast?, isBlank x = false := by
  suffices hafter : ∀ before, ∀ x ∈ (lowerAfter before t).getLast?, isBlank x = false from
    hafter []
  induction t with
  | nil => exact fun before x hx => nomatch hx
  | cons c t ih =>
    intro before x hx
    obtain ⟨p, hne, -, hp, hlower⟩ := exists_piece before c t
    rw [hlower] at hx
    cases t with
    | nil =>
      rw [lowerAfter, List.append_nil] at hx
      exact hp (ht c rfl) x (List.mem_of_mem_getLast? hx)
    | cons d t =>
      obtain ⟨q, hq, -, -, hrest⟩ := exists_piece (c :: before) d t
      have hnil : lowerAfter (c :: before) (d :: t) ≠ [] := fun h =>
        hq (List.append_eq_nil_iff.mp (hrest ▸ h)).1
      rw [List.getLast?_append_of_ne_nil _ hnil] at hx
      exact ih (fun e he => ht e (by rw [List.getLast?_cons_cons]; exact he)) _ x hx

theorem meetsCased_append (hz : meetsCased z = false) (t : Text) :
    meetsCased (t ++ z) = meetsCased t := by
  rw [meetsCased, meetsCased, List.dropWhile_append]
  split_ifs with hempty
  · rw [List.isEmpty_iff.mp hempty]
    exact hz
  · rw [List.head?_append_of_ne_nil _ fun h => hempty (List.isEmpty_iff.mpr h)]

theorem lowerAfter_append (hz : meetsCased z = false) (t : Text) : ∀ before,
    lowerAfter before (t ++ z) = lowerAfter before t ++ lowerAfter (t.reverse ++ before) z := by
  induction t with
  | nil => exact fun before => rfl
  | cons c t ih =>
    intro before
    rw [List.cons_append, lowerAfter, lowerAfter, ih, meetsCased_append hz, List.reverse_cons,
      List.append_assoc, List.append_assoc]
    rfl

/-- A text is lowered by itself in front of one that has no other lower case and does not begin with
a letter. -/
theorem lower_append (hz : meetsCased z = false) (hself : ∀ c ∈ z, lowerChar c = [c]) (t : Text) :
    lower (t ++ z) = lower t ++ z := by
  rw [lower, lowerAfter_append hz, lowerAfter_eq_self hself]
  rfl

end TableTypes.Text
