import TableTypes.Proofs.Text.Cutting
import TableTypes.Text.Keyword
import Mathlib.Data.List.Forall2

/-!
# Keywords in front of words

A word of ASCII letters, digits and underscores is read as a keyword exactly if it spells it
(`keyword?_eq_some_nil_iff`).  A keyword that only begins a word is read too, but what follows it
then goes on inside the word (`keyword?_inside`), so nothing that needs a blank or the end of the
word behind the keyword can succeed there.
-/

namespace TableTypes.Text

/-! ### ASCII words -/

/-- Whether `c` is an ASCII letter, an ASCII digit or an underscore. -/
def isAsciiWord (c : Char) : Bool :=
  isAsciiLetter c || isAsciiDigit c || c = '_'

theorem isAsciiDigit_iff {c : Char} : isAsciiDigit c = true ↔ 48 ≤ c.toNat ∧ c.toNat ≤ 57 := by
  simp only [isAsciiDigit, Bool.and_eq_true, decide_eq_true_eq]
  exact Iff.rfl

theorem isAsciiLetter_iff {c : Char} : isAsciiLetter c = true ↔
    (97 ≤ c.toNat ∧ c.toNat ≤ 122) ∨ (65 ≤ c.toNat ∧ c.toNat ≤ 90) := by
  simp only [isAsciiLetter, Bool.or_eq_true, Bool.and_eq_true, decide_eq_true_eq]
  exact Iff.rfl

theorem eq_iff_toNat {c d : Char} : c = d ↔ c.toNat = d.toNat :=
  ⟨fun h => by rw [h], fun h => Char.ext (UInt32.toNat_inj.mp h)⟩

theorem isAsciiWord_iff {c : Char} : isAsciiWord c = true ↔
    (97 ≤ c.toNat ∧ c.toNat ≤ 122) ∨ (65 ≤ c.toNat ∧ c.toNat ≤ 90) ∨
      (48 ≤ c.toNat ∧ c.toNat ≤ 57) ∨ c.toNat = 95 := by
  rw [isAsciiWord, Bool.or_eq_true, Bool.or_eq_true, isAsciiLetter_iff, isAsciiDigit_iff,
    decide_eq_true_eq, eq_iff_toNat, or_assoc, or_assoc]
  exact Iff.rfl

theorem isAsciiWord_of_isAsciiDigit {c : Char} (hc : isAsciiDigit c = true) :
    isAsciiWord c = true := by
  rw [isAsciiWord, hc, Bool.or_true, Bool.true_or]

theorem isAsciiWord_of_isAsciiLetter {c : Char} (hc : isAsciiLetter c = true) :
    isAsciiWord c = true := by
  rw [isAsciiWord, hc, Bool.true_or, Bool.true_or]

theorem lt_of_isAsciiWord {c : Char} (hc : isAsciiWord c = true) : c.toNat < 0x80 := by
  rw [isAsciiWord_iff] at hc
  omega

theorem isWord_of_isAsciiWord {c : Char} (hc : isAsciiWord c = true) : isWord c = true := by
  rw [isWord, if_pos (lt_of_isAsciiWord hc)]
  exact hc

theorem isBlank_of_isAsciiWord {c : Char} (hc : isAsciiWord c = true) : isBlank c = false := by
  rw [isAsciiWord_iff] at hc
  simp only [isBlank, Bool.or_eq_false_iff, Bool.and_eq_false_iff, beq_eq_false_iff_ne,
    decide_eq_false_iff_not]
  omega

theorem atWordEnd_cons {c : Char} (hc : isWord c = false) (t : Text) :
    atWordEnd (c :: t) = true := by
  rw [atWordEnd, List.head?_cons, Option.all_some, hc]
  rfl

section

variable {w : Text} (hne : w ≠ []) (hw : ∀ c ∈ w, isAsciiWord c = true) (t : Text)

include hne hw

theorem isBlank_head?_word : ∀ c ∈ (w ++ t).head?, isBlank c = false := by
  obtain ⟨c, v, rfl⟩ := List.exists_cons_of_ne_nil hne
  rintro x ⟨⟩
  exact isBlank_of_isAsciiWord (hw c List.mem_cons_self)

/-- There is no blank in front of a word. -/
theorem dropBlanks_word : dropBlanks (w ++ t) = w ++ t := by
  obtain ⟨c, v, rfl⟩ := List.exists_cons_of_ne_nil hne
  exact dropBlanks_of_head _ (isBlank_of_isAsciiWord (hw c List.mem_cons_self))

theorem isAllBlank_word : (w ++ t).isAllBlank = false := by
  obtain ⟨c, v, rfl⟩ := List.exists_cons_of_ne_nil hne
  rw [List.cons_append, isAllBlank, List.all_cons,
    isBlank_of_isAsciiWord (hw c List.mem_cons_self)]
  rfl

end

/-! ### Letters of keywords -/

/-- Whether `k` is written the way keywords are: in ASCII, without upper case. -/
def isKeyword (k : Text) : Bool :=
  k.all fun c => isAsciiWord c && c.toLower = c

theorem isAsciiWord_of_toLower {c : Char} (h : isAsciiWord c.toLower = true) :
    isAsciiWord c = true := by
  unfold Char.toLower at h
  split at h
  · rename_i hc
    rw [isAsciiWord_iff]
    right; left
    exact hc
  · exact h

theorem toLower_of_isAsciiDigit {c : Char} (hc : isAsciiDigit c = true) : c.toLower = c := by
  rw [isAsciiDigit_iff] at hc
  unfold Char.toLower
  split
  · rename_i h
    have hupper : 65 ≤ c.toNat := h.1
    omega
  · rfl

theorem isWord_of_matchesLetter {k c : Char} (hk : isAsciiWord k = true)
    (h : matchesLetter k c = true) : isWord c = true := by
  simp only [matchesLetter, Bool.or_eq_true, Bool.and_eq_true, decide_eq_true_eq] at h
  rcases h with (((rfl | rfl) | ⟨-, rfl | rfl⟩) | ⟨-, rfl⟩) | ⟨-, rfl⟩
  · exact isWord_of_isAsciiWord hk
  · exact isWord_of_isAsciiWord (isAsciiWord_of_toLower hk)
  all_goals decide +kernel

theorem matchesLetter_iff {k c : Char} (hk : k.toLower = k) (hc : isAsciiWord c = true) :
    matchesLetter k c = true ↔ c.toLower = k := by
  have hascii := lt_of_isAsciiWord hc
  have hne : ∀ d : Char, 0x80 ≤ d.toNat → c ≠ d := by
    intro d hd h
    rw [h] at hascii
    omega
  simp only [matchesLetter, Bool.or_eq_true, Bool.and_eq_true, decide_eq_true_eq,
    hne '\u0130' (by decide), hne '\u0131' (by decide), hne '\u017f' (by decide),
    hne '\u212a' (by decide), or_false, and_false]
  exact ⟨fun h => h.elim (fun h => h ▸ hk) id, Or.inr⟩

/-- No letter is matched by what cannot stand in a word. -/
theorem matchesLetter_eq_false {k c : Char} (hk : isAsciiWord k = true) (hc : isWord c = false) :
    matchesLetter k c = false := by
  rw [← Bool.not_eq_true]
  intro h
  rw [isWord_of_matchesLetter hk h] at hc
  cases hc

/-! ### Keywords -/

theorem isKeyword_cons {x : Char} {k : Text} : isKeyword (x :: k) = true ↔
    (isAsciiWord x = true ∧ x.toLower = x) ∧ isKeyword k = true := by
  simp only [isKeyword, List.all_cons, Bool.and_eq_true, decide_eq_true_eq]

/-- A keyword ends at the latest where its word ends. -/
theorem keyword?_append {s : Text} (hs : atWordEnd s = true) (w : Text) : ∀ {k : Text},
    isKeyword k = true → keyword? k (w ++ s) = (keyword? k w).map (· ++ s) := by
  induction w with
  | nil =>
    intro k hk
    cases k with
    | nil => rfl
    | cons x k =>
      cases s with
      | nil => rfl
      | cons c s =>
        rw [atWordEnd, List.head?_cons, Option.all_some, Bool.not_eq_true'] at hs
        show keyword? (x :: k) (c :: s) = none
        rw [keyword?, matchesLetter_eq_false (isKeyword_cons.mp hk).1.1 hs]
        rfl
  | cons c w ih =>
    intro k hk
    cases k with
    | nil => rfl
    | cons x k =>
      rw [List.cons_append, keyword?, keyword?, ih (isKeyword_cons.mp hk).2]
      split <;> rfl

/-- A keyword is read if the letters in front match its own one by one. -/
theorem keyword?_eq_some_iff {k t r : Text} : keyword? k t = some r ↔
    ∃ u, t = u ++ r ∧ List.Forall₂ (fun x c => matchesLetter x c = true) k u := by
  induction k generalizing t with
  | nil =>
    rw [keyword?, Option.some.injEq]
    constructor
    · rintro rfl
      exact ⟨[], rfl, .nil⟩
    · rintro ⟨u, rfl, hu⟩
      cases hu
      rfl
  | cons x k ih =>
    cases t with
    | nil =>
      constructor
      · intro h; cases h
      · rintro ⟨u, ht, hu⟩
        cases hu
        cases ht
    | cons c t =>
      rw [keyword?]
      split
      · rename_i hc
        rw [ih]
        constructor
        · rintro ⟨u, rfl, hu⟩
          exact ⟨c :: u, rfl, .cons hc hu⟩
        · rintro ⟨u, ht, hu⟩
          cases hu with
          | cons _ hu =>
            obtain ⟨-, rfl⟩ := List.cons.inj ht
            exact ⟨_, rfl, hu⟩
      · rename_i hc
        constructor
        · intro h; cases h
        · rintro ⟨u, ht, hu⟩
          cases hu with
          | cons hd hu =>
            obtain ⟨rfl, -⟩ := List.cons.inj ht
            exact absurd hd hc

theorem keyword?_eq_some {k t r : Text} (h : keyword? k t = some r) :
    ∃ u, t = u ++ r ∧ u.length = k.length := by
  obtain ⟨u, ht, hu⟩ := keyword?_eq_some_iff.mp h
  exact ⟨u, ht, hu.length_eq.symm⟩

/-- A word is read as a keyword to its end if it spells the keyword. -/
theorem keyword?_eq_some_nil_iff {k w : Text} (hk : isKeyword k = true)
    (hw : ∀ c ∈ w, isAsciiWord c = true) : keyword? k w = some [] ↔ w.map Char.toLower = k := by
  induction k generalizing w with
  | nil => cases w <;> simp [keyword?]
  | cons x k ih =>
    cases w with
    | nil => simp [keyword?]
    | cons c w =>
      rw [isKeyword_cons] at hk
      have hc := matchesLetter_iff hk.1.2 (hw c List.mem_cons_self)
      have hrest := ih hk.2 (fun d hd => hw d (List.mem_cons_of_mem c hd))
      rw [keyword?, List.map_cons, List.cons.injEq, ← hc, ← hrest]
      by_cases h : matchesLetter x c = true
      · rw [if_pos h]; exact ⟨fun h' => ⟨h, h'⟩, fun h' => h'.2⟩
      · rw [if_neg h]; exact ⟨fun h' => absurd h' (by simp), fun h' => absurd h'.1 h⟩

/-- A word that does not spell a keyword either does not begin with it or goes on behind it. -/
theorem keyword?_inside {k w s r : Text} (hk : isKeyword k = true)
    (hw : ∀ c ∈ w, isAsciiWord c = true) (hs : atWordEnd s = true) (hne : w.map Char.toLower ≠ k)
    (h : keyword? k (w ++ s) = some r) : ∃ c u, isAsciiWord c = true ∧ r = c :: (u ++ s) := by
  rw [keyword?_append hs w hk, Option.map_eq_some_iff] at h
  obtain ⟨v, hv, rfl⟩ := h
  cases v with
  | nil => exact absurd ((keyword?_eq_some_nil_iff hk hw).mp hv) hne
  | cons c v =>
    obtain ⟨u, hu, -⟩ := keyword?_eq_some hv
    exact ⟨c, v, hw c (by rw [hu]; simp), rfl⟩

/-- Behind a keyword that a word does not spell there is no blank. -/
theorem keyword?_bind_dropBlanks1? {k w s : Text} (hk : isKeyword k = true)
    (hw : ∀ c ∈ w, isAsciiWord c = true) (hs : atWordEnd s = true)
    (hne : w.map Char.toLower ≠ k) : (keyword? k (w ++ s)).bind dropBlanks1? = none := by
  cases h : keyword? k (w ++ s) with
  | none => rfl
  | some r =>
    obtain ⟨c, u, hc, rfl⟩ := keyword?_inside hk hw hs hne h
    exact dropBlanks1?_of_head _ (isBlank_of_isAsciiWord hc)

/-! ### Phrases -/

theorem phrase?_eq_none {k l w s : Text} {ks : List Text} (hk : isKeyword k = true)
    (hw : ∀ c ∈ w, isAsciiWord c = true) (hs : atWordEnd s = true)
    (hne : w.map Char.toLower ≠ k) : phrase? (k :: l :: ks) (w ++ s) = none := by
  have h := keyword?_bind_dropBlanks1? hk hw hs hne
  rw [phrase?]
  · cases hr : keyword? k (w ++ s) with
    | none => rfl
    | some r =>
      rw [hr, Option.bind_some] at h
      rw [Option.bind_some, h]
      rfl
  · exact List.cons_ne_nil l ks

theorem wholePhrase?_eq_none {k w s : Text} {ks : List Text} (hk : isKeyword k = true)
    (hw : ∀ c ∈ w, isAsciiWord c = true) (hs : atWordEnd s = true)
    (hne : w.map Char.toLower ≠ k) : wholePhrase? (k :: ks) (w ++ s) = none := by
  rw [wholePhrase?]
  cases ks with
  | cons l ks => rw [phrase?_eq_none hk hw hs hne]; rfl
  | nil =>
    rw [phrase?]
    cases h : keyword? k (w ++ s) with
    | none => rfl
    | some r =>
      obtain ⟨c, u, hc, rfl⟩ := keyword?_inside hk hw hs hne h
      rw [Option.filter_some, atWordEnd, List.head?_cons, Option.all_some,
        isWord_of_isAsciiWord hc]
      rfl

/-- At a word that begins none of the phrases there is none of them. -/
theorem anyPhrase?_eq_none {phrases : List (List Text)} {w s : Text}
    (hk : phrases.all (fun ws => ws.head?.any isKeyword) = true)
    (hw : ∀ c ∈ w, isAsciiWord c = true) (hs : atWordEnd s = true)
    (hne : w.map Char.toLower ∉ phrases.filterMap List.head?) :
    anyPhrase? phrases (w ++ s) = none := by
  apply List.findSome?_eq_none_iff.mpr
  intro ws hws
  have hfirst := List.all_eq_true.mp hk ws hws
  cases ws with
  | nil => cases hfirst
  | cons k ks =>
    refine wholePhrase?_eq_none hfirst hw hs ?_
    intro h
    exact hne (List.mem_filterMap.mpr ⟨k :: ks, hws, by rw [h]; rfl⟩)

/-- The word at the front of a text. -/
theorem word?_run {w r : Text} (hne : w ≠ []) (hw : ∀ c ∈ w, isWord c = true)
    (hr : atWordEnd r = true) : word? (w ++ r) = some (w, r) := by
  have hend : ∀ c ∈ r.head?, isWord c = false := by
    intro c hc
    rw [atWordEnd, Option.mem_def.mp hc, Option.all_some, Bool.not_eq_true'] at hr
    exact hr
  rw [word?, takeWhile_run hw hend, dropWhile_run hw hend]
  cases w with
  | nil => exact absurd rfl hne
  | cons c w => rfl

theorem word?_eq_some {t w r : Text} (h : word? t = some (w, r)) :
    t = w ++ r ∧ w ≠ [] ∧ ∀ c ∈ w, isWord c = true := by
  have hsplit : t.takeWhile isWord ++ t.dropWhile isWord = t := List.takeWhile_append_dropWhile
  have hall : ∀ c ∈ t.takeWhile isWord, isWord c = true := fun c hc =>
    List.all_eq_true.mp List.all_takeWhile c hc
  unfold word? at h
  split at h
  · cases h
  · rename_i hne
    obtain ⟨rfl, rfl⟩ := Prod.mk.inj (Option.some.inj h)
    exact ⟨hsplit.symm, hne, hall⟩

theorem word?_append {w s : Text} (hne : w ≠ []) (hw : ∀ c ∈ w, isAsciiWord c = true)
    (hs : atWordEnd s = true) : word? (w ++ s) = some (w, s) :=
  word?_run hne (fun c hc => isWord_of_isAsciiWord (hw c hc)) hs

end TableTypes.Text
