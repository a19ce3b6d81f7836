import TableTypes.Proofs.Text.Reader

/-!
# Blanks around a text

An `Inset` is a text with blanks around it, such as a text and what is left of it when it is
stripped (`Inset.ofText`).  No blank belongs to a word, so what a reader of words takes off a text
does not end with a blank (`EndsSolid`).  Such a reader may look at the blanks behind a text, but
leaves all of them over (`exists_rest_of_solid`), and so does a repetition of it
(`exists_rest_of_many`).
-/

namespace TableTypes.Text

variable {α : Type}

/-! ### Blanks and other characters -/

theorem forall_eq_false {p : Char → Bool} {t : Text} (h : t.any p = false) :
    ∀ c ∈ t, p c = false :=
  fun c hc => Bool.eq_false_iff.mpr (List.any_eq_false.mp h c hc)

/-- The code points of the blanks. -/
def blankCodes : List Nat :=
  [0x20, 0x09, 0x0a, 0x0b, 0x0c, 0x0d, 0x1c, 0x1d, 0x1e, 0x1f, 0x85, 0xa0, 0x1680, 0x2000, 0x2001,
    0x2002, 0x2003, 0x2004, 0x2005, 0x2006, 0x2007, 0x2008, 0x2009, 0x200a, 0x2028, 0x2029, 0x202f,
    0x205f, 0x3000]

theorem toNat_mem_blankCodes {c : Char} (hc : isBlank c = true) : c.toNat ∈ blankCodes := by
  simp only [isBlank, Bool.or_eq_true, Bool.and_eq_true, beq_iff_eq, decide_eq_true_eq] at hc
  simp only [blankCodes, List.mem_cons, List.not_mem_nil, or_false]
  omega

/-- What holds of each blank, looked up one by one, holds of what is blank. -/
theorem of_isBlank {p : Char → Bool} (h : (blankCodes.all fun n => p (Char.ofNat n)) = true)
    {c : Char} (hc : isBlank c = true) : p c = true := by
  have hp := List.all_eq_true.mp h c.toNat (toNat_mem_blankCodes hc)
  rwa [Char.ofNat_toNat] at hp

theorem eq_false_of_isBlank {p : Char → Bool}
    (h : (blankCodes.all fun n => !p (Char.ofNat n)) = true) {c : Char} (hc : isBlank c = true) :
    p c = false := by
  rw [← Bool.not_eq_true']
  exact of_isBlank (p := (!p ·)) h hc

theorem isWord_of_isBlank {c : Char} (hc : isBlank c = true) : isWord c = false :=
  eq_false_of_isBlank (by decide +kernel) hc

theorem isDecimal_of_isBlank {c : Char} (hc : isBlank c = true) : isDecimal c = false :=
  eq_false_of_isBlank (by decide +kernel) hc

theorem ne_of_isBlank {b c : Char} (hb : isBlank b = false) (hc : isBlank c = true) : c ≠ b := by
  rintro rfl
  rw [hc] at hb
  cases hb

theorem isBlank_eq_false_of {p : Char → Bool} (hp : ∀ c, isBlank c = true → p c = false) {c : Char}
    (hc : p c = true) : isBlank c = false := by
  rw [← Bool.not_eq_true]
  intro hblank
  rw [hp c hblank] at hc
  cases hc

/-! ### Stripped texts -/

/-- A text with blanks around it. -/
structure Inset where
  front : Text
  inner : Text
  back : Text
  front_blank : ∀ c ∈ front, isBlank c = true
  back_blank : ∀ c ∈ back, isBlank c = true

namespace Inset

/-- The whole text. -/
def text (s : Inset) : Text :=
  s.front ++ (s.inner ++ s.back)

/-- A text, as what is left of it when it is stripped with the blanks around that. -/
def ofText (t : Text) : Inset where
  front := t.takeWhile isBlank
  inner := strip t
  back := ((t.dropWhile isBlank).reverse.takeWhile isBlank).reverse
  front_blank := fun c hc => List.all_eq_true.mp List.all_takeWhile c hc
  back_blank := fun c hc => List.all_eq_true.mp List.all_takeWhile c (List.mem_reverse.mp hc)

@[simp] theorem text_ofText (t : Text) : (ofText t).text = t := by
  have hback : strip t ++ ((t.dropWhile isBlank).reverse.takeWhile isBlank).reverse =
      t.dropWhile isBlank := by
    rw [strip, trim, dropEndWhile, ← List.reverse_append, List.takeWhile_append_dropWhile,
      List.reverse_reverse]
  rw [text, ofText, hback, List.takeWhile_append_dropWhile]

@[simp] theorem inner_ofText (t : Text) : (ofText t).inner = strip t := rfl

theorem length_text (s : Inset) :
    s.text.length = s.front.length + s.inner.length + s.back.length := by
  rw [text, List.length_append, List.length_append, Nat.add_assoc]

theorem inner_subset (s : Inset) : s.inner ⊆ s.text := fun _ hc =>
  List.mem_append_right _ (List.mem_append_left _ hc)

theorem isAllBlank_text (s : Inset) : s.text.isAllBlank = s.inner.isAllBlank := by
  rw [text, isAllBlank, isAllBlank, List.all_append, List.all_append,
    List.all_eq_true.mpr s.front_blank, List.all_eq_true.mpr s.back_blank, Bool.true_and,
    Bool.and_true]

theorem newlines_take (s : Inset) {n : Nat} (hn : n ≤ s.inner.length) :
    newlines (s.text.take (s.front.length + n)) =
      newlines (s.inner.take n) + newlines s.front := by
  rw [text, List.take_append, List.take_of_length_le (by omega), Nat.add_sub_cancel_left,
    List.take_append_of_le_length hn, newlines, newlines, newlines, List.count_append,
    Nat.add_comm]

theorem drop_text (s : Inset) {n : Nat} (hn : n ≤ s.inner.length) :
    s.text.drop (s.front.length + n) = s.inner.drop n ++ s.back := by
  rw [text, List.drop_append, List.drop_of_length_le (by omega), Nat.add_sub_cancel_left,
    List.drop_append_of_le_length hn, List.nil_append]

theorem slice_text (s : Inset) {start stop : Nat} (hstart : start ≤ stop)
    (hstop : stop ≤ s.inner.length) :
    slice s.text (s.front.length + start) (s.front.length + stop) = slice s.inner start stop := by
  rw [slice, slice, s.drop_text (by omega), Nat.add_sub_add_left,
    List.take_append_of_le_length (by rw [List.length_drop]; omega)]

end Inset

/-- A text without a blank at either end is what is left when the blanks around it are stripped. -/
theorem Inset.strip_text (s : Inset) (hhead : ∀ c ∈ s.inner.head?, isBlank c = false)
    (hlast : ∀ c ∈ s.inner.getLast?, isBlank c = false) : strip s.text = s.inner := by
  rw [text, strip_append_of_blank s.front_blank]
  rcases List.eq_nil_or_concat s.inner with hnil | ⟨u, c, hinner⟩
  · rw [hnil, List.nil_append, strip_eq_nil_iff.mpr s.back_blank]
  · rw [List.concat_eq_append] at hinner
    have hfront : (s.inner ++ s.back).dropWhile isBlank = s.inner ++ s.back := by
      obtain ⟨d, v, hd⟩ : ∃ d v, s.inner = d :: v :=
        List.exists_cons_of_ne_nil (by simp [hinner])
      rw [hd] at hhead ⊢
      exact dropBlanks_of_head (v ++ s.back) (hhead d rfl)
    have hc : isBlank c = false := hlast c (by simp [hinner])
    rw [strip, trim, hfront, hinner, List.append_assoc, List.singleton_append,
      dropEndWhile_run hc s.back_blank]

theorem isAllBlank_strip (t : Text) : isAllBlank (strip t) = isAllBlank t := by
  rw [← Inset.inner_ofText, ← Inset.isAllBlank_text, Inset.text_ofText]

/-! ### Readers that end with a solid character -/

/-- What the reader takes off the text ends with a character that is not blank. -/
def EndsSolid (f : Text → Option Text) : Prop :=
  ∀ t r : Text, f t = some r → ∃ p c, t = p ++ c :: r ∧ isBlank c = false

/-- **Blanks behind a text are left over.** -/
theorem exists_rest_of_solid {t z r p : Text} {c : Char} (hz : ∀ x ∈ z, isBlank x = true)
    (h : t ++ z = p ++ c :: r) (hc : isBlank c = false) : ∃ s, r = s ++ z := by
  rw [List.append_cons] at h
  rcases List.append_eq_append_iff.mp h with ⟨a, ha, rfl⟩ | ⟨a, -, rfl⟩
  · -- The solid character cannot stand among the blanks.
    rcases List.eq_nil_or_concat a with rfl | ⟨a, d, rfl⟩
    · exact ⟨[], rfl⟩
    · rw [List.concat_eq_append, ← List.append_assoc] at ha
      obtain rfl : c = d := List.cons.inj (List.append_inj_right' ha rfl) |>.1
      rw [hz c (by simp)] at hc
      cases hc
  · exact ⟨a, rfl⟩

namespace EndsSolid

variable {f g : Text → Option Text}

/-- Only the last of two readers has to end with a solid character. -/
theorem bind (hf : ∀ {t r : Text}, f t = some r → r <:+ t) (hg : EndsSolid g) :
    EndsSolid fun t => (f t).bind g := by
  intro t r h
  obtain ⟨s, hs, hr⟩ := Option.bind_eq_some_iff.mp h
  obtain ⟨q, rfl⟩ := hf hs
  obtain ⟨p, c, rfl, hc⟩ := hg s r hr
  exact ⟨q ++ p, c, by rw [List.append_assoc], hc⟩

theorem orElse (hf : EndsSolid f) (hg : EndsSolid g) : EndsSolid fun t => f t <|> g t := by
  intro t r h
  have h : (f t <|> g t) = some r := h
  cases hft : f t with
  | some s => rw [hft] at h; exact hf t r (hft.trans h)
  | none => rw [hft] at h; exact hg t r h

end EndsSolid

theorem endsSolid_of_forall {p : Char → Bool} {t u r : Text}
    (hp : ∀ c, isBlank c = true → p c = false) (hne : u ≠ []) (hu : ∀ c ∈ u, p c = true)
    (h : t = u ++ r) : ∃ v c, t = v ++ c :: r ∧ isBlank c = false := by
  rcases List.eq_nil_or_concat u with rfl | ⟨v, c, rfl⟩
  · exact absurd rfl hne
  · rw [List.concat_eq_append] at h hu
    exact ⟨v, c, by rw [h, List.append_assoc, List.singleton_append],
      isBlank_eq_false_of hp (hu c (by simp))⟩

theorem endsSolid_word? : EndsSolid fun t => (word? t).map Prod.snd := by
  intro t r h
  obtain ⟨⟨w, _⟩, hw, rfl⟩ := Option.map_eq_some_iff.mp h
  obtain ⟨ht, hne, hword⟩ := word?_eq_some hw
  exact endsSolid_of_forall (fun c => isWord_of_isBlank) hne hword ht

theorem endsSolid_keyword? {k : Text} (hk : isKeyword k = true) (hne : k ≠ []) :
    EndsSolid (keyword? k) := by
  intro t r h
  obtain ⟨u, hu, hletters⟩ := keyword?_eq_some_iff.mp h
  have hword : ∀ c ∈ u, isWord c = true := by
    obtain ⟨u', hu', hword⟩ := exists_of_keyword? hk h
    rwa [List.append_cancel_right (hu.symm.trans hu')]
  refine endsSolid_of_forall (fun c => isWord_of_isBlank) ?_ hword hu
  rintro rfl
  exact hne (List.forall₂_nil_right_iff.mp hletters)

theorem endsSolid_phrase? {ws : List Text} (hws : ∀ w ∈ ws, isKeyword w = true ∧ w ≠ [])
    (hne : ws ≠ []) : EndsSolid (phrase? ws) := by
  induction ws with
  | nil => exact absurd rfl hne
  | cons w ws ih =>
    cases ws with
    | nil => exact endsSolid_keyword? (hws w (by simp)).1 (hws w (by simp)).2
    | cons v ws =>
      have hrest := ih (fun x hx => hws x (List.mem_cons_of_mem w hx)) (List.cons_ne_nil v ws)
      have h := EndsSolid.bind (isReader_keyword? w).suffix
        (EndsSolid.bind isReader_dropBlanks1?.suffix hrest)
      rwa [← funext (phrase?_cons_cons w v ws)] at h

theorem endsSolid_anyPhrase? {phrases : List (List Text)}
    (h : ∀ ws ∈ phrases, (∀ w ∈ ws, isKeyword w = true ∧ w ≠ []) ∧ ws ≠ []) :
    EndsSolid (anyPhrase? phrases) := by
  intro t r hr
  obtain ⟨ws, hws, hr⟩ := List.exists_of_findSome?_eq_some hr
  exact endsSolid_phrase? (h ws hws).1 (h ws hws).2 t r (Option.eq_some_of_filter_eq_some hr)

/-! ### Repetition -/

/-- A repetition takes nothing off the text or ends with a solid character. -/
theorem manyUpTo_endsSolid {m : Text → Option (α × Text)}
    (hm : EndsSolid fun t => (m t).map Prod.snd) (n : Nat) : ∀ t : Text,
      (manyUpTo m n t).2 = t ∨ ∃ p c, t = p ++ c :: (manyUpTo m n t).2 ∧ isBlank c = false := by
  induction n with
  | zero => exact fun t => Or.inl rfl
  | succ n ih =>
    intro t
    by_cases hstuck : ∀ p, m t = some p → t.length ≤ p.2.length
    · exact Or.inl (congrArg Prod.snd (manyUpTo_stuck hstuck (n + 1)))
    · simp only [not_forall, Nat.not_le] at hstuck
      obtain ⟨⟨a, s⟩, hmt, hlt⟩ := hstuck
      obtain ⟨p, c, hsplit, hc⟩ := hm t s (congrArg (Option.map Prod.snd) hmt)
      rw [manyUpTo_succ hmt hlt]
      rcases ih s with hs | ⟨q, d, hs, hd⟩
      · exact Or.inr ⟨p, c, by rw [hs, hsplit], hc⟩
      · refine Or.inr ⟨p ++ c :: q, d, ?_, hd⟩
        rw [hsplit, List.append_assoc, List.cons_append]
        exact congrArg (p ++ c :: ·) hs

/-- What the function takes off the text, if anything, ends with a character that is not blank. -/
def CutsSolid (g : Text → Text) : Prop :=
  ∀ t : Text, g t = t ∨ ∃ p c, t = p ++ c :: g t ∧ isBlank c = false

namespace EndsSolid

variable {f : Text → Option Text} {g : Text → Text} {m : Text → Option (α × Text)}

theorem getD (hf : EndsSolid f) : CutsSolid fun t => (f t).getD t := by
  intro t
  show (f t).getD t = t ∨ ∃ p c, t = p ++ c :: (f t).getD t ∧ isBlank c = false
  cases hft : f t with
  | none => exact Or.inl rfl
  | some r => exact Or.inr (hf t r hft)

theorem many (hm : EndsSolid fun t => (m t).map Prod.snd) : CutsSolid fun t => (Text.many m t).2 :=
  fun t => manyUpTo_endsSolid hm t.length t

theorem map (hf : EndsSolid f) (hg : CutsSolid g) : EndsSolid fun t => (f t).map g := by
  intro t r h
  obtain ⟨s, hs, rfl⟩ := Option.map_eq_some_iff.mp h
  obtain ⟨p, c, hsplit, hc⟩ := hf t s hs
  rcases hg s with hsame | ⟨q, d, hrest, hd⟩
  · exact ⟨p, c, by rw [hsame, hsplit], hc⟩
  · refine ⟨p ++ c :: q, d, ?_, hd⟩
    rw [hsplit, List.append_assoc, List.cons_append]
    exact congrArg (p ++ c :: ·) hrest

end EndsSolid

theorem exists_rest_of_many {m : Text → Option (α × Text)}
    (hm : EndsSolid fun t => (m t).map Prod.snd) {t z : Text} (hz : ∀ c ∈ z, isBlank c = true) :
    ∃ s, (many m (t ++ z)).2 = s ++ z := by
  rcases manyUpTo_endsSolid hm (t ++ z).length (t ++ z) with h | ⟨p, c, h, hc⟩
  · exact ⟨t, h⟩
  · exact exists_rest_of_solid hz h hc

end TableTypes.Text
