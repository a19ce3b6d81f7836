import TableTypes.Proofs.TypeMap.Supported
import Mathlib.Logic.Function.Iterate

/-!
# How normal normal forms are

The normal form of a type is in lower case, has no size and no blank but single spaces between its
words (`isTidy_normalType`).  Of the modifiers at the end of the type without its sizes it has all
but the last: each pass of the normalization takes one of them off (`SignedType.dropSign_text`).
So a second pass changes nothing exactly if the type has at most one modifier
(`normalType_normal_iff`).
-/

namespace TableTypes

open Text

variable {t u w x y : Text}

/-! ### Sizes -/

/-- A text has a size in it exactly if a parenthesis is opened and later one is closed. -/
theorem exists_isSize_iff : (∃ b, IsSize b ∧ b <:+: t) ↔ ['(', ')'].Sublist t := by
  constructor
  · rintro ⟨b, ⟨w, -, rfl⟩, hpart⟩
    refine List.Sublist.trans ?_ hpart.sublist
    exact List.Sublist.cons_cons '(' (List.singleton_sublist.mpr (by simp))
  · intro hsub
    obtain ⟨x, y, rfl, hopen, hclose⟩ := List.cons_sublist_iff.mp hsub
    obtain ⟨p, q, rfl⟩ := List.append_of_mem hopen
    have hmem : ')' ∈ q ++ y := List.mem_append_right q (List.singleton_sublist.mp hclose)
    obtain ⟨w, r, hsplit, hw⟩ := List.eq_append_cons_of_mem hmem
    refine ⟨'(' :: (w ++ [')']), ⟨w, hw, rfl⟩, p, r, ?_⟩
    simp [hsplit]

/-- No size is left when the sizes are taken out. -/
theorem not_sublist_replaceAll_size? (t : Text) : ¬['(', ')'].Sublist (replaceAll size? [] t) := by
  refine (replaceAll_induction takesPiece_size? (motive := fun t t' =>
    t'.Sublist t ∧ ¬['(', ')'].Sublist t') ?_ ?_ ?_ t).2
  · simp
  · intro c t t' hnone ⟨hsub, hsizes⟩
    refine ⟨hsub.cons_cons c, fun hpair => ?_⟩
    cases hpair with
    | cons _ hpair => exact hsizes hpair
    | cons_cons _ hclose =>
      -- A parenthesis that begins no size has no closing one behind it.
      have hmem : ')' ∈ t := hsub.subset (List.singleton_sublist.mp hclose)
      obtain ⟨w, r, rfl, hw⟩ := List.eq_append_cons_of_mem hmem
      rw [size?_cons_of_mem hw] at hnone
      cases hnone
  · rintro b r r' - ⟨hsub, hsizes⟩
    exact ⟨hsub.trans (List.sublist_append_right b r), hsizes⟩

/-- A text without sizes stays as it is. -/
theorem replaceAll_size?_eq_self (h : ¬['(', ')'].Sublist t) : replaceAll size? [] t = t := by
  induction t with
  | nil => rfl
  | cons c t ih =>
    have hnone : size? (c :: t) = none := by
      by_cases hc : c = '('
      · subst hc
        exact size?_cons_of_not_mem fun hmem =>
          h ((List.singleton_sublist.mpr hmem).cons_cons '(')
      · rw [size?]
        exact fun _ heq => hc (List.cons.inj heq).1
    rw [replaceAll_cons hnone, ih fun hsub => h (hsub.cons c)]

/-! ### Tidy types -/

/-- A type in lower case and without sizes, whose only blanks are single spaces inside. -/
structure IsTidy (t : Text) : Prop where
  lower : ∀ c ∈ t, lowerChar c = [c]
  sizes : ∀ b, IsSize b → ¬b <:+: t
  spaces : ∀ c ∈ t, isBlank c = true → c = ' '
  single : ¬[' ', ' '] <:+: t
  head : ∀ c ∈ t.head?, isBlank c = false
  last : ∀ c ∈ t.getLast?, isBlank c = false

/-- The type without its sizes, in lower case and with single spaces. -/
def unsizedType (t : Text) : Text :=
  strip (collapseBlanks (replaceAll size? [] (lower (strip t))))

theorem mem_of_mem_unsizedType {c : Char} (h : c ∈ unsizedType t) :
    c ∈ lower (strip t) ∨ c = ' ' :=
  (mem_of_mem_collapseBlanks ((strip_sublist _).subset h)).imp_left
    fun hc => (replaceFrom_nil_sublist size? _ 0).subset hc

theorem isTidy_unsizedType (t : Text) : IsTidy (unsizedType t) where
  lower := by
    intro c hc
    obtain hc | rfl := mem_of_mem_unsizedType hc
    · exact lowerChar_of_mem_lower hc
    · decide
  sizes := by
    intro b hb hpart
    have hpair : ['(', ')'].Sublist
        (collapseBlanks (replaceAll size? [] (lower (strip t)))) :=
      (exists_isSize_iff.mp ⟨b, hb, hpart⟩).trans (strip_sublist _)
    have hkept := hpair.filter (!isBlank ·)
    rw [filter_collapseBlanks] at hkept
    exact not_sublist_replaceAll_size? _ (hkept.trans List.filter_sublist)
  spaces := fun _ hc => eq_space_of_mem_collapseBlanks ((strip_sublist _).subset hc)
  single := by
    intro hpart
    obtain ⟨l, r, hsplit, -⟩ := strip_split
      (collapseBlanks (replaceAll size? [] (lower (strip t))))
    refine not_infix_collapseBlanks (replaceAll size? [] (lower (strip t))) ?_
    rw [hsplit]
    exact hpart.trans ⟨l, r, List.append_assoc _ _ _⟩
  head := isBlank_of_head?_strip
  last := isBlank_of_getLast?_strip

namespace IsTidy

theorem unsizedType_eq (h : IsTidy t) : unsizedType t = t := by
  have hstrip : strip t = t := strip_eq_self h.head h.last
  have hsizes : ¬['(', ')'].Sublist t := by
    rw [← exists_isSize_iff]
    exact fun ⟨b, hb, hpart⟩ => h.sizes b hb hpart
  rw [unsizedType, hstrip, lower_eq_self h.lower, replaceAll_size?_eq_self hsizes,
    collapseBlanks_eq_self h.spaces h.single, hstrip]

end IsTidy

/-! ### Modifiers -/

/-- Whether the text ends with a modifier. -/
def IsSigned (t : Text) : Prop :=
  ∃ w ∈ signModifiers, w <:+ t

theorem Text.endsWith_iff : endsWith w t = true ↔ w <:+ t := by
  rw [endsWith, Option.isSome_iff_exists, ← List.reverse_prefix]
  simp only [after?_eq_some_iff]
  exact exists_congr fun r => eq_comm

/-- No modifier ends with another one. -/
theorem eq_of_suffix_modifier {v : Text} (hv : v ∈ signModifiers) (hw : w ∈ signModifiers)
    (h : v <:+ w) : v = w := by
  have hall : ∀ v ∈ signModifiers, ∀ w ∈ signModifiers, v <:+ w → v = w := by decide
  exact hall v hv w hw h

theorem dropSign_append (hw : w ∈ signModifiers) (x : Text) : dropSign (x ++ w) = x := by
  have hfind : signModifiers.find? (endsWith · (x ++ w)) = some w := by
    obtain ⟨v, hfind⟩ : ∃ v, signModifiers.find? (endsWith · (x ++ w)) = some v := by
      rw [← Option.isSome_iff_exists, List.find?_isSome]
      exact ⟨w, hw, endsWith_iff.mpr (List.suffix_append x w)⟩
    -- Of two modifiers at the end of a text one ends with the other.
    have hends := endsWith_iff.mp (List.find?_some (p := (endsWith · (x ++ w))) hfind)
    have hv := List.mem_of_find?_eq_some hfind
    rw [hfind]
    rcases List.suffix_or_suffix_of_suffix hends (List.suffix_append x w) with h | h
    · rw [eq_of_suffix_modifier hv hw h]
    · rw [eq_of_suffix_modifier hw hv h]
  rw [dropSign, hfind]
  simp

theorem dropSign_of_not_isSigned (h : ¬IsSigned t) : dropSign t = t := by
  have hfind : signModifiers.find? (endsWith · t) = none := by
    rw [List.find?_eq_none]
    exact fun w hw hends => h ⟨w, hw, endsWith_iff.mp hends⟩
  rw [dropSign, hfind]

/-- A type keeps its form exactly if it ends with no modifier. -/
theorem dropSign_eq_self_iff : dropSign t = t ↔ ¬IsSigned t := by
  refine ⟨fun h hsigned => ?_, dropSign_of_not_isSigned⟩
  obtain ⟨w, hw, x, rfl⟩ := hsigned
  have hne : ∀ w ∈ signModifiers, w ≠ [] := by decide
  rw [dropSign_append hw] at h
  exact hne w hw (List.self_eq_append_right.mp h)

/-- A tidy type is tidy without a modifier at its end, which has the only space before it. -/
theorem IsTidy.of_append (h : IsTidy (x ++ w)) (hw : w ∈ signModifiers) : IsTidy x where
  lower := fun c hc => h.lower c (List.mem_append_left w hc)
  sizes := fun b hb hpart => h.sizes b hb (hpart.trans (List.prefix_append x w).isInfix)
  spaces := fun c hc => h.spaces c (List.mem_append_left w hc)
  single := fun hpart => h.single (hpart.trans (List.prefix_append x w).isInfix)
  head := fun c hc => h.head c (by rw [List.head?_append, hc]; rfl)
  last := by
    intro c hc
    rw [← Bool.not_eq_true]
    intro hblank
    have hspace : ∀ w ∈ signModifiers, w = ' ' :: w.tail := by decide
    obtain ⟨y, rfl⟩ := List.getLast?_eq_some_iff.mp hc
    obtain rfl := h.spaces c (by simp) hblank
    refine h.single ⟨y, w.tail, ?_⟩
    conv_rhs => rw [hspace w hw]
    simp

theorem IsTidy.dropSign (h : IsTidy t) : IsTidy (dropSign t) := by
  by_cases hsigned : IsSigned t
  · obtain ⟨w, hw, x, rfl⟩ := hsigned
    rw [dropSign_append hw]
    exact h.of_append hw
  · rwa [dropSign_of_not_isSigned hsigned]

/-! ### One pass -/

theorem normalType_eq (t : Text) : normalType t = dropSign (unsizedType t) := by
  have htidy := (isTidy_unsizedType t).dropSign
  rw [normalType, ← unsizedType, strip_eq_self htidy.head htidy.last]

theorem IsTidy.normalType (h : IsTidy t) : normalType t = TableTypes.dropSign t := by
  rw [normalType_eq, h.unsizedType_eq]

theorem isTidy_normalType (t : Text) : IsTidy (normalType t) := by
  rw [normalType_eq]
  exact (isTidy_unsizedType t).dropSign

/-! ### All passes -/

/-- A type as it is without the modifiers at its end, and these modifiers in order. -/
structure SignedType where
  base : Text
  signs : List Text
  signs_mem : ∀ w ∈ signs, w ∈ signModifiers
  base_bare : ¬IsSigned base

namespace SignedType

variable (s : SignedType)

/-- The type with its modifiers. -/
def text : Text :=
  s.base ++ s.signs.flatten

/-- The type with the first `n` of its modifiers. -/
def keep (n : Nat) : SignedType where
  base := s.base
  signs := s.signs.take n
  signs_mem := fun w hw => s.signs_mem w (List.mem_of_mem_take hw)
  base_bare := s.base_bare

@[simp] theorem keep_length : s.keep s.signs.length = s := by
  simp [keep]

@[simp] theorem keep_keep (n k : Nat) : (s.keep n).keep k = s.keep (min k n) := by
  simp [keep, List.take_take]

@[simp] theorem length_keep (n : Nat) : (s.keep n).signs.length = min n s.signs.length := by
  simp [keep]

/-- Every text is what is left of it without modifiers, with those behind it. -/
theorem exists_text (t : Text) : ∃ s : SignedType, t = s.text := by
  induction hn : t.length using Nat.strong_induction_on generalizing t with
  | _ n ih =>
    by_cases h : IsSigned t
    · obtain ⟨w, hw, x, rfl⟩ := h
      have hpos : ∀ w ∈ signModifiers, 0 < w.length := by decide
      obtain ⟨s, rfl⟩ := ih x.length (by simp [← hn, hpos w hw]) x rfl
      refine ⟨⟨s.base, s.signs ++ [w], ?_, s.base_bare⟩, by simp [text]⟩
      intro v hv
      rcases List.mem_append.mp hv with hv | hv
      · exact s.signs_mem v hv
      · rwa [List.mem_singleton.mp hv]
    · exact ⟨⟨t, [], by simp, h⟩, by simp [text]⟩

/-- The last of the modifiers stands at the end. -/
theorem text_of_concat {s : SignedType} {ws : List Text} (h : s.signs = ws ++ [w]) :
    w ∈ signModifiers ∧ s.text = (s.base ++ ws.flatten) ++ w :=
  ⟨s.signs_mem w (by simp [h]), by simp [text, h]⟩

theorem isSigned_text : IsSigned s.text ↔ s.signs ≠ [] := by
  constructor
  · intro h hnil
    rw [text, hnil, List.flatten_nil, List.append_nil] at h
    exact s.base_bare h
  · intro hne
    obtain ⟨ws, w, hsigns⟩ := (List.eq_nil_or_concat' s.signs).resolve_left hne
    obtain ⟨hw, htext⟩ := text_of_concat hsigns
    exact ⟨w, hw, s.base ++ ws.flatten, htext.symm⟩

/-- **The last of the modifiers is taken off.** -/
theorem dropSign_text : dropSign s.text = (s.keep (s.signs.length - 1)).text := by
  obtain hnil | ⟨ws, w, hsigns⟩ := List.eq_nil_or_concat' s.signs
  · rw [dropSign_of_not_isSigned (mt s.isSigned_text.mp (not_not.mpr hnil))]
    simp [text, keep, hnil]
  · obtain ⟨hw, htext⟩ := text_of_concat hsigns
    rw [htext, dropSign_append hw]
    simp [text, keep, hsigns]

/-- After `n` passes `n` modifiers are gone. -/
theorem iterate_dropSign (n : Nat) :
    dropSign^[n] s.text = (s.keep (s.signs.length - n)).text := by
  induction n with
  | zero => simp
  | succ n ih =>
    rw [Function.iterate_succ_apply', ih, dropSign_text, keep_keep, length_keep]
    congr 2
    omega

end SignedType

theorem iterate_normalType (t : Text) (n : Nat) :
    normalType^[n + 1] t = dropSign^[n + 1] (unsizedType t) ∧ IsTidy (normalType^[n + 1] t) := by
  induction n with
  | zero => exact ⟨normalType_eq t, isTidy_normalType t⟩
  | succ n ih =>
    rw [Function.iterate_succ_apply', ih.2.normalType, Function.iterate_succ_apply' dropSign, ih.1]
    exact ⟨rfl, ih.1 ▸ ih.2.dropSign⟩

/-- **How normal a normal form is.**  The normal form of a type is tidy.  Each pass takes one
modifier off the end of the type without its sizes, so that a second pass changes nothing exactly if
the type ends with one modifier at the most, and no modifier is left exactly then. -/
theorem normalType_normal_iff (t : Text) :
    IsTidy (normalType t) ∧
    ∃ s : SignedType, unsizedType t = s.text ∧
      (∀ n, normalType^[n + 1] t = (s.keep (s.signs.length - (n + 1))).text) ∧
      (normalType (normalType t) = normalType t ↔ s.signs.length ≤ 1) ∧
      (¬IsSigned (normalType t) ↔ s.signs.length ≤ 1) := by
  have htidy := isTidy_normalType t
  obtain ⟨s, hs⟩ := SignedType.exists_text (unsizedType t)
  have hpasses : ∀ n, normalType^[n + 1] t = (s.keep (s.signs.length - (n + 1))).text := by
    intro n
    rw [(iterate_normalType t n).1, hs, s.iterate_dropSign]
  have hsigned : ¬IsSigned (normalType t) ↔ s.signs.length ≤ 1 := by
    have hone : normalType t = (s.keep (s.signs.length - 1)).text := hpasses 0
    rw [hone, SignedType.isSigned_text, not_not, ← List.length_eq_zero_iff, s.length_keep]
    omega
  refine ⟨htidy, s, hs, hpasses, ?_, hsigned⟩
  rw [htidy.normalType, dropSign_eq_self_iff, hsigned]

/-- A type with two modifiers keeps the first of them, which a second pass takes off. -/
theorem normalType_zerofill :
    normalType "INT(10) UNSIGNED ZEROFILL".toList = "int unsigned".toList ∧
      IsSigned (normalType "INT(10) UNSIGNED ZEROFILL".toList) ∧
      normalType (normalType "INT(10) UNSIGNED ZEROFILL".toList) = "int".toList ∧
      normalType (normalType "INT(10) UNSIGNED ZEROFILL".toList) ≠
        normalType "INT(10) UNSIGNED ZEROFILL".toList := by
  have hone : normalType "INT(10) UNSIGNED ZEROFILL".toList = "int unsigned".toList := by
    decide +kernel
  rw [hone]
  exact ⟨rfl, ⟨" unsigned".toList, by decide, "int".toList, by decide⟩, by decide +kernel,
    by decide +kernel⟩

end TableTypes
