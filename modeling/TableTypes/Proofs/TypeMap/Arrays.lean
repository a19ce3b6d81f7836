import TableTypes.Proofs.TypeMap.Elements

/-!
# Arrays of any depth

An array suffix is a pair of brackets, with blanks or a numeral between them and blanks in front
(`ArraySuffix`).  Put behind a type, it stands behind the plain type when the whole is made plain
(`exists_plainType_append`), and from there it is taken off again before anything else, so the
elements of the array are those of the type itself (`elementType_append`).  Hence every suffix puts
one pair of brackets on what the type is mapped to (`TypeMapper.map_arraySuffixes`).
-/

namespace TableTypes

open Text

/-! ### Suffixes -/

/-- An array suffix: brackets with nothing between them but blanks and a numeral, and with blanks in
front of them. -/
structure ArraySuffix where
  gap : Text
  left : Text
  digits : Text
  right : Text
  gap_blank : ∀ c ∈ gap, isBlank c = true
  left_blank : ∀ c ∈ left, isBlank c = true
  digits_decimal : ∀ c ∈ digits, isDecimal c = true
  right_blank : ∀ c ∈ right, isBlank c = true

namespace ArraySuffix

/-- What stands behind the opening bracket. -/
def inner (s : ArraySuffix) : Text :=
  s.left ++ (s.digits ++ (s.right ++ [']']))

/-- The suffix as it is written. -/
def text (s : ArraySuffix) : Text :=
  s.gap ++ '[' :: s.inner

/-- The brackets alone. -/
def brackets : ArraySuffix :=
  ⟨[], [], [], [], by simp, by simp, by simp, by simp⟩

/-- The suffix with other blanks in front of it. -/
def withGap (s : ArraySuffix) (gap : Text) (h : ∀ c ∈ gap, isBlank c = true) : ArraySuffix :=
  { s with gap, gap_blank := h }

variable (s : ArraySuffix)

theorem getLast?_text_append (x : Text) : (x ++ s.text).getLast? = some ']' := by
  have hsplit : x ++ s.text = (x ++ (s.gap ++ '[' :: (s.left ++ (s.digits ++ s.right)))) ++ [']'] := by
    simp only [text, inner, List.append_assoc, List.cons_append]
  rw [hsplit, List.getLast?_concat]

/-! ### In lower case -/

theorem lowerChar_of_mem {c : Char} (hc : c ∈ s.text) : lowerChar c = [c] := by
  simp only [text, inner, List.mem_append, List.mem_cons, List.not_mem_nil, or_false] at hc
  rcases hc with hc | rfl | hc | hc | hc | rfl
  · exact lowerChar_of_isBlank (s.gap_blank c hc)
  · decide
  · exact lowerChar_of_isBlank (s.left_blank c hc)
  · exact lowerChar_of_isDecimal (s.digits_decimal c hc)
  · exact lowerChar_of_isBlank (s.right_blank c hc)
  · decide

theorem meetsCased_text : meetsCased s.text = false := by
  have hmeets : ∀ c u, isCaseIgnorable c = false → isCased c = false →
      meetsCased (c :: u) = false := by
    intro c u hignorable hcased
    rw [meetsCased, List.dropWhile_cons, hignorable]
    exact hcased
  rw [text]
  cases hgap : s.gap with
  | nil => exact hmeets _ _ (by decide +kernel) (by decide +kernel)
  | cons c gap =>
    have hc : isBlank c = true := s.gap_blank c (hgap ▸ List.mem_cons_self)
    exact hmeets _ _ (eq_false_of_isBlank (by decide +kernel) hc)
      (eq_false_of_isBlank (by decide +kernel) hc)

theorem lower_append (t : Text) : lower (t ++ s.text) = lower t ++ s.text :=
  Text.lower_append s.meetsCased_text (fun _ => s.lowerChar_of_mem) t

/-! ### Behind a text -/

/-- Behind a stripped text the blanks in front of the brackets are others. -/
theorem exists_strip_append (t : Text) :
    ∃ s' : ArraySuffix, strip (t ++ s.text) = strip t ++ s'.text := by
  have hlast : ∀ (s' : ArraySuffix) (x : Text), ∀ c ∈ (x ++ s'.text).getLast?, isBlank c = false := by
    intro s' x c hc
    rw [getLast?_text_append] at hc
    obtain rfl := Option.some.inj hc
    decide
  obtain ⟨l, r, ht, hl, hr⟩ := strip_split t
  cases hstrip : strip t with
  | nil =>
    -- Nothing but blanks stands in front of the brackets, and they are stripped.
    refine ⟨s.withGap [] (by simp), ?_⟩
    have hfront : t ++ s.gap ++ '[' :: s.inner = t ++ s.text := List.append_assoc _ _ _
    have hblank : ∀ c ∈ t ++ s.gap, isBlank c = true := fun c hc =>
      (List.mem_append.mp hc).elim (strip_eq_nil_iff.mp hstrip c) (s.gap_blank c)
    rw [← hfront, strip_append_of_blank hblank]
    exact strip_eq_self (fun c hc => Option.some.inj hc ▸ by decide)
      (hlast (s.withGap [] (by simp)) [])
  | cons c u =>
    have hgap : ∀ c ∈ r ++ s.gap, isBlank c = true := fun c hc =>
      (List.mem_append.mp hc).elim (hr c) (s.gap_blank c)
    refine ⟨s.withGap (r ++ s.gap) hgap, ?_⟩
    have hsplit : t ++ s.text = l ++ (strip t ++ (s.withGap (r ++ s.gap) hgap).text) := by
      conv_lhs => rw [ht]
      simp only [text, withGap, inner, List.append_assoc]
    rw [hsplit, strip_append_of_blank hl, hstrip]
    have hc : isBlank c = false := isBlank_of_head?_strip (t := t) c (by rw [hstrip]; rfl)
    exact strip_eq_self (fun d hd => Option.some.inj hd ▸ hc) (hlast _ (c :: u))

/-- Between the brackets, runs of blanks are written as single spaces on both sides of the
numeral. -/
theorem exists_collapseBlanks_inner : ∃ s' : ArraySuffix, collapseBlanks s.inner = s'.inner := by
  cases hdigits : s.digits with
  | nil =>
    have hboth : ∀ c ∈ s.left ++ s.right, isBlank c = true := fun c hc =>
      (List.mem_append.mp hc).elim (s.left_blank c) (s.right_blank c)
    refine ⟨⟨[], collapseBlanks (s.left ++ s.right), [], [], by simp,
      forall_isBlank_collapseBlanks hboth, by simp, by simp⟩, ?_⟩
    rw [inner, hdigits, List.nil_append, ← List.append_assoc]
    exact collapseBlanks_append_cons (by decide) _ _
  | cons d ds =>
    have hdecimal : ∀ c ∈ d :: ds, isDecimal c = true := hdigits ▸ s.digits_decimal
    have hsolid : ∀ c ∈ d :: ds, isBlank c = false := fun c hc =>
      isBlank_eq_false_of (fun _ => isDecimal_of_isBlank) (hdecimal c hc)
    refine ⟨⟨[], collapseBlanks s.left, d :: ds, collapseBlanks s.right, by simp,
      forall_isBlank_collapseBlanks s.left_blank, hdecimal,
      forall_isBlank_collapseBlanks s.right_blank⟩, ?_⟩
    have hinner : s.inner = s.left ++ d :: (ds ++ (s.right ++ [']'])) := by
      rw [inner, hdigits]
      rfl
    rw [hinner, collapseBlanks_append_cons (hsolid d List.mem_cons_self),
      ← collapseBlanks_cons (hsolid d List.mem_cons_self), ← List.cons_append,
      collapseBlanks_append fun c hc => hsolid c (List.mem_of_mem_getLast? hc),
      collapseBlanks_of_forall hsolid, collapseBlanks_append_cons (by decide)]
    rfl

theorem exists_collapseBlanks_append {x : Text} (hx : ∀ c ∈ x.getLast?, isBlank c = false) :
    ∃ s' : ArraySuffix, collapseBlanks (x ++ s.text) = collapseBlanks x ++ s'.text := by
  obtain ⟨s', hinner⟩ := s.exists_collapseBlanks_inner
  refine ⟨s'.withGap (collapseBlanks s.gap) (forall_isBlank_collapseBlanks s.gap_blank), ?_⟩
  rw [collapseBlanks_append hx, text, collapseBlanks_append_cons (by decide), hinner]
  rfl

/-- **A suffix behind a type stands behind the plain type.** -/
theorem exists_plainType_append (t : Text) :
    ∃ s' : ArraySuffix, plainType (t ++ s.text) = plainType t ++ s'.text := by
  obtain ⟨s₁, hstrip⟩ := s.exists_strip_append t
  obtain ⟨s₂, hcollapse⟩ :=
    s₁.exists_collapseBlanks_append (isBlank_of_getLast?_lower (isBlank_of_getLast?_strip (t := t)))
  exact ⟨s₂, by rw [plainType, hstrip, s₁.lower_append, hcollapse, plainType]⟩

/-! ### Taken off again -/

/-- A numeral and the blanks on both sides of it are passed over up to the bracket. -/
theorem pass_numeral {digits blanks : Text} (hdigits : ∀ c ∈ digits, isDecimal c = true)
    (hblanks : ∀ c ∈ blanks, isBlank c = true) (t : Text) :
    dropBlanks ((dropBlanks (digits ++ (blanks ++ '[' :: t))).dropWhile isDecimal) = '[' :: t := by
  have hopening : dropBlanks (blanks ++ '[' :: t) = '[' :: t :=
    dropBlanks_of_isAllBlank (isAllBlank_iff.mpr hblanks) _
  cases digits with
  | nil =>
    rw [List.nil_append, hopening]
    rfl
  | cons d ds =>
    have hd : isBlank d = false :=
      isBlank_eq_false_of (fun _ => isDecimal_of_isBlank) (hdigits d List.mem_cons_self)
    rw [List.cons_append, dropBlanks_of_head _ hd, ← List.cons_append, dropWhile_run hdigits,
      hopening]
    -- Behind the numeral stand blanks or the bracket, which are no digits.
    intro c hc
    cases blanks with
    | nil =>
      obtain rfl := Option.some.inj hc
      decide
    | cons b bs =>
      obtain rfl := Option.some.inj hc
      exact isDecimal_of_isBlank (hblanks b List.mem_cons_self)

/-- Read from its end, a suffix is taken off with the blanks in front of it. -/
theorem reversedBounds?_append (x : Text) :
    reversedBounds? (x ++ s.text).reverse = some (dropBlanks x.reverse) := by
  have hblank : ∀ {t : Text}, (∀ c ∈ t, isBlank c = true) → isAllBlank t.reverse = true :=
    fun h => isAllBlank_iff.mpr fun c hc => h c (List.mem_reverse.mp hc)
  have hreverse : (x ++ s.text).reverse = ']' :: (s.right.reverse ++ (s.digits.reverse ++
      (s.left.reverse ++ '[' :: (s.gap.reverse ++ x.reverse)))) := by
    simp only [text, inner, List.reverse_append, List.reverse_cons, List.reverse_nil,
      List.append_assoc, List.nil_append, List.cons_append]
  have hdigits : ∀ c ∈ s.digits.reverse, isDecimal c = true := fun c hc =>
    s.digits_decimal c (List.mem_reverse.mp hc)
  rw [hreverse, reversedBounds?, dropBlanks_of_isAllBlank (hblank s.right_blank),
    pass_numeral hdigits (isAllBlank_iff.mp (hblank s.left_blank))]
  exact congrArg some (dropBlanks_of_isAllBlank (hblank s.gap_blank) _)

/-- **The elements of an array are those of the type in front of the suffix.** -/
theorem elementType_append (t : Text) : elementType (plainType (t ++ s.text)) =
    ((elementType (plainType t)).1, (elementType (plainType t)).2 + 1) := by
  obtain ⟨s', hplain⟩ := s.exists_plainType_append t
  have hsolid : dropBlanks (plainType t).reverse = (plainType t).reverse := by
    have hhead : ∀ c ∈ (plainType t).reverse.head?, isBlank c = false := by
      rw [List.head?_reverse]
      exact isBlank_of_getLast?_plainType t
    cases hreverse : (plainType t).reverse with
    | nil => rfl
    | cons c u => exact dropBlanks_of_head u (hhead c (by rw [hreverse]; rfl))
  have hbounds := s'.reversedBounds?_append (plainType t)
  rw [hsolid, ← hplain] at hbounds
  refine elementType_of_bounds hbounds ?_
  rw [hplain, text, List.length_append, List.length_append, List.length_cons]
  omega

end ArraySuffix

/-! ### Several suffixes -/

/-- Suffixes one behind the other. -/
def suffixesText (ss : List ArraySuffix) : Text :=
  ss.flatMap ArraySuffix.text

theorem elementType_suffixes (ss : List ArraySuffix) : ∀ t : Text,
    elementType (plainType (t ++ suffixesText ss)) =
      ((elementType (plainType t)).1, (elementType (plainType t)).2 + ss.length) := by
  induction ss with
  | nil =>
    intro t
    rw [suffixesText, List.flatMap_nil, List.append_nil]
    rfl
  | cons s ss ih =>
    intro t
    have hsplit : t ++ suffixesText (s :: ss) = t ++ s.text ++ suffixesText ss :=
      (List.append_assoc t s.text (suffixesText ss)).symm
    rw [hsplit, ih, s.elementType_append, List.length_cons, Nat.add_assoc, Nat.add_comm 1]

namespace TypeMapper

/-- Pairs of brackets one behind the other. -/
def bracketPairs (n : Nat) : Text :=
  (List.replicate n "[]".toList).flatten

theorem arrayOf_add (ts : Text) (k n : Nat) :
    arrayOf ts (k + n) = arrayOf ts k ++ bracketPairs n := by
  induction n with
  | zero => exact (List.append_nil _).symm
  | succ n ih =>
    rw [← Nat.add_assoc, arrayOf, ih, List.append_assoc, bracketPairs, bracketPairs,
      List.replicate_succ', List.flatten_append, List.flatten_singleton]

/-- **Array types are mapped by their elements, to any depth.**  With suffixes behind it, however they
are written, a type of PostgreSQL is refused exactly if it is refused itself, and otherwise mapped to
what it is mapped to itself with as many pairs of brackets. -/
theorem map_arraySuffixes (m : TypeMapper) {name : Text}
    (hname : Dialect.ofName? name = some .postgresql) (t : Text) (ss : List ArraySuffix) :
    ((∃ f, (m.map (t ++ suffixesText ss) name).outcome = .error f) ↔
      ∃ f, (m.map t name).outcome = .error f) ∧
    ∀ ts, (m.map t name).outcome = .ok ts →
      (m.map (t ++ suffixesText ss) name).outcome = .ok (ts ++ bracketPairs ss.length) := by
  have helement : elementOf .postgresql (t ++ suffixesText ss) = elementOf .postgresql t := by
    rw [elementOf, elementOf, if_pos rfl, if_pos rfl, elementType_suffixes]
  have hdimensions : dimensions .postgresql (t ++ suffixesText ss) =
      dimensions .postgresql t + ss.length := by
    rw [dimensions, dimensions, if_pos rfl, if_pos rfl, elementType_suffixes]
  rw [outcome_map hname, outcome_map hname, helement, hdimensions]
  cases m.plain? .postgresql (elementOf .postgresql t) with
  | none =>
    refine ⟨iff_of_true ⟨_, rfl⟩ ⟨_, rfl⟩, fun ts h => ?_⟩
    cases h
  | some ts =>
    have hgiven : ∀ us : Text, ¬∃ f : Fault, Except.ok us = .error f := by
      rintro us ⟨f, h⟩
      cases h
    refine ⟨iff_of_false (hgiven _) (hgiven _), fun ts' h => ?_⟩
    obtain rfl := Except.ok.inj h
    exact congrArg Except.ok (arrayOf_add ts _ _)

/-- A type with an opening bracket at its end is no array, and with two suffixes behind it, written
as `[[ 3] []`, it is one of two dimensions; an array over a type that is not known is refused. -/
theorem map_arraySuffixes_spaced :
    Dialect.ofName? "PostgreSQL".toList = some .postgresql ∧
    (plain.strictly.map "VARCHAR(20) [[ 3] []".toList "PostgreSQL".toList).outcome =
      .ok "string[][]".toList ∧
    ∃ f, (plain.strictly.map "MONEY[]".toList "PostgreSQL".toList).outcome = .error f := by
  have hname : Dialect.ofName? "PostgreSQL".toList = some .postgresql := by decide
  have hvarchar : (plain.strictly.map "VARCHAR(20) [".toList "PostgreSQL".toList).outcome =
      .ok "string".toList := by
    decide +kernel
  have hmoney : (plain.strictly.map "MONEY".toList "PostgreSQL".toList).outcome =
      .error (.mapping ⟨.unrecognizedType, "MONEY".toList, "postgresql".toList⟩) := by
    decide +kernel
  have hblank : ∀ c ∈ [' '], isBlank c = true := List.forall_mem_singleton.mpr (by decide)
  have hdecimal : ∀ c ∈ ['3'], isDecimal c = true :=
    List.forall_mem_singleton.mpr (by decide +kernel)
  let numbered : ArraySuffix := ⟨[], [' '], ['3'], [], by simp, hblank, hdecimal, by simp⟩
  let spaced : ArraySuffix := ArraySuffix.brackets.withGap [' '] hblank
  exact ⟨hname,
    (map_arraySuffixes plain.strictly hname "VARCHAR(20) [".toList [numbered, spaced]).2 _ hvarchar,
    (map_arraySuffixes plain.strictly hname "MONEY".toList [.brackets]).1.mpr ⟨_, hmoney⟩⟩

end TypeMapper

end TableTypes
