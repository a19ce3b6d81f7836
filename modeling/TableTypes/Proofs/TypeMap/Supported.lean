import TableTypes.Proofs.Text.Replace
import TableTypes.Proofs.TypeMap.Elements

/-!
# What the check for a type says of its mapping

A type is checked by the entries of its normal form and of the first word of it, which are the same
for the plain type (`normalType_plainType`).  A type is mapped by the same two entries, but only if
nothing comes before them: its array suffixes are taken off, a rule of the dialect applies to its
elements, or they have an entry as they are written (`TypeMapper.IsOverlooked`).  So the check says
how a strict mapper maps a type exactly if it says so of the types that it overlooks, and it knows no
array that is written without a blank (`TypeMapper.predicts_iff`).
-/

namespace TableTypes

open Text

/-! ### Sizes -/

/-- A parenthesis with what stands in front of the next closing one. -/
def IsSize (b : Text) : Prop :=
  ∃ w : Text, ')' ∉ w ∧ b = '(' :: (w ++ [')'])

/-- Up to the first closing parenthesis a size is read, and without one there is none. -/
theorem size?_cons_of_mem {w : Text} (hw : ')' ∉ w) (r : Text) :
    size? ('(' :: (w ++ ')' :: r)) = some r := by
  rw [size?, dropWhile_ne hw]
  rfl

theorem size?_cons_of_not_mem {t : Text} (h : ')' ∉ t) : size? ('(' :: t) = none := by
  have hdrop : t.dropWhile (· ≠ ')') = [] :=
    List.dropWhile_eq_nil_iff.mpr fun c hc => decide_eq_true fun heq => h (heq ▸ hc)
  rw [size?, hdrop]
  rfl

/-- A size is told by itself, whatever stands behind it (as `Parts.of_iff` has it). -/
theorem size?_eq_some_iff (t r : Text) : size? t = some r ↔ ∃ b, t = b ++ r ∧ IsSize b ∧ True := by
  constructor
  · intro h
    unfold size? at h
    split at h
    · rename_i t
      by_cases hmem : ')' ∈ t
      · obtain ⟨w, r', rfl, hw⟩ := List.eq_append_cons_of_mem hmem
        rw [dropWhile_ne hw] at h
        obtain rfl := Option.some.inj h
        exact ⟨'(' :: (w ++ [')']), by simp, ⟨w, hw, rfl⟩, trivial⟩
      · rw [← size?, size?_cons_of_not_mem hmem] at h
        cases h
    · cases h
  · rintro ⟨b, rfl, ⟨w, hw, rfl⟩, -⟩
    rw [List.cons_append, List.append_assoc]
    exact size?_cons_of_mem hw r

theorem takesPiece_size? : TakesPiece size? := by
  intro t r h
  obtain ⟨b, hsplit, ⟨w, -, rfl⟩, -⟩ := (size?_eq_some_iff t r).mp h
  exact ⟨_, List.cons_ne_nil _ _, hsplit⟩

/-! ### Normal forms -/

/-- A space in front of a text is kept when its sizes are taken out. -/
theorem collapseBlanks_sizes_spaced (t : Text) :
    collapseBlanks (replaceAll size? [] (spaced t)) =
      spaced (collapseBlanks (replaceAll size? [] t)) := by
  rw [spaced]
  split
  · rename_i hhead
    -- The text begins with a blank, which begins no size.
    have hrest : (replaceAll size? [] t).head?.any isBlank = true := by
      cases t with
      | nil => cases hhead
      | cons c t =>
        have hc : c ≠ '(' := ne_of_isBlank (by decide) hhead
        have hnone : size? (c :: t) = none := by
          rw [size?]
          exact fun _ h => hc (List.cons.inj h).1
        rw [replaceAll_cons hnone]
        exact hhead
    rw [spaced, any_head?_collapseBlanks, if_pos hrest]
  · have hnone : size? (' ' :: t) = none := rfl
    rw [replaceAll_cons hnone, collapseBlanks_blank (by decide)]

theorem not_mem_collapseBlanks {t : Text} (h : ')' ∉ t) : ')' ∉ collapseBlanks t :=
  fun hmem => (mem_of_mem_collapseBlanks hmem).elim h (by decide)

/-- Sizes are found alike before and after blanks are written as single spaces. -/
theorem collapseBlanks_sizes (t : Text) :
    collapseBlanks (replaceAll size? [] (collapseBlanks t)) =
      collapseBlanks (replaceAll size? [] t) := by
  refine replaceAll_induction takesPiece_size? (motive := fun t t' =>
    collapseBlanks (replaceAll size? [] (collapseBlanks t)) = collapseBlanks t') rfl ?_ ?_ t
  · intro c t t' hnone ih
    cases hc : isBlank c with
    | true => rw [collapseBlanks_blank hc, collapseBlanks_blank hc, collapseBlanks_sizes_spaced, ih]
    | false =>
      have hnone' : size? (c :: collapseBlanks t) = none := by
        by_cases hopen : c = '('
        · subst hopen
          refine size?_cons_of_not_mem (not_mem_collapseBlanks fun hmem => ?_)
          obtain ⟨w, r, rfl, hw⟩ := List.eq_append_cons_of_mem hmem
          rw [size?_cons_of_mem hw] at hnone
          cases hnone
        · rw [size?]
          exact fun _ h => hopen (List.cons.inj h).1
      rw [collapseBlanks_cons hc, replaceAll_cons hnone', collapseBlanks_cons hc,
        collapseBlanks_cons hc, ih]
  · intro b r r' hsome ih
    obtain ⟨b', hsplit, ⟨w, hw, rfl⟩, -⟩ := (size?_eq_some_iff _ r).mp hsome
    obtain rfl := List.append_cancel_right hsplit
    have hcollapse : collapseBlanks ('(' :: (w ++ [')']) ++ r) =
        '(' :: (collapseBlanks w ++ [')'] ++ collapseBlanks r) := by
      rw [List.cons_append, collapseBlanks_cons (by decide), List.append_assoc, List.append_assoc,
        List.singleton_append, collapseBlanks_append_cons (by decide)]
      rfl
    have hsome' : size? ('(' :: (collapseBlanks w ++ [')'] ++ collapseBlanks r)) =
        some (collapseBlanks r) := by
      rw [List.append_assoc]
      exact size?_cons_of_mem (not_mem_collapseBlanks hw) _
    rw [hcollapse, replaceAll_match hsome', List.nil_append, List.nil_append, ih]

/-- **A type has the normal form of its plain type.** -/
theorem normalType_plainType (t : Text) : normalType (plainType t) = normalType t := by
  rw [normalType, strip_plainType, lower_plainType, plainType, collapseBlanks_sizes, normalType]

/-! ### Closing brackets -/

/-- A bracket at the end of a text belongs to no size. -/
theorem replaceAll_size?_concat (t : Text) :
    replaceAll size? [] (t ++ [']']) = replaceAll size? [] t ++ [']'] := by
  refine replaceAll_append (Parts.of_iff (P := IsSize) (R := fun _ => True) size?_eq_some_iff ?_
    fun _ _ => Iff.rfl)
  intro u v _ hv hne hsize
  obtain ⟨w, -, hw⟩ := hsize
  -- What reaches over the bracket ends with it, and a size does not.
  have hv' : v = [']'] := (List.prefix_cons_iff.mp hv).elim (absurd · hne) fun ⟨x, hx, hnil⟩ => by
    rw [hx, List.prefix_nil.mp hnil]
  have hlast : some ']' = some ')' := by
    calc some ']' = (u ++ v).getLast? := by rw [hv', List.getLast?_concat]
      _ = some ')' := by rw [hw, ← List.cons_append, List.getLast?_concat]
  cases hlast

theorem dropSign_concat (t : Text) : dropSign (t ++ [']']) = t ++ [']'] := by
  have hfind : signModifiers.find? (endsWith · (t ++ [']'])) = none := by
    rw [List.find?_eq_none]
    intro w hw
    rw [endsWith, List.reverse_concat]
    -- No modifier ends with a bracket.
    simp only [signModifiers, List.mem_cons, List.not_mem_nil, or_false] at hw
    rcases hw with rfl | rfl | rfl <;> exact Bool.false_ne_true
  rw [dropSign, hfind]

/-- The normal form of a type without blanks that ends with a bracket is one word, and ends with the
bracket too. -/
theorem normalType_of_solid {t u : Text} (hplain : plainType t = u ++ [']'])
    (hsolid : ∀ c ∈ plainType t, isBlank c = false) :
    normalType t = replaceAll size? [] u ++ [']'] ∧ firstWord (normalType t) = normalType t := by
  have hrest : ∀ c ∈ replaceAll size? [] u ++ [']'], isBlank c = false := by
    intro c hc
    rw [← replaceAll_size?_concat, ← hplain] at hc
    exact hsolid c ((replaceFrom_nil_sublist size? _ 0).subset hc)
  have hnormal : normalType t = replaceAll size? [] u ++ [']'] := by
    rw [← normalType_plainType, normalType, strip_plainType, lower_plainType, hplain,
      replaceAll_size?_concat, collapseBlanks_of_forall hrest, strip_of_forall hrest,
      dropSign_concat, strip_of_forall hrest]
  refine ⟨hnormal, ?_⟩
  rw [hnormal, firstWord, List.takeWhile_eq_self_iff]
  intro c hc
  exact decide_eq_true (ne_of_isBlank (hrest c hc) (by decide)).symm

/-! ### Overlooked types -/

theorem plainType_eq_nil_iff {t : Text} : plainType t = [] ↔ t.isAllBlank = true := by
  refine ⟨fun h => ?_, plainType_of_isAllBlank⟩
  have hlower := head?_collapseBlanks (isBlank_of_head?_lower (isBlank_of_head?_strip (t := t)))
  rw [← plainType, h, List.head?_nil, eq_comm, List.head?_eq_none_iff, lower_eq_nil_iff,
    strip_eq_nil_iff] at hlower
  exact isAllBlank_iff.mpr hlower

namespace TypeMapper

variable {m : TypeMapper} {d : Dialect} {name sqlType t : Text}

theorem isSupported_iff (hname : Dialect.ofName? name = some d) :
    m.isSupported t name = true ↔ t ≠ [] ∧
      ((m.types d).has (normalType t) = true ∨
        (m.types d).has (firstWord (normalType t)) = true) := by
  rw [isSupported, hname]
  simp only [Bool.and_eq_true, Bool.not_eq_true', List.isEmpty_eq_false_iff, Bool.or_eq_true, ne_eq]

/-- A type is checked by its plain type. -/
theorem isSupported_plainType (hname : Dialect.ofName? name = some d)
    (hsolid : t.isAllBlank = false) : m.isSupported (plainType t) name = m.isSupported t name := by
  have hplain : plainType t ≠ [] := fun h =>
    ne_true_of_eq_false hsolid (plainType_eq_nil_iff.mp h)
  have ht : t ≠ [] := by
    rintro rfl
    cases hsolid
  rw [Bool.eq_iff_iff, isSupported_iff hname, isSupported_iff hname, normalType_plainType,
    and_iff_right hplain, and_iff_right ht]

/-- Plain types of elements that are mapped before the entry of the normal form is looked up: no
type at all, a type for which there is a rule, and a type with an entry as it is written. -/
def IsOverlooked (m : TypeMapper) (d : Dialect) (t : Text) : Prop :=
  t = [] ∨ (∃ ts, special? (m.types d) t d = some ts ∧ ts ≠ []) ∨ (m.types d).has t = true

theorem isSome_lookup?_iff : (m.lookup? d t).isSome = true ↔
    (∃ ts, special? (m.types d) t d = some ts ∧ ts ≠ []) ∨ (m.types d).has t = true ∨
      (m.types d).has (normalType t) = true ∨
        (m.types d).has (firstWord (normalType t)) = true := by
  have hrule : ((special? (m.types d) t d).filter (!·.isEmpty)).isSome = true ↔
      ∃ ts, special? (m.types d) t d = some ts ∧ ts ≠ [] := by
    rw [Option.isSome_filter, Option.any_eq_true]
    simp only [Bool.not_eq_true', List.isEmpty_eq_false_iff, ne_eq]
  rw [lookup?]
  simp only [Option.orElse_eq_orElse, Option.orElse_eq_or, Option.isSome_or, Bool.or_eq_true, hrule,
    OrderedMap.has]

/-- What a strict mapper makes of a plain type. -/
theorem isSome_plain?_strictly : (m.strictly.plain? d t).isSome = true ↔
    t = [] ∨ (m.lookup? d t).isSome = true := by
  have hlookup : m.strictly.lookup? d t = m.lookup? d t := rfl
  rw [plain?, hlookup]
  cases t with
  | nil => exact iff_of_true rfl (Or.inl rfl)
  | cons c t =>
    rw [or_iff_right (List.cons_ne_nil c t), if_neg (by simp), strictly, if_pos rfl, Option.or_none]

/-- A strict mapper maps a type whose elements the check knows or overlooks. -/
theorem exists_strictly_map_iff (hname : Dialect.ofName? name = some d) (m : TypeMapper)
    (sqlType : Text) : (∃ ts, (m.strictly.map sqlType name).outcome = .ok ts) ↔
      m.isSupported (elementOf d sqlType) name = true ∨
        m.IsOverlooked d (elementOf d sqlType) := by
  have hmap : (∃ ts, (m.strictly.map sqlType name).outcome = .ok ts) ↔
      (m.strictly.plain? d (elementOf d sqlType)).isSome = true := by
    rw [outcome_map hname]
    cases m.strictly.plain? d (elementOf d sqlType) with
    | none => exact iff_of_false (by rintro ⟨ts, h⟩; cases h) Bool.false_ne_true
    | some ts => exact iff_of_true ⟨_, rfl⟩ rfl
  rw [hmap, isSome_plain?_strictly, isSome_lookup?_iff, isSupported_iff hname, IsOverlooked]
  by_cases he : elementOf d sqlType = []
  · exact iff_of_true (Or.inl he) (Or.inr (Or.inl he))
  · rw [or_iff_right he, and_iff_right he, or_iff_right he, ← or_assoc, or_comm]

/-- An array type ends with a bracket. -/
theorem exists_of_dimensions (h : dimensions d sqlType ≠ 0) :
    ∃ u, plainType sqlType = u ++ [']'] := by
  have hbounds : reversedBounds? (plainType sqlType).reverse ≠ none := by
    intro hnone
    refine h ?_
    rw [dimensions, elementType, many, manyUpTo_stuck]
    · exact ite_self 0
    · intro p hp
      rw [hnone] at hp
      cases hp
  unfold reversedBounds? at hbounds
  split at hbounds
  · rename_i u hreverse
    exact ⟨u.reverse, by rw [← List.reverse_cons, ← hreverse, List.reverse_reverse]⟩
  · exact absurd rfl hbounds

/-- Whether the check for a type says how a strict mapper with the same entries maps it. -/
def Predicts (m : TypeMapper) (sqlType name : Text) : Prop :=
  m.isSupported sqlType name = true ↔ ∃ ts, (m.strictly.map sqlType name).outcome = .ok ts

/-- A type that is mapped without being known is not checked as it is mapped. -/
theorem not_predicts_of_missed (ts : Text) (hunknown : m.isSupported sqlType name = false)
    (hmapped : (m.strictly.map sqlType name).outcome = .ok ts) : ¬m.Predicts sqlType name :=
  fun h => ne_true_of_eq_false hunknown (h.mpr ⟨ts, hmapped⟩)

/-- An array written without a blank is looked up under its own text only. -/
theorem isSupported_compactArray (hname : Dialect.ofName? name = some d)
    (harray : dimensions d sqlType ≠ 0) (hsolid : ∀ c ∈ plainType sqlType, isBlank c = false)
    (hkeys : ∀ key ∈ (m.types d).keys, key.getLast? ≠ some ']') :
    m.isSupported sqlType name = false := by
  obtain ⟨u, hplain⟩ := exists_of_dimensions harray
  obtain ⟨hnormal, hword⟩ := normalType_of_solid hplain hsolid
  rw [← Bool.not_eq_true, isSupported_iff hname, hword, or_self, not_and]
  intro _ hhas
  refine hkeys _ (OrderedMap.isSome_get?_iff.mp hhas) ?_
  rw [hnormal, List.getLast?_concat]

/-- **What the check says of a mapping.**  A strict mapper maps a type exactly if the check knows the
type of its elements, or overlooks it.  Of a type that is no array the check says how it is mapped,
unless it overlooks the type and does not know it.  An array written without a blank it does not
know, so that it is right only where the elements are refused. -/
theorem predicts_iff (hname : Dialect.ofName? name = some d) (hsolid : sqlType.isAllBlank = false)
    (m : TypeMapper) :
    ((∃ ts, (m.strictly.map sqlType name).outcome = .ok ts) ↔
      m.isSupported (elementOf d sqlType) name = true ∨
        m.IsOverlooked d (elementOf d sqlType)) ∧
    (dimensions d sqlType = 0 → (m.Predicts sqlType name ↔
      (m.IsOverlooked d (plainType sqlType) → m.isSupported sqlType name = true))) ∧
    (dimensions d sqlType ≠ 0 → (∀ c ∈ plainType sqlType, isBlank c = false) →
      (∀ key ∈ (m.types d).keys, key.getLast? ≠ some ']') →
        (m.Predicts sqlType name ↔
          ¬∃ ts, (m.strictly.map sqlType name).outcome = .ok ts)) := by
  have hmap := exists_strictly_map_iff hname m sqlType
  refine ⟨hmap, fun hscalar => ?_, fun harray hcompact hkeys => ?_⟩
  · rw [Predicts, hmap, elementOf_of_dimensions hscalar, isSupported_plainType hname hsolid]
    exact iff_comm.trans or_iff_left_iff_imp
  · rw [Predicts, isSupported_compactArray hname harray hcompact hkeys]
    exact ⟨fun h hmapped => Bool.false_ne_true (h.mpr hmapped),
      fun h => iff_of_false Bool.false_ne_true h⟩

/-- A number with its sizes is checked as it is mapped, and an array of texts is not. -/
theorem predicts_iff_numeric :
    (Dialect.ofName? "postgresql".toList = some .postgresql ∧
      isAllBlank "NUMERIC(8, 2)".toList = false ∧ isAllBlank "TEXT[]".toList = false ∧
      dimensions .postgresql "NUMERIC(8, 2)".toList = 0 ∧
      dimensions .postgresql "TEXT[]".toList ≠ 0 ∧
      (∀ c ∈ plainType "TEXT[]".toList, isBlank c = false) ∧
      ∀ key ∈ (plain.types .postgresql).keys, key.getLast? ≠ some ']') ∧
    plain.Predicts "NUMERIC(8, 2)".toList "postgresql".toList ∧
    ¬plain.Predicts "TEXT[]".toList "postgresql".toList := by
  have hname : Dialect.ofName? "postgresql".toList = some .postgresql := by decide
  have hnumeric : isAllBlank "NUMERIC(8, 2)".toList = false := by decide
  have htext : isAllBlank "TEXT[]".toList = false := by decide
  have hscalar : dimensions .postgresql "NUMERIC(8, 2)".toList = 0 := by decide +kernel
  have harray : dimensions .postgresql "TEXT[]".toList ≠ 0 := by decide +kernel
  have hplain : plainType "TEXT[]".toList = "text[]".toList := by decide +kernel
  have hcompact : ∀ c ∈ plainType "TEXT[]".toList, isBlank c = false := by
    have hall : "text[]".toList.all (!isBlank ·) = true := by decide
    intro c hc
    rw [hplain] at hc
    exact (Bool.not_eq_true' _).mp (List.all_eq_true.mp hall c hc)
  have hkeys : ∀ key ∈ (plain.types .postgresql).keys, key.getLast? ≠ some ']' := by decide +kernel
  have hknown : plain.isSupported "NUMERIC(8, 2)".toList "postgresql".toList = true := by
    decide +kernel
  have hmapped : (plain.strictly.map "TEXT[]".toList "postgresql".toList).outcome =
      .ok "string[]".toList := by
    decide +kernel
  exact ⟨⟨hname, hnumeric, htext, hscalar, harray, hcompact, hkeys⟩,
    ((predicts_iff hname hnumeric plain).2.1 hscalar).mpr fun _ => hknown,
    fun h => ((predicts_iff hname htext plain).2.2 harray hcompact hkeys).mp h ⟨_, hmapped⟩⟩

/-- An array of texts is checked as it is mapped if it is written with a blank, and otherwise it is
mapped without being known.  So are a type with a rule and a type whose entry names its size, and an
array type with an entry of its own is known and refused. -/
theorem not_predicts_array :
    (Dialect.ofName? "postgresql".toList = some .postgresql ∧
      isAllBlank "TEXT[]".toList = false ∧
      plain.isSupported "TEXT []".toList "postgresql".toList = true ∧
      plain.isSupported "TEXT[]".toList "postgresql".toList = false ∧
      (plain.strictly.map "TEXT[]".toList "postgresql".toList).outcome = .ok "string[]".toList ∧
      ¬plain.Predicts "TEXT[]".toList "postgresql".toList) ∧
    ¬plain.Predicts "ENUM('a')".toList "mysql".toList ∧
    ¬(plain.withEntry .mysql "point(3)".toList "Point".toList).Predicts "POINT(3)".toList
      "mysql".toList ∧
    ¬(plain.withEntry .postgresql "point[]".toList "Points".toList).Predicts "POINT[]".toList
      "postgresql".toList := by
  have hunknown : plain.isSupported "TEXT[]".toList "postgresql".toList = false := by decide +kernel
  have hmapped : (plain.strictly.map "TEXT[]".toList "postgresql".toList).outcome =
      .ok "string[]".toList := by
    decide +kernel
  have hentry : (plain.withEntry .postgresql "point[]".toList "Points".toList).isSupported
      "POINT[]".toList "postgresql".toList = true := by
    decide +kernel
  have hrefused : ((plain.withEntry .postgresql "point[]".toList "Points".toList).strictly.map
      "POINT[]".toList "postgresql".toList).outcome =
        .error (.mapping ⟨.unrecognizedType, "point".toList, "postgresql".toList⟩) := by
    decide +kernel
  refine ⟨⟨by decide, by decide, by decide +kernel, hunknown, hmapped,
    not_predicts_of_missed _ hunknown hmapped⟩, ?_, ?_, fun h => ?_⟩
  · exact not_predicts_of_missed "string".toList (by decide +kernel) (by decide +kernel)
  · exact not_predicts_of_missed "Point".toList (by decide +kernel) (by decide +kernel)
  · obtain ⟨ts, hts⟩ := h.mp hentry
    rw [hrefused] at hts
    cases hts

end TypeMapper

end TableTypes
