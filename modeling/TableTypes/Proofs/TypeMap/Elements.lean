import TableTypes.Proofs.Text.Collapse
import TableTypes.Proofs.Text.Lower
import TableTypes.Proofs.TypeMap.Override
import TableTypes.Proofs.TypeMap.Strict

/-!
# Types by their elements

A plain type has no blank at either end and is in lower case (`strip_plainType`,
`lower_plainType`).  In a known dialect a type is mapped to an array over what its elements are
mapped to (`TypeMapper.outcome_map`), a type that is no array being its own element.
-/

namespace TableTypes

open Text

/-! ### Plain types -/

theorem isBlank_of_head?_plainType (t : Text) : ∀ c ∈ (plainType t).head?, isBlank c = false := by
  have hlower := isBlank_of_head?_lower (isBlank_of_head?_strip (t := t))
  rw [plainType, head?_collapseBlanks hlower]
  exact hlower

theorem isBlank_of_getLast?_plainType (t : Text) :
    ∀ c ∈ (plainType t).getLast?, isBlank c = false := by
  have hlower := isBlank_of_getLast?_lower (isBlank_of_getLast?_strip (t := t))
  rw [plainType, getLast?_collapseBlanks hlower]
  exact hlower

theorem strip_plainType (t : Text) : strip (plainType t) = plainType t :=
  strip_eq_self (isBlank_of_head?_plainType t) (isBlank_of_getLast?_plainType t)

theorem lower_plainType (t : Text) : lower (plainType t) = plainType t := by
  refine lower_eq_self fun c hc => ?_
  obtain hc | rfl := mem_of_mem_collapseBlanks hc
  · exact lowerChar_of_mem_lower hc
  · decide

theorem plainType_of_isAllBlank {t : Text} (h : t.isAllBlank = true) : plainType t = [] := by
  rw [plainType, strip_eq_nil_iff.mpr (isAllBlank_iff.mp h)]
  rfl

/-! ### Elements -/

/-- Where no suffix is taken off, nothing is. -/
theorem elementType_of_zero {t : Text} (h : (elementType t).2 = 0) : (elementType t).1 = t := by
  have hbounds : (many (fun s => (reversedBounds? s).map ((), ·)) t.reverse).1 = [] :=
    List.length_eq_zero_iff.mp h
  rw [elementType, many_of_nil hbounds, List.reverse_reverse]

/-- A pair of brackets is taken off a type in front of all others. -/
theorem elementType_of_bounds {t e : Text} (h : reversedBounds? t.reverse = some e.reverse)
    (hlt : e.length < t.length) : elementType t = ((elementType e).1, (elementType e).2 + 1) := by
  have hmatch : (fun s => (reversedBounds? s).map ((), ·)) t.reverse = some ((), e.reverse) := by
    show (reversedBounds? t.reverse).map ((), ·) = _
    rw [h]
    rfl
  rw [elementType, many_some hmatch (by simpa using hlt)]
  rfl

/-- The type of the elements of a type in a dialect; a type that is no array is its own element. -/
def elementOf (d : Dialect) (sqlType : Text) : Text :=
  if d = .postgresql then (elementType (plainType sqlType)).1 else plainType sqlType

/-! ### What the elements are mapped to -/

namespace TypeMapper

variable {m : TypeMapper} {d : Dialect} {name : Text}

/-- The TypeScript type of a plain type that is no array, if it is not refused. -/
def plain? (m : TypeMapper) (d : Dialect) (t : Text) : Option Text :=
  if t.isEmpty then some "any".toList
  else (m.lookup? d t).or (if m.strict then none else some "any".toList)

theorem outcome_mapPlain (m : TypeMapper) (d : Dialect) (shown t : Text) :
    (m.mapPlain d shown t).outcome =
      (m.plain? d t).elim (.error (.mapping ⟨.unrecognizedType, shown, d.name⟩)) .ok := by
  rw [mapPlain, plain?]
  split
  · rfl
  · cases m.lookup? d t with
    | some ts => rfl
    | none =>
      dsimp only
      rw [unrecognized]
      split
      · rfl
      · rfl

theorem dimensions_eq_zero_iff {sqlType : Text} : dimensions d sqlType = 0 ↔
    ¬(d = .postgresql ∧ (elementType (plainType sqlType)).2 ≠ 0) := by
  rw [dimensions]
  split
  · rename_i hd
    rw [and_iff_right hd, ne_eq, not_not]
  · rename_i hd
    exact iff_of_true rfl fun h => hd h.1

/-- A type without array suffixes is its own element. -/
theorem elementOf_of_dimensions {sqlType : Text} (h : dimensions d sqlType = 0) :
    elementOf d sqlType = plainType sqlType := by
  rw [elementOf]
  split
  · rename_i hd
    rw [dimensions, if_pos hd] at h
    exact elementType_of_zero h
  · rfl

/-- **A type is mapped to an array over what its elements are mapped to.** -/
theorem outcome_map (hname : Dialect.ofName? name = some d) (m : TypeMapper) (sqlType : Text) :
    (m.map sqlType name).outcome =
      (m.plain? d (elementOf d sqlType)).elim
        (.error (.mapping ⟨.unrecognizedType, shownType d sqlType, d.name⟩))
        fun ts => .ok (arrayOf ts (dimensions d sqlType)) := by
  cases hblank : sqlType.isAllBlank with
  | true =>
    have hplain := plainType_of_isAllBlank hblank
    have hscalar : dimensions d sqlType = 0 := by
      rw [dimensions, hplain]
      exact ite_self 0
    rw [map_of_isAllBlank hblank, elementOf_of_dimensions hscalar, hplain, hscalar]
    rfl
  | false =>
    rw [map_of_ofName? hname hblank]
    by_cases hscalar : dimensions d sqlType = 0
    · rw [mapIn_of_scalar (dimensions_eq_zero_iff.mp hscalar), outcome_mapPlain,
        elementOf_of_dimensions hscalar, shownType, if_pos hscalar, hscalar]
      rfl
    · obtain ⟨rfl, harray⟩ := of_not_not (mt dimensions_eq_zero_iff.mpr hscalar)
      rw [mapIn_of_array harray, shownType, if_neg hscalar, elementOf, if_pos rfl, dimensions,
        if_pos rfl]
      have hplain := m.outcome_mapPlain .postgresql (elementType (plainType sqlType)).1
        (elementType (plainType sqlType)).1
      cases hfound : m.plain? .postgresql (elementType (plainType sqlType)).1 with
      | none =>
        rw [hfound] at hplain
        rw [Report.bind_of_error hplain]
        rfl
      | some ts =>
        rw [hfound] at hplain
        rw [Report.bind_of_ok hplain]
        rfl

end TypeMapper

end TableTypes
