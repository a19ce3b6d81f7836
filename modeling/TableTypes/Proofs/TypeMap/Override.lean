import TableTypes.Proofs.TypeMap.History
import TableTypes.Proofs.TypeMap.Normal

/-!
# Entries that win

An entry that is added for a type decides how the type is mapped, except where a rule of the dialect
maps the type without a look at its entry (`TypeMapper.isRuled`): there the entry changes nothing.
Both together are `TypeMapper.map_add`.
-/

namespace TableTypes

open Text

namespace TypeMapper

variable {m : TypeMapper} {d : Dialect} {key tsType : Text}

/-- The type whose entry is looked up by a rule. -/
def tinyintOne : Text :=
  "tinyint(1)".toList

/-- Whether a rule of the dialect maps a plain type, whatever its entry is.  The rule of MySQL for
`TINYINT(1)` looks up the entry of just this type. -/
def isRuled (m : TypeMapper) (d : Dialect) (t : Text) : Bool :=
  (d = .postgresql && (elementType t).2 ≠ 0) ||
    (!(d = .mysql && t = tinyintOne) && (special? (m.types d) t d).any (!·.isEmpty))

theorem isRuled_iff {t : Text} : m.isRuled d t = true ↔
    (d = .postgresql ∧ (elementType t).2 ≠ 0) ∨ (¬(d = .mysql ∧ t = tinyintOne) ∧
      ∃ ts, special? (m.types d) t d = some ts ∧ ts ≠ []) := by
  rw [isRuled, Bool.or_eq_true, Bool.and_eq_true, Bool.and_eq_true, Bool.not_eq_true',
    ← Bool.not_eq_true, Bool.and_eq_true, Option.any_eq_true]
  simp only [decide_eq_true_eq, Bool.not_eq_true', List.isEmpty_eq_false_iff]

/-- The mapper with an entry under a key of a dialect. -/
def withEntry (m : TypeMapper) (d : Dialect) (key tsType : Text) : TypeMapper :=
  m.setCustom d ((m.custom d).insert key tsType)

/-! ### Looking up -/

theorem get?_types_withEntry (hm : m.IsWellFormed) (d : Dialect) (key tsType k : Text) :
    ((m.withEntry d key tsType).types d).get? k =
      if k = key then some tsType else (m.types d).get? k := by
  have hcustom : (m.withEntry d key tsType).custom d = (m.custom d).insert key tsType := by
    rw [withEntry, custom_setCustom, if_pos rfl]
  rw [types, types, OrderedMap.get?_merge (hcustom ▸ OrderedMap.nodup_keys_insert key tsType (hm d)),
    OrderedMap.get?_merge (hm d), hcustom, OrderedMap.get?_insert]
  split
  · rfl
  · rfl

/-- The rules look up no entry but one, and that in MySQL only. -/
theorem special?_withEntry (hm : m.IsWellFormed) (h : d = .mysql → key ≠ tinyintOne) (t : Text) :
    special? ((m.withEntry d key tsType).types d) t d = special? (m.types d) t d := by
  cases d with
  | mysql =>
    have hkey : "tinyint(1)".toList ≠ key := Ne.symm (h rfl)
    rw [special?, special?, get?_types_withEntry hm, if_neg hkey]
  | postgresql => rfl
  | sqlite => rfl

/-- A type that does not come down to the key is looked up as before. -/
theorem lookup?_withEntry (hm : m.IsWellFormed) (h : d = .mysql → key ≠ tinyintOne) {t : Text}
    (ht : t ≠ key) (hnormal : normalType t ≠ key) (hfirst : firstWord (normalType t) ≠ key) :
    (m.withEntry d key tsType).lookup? d t = m.lookup? d t := by
  rw [lookup?, lookup?, special?_withEntry hm h, get?_types_withEntry hm, get?_types_withEntry hm,
    get?_types_withEntry hm, if_neg ht, if_neg hnormal, if_neg hfirst]

/-- What a rule makes of a type is not changed by an entry for another one. -/
theorem lookup?_of_special? {t ts : Text} (h : special? (m.types d) t d = some ts) (hts : ts ≠ []) :
    m.lookup? d t = some ts := by
  rw [lookup?, h, Option.filter_some, if_pos]
  · rfl
  · rwa [Bool.not_eq_true', List.isEmpty_eq_false_iff]

/-! ### The entry of a type -/

/-- Where no rule maps the type its entry is found. -/
theorem lookup?_self (hm : m.IsWellFormed) (h : ¬m.isRuled d key = true) :
    (m.withEntry d key tsType).lookup? d key = some tsType := by
  rw [isRuled_iff, not_or] at h
  rw [lookup?, get?_types_withEntry hm d key tsType key, if_pos rfl]
  by_cases htiny : d = .mysql ∧ key = tinyintOne
  · -- The rule looks up the entry itself, and an empty entry is found behind it.
    obtain ⟨rfl, rfl⟩ := htiny
    have hspecial : special? ((m.withEntry .mysql tinyintOne tsType).types .mysql) tinyintOne
        .mysql = some tsType := by
      rw [special?, if_pos (by decide), get?_types_withEntry hm]
      rfl
    rw [hspecial]
    cases tsType <;> rfl
  · rw [special?_withEntry hm fun hd hkey => htiny ⟨hd, hkey⟩]
    have hnone : (special? (m.types d) key d).filter (!·.isEmpty) = none := by
      rw [Option.filter_eq_none_iff]
      intro ts hts
      rw [Bool.not_eq_true', Bool.not_eq_false, List.isEmpty_iff]
      exact of_not_not fun hne => h.2 ⟨htiny, ts, hts, hne⟩
    rw [hnone]
    rfl

/-- The elements of an array are not looked up under the type of the array. -/
theorem ne_of_count_lt {t : Text} (h : t.count ']' < key.count ']') :
    t ≠ key ∧ normalType t ≠ key ∧ firstWord (normalType t) ≠ key := by
  have hnormal : (normalType t).count ']' ≤ t.count ']' :=
    count_normalType_le (by decide) (by decide) t
  have hfirst : (firstWord (normalType t)).count ']' ≤ (normalType t).count ']' :=
    count_firstWord_le _
  refine ⟨?_, ?_, ?_⟩
  · rintro rfl
    omega
  · intro heq
    rw [heq] at hnormal
    omega
  · intro heq
    rw [heq] at hfirst
    omega

theorem mapIn_of_array {sqlType : Text} (h : (elementType (plainType sqlType)).2 ≠ 0)
    (m : TypeMapper) : m.mapIn .postgresql sqlType =
      m.mapPlain .postgresql (elementType (plainType sqlType)).1 (elementType (plainType sqlType)).1
        >>= fun tsType => pure (arrayOf tsType (elementType (plainType sqlType)).2) := by
  rw [mapIn, if_pos rfl, if_neg h]

/-- A type that is no array is mapped as it is. -/
theorem mapIn_of_scalar {sqlType : Text}
    (h : ¬(d = .postgresql ∧ (elementType (plainType sqlType)).2 ≠ 0)) (m : TypeMapper) :
    m.mapIn d sqlType = m.mapPlain d sqlType (plainType sqlType) := by
  rw [mapIn]
  by_cases hd : d = .postgresql
  · have hscalar : (elementType (plainType sqlType)).2 = 0 := of_not_not fun hne => h ⟨hd, hne⟩
    rw [if_pos hd, if_pos hscalar]
  · rw [if_neg hd, if_pos rfl]

/-- **An entry decides how its type is mapped, unless a rule of the dialect does**; then the entry
changes nothing.  The type has single spaces between its words, as its entry is looked up. -/
theorem map_add (hm : m.IsWellFormed) {name : Text} (hname : Dialect.ofName? name = some d)
    {sqlType : Text} (hsolid : sqlType.isAllBlank = false)
    (hspaced : plainType sqlType = entryKey sqlType) (tsType : Text) :
    ∃ m', m.add name sqlType tsType = .ok m' ∧ m'.map sqlType name =
      if m.isRuled d (plainType sqlType) then m.map sqlType name else pure tsType := by
  refine ⟨m.withEntry d (plainType sqlType) tsType, by rw [add, hname, hspaced]; rfl, ?_⟩
  have hmap : ∀ m : TypeMapper, m.map sqlType name = m.mapIn d sqlType := by
    intro m
    rw [map, hsolid, resolve, hname]
    rfl
  have hne : (plainType sqlType).isEmpty = false := by
    rw [hspaced, entryKey, List.isEmpty_eq_false_iff, ne_eq, lower_eq_nil_iff, strip_eq_nil_iff,
      ← List.all_eq_true]
    exact ne_true_of_eq_false hsolid
  rw [hmap, hmap]
  generalize hkey : plainType sqlType = key at hne
  by_cases harray : d = .postgresql ∧ (elementType key).2 ≠ 0
  · -- Only the type of the elements is looked up, and that is not the one with the new entry.
    obtain ⟨rfl, hdimensions⟩ := harray
    obtain ⟨helement, hnormal, hfirst⟩ := ne_of_count_lt (count_elementType_lt hdimensions)
    have hlookup : (m.withEntry .postgresql key tsType).lookup? .postgresql (elementType key).1 =
        m.lookup? .postgresql (elementType key).1 :=
      lookup?_withEntry (d := .postgresql) hm (fun h => by cases h) helement hnormal hfirst
    rw [if_pos (isRuled_iff.mpr (Or.inl ⟨rfl, hdimensions⟩)), mapIn_of_array (hkey ▸ hdimensions),
      mapIn_of_array (hkey ▸ hdimensions), hkey, mapPlain, mapPlain, hlookup]
    rfl
  · have hscalar : ∀ m : TypeMapper, m.mapIn d sqlType = m.mapPlain d sqlType key := by
      rw [← hkey] at harray ⊢
      exact mapIn_of_scalar harray
    rw [hscalar, hscalar, mapPlain, mapPlain, hne]
    by_cases hruled : m.isRuled d key = true
    · obtain ⟨htiny, ts, hts, htsne⟩ := (isRuled_iff.mp hruled).resolve_left harray
      have hts' : special? ((m.withEntry d key tsType).types d) key d = some ts := by
        rw [special?_withEntry hm fun hd hk => htiny ⟨hd, hk⟩, hts]
      rw [if_pos hruled, lookup?_of_special? hts htsne, lookup?_of_special? hts' htsne]
    · rw [if_neg hruled, lookup?_self hm hruled]
      rfl

/-- A type of two words, of which MySQL would know the first. -/
theorem map_add_doublePrecision :
    ((fresh true).IsWellFormed ∧ Dialect.ofName? " MySQL".toList = some .mysql ∧
      isAllBlank "Double Precision ".toList = false ∧
      plainType "Double Precision ".toList = entryKey "Double Precision ".toList) ∧
    ∃ m', (fresh true).add " MySQL".toList "Double Precision ".toList "Decimal".toList = .ok m' ∧
      m'.map "Double Precision ".toList " MySQL".toList = pure "Decimal".toList := by
  have hname : Dialect.ofName? " MySQL".toList = some .mysql := by decide
  have hspaced : plainType "Double Precision ".toList = entryKey "Double Precision ".toList := by
    decide +kernel
  refine ⟨⟨isWellFormed_fresh true, hname, by decide, hspaced⟩, ?_⟩
  obtain ⟨m', hadd, hmap⟩ :=
    map_add (isWellFormed_fresh true) hname (by decide) hspaced "Decimal".toList
  rw [if_neg (by decide +kernel)] at hmap
  exact ⟨m', hadd, hmap⟩

/-- The rule of MySQL for `ENUM` stands above an entry, and an entry that is added with two spaces
between its words is not found. -/
theorem map_add_enum :
    (∃ m', (fresh false).add "mysql".toList "ENUM('a')".toList "Color".toList = .ok m' ∧
      (m'.map "ENUM('a')".toList "mysql".toList).outcome = .ok "string".toList) ∧
    ∃ m', (fresh false).add "mysql".toList "DOUBLE  PRECISION".toList "Decimal".toList = .ok m' ∧
      (m'.map "DOUBLE  PRECISION".toList "mysql".toList).outcome = .ok "number".toList :=
  ⟨⟨(fresh false).withEntry .mysql "enum('a')".toList "Color".toList, by rfl, by decide +kernel⟩,
    (fresh false).withEntry .mysql "double  precision".toList "Decimal".toList, by rfl,
      by decide +kernel⟩

end TypeMapper

end TableTypes
