import TableTypes.Proofs.Report
import TableTypes.TypeMap

/-!
# Strict and lenient mappers

A strict mapper and a lenient one with the same entries look the same things up, so they differ only
where nothing is found: the strict one fails, the lenient one warns once and goes on.
`TypeMapper.Softens` says so of two reports.  It holds of a type that is no array
(`softens_mapPlain`), array suffixes keep it (`Softens.arrayOf`), hence it holds of every type in a
known dialect (`softens_mapIn`).  `TypeMapper.leniently_map` adds the dialects that are not known.
-/

namespace TableTypes

open Text

namespace TypeMapper

variable {m : TypeMapper} {d : Dialect} {shown : Text} {n : Nat} {r s : Report Text}

/-- The strict mapper with the same entries. -/
def strictly (m : TypeMapper) : TypeMapper :=
  { m with strict := true }

/-- The lenient mapper with the same entries. -/
def leniently (m : TypeMapper) : TypeMapper :=
  { m with strict := false }

theorem lookup?_leniently (m : TypeMapper) (d : Dialect) (t : Text) :
    m.leniently.lookup? d t = m.strictly.lookup? d t := rfl

/-! ### Two reports on one type -/

/-- The report of a strict mapper on a type, and that of a lenient one: either both found the type,
or the strict one failed on the type `shown` and the lenient one gave an array of `n` dimensions
over `any` with one warning. -/
inductive Softens (d : Dialect) (shown : Text) (n : Nat) : Report Text → Report Text → Prop
  | found {r : Report Text} {tsType : Text} (h : r.outcome = .ok tsType) : Softens d shown n r r
  | missed : Softens d shown n (.fail (.mapping ⟨.unrecognizedType, shown, d.name⟩))
      ⟨[.unrecognizedType shown d], .ok (arrayOf "any".toList n)⟩

namespace Softens

/-- What the strict mapper finds is reported alike. -/
theorem eq_of_ok (h : Softens d shown n r s) {tsType : Text} (hr : r.outcome = .ok tsType) :
    s = r := by
  cases h with
  | found _ => rfl
  | missed => cases hr

theorem eq_of_error (h : Softens d shown n r s) {f : Fault} (hr : r.outcome = .error f) :
    r = .fail (.mapping ⟨.unrecognizedType, shown, d.name⟩) ∧
      s = ⟨[.unrecognizedType shown d], .ok (TypeMapper.arrayOf "any".toList n)⟩ := by
  cases h with
  | found hok => rw [hok] at hr; cases hr
  | missed => exact ⟨rfl, rfl⟩

/-- Array suffixes are put on whatever the report on the elements is. -/
theorem arrayOf (h : Softens d shown 0 r s) (n : Nat) :
    Softens d shown n (r >>= fun tsType => pure (TypeMapper.arrayOf tsType n))
      (s >>= fun tsType => pure (TypeMapper.arrayOf tsType n)) := by
  cases h with
  | @found r tsType hok =>
    have hbind : (r >>= fun tsType => pure (TypeMapper.arrayOf tsType n)).outcome =
        .ok (TypeMapper.arrayOf tsType n) := by
      rw [Report.bind_of_ok hok]
      rfl
    exact .found hbind
  | missed => exact .missed

end Softens

/-! ### A type in a known dialect -/

/-- A type that is no array is looked up once, or found blank by both. -/
theorem softens_mapPlain (m : TypeMapper) (d : Dialect) (shown t : Text) :
    Softens d shown 0 (m.strictly.mapPlain d shown t) (m.leniently.mapPlain d shown t) := by
  rw [mapPlain, mapPlain, lookup?_leniently]
  cases t.isEmpty with
  | true => exact .found rfl
  | false =>
    cases m.strictly.lookup? d t with
    | some tsType => exact .found rfl
    | none => exact .missed

/-- The number of array suffixes that are taken off a type. -/
def dimensions (d : Dialect) (sqlType : Text) : Nat :=
  if d = .postgresql then (elementType (plainType sqlType)).2 else 0

/-- The type that is named when it cannot be mapped: that of the elements, or the type as it was
given where it is no array. -/
def shownType (d : Dialect) (sqlType : Text) : Text :=
  if dimensions d sqlType = 0 then sqlType else (elementType (plainType sqlType)).1

theorem softens_mapIn (m : TypeMapper) (d : Dialect) (sqlType : Text) :
    Softens d (shownType d sqlType) (dimensions d sqlType) (m.strictly.mapIn d sqlType)
      (m.leniently.mapIn d sqlType) := by
  have hdimensions : (if d = .postgresql then elementType (plainType sqlType)
      else (plainType sqlType, 0)).2 = dimensions d sqlType := by
    rw [dimensions]
    split
    · rfl
    · rfl
  rw [mapIn, mapIn, hdimensions, shownType]
  by_cases hscalar : dimensions d sqlType = 0
  · rw [if_pos hscalar, if_pos hscalar, if_pos hscalar, hscalar]
    exact softens_mapPlain m d sqlType (plainType sqlType)
  · have hd : d = .postgresql := of_not_not fun hd => hscalar (if_neg hd)
    rw [if_neg hscalar, if_neg hscalar, if_neg hscalar, if_pos hd]
    exact (softens_mapPlain m d _ _).arrayOf (dimensions d sqlType)

/-! ### Any dialect -/

/-- A blank type is reported alike by every mapper and in every dialect. -/
theorem map_of_isAllBlank {sqlType : Text} (h : sqlType.isAllBlank = true) (m : TypeMapper)
    (dialect : Text) : m.map sqlType dialect = ⟨[.blankType], .ok "any".toList⟩ := by
  rw [map, if_pos h]

theorem map_of_ofName? {dialect : Text} (h : Dialect.ofName? dialect = some d) {sqlType : Text}
    (hsolid : sqlType.isAllBlank = false) (m : TypeMapper) :
    m.map sqlType dialect = m.mapIn d sqlType := by
  rw [map, hsolid, if_neg Bool.false_ne_true, resolve, h]
  rfl

theorem strictly_map_of_ofName?_eq_none {dialect : Text} (h : Dialect.ofName? dialect = none)
    {sqlType : Text} (hsolid : sqlType.isAllBlank = false) (m : TypeMapper) :
    m.strictly.map sqlType dialect =
      .fail (.mapping ⟨.unsupportedDialectForType, sqlType, dialect⟩) := by
  rw [map, hsolid, if_neg Bool.false_ne_true, resolve, h]
  rfl

theorem leniently_map_of_ofName?_eq_none {dialect : Text} (h : Dialect.ofName? dialect = none)
    {sqlType : Text} (hsolid : sqlType.isAllBlank = false) (m : TypeMapper) :
    m.leniently.map sqlType dialect =
      ⟨.unsupportedDialect dialect :: (m.leniently.mapIn .mysql sqlType).warnings,
        (m.leniently.mapIn .mysql sqlType).outcome⟩ := by
  rw [map, hsolid, if_neg Bool.false_ne_true, resolve, h]
  rfl

/-- **A lenient mapper does what the strict one with the same entries does, up to the failure.**
In a known dialect a type that the strict mapper maps is mapped alike, warnings included; a type it
fails on is an array over `any` with as many suffixes as were taken off, and one warning.  In a
dialect that is not known the strict mapper fails, and the lenient one does what it does in MySQL,
behind a warning. -/
theorem leniently_map (m : TypeMapper) (sqlType dialect : Text) :
    (∀ d, Dialect.ofName? dialect = some d →
      (∀ tsType, (m.strictly.map sqlType dialect).outcome = .ok tsType →
        m.leniently.map sqlType dialect = m.strictly.map sqlType dialect) ∧
      ∀ f, (m.strictly.map sqlType dialect).outcome = .error f →
        m.strictly.map sqlType dialect =
          .fail (.mapping ⟨.unrecognizedType, shownType d sqlType, d.name⟩) ∧
        m.leniently.map sqlType dialect = ⟨[.unrecognizedType (shownType d sqlType) d],
          .ok (arrayOf "any".toList (dimensions d sqlType))⟩) ∧
    (Dialect.ofName? dialect = none → sqlType.isAllBlank = false →
      m.strictly.map sqlType dialect =
        .fail (.mapping ⟨.unsupportedDialectForType, sqlType, dialect⟩) ∧
      m.leniently.map sqlType dialect =
        ⟨.unsupportedDialect dialect :: (m.leniently.map sqlType "mysql".toList).warnings,
          (m.leniently.map sqlType "mysql".toList).outcome⟩) := by
  refine ⟨fun d hd => ?_, fun hnone hsolid => ?_⟩
  · have hsoftens : Softens d (shownType d sqlType) (dimensions d sqlType)
        (m.strictly.map sqlType dialect) (m.leniently.map sqlType dialect) := by
      cases hblank : sqlType.isAllBlank with
      | true =>
        rw [map_of_isAllBlank hblank, map_of_isAllBlank hblank]
        exact .found rfl
      | false =>
        rw [map_of_ofName? hd hblank, map_of_ofName? hd hblank]
        exact softens_mapIn m d sqlType
    exact ⟨fun _ hok => hsoftens.eq_of_ok hok, fun _ herror => hsoftens.eq_of_error herror⟩
  · have hmysql : Dialect.ofName? "mysql".toList = some .mysql := by decide
    rw [map_of_ofName? hmysql hsolid]
    exact ⟨strictly_map_of_ofName?_eq_none hnone hsolid m,
      leniently_map_of_ofName?_eq_none hnone hsolid m⟩

/-- A type that PostgreSQL does not know, with two array suffixes, and a dialect that is not
known. -/
theorem leniently_map_row :
    (Dialect.ofName? "postgresql".toList = some .postgresql ∧
      Dialect.ofName? "oracle".toList = none ∧ isAllBlank "ROW[3] []".toList = false) ∧
    (plain.strictly.map "ROW[3] []".toList "postgresql".toList).outcome =
      .error (.mapping ⟨.unrecognizedType, "row".toList, "postgresql".toList⟩) ∧
    plain.leniently.map "ROW[3] []".toList "postgresql".toList =
      ⟨[.unrecognizedType "row".toList .postgresql], .ok "any[][]".toList⟩ ∧
    plain.leniently.map "ROW[3] []".toList "oracle".toList =
      ⟨.unsupportedDialect "oracle".toList ::
        (plain.leniently.map "ROW[3] []".toList "mysql".toList).warnings,
        (plain.leniently.map "ROW[3] []".toList "mysql".toList).outcome⟩ := by
  have hknown : Dialect.ofName? "postgresql".toList = some .postgresql := by decide
  have hunknown : Dialect.ofName? "oracle".toList = none := by decide
  have hsolid : isAllBlank "ROW[3] []".toList = false := by decide
  have hfails : (plain.strictly.map "ROW[3] []".toList "postgresql".toList).outcome =
      .error (.mapping ⟨.unrecognizedType, "row".toList, "postgresql".toList⟩) := by
    decide +kernel
  have hlenient := ((leniently_map plain "ROW[3] []".toList "postgresql".toList).1 .postgresql
    hknown).2 _ hfails
  have hshown : shownType .postgresql "ROW[3] []".toList = "row".toList := by decide +kernel
  have hdimensions : dimensions .postgresql "ROW[3] []".toList = 2 := by decide +kernel
  rw [hshown, hdimensions] at hlenient
  exact ⟨⟨hknown, hunknown, hsolid⟩, hfails, hlenient.2,
    ((leniently_map plain "ROW[3] []".toList "oracle".toList).2 hunknown hsolid).2⟩

end TypeMapper

end TableTypes
