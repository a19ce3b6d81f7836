import TableTypes.Proofs.OrderedMap
import TableTypes.Proofs.Report
import TableTypes.TypeMap

/-!
# The history of a mapper

A mapper keeps the entries that are added to it in one map for each dialect.  A change to the
entries of one dialect is replayed on the map of that dialect (`TypeMapper.custom_after`), so after any
history each map holds what the changes to its own dialect leave behind (`TypeMapper.custom_run`),
and no other dialect is mapped differently (`TypeMapper.map_after`).  All of this together is
`TypeMapper.followsHistory_run`.
-/

namespace TableTypes

open Text

/-! ### Changes -/

/-- A change to the entries of a mapper in the dialect of a name. -/
inductive MapperEdit where
  | add (dialect sqlType tsType : Text)
  | remove (dialect sqlType : Text)
  | clear (dialect : Text)
  deriving DecidableEq, Repr

namespace MapperEdit

/-- The name of the dialect. -/
def dialect : MapperEdit → Text
  | add dialect _ _ => dialect
  | remove dialect _ => dialect
  | clear dialect => dialect

/-- Whether it is the entries of `d` that are changed. -/
def concerns (d : Dialect) (e : MapperEdit) : Bool :=
  Dialect.ofName? e.dialect = some d

/-- The entries of one dialect after a change to them. -/
def replay (entries : OrderedMap Text) : MapperEdit → OrderedMap Text
  | add _ sqlType tsType => entries.insert (TypeMapper.entryKey sqlType) tsType
  | remove _ sqlType => entries.erase (TypeMapper.entryKey sqlType)
  | clear _ => []

/-- What a history of changes leaves behind in a map that is empty before it. -/
def replayAll (es : List MapperEdit) : OrderedMap Text :=
  es.foldl replay []

theorem nodup_keys_replay {entries : OrderedMap Text} (h : entries.keys.Nodup) (e : MapperEdit) :
    (e.replay entries).keys.Nodup := by
  cases e with
  | add _ sqlType tsType => exact OrderedMap.nodup_keys_insert _ tsType h
  | remove _ sqlType => exact OrderedMap.nodup_keys_erase _ h
  | clear _ => exact List.nodup_nil

end MapperEdit

namespace TypeMapper

/-- The mapper without entries of its own. -/
def fresh (strict : Bool) : TypeMapper :=
  ⟨strict, fun _ => []⟩

/-- The mapper with a change made to it. -/
def edit (m : TypeMapper) : MapperEdit → Except MappingError TypeMapper
  | .add dialect sqlType tsType => m.add dialect sqlType tsType
  | .remove dialect sqlType => .ok (m.remove dialect sqlType)
  | .clear dialect => .ok (m.clear dialect)

/-- The mapper after a change; one that fails leaves it as it was. -/
def after (m : TypeMapper) (e : MapperEdit) : TypeMapper :=
  (m.edit e).toOption.getD m

/-- The mapper after a history of changes. -/
def run (m : TypeMapper) (es : List MapperEdit) : TypeMapper :=
  es.foldl after m

variable {m : TypeMapper} {e : MapperEdit} {d : Dialect}

/-! ### One change -/

theorem edit_of_known (h : Dialect.ofName? e.dialect = some d) :
    m.edit e = .ok (m.setCustom d (e.replay (m.custom d))) := by
  cases e with
  | add dialect sqlType tsType =>
    have h : Dialect.ofName? dialect = some d := h
    show m.add dialect sqlType tsType = _
    rw [add, h]
    rfl
  | remove dialect sqlType =>
    have h : Dialect.ofName? dialect = some d := h
    show Except.ok (m.remove dialect sqlType) = _
    rw [remove, h]
    rfl
  | clear dialect =>
    have h : Dialect.ofName? dialect = some d := h
    show Except.ok (m.clear dialect) = _
    rw [clear, h]
    rfl

/-- An entry cannot be added in a dialect that is not known, and there is nothing to take away. -/
theorem edit_of_unknown (h : Dialect.ofName? e.dialect = none) : m.edit e =
    match e with
    | .add dialect sqlType _ => .error ⟨.unsupportedDialect, sqlType, dialect⟩
    | _ => .ok m := by
  cases e with
  | add dialect sqlType tsType =>
    have h : Dialect.ofName? dialect = none := h
    show m.add dialect sqlType tsType = _
    rw [add, h]
  | remove dialect sqlType =>
    have h : Dialect.ofName? dialect = none := h
    show Except.ok (m.remove dialect sqlType) = _
    rw [remove, h]
  | clear dialect =>
    have h : Dialect.ofName? dialect = none := h
    show Except.ok (m.clear dialect) = _
    rw [clear, h]

theorem after_of_unknown (h : Dialect.ofName? e.dialect = none) : m.after e = m := by
  rw [after, edit_of_unknown h]
  cases e <;> rfl

theorem after_of_known (h : Dialect.ofName? e.dialect = some d) :
    m.after e = m.setCustom d (e.replay (m.custom d)) := by
  rw [after, edit_of_known h]
  rfl

theorem custom_setCustom (m : TypeMapper) (d d' : Dialect) (entries : OrderedMap Text) :
    (m.setCustom d entries).custom d' = if d' = d then entries else m.custom d' := rfl

theorem strict_after (m : TypeMapper) (e : MapperEdit) : (m.after e).strict = m.strict := by
  cases h : Dialect.ofName? e.dialect with
  | none => rw [after_of_unknown h]
  | some d => rw [after_of_known h]; rfl

/-- A change is replayed on the entries of its dialect, and no others are touched. -/
theorem custom_after (m : TypeMapper) (e : MapperEdit) (d : Dialect) :
    (m.after e).custom d = if e.concerns d then e.replay (m.custom d) else m.custom d := by
  cases h : Dialect.ofName? e.dialect with
  | none =>
    have hnot : e.concerns d = false := by rw [MapperEdit.concerns, h]; rfl
    rw [after_of_unknown h, hnot]
    rfl
  | some d' =>
    rw [after_of_known h, custom_setCustom]
    by_cases hd : d = d'
    · subst hd
      rw [if_pos rfl, MapperEdit.concerns, h, if_pos (decide_eq_true rfl)]
    · have hnot : ¬e.concerns d = true := by
        rw [MapperEdit.concerns, h, decide_eq_true_eq, Option.some.injEq]
        exact Ne.symm hd
      rw [if_neg hd, if_neg hnot]

/-! ### A history of changes -/

@[simp] theorem run_nil (m : TypeMapper) : m.run [] = m := rfl

@[simp] theorem run_cons (m : TypeMapper) (e : MapperEdit) (es : List MapperEdit) :
    m.run (e :: es) = (m.after e).run es := rfl

/-- Of a history only the changes to the dialect matter to its entries. -/
theorem custom_run (es : List MapperEdit) (d : Dialect) : ∀ m : TypeMapper,
    (m.run es).custom d = (es.filter (·.concerns d)).foldl MapperEdit.replay (m.custom d) := by
  induction es with
  | nil => exact fun m => rfl
  | cons e es ih =>
    intro m
    rw [run_cons, ih, custom_after, List.filter_cons]
    split
    · rfl
    · rfl

/-- Every state that a mapper can be in has each key once in each dialect. -/
def IsWellFormed (m : TypeMapper) : Prop :=
  ∀ d, (m.custom d).keys.Nodup

theorem isWellFormed_fresh (strict : Bool) : (fresh strict).IsWellFormed :=
  fun _ => List.nodup_nil

theorem IsWellFormed.after (h : m.IsWellFormed) (e : MapperEdit) : (m.after e).IsWellFormed := by
  intro d
  rw [custom_after]
  split
  · exact MapperEdit.nodup_keys_replay (h d) e
  · exact h d

theorem IsWellFormed.run (h : m.IsWellFormed) (es : List MapperEdit) :
    (m.run es).IsWellFormed := by
  induction es generalizing m with
  | nil => exact h
  | cons e es ih => exact ih (h.after e)

/-! ### What is read off the entries -/

theorem customTypes_of_known {name : Text} (h : Dialect.ofName? name = some d) :
    m.customTypes name = m.custom d := by
  rw [customTypes, h]
  rfl

/-- Read by its own name, a dialect holds what the change leaves of its entries. -/
theorem customTypes_after (h : Dialect.ofName? e.dialect = some d) :
    (m.after e).customTypes e.dialect = e.replay (m.customTypes e.dialect) := by
  rw [customTypes_of_known h, customTypes_of_known h, after_of_known h, custom_setCustom,
    if_pos rfl]

theorem customTypes_add {name : Text} (sqlType tsType : Text)
    (h : Dialect.ofName? name = some d) :
    (m.after (.add name sqlType tsType)).customTypes name =
      (m.customTypes name).insert (entryKey sqlType) tsType :=
  customTypes_after (e := .add name sqlType tsType) h

theorem customTypes_remove {name : Text} (sqlType : Text) (h : Dialect.ofName? name = some d) :
    (m.after (.remove name sqlType)).customTypes name =
      (m.customTypes name).erase (entryKey sqlType) :=
  customTypes_after (e := .remove name sqlType) h

theorem nodup_keys_types (d : Dialect) : d.types.keys.Nodup := by
  cases d <;> decide +kernel

/-- The types with an entry are the built-in ones and then those that only the mapper has. -/
theorem supportedTypes_of_known (hm : m.IsWellFormed) {name : Text}
    (h : Dialect.ofName? name = some d) : m.supportedTypes name =
      d.types.keys ++ (m.custom d).keys.filter (· ∉ d.types.keys) := by
  rw [supportedTypes, h, Option.map_some, Option.getD_some, types,
    OrderedMap.keys_merge (hm d)]

theorem nodup_supportedTypes (hm : m.IsWellFormed) {name : Text}
    (h : Dialect.ofName? name = some d) : (m.supportedTypes name).Nodup := by
  rw [supportedTypes, h, Option.map_some, Option.getD_some]
  exact OrderedMap.nodup_keys_merge (nodup_keys_types d) (hm d)

/-- Types are mapped by the entries of the dialect alone. -/
theorem map_congr {m' : TypeMapper} (hstrict : m'.strict = m.strict) {name : Text}
    (hcustom : m'.custom ((Dialect.ofName? name).getD .mysql) =
      m.custom ((Dialect.ofName? name).getD .mysql)) (sqlType : Text) :
    m'.map sqlType name = m.map sqlType name := by
  have hin : ∀ {d}, m'.custom d = m.custom d → m'.mapIn d sqlType = m.mapIn d sqlType := by
    intro d hd
    have hplain : m'.mapPlain d = m.mapPlain d := by
      funext shown t
      rw [mapPlain, mapPlain, lookup?, lookup?, types, types, unrecognized, unrecognized, hd,
        hstrict]
    rw [mapIn, mapIn, hplain]
  rw [map, map, resolve, resolve, hstrict]
  split
  · rfl
  · cases hname : Dialect.ofName? name with
    | some d =>
      rw [hname] at hcustom
      exact hin hcustom
    | none =>
      -- A strict mapper fails here, any other one goes on with the entries of MySQL.
      rw [hname] at hcustom
      dsimp only
      split
      · rfl
      · refine Report.bind_congr_ok fun d hd => ?_
        obtain rfl : Dialect.mysql = d := Except.ok.inj hd
        exact hin hcustom

/-- A change to the entries of one dialect is not felt in any other.  A name that is not known
stands for MySQL. -/
theorem map_after (m : TypeMapper) (h : Dialect.ofName? e.dialect = some d) {name : Text}
    (hname : (Dialect.ofName? name).getD .mysql ≠ d) (sqlType : Text) :
    (m.after e).map sqlType name = m.map sqlType name := by
  refine map_congr (strict_after m e) ?_ sqlType
  rw [after_of_known h, custom_setCustom, if_neg hname]

/-- The mapper `m` has come about by the changes `es` to one without entries: it is three maps in
insertion order on top of tables that stay as they are. -/
structure FollowsHistory (m : TypeMapper) (es : List MapperEdit) : Prop where
  /-- The entries of a dialect are what the changes to that dialect leave behind. -/
  entries : ∀ {name d}, Dialect.ofName? name = some d →
    m.customTypes name = MapperEdit.replayAll (es.filter (·.concerns d))
  /-- An entry under a key that is present takes its place, any other goes to the end. -/
  keys_add : ∀ {name d} (sqlType tsType : Text), Dialect.ofName? name = some d →
    ((m.after (.add name sqlType tsType)).customTypes name).keys =
      if entryKey sqlType ∈ (m.customTypes name).keys then (m.customTypes name).keys
      else (m.customTypes name).keys ++ [entryKey sqlType]
  /-- An entry that is removed and added again goes to the end. -/
  keys_remove_add : ∀ {name d} (sqlType tsType : Text), Dialect.ofName? name = some d →
    ((m.run [.remove name sqlType, .add name sqlType tsType]).customTypes name).keys =
      (m.customTypes name).keys.filter (· ≠ entryKey sqlType) ++ [entryKey sqlType]
  /-- Adding an entry changes the value under its key and no other. -/
  value_add : ∀ {name d} (sqlType tsType key : Text), Dialect.ofName? name = some d →
    ((m.after (.add name sqlType tsType)).customTypes name).get? key =
      if key = entryKey sqlType then some tsType else (m.customTypes name).get? key
  /-- Removing an entry takes away the value under its key and no other. -/
  value_remove : ∀ {name d} (sqlType key : Text), Dialect.ofName? name = some d →
    ((m.after (.remove name sqlType)).customTypes name).get? key =
      if key = entryKey sqlType then none else (m.customTypes name).get? key
  /-- In a dialect that is not known nothing is changed, and adding an entry fails. -/
  unknown : ∀ {e : MapperEdit}, Dialect.ofName? e.dialect = none → m.after e = m ∧
    ∀ name sqlType tsType, e = .add name sqlType tsType →
      m.edit e = .error ⟨.unsupportedDialect, sqlType, name⟩
  /-- In a dialect that is known every change succeeds. -/
  known : ∀ {e : MapperEdit} {d}, Dialect.ofName? e.dialect = some d → m.edit e = .ok (m.after e)
  /-- The built-in entries are those of the dialect, whatever was changed. -/
  defaults : ∀ {name d}, Dialect.ofName? name = some d → defaultTypes name = d.types
  /-- The supported types are the built-in ones in the order of their table, then the others in the
  order in which they came, none of them twice. -/
  supported : ∀ {name d}, Dialect.ofName? name = some d → (m.supportedTypes name).Nodup ∧
    m.supportedTypes name = d.types.keys ++ (m.customTypes name).keys.filter (· ∉ d.types.keys)
  /-- A change to the entries of one dialect is not felt in any other. -/
  other : ∀ {e : MapperEdit} {d} {name : Text} (sqlType : Text),
    Dialect.ofName? e.dialect = some d → (Dialect.ofName? name).getD .mysql ≠ d →
      (m.after e).map sqlType name = m.map sqlType name

/-- **After any history a mapper is three maps in insertion order**, one for each dialect, each of
which holds what the changes to its own dialect leave behind. -/
theorem followsHistory_run (strict : Bool) (es : List MapperEdit) :
    ((fresh strict).run es).FollowsHistory es := by
  have hm := (isWellFormed_fresh strict).run es
  generalize hrun : (fresh strict).run es = m at hm
  constructor
  case entries =>
    intro name d h
    rw [customTypes_of_known h, ← hrun, custom_run]
    rfl
  case keys_add =>
    intro name d sqlType tsType h
    rw [customTypes_add sqlType tsType h, OrderedMap.keys_insert]
  case keys_remove_add =>
    intro name d sqlType tsType h
    -- Once the key is taken out it is a new one, and a new one goes to the end.
    have habsent : entryKey sqlType ∉
        (m.customTypes name).keys.filter (· ≠ entryKey sqlType) := by
      simp
    rw [run_cons, run_cons, run_nil, customTypes_add sqlType tsType h,
      customTypes_remove sqlType h, OrderedMap.keys_insert, OrderedMap.keys_erase,
      if_neg habsent]
  case value_add =>
    intro name d sqlType tsType key h
    rw [customTypes_add sqlType tsType h, OrderedMap.get?_insert]
  case value_remove =>
    intro name d sqlType key h
    rw [customTypes_remove sqlType h, OrderedMap.get?_erase]
  case unknown =>
    intro e h
    refine ⟨after_of_unknown h, ?_⟩
    rintro name sqlType tsType rfl
    exact edit_of_unknown h
  case known =>
    intro e d h
    rw [after_of_known h, edit_of_known h]
  case defaults =>
    intro name d h
    rw [defaultTypes, h]
    rfl
  case supported =>
    intro name d h
    rw [customTypes_of_known h]
    exact ⟨nodup_supportedTypes hm h, supportedTypes_of_known hm h⟩
  case other =>
    intro e d name sqlType h hname
    exact map_after m h hname sqlType

-- An entry that is added again keeps its place; one that is removed before goes to the end.
example : MapperEdit.replayAll [.add "mysql".toList "A".toList "x".toList,
    .add "auto".toList " b ".toList "y".toList, .add "mysql".toList "a".toList "z".toList,
    .remove "mysql".toList "B".toList, .add "mysql".toList "c".toList "u".toList,
    .add "mysql".toList "B".toList "v".toList] =
    [("a".toList, "z".toList), ("c".toList, "u".toList), ("b".toList, "v".toList)] := by
  decide +kernel

end TypeMapper

end TableTypes
