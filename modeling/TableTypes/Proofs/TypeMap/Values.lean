import TableTypes.Proofs.OrderedMap
import TableTypes.Proofs.Report
import TableTypes.TypeMap
import Mathlib.Data.Option.Basic

/-!
# What types are mapped to

Every TypeScript type that a mapper gives is `any`, stands in an entry, or is an array over such a
type.  So what holds of the built-in entries and of those that the mapper adds holds of everything
that it gives (`IsTypeProperty.of_map`).
-/

namespace TableTypes

open Text

/-- What holds of the TypeScript types in the built-in entries and of `any`, and of an array over a
type of which it holds. -/
structure IsTypeProperty (p : Text → Prop) : Prop where
  builtin : ∀ d, ∀ e ∈ Dialect.types d, p e.2
  any : p "any".toList
  array : ∀ t, p t → p (t ++ "[]".toList)

namespace IsTypeProperty

variable {p : Text → Prop} {m : TypeMapper} (hp : IsTypeProperty p)
  (hm : ∀ d, ∀ e ∈ m.custom d, p e.2)
include hp

theorem arrayOf {t : Text} (ht : p t) (n : Nat) : p (TypeMapper.arrayOf t n) := by
  induction n with
  | zero => exact ht
  | succ n ih => exact hp.array _ ih

include hm

theorem of_types {d : Dialect} {key ts : Text} (h : (m.types d).get? key = some ts) : p ts := by
  rcases OrderedMap.mem_merge (OrderedMap.mem_of_get? h) with h | h
  · exact hp.builtin d _ h
  · exact hm d _ h

theorem of_special? {d : Dialect} {t ts : Text} (h : TypeMapper.special? (m.types d) t d = some ts) :
    p ts := by
  have hboolean : p "boolean".toList := hp.builtin .mysql ("boolean".toList, _) (by decide)
  have hstring : p "string".toList := hp.builtin .mysql ("char".toList, _) (by decide)
  have hnumber : p "number".toList := hp.builtin .mysql ("int".toList, _) (by decide)
  cases d with
  | mysql =>
    rw [TypeMapper.special?] at h
    split_ifs at h
    · obtain rfl := Option.some.inj h
      cases hentry : (m.types .mysql).get? "tinyint(1)".toList with
      | none => exact hboolean
      | some ts => exact of_types hp hm hentry
    · exact Option.some.inj h ▸ hstring
  | postgresql =>
    rw [TypeMapper.special?] at h
    split_ifs at h
    exact Option.some.inj h ▸ hstring
  | sqlite =>
    rw [TypeMapper.special?] at h
    split_ifs at h
    exact Option.some.inj h ▸ hnumber

theorem of_lookup? {d : Dialect} {t ts : Text} (h : m.lookup? d t = some ts) : p ts := by
  rw [TypeMapper.lookup?, Option.orElse_eq_some, Option.orElse_eq_some, Option.orElse_eq_some] at h
  rcases h with h | ⟨-, h | ⟨-, h | ⟨-, h⟩⟩⟩
  · exact of_special? hp hm (Option.eq_some_of_filter_eq_some h)
  · exact of_types hp hm h
  · exact of_types hp hm h
  · exact of_types hp hm h

theorem of_mapPlain {d : Dialect} {shown t ts : Text}
    (h : (m.mapPlain d shown t).outcome = .ok ts) : p ts := by
  rw [TypeMapper.mapPlain] at h
  split at h
  · exact Except.ok.inj h ▸ hp.any
  · split at h
    · rename_i ts' hts
      exact Except.ok.inj h ▸ of_lookup? hp hm hts
    · rw [TypeMapper.unrecognized] at h
      split at h
      · cases h
      · exact Except.ok.inj h ▸ hp.any

theorem of_mapIn {d : Dialect} {sqlType ts : Text} (h : (m.mapIn d sqlType).outcome = .ok ts) :
    p ts := by
  rw [TypeMapper.mapIn] at h
  generalize (if d = .postgresql then elementType (plainType sqlType) else (plainType sqlType, 0)) =
    element at h
  split at h
  · exact of_mapPlain hp hm h
  · obtain ⟨ts', hts, hok⟩ := Report.bind_eq_ok h
    exact Except.ok.inj hok ▸ hp.arrayOf (of_mapPlain hp hm hts) _

/-- **What holds of all entries holds of every type that the mapper gives.** -/
theorem of_map {sqlType name ts : Text} (h : (m.map sqlType name).outcome = .ok ts) : p ts := by
  rw [TypeMapper.map] at h
  split at h
  · exact Except.ok.inj h ▸ hp.any
  · obtain ⟨d, -, hin⟩ := Report.bind_eq_ok h
    exact of_mapIn hp hm hin

end IsTypeProperty

end TableTypes
