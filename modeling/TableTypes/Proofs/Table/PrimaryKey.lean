import TableTypes.Proofs.Table.Keys
import Mathlib.Data.List.Induction

/-!
# The order of the primary key

The names of the primary key come from two places: the columns that are declared a key by themselves
and the primary key constraints of the table.  Names of the second kind are put behind the others one
by one, each only if it is not there yet (`foldl_addKey_eq`), so the key is the union of both in
order, each further name at the place where it is listed first (`Table.ordersKeys`).
-/

namespace TableTypes

/-! ### Adding names one by one -/

/-- The names that are added to `keys` are those of `names` that are new, in the order in which they
come up first. -/
structure AddsNames (keys names added : List Text) : Prop where
  nodup : added.Nodup
  mem_iff : ∀ name, name ∈ added ↔ name ∈ names ∧ name ∉ keys
  ordered : added.Pairwise fun m n => names.idxOf m < names.idxOf n

namespace AddsNames

variable {keys names added : List Text} {name : Text}

theorem nil (keys : List Text) : AddsNames keys [] [] :=
  ⟨.nil, by simp, .nil⟩

/-- Names that are listed keep their places when the list goes on. -/
theorem ordered_append (h : AddsNames keys names added) (more : List Text) :
    added.Pairwise fun m n => (names ++ more).idxOf m < (names ++ more).idxOf n := by
  refine h.ordered.imp_of_mem fun {m n} hm hn hlt => ?_
  rwa [List.idxOf_append_of_mem ((h.mem_iff m).mp hm).1,
    List.idxOf_append_of_mem ((h.mem_iff n).mp hn).1]

/-- A name that is there already is not added. -/
theorem concat_old (h : AddsNames keys names added) (hname : name ∈ keys ++ added) :
    AddsNames keys (names ++ [name]) added := by
  refine ⟨h.nodup, fun n => ?_, h.ordered_append _⟩
  rw [h.mem_iff, List.mem_append, List.mem_singleton]
  refine and_congr_left fun hnew => ⟨Or.inl, ?_⟩
  rintro (hn | rfl)
  · exact hn
  · exact ((h.mem_iff n).mp ((List.mem_append.mp hname).resolve_left hnew)).1

/-- A name that is new is added behind the others, and it has not come up before. -/
theorem concat_new (h : AddsNames keys names added) (hname : name ∉ keys ++ added) :
    AddsNames keys (names ++ [name]) (added ++ [name]) := by
  rw [List.mem_append, not_or] at hname
  obtain ⟨hkeys, hadded⟩ := hname
  have hnames : name ∉ names := fun hmem => hadded ((h.mem_iff name).mpr ⟨hmem, hkeys⟩)
  refine ⟨List.concat_eq_append ▸ h.nodup.concat hadded, fun n => ?_, ?_⟩
  · rw [List.mem_append, List.mem_append, h.mem_iff, List.mem_singleton, or_and_right]
    refine or_congr_right (iff_self_and.mpr ?_)
    rintro rfl
    exact hkeys
  · rw [List.pairwise_append]
    refine ⟨h.ordered_append _, List.pairwise_singleton _ _, fun m hm n hn => ?_⟩
    obtain rfl := List.mem_singleton.mp hn
    have hm := ((h.mem_iff m).mp hm).1
    rw [List.idxOf_append_of_mem hm, List.idxOf_append_of_notMem hnames, List.idxOf_cons_self,
      Nat.add_zero]
    exact List.idxOf_lt_length_of_mem hm

end AddsNames

/-- **Names that are added one by one** go behind those that are there, each where it comes up
first. -/
theorem foldl_addKey_eq (keys names : List Text) :
    ∃ added, names.foldl addKey keys = keys ++ added ∧ AddsNames keys names added := by
  -- By induction on the names from the right: the test for one looks at all names before it,
  -- those included that were added on the way.
  induction names using List.reverseRecOn with
  | nil => exact ⟨[], (List.append_nil keys).symm, .nil keys⟩
  | append_singleton names name ih =>
    obtain ⟨added, hfold, hadded⟩ := ih
    rw [List.foldl_concat, hfold, addKey]
    split
    · rename_i hmem
      exact ⟨added, rfl, hadded.concat_old (List.contains_iff_mem.mp hmem)⟩
    · rename_i hmem
      rw [List.contains_iff_mem] at hmem
      exact ⟨added ++ [name], List.append_assoc _ _ _, hadded.concat_new hmem⟩

/-! ### Both kinds of keys -/

namespace Table

/-- The names of the columns that are declared a primary key by themselves, in order. -/
def declaredKeys (t : Table) : List Text :=
  (t.columns.filter (·.has .primaryKey)).map (·.name)

/-- The names in the primary key constraints of the table, in order and as often as they are
listed. -/
def listedKeys (t : Table) : List Text :=
  (t.constraints.filter (·.kind = .primaryKey)).flatMap (·.columns)

/-- The primary key is the union of both kinds of keys, without repetition and in order. -/
structure OrdersKeys (t : Table) : Prop where
  nodup : t.primaryKeys.Nodup
  mem_iff : ∀ name, name ∈ t.primaryKeys ↔
    (∃ c ∈ t.columns, c.has .primaryKey = true ∧ c.name = name) ∨
      ∃ k ∈ t.constraints, k.kind = .primaryKey ∧ name ∈ k.columns
  /-- The declared keys stand in front, in the order of their columns; behind them stand the listed
  names that are not declared, each at the place where it is listed first. -/
  ordered : ∃ added, t.primaryKeys = t.declaredKeys ++ added ∧
    (∀ name, name ∈ added ↔ name ∈ t.listedKeys ∧ name ∉ t.declaredKeys) ∧
    added.Pairwise fun m n => t.listedKeys.idxOf m < t.listedKeys.idxOf n

/-- **The primary key is the ordered union of the keys of both kinds.** -/
theorem ordersKeys {t : Table} (h : t.declaredKeys.Nodup) : t.OrdersKeys := by
  obtain ⟨added, hkeys, hadded⟩ := foldl_addKey_eq t.declaredKeys t.listedKeys
  replace hkeys : t.primaryKeys = t.declaredKeys ++ added := hkeys
  refine ⟨?_, fun name => mem_primaryKeys, added, hkeys, hadded.mem_iff, hadded.ordered⟩
  rw [hkeys]
  refine h.append hadded.nodup fun name hdeclared hmem => ?_
  exact ((hadded.mem_iff name).mp hmem).2 hdeclared

/-- A table whose constraints list a declared key, one name twice and one name in both of them. -/
def overlappingKeys : Table where
  name := ['t']
  columns := [
    ⟨['a'], "INT".toList, true, none, [], none⟩,
    ⟨['b'], "INT".toList, false, none, [⟨.primaryKey, none⟩], none⟩]
  constraints := [
    ⟨.primaryKey, [['c'], ['b'], ['c']], none, none⟩,
    ⟨.unique, [['d']], none, none⟩,
    ⟨.primaryKey, [['a'], ['c']], none, none⟩]
  comment := none

theorem ordersKeys_overlapping :
    overlappingKeys.declaredKeys.Nodup ∧ overlappingKeys.OrdersKeys ∧
      overlappingKeys.primaryKeys = [['b'], ['c'], ['a']] := by
  have hnodup : overlappingKeys.declaredKeys.Nodup := by decide
  exact ⟨hnodup, ordersKeys hnodup, by decide⟩

end Table

end TableTypes
