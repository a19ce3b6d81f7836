import TableTypes.OrderedMap
import Mathlib.Data.List.Nodup

/-!
# Laws of maps in insertion order

A map is told by the order of its keys and by the value under each of them.  Inserting leaves the
keys as they are or puts the new key behind them (`keys_insert`), erasing takes the key out
(`keys_erase`), and neither touches the value under another key (`get?_insert`, `get?_erase`).
Merging a map into another puts the keys that are new behind the others (`keys_merge`), and the map
that is merged in has its way wherever it has a value (`get?_merge`).
-/

namespace TableTypes.OrderedMap

variable {α : Type} {m new : OrderedMap α}

/-! ### Looking up -/

theorem get?_cons (key k : Text) (v : α) (m : OrderedMap α) :
    get? key ((k, v) :: m) = if key = k then some v else get? key m := by
  rw [get?, List.lookup_cons]
  by_cases h : key = k
  · rw [if_pos h, beq_iff_eq.mpr h]
  · rw [if_neg h, beq_eq_false_iff_ne.mpr h]
    rfl

theorem isSome_get?_iff {key : Text} : (get? key m).isSome = true ↔ key ∈ m.keys := by
  induction m with
  | nil => exact iff_of_false Bool.false_ne_true List.not_mem_nil
  | cons e m ih =>
    obtain ⟨k, v⟩ := e
    rw [get?_cons, keys, List.map_cons, List.mem_cons]
    split
    · rename_i h
      exact iff_of_true rfl (Or.inl h)
    · rename_i h
      exact ih.trans (or_iff_right h).symm

theorem get?_eq_none {key : Text} (h : key ∉ m.keys) : get? key m = none := by
  rw [← Option.not_isSome_iff_eq_none, isSome_get?_iff]
  exact h

theorem mem_of_get? {key : Text} {v : α} (h : get? key m = some v) : (key, v) ∈ m := by
  induction m with
  | nil => cases h
  | cons e m ih =>
    obtain ⟨k, w⟩ := e
    rw [get?_cons] at h
    split at h
    · rename_i hk
      subst hk
      obtain rfl := Option.some.inj h
      exact List.mem_cons_self
    · exact List.mem_cons_of_mem _ (ih h)

/-! ### Inserting and erasing -/

/-- A key that is present keeps its place; one that is not goes to the end. -/
theorem keys_insert (key : Text) (v : α) (m : OrderedMap α) :
    keys (insert key v m) = if key ∈ m.keys then m.keys else m.keys ++ [key] := by
  induction m with
  | nil => rfl
  | cons e m ih =>
    obtain ⟨k, w⟩ := e
    rw [insert]
    by_cases hk : k = key
    · subst hk
      rw [if_pos rfl, keys, keys, List.map_cons, List.map_cons, if_pos List.mem_cons_self]
    · rw [if_neg hk, keys, List.map_cons]
      show k :: keys (insert key v m) = _
      rw [ih, keys, keys, List.map_cons]
      by_cases hmem : key ∈ m.map (·.1)
      · rw [if_pos hmem, if_pos (List.mem_cons_of_mem k hmem)]
      · rw [if_neg hmem, if_neg (List.not_mem_cons_of_ne_of_not_mem (Ne.symm hk) hmem),
          List.cons_append]

theorem get?_insert (key k : Text) (v : α) (m : OrderedMap α) :
    get? k (insert key v m) = if k = key then some v else get? k m := by
  induction m with
  | nil => exact get?_cons k key v []
  | cons e m ih =>
    obtain ⟨k', w⟩ := e
    rw [insert]
    by_cases hk : k' = key
    · subst hk
      rw [if_pos rfl, get?_cons, get?_cons]
      by_cases h : k = k'
      · rw [if_pos h, if_pos h]
      · rw [if_neg h, if_neg h, if_neg h]
    · rw [if_neg hk, get?_cons, get?_cons, ih]
      by_cases h : k = k'
      · rw [if_pos h, if_pos h, if_neg (h ▸ hk)]
      · rw [if_neg h, if_neg h]

theorem keys_erase (key : Text) (m : OrderedMap α) :
    keys (erase key m) = m.keys.filter (· ≠ key) := by
  rw [keys, erase, keys, List.filter_map]
  rfl

theorem get?_erase (key k : Text) (m : OrderedMap α) :
    get? k (erase key m) = if k = key then none else get? k m := by
  by_cases h : k = key
  · rw [if_pos h]
    apply get?_eq_none
    rw [keys_erase, List.mem_filter, h]
    simp
  · rw [if_neg h]
    induction m with
    | nil => rfl
    | cons e m ih =>
      obtain ⟨k', v⟩ := e
      rw [erase, List.filter_cons]
      split
      · rw [get?_cons, get?_cons]
        exact congrArg (if k = k' then some v else ·) ih
      · rename_i hk
        obtain rfl : k' = key := of_not_not fun hne => hk (decide_eq_true hne)
        rw [get?_cons, if_neg h]
        exact ih

theorem mem_insert {key : Text} {v : α} {e : Text × α} (h : e ∈ insert key v m) :
    e = (key, v) ∨ e ∈ m := by
  induction m with
  | nil => exact Or.inl (List.mem_singleton.mp h)
  | cons e' m ih =>
    obtain ⟨k, w⟩ := e'
    rw [insert] at h
    split_ifs at h with hk
    · subst hk
      exact (List.mem_cons.mp h).imp_right (List.mem_cons_of_mem _)
    · rcases List.mem_cons.mp h with rfl | h
      · exact Or.inr List.mem_cons_self
      · exact (ih h).imp_right (List.mem_cons_of_mem _)

theorem nodup_keys_insert (key : Text) (v : α) (h : m.keys.Nodup) :
    (keys (insert key v m)).Nodup := by
  rw [keys_insert]
  split
  · exact h
  · rename_i hkey
    exact List.concat_eq_append ▸ h.concat hkey

theorem nodup_keys_erase (key : Text) (h : m.keys.Nodup) : (keys (erase key m)).Nodup := by
  rw [keys_erase]
  exact h.filter _

/-! ### Merging -/

theorem merge_cons (m : OrderedMap α) (e : Text × α) (new : OrderedMap α) :
    merge m (e :: new) = merge (insert e.1 e.2 m) new := rfl

theorem mem_merge {e : Text × α} : ∀ {m : OrderedMap α}, e ∈ merge m new → e ∈ m ∨ e ∈ new := by
  induction new with
  | nil => exact fun h => Or.inl h
  | cons e' new ih =>
    intro m h
    rcases ih h with h | h
    · rcases mem_insert h with rfl | h
      · exact Or.inr List.mem_cons_self
      · exact Or.inl h
    · exact Or.inr (List.mem_cons_of_mem e' h)

/-- The keys of the map that is merged in go behind those of the other, without those that the other
has already. -/
theorem keys_merge (hnew : new.keys.Nodup) : ∀ m : OrderedMap α,
    keys (merge m new) = m.keys ++ new.keys.filter (· ∉ m.keys) := by
  induction new with
  | nil => exact fun m => (List.append_nil m.keys).symm
  | cons e new ih =>
    intro m
    rw [keys, List.map_cons] at hnew
    obtain ⟨hfresh, hrest⟩ := List.nodup_cons.mp hnew
    rw [merge_cons, ih hrest, keys_insert]
    show _ = m.keys ++ (e.1 :: keys new).filter (· ∉ m.keys)
    by_cases hmem : e.1 ∈ m.keys
    · rw [if_pos hmem, List.filter_cons_of_neg (by simpa using hmem)]
    · rw [if_neg hmem, List.filter_cons_of_pos (by simpa using hmem), List.append_assoc,
        List.singleton_append]
      -- Among the other keys the one that was just put in does not come again.
      have hsame : (keys new).filter (· ∉ m.keys ++ [e.1]) = (keys new).filter (· ∉ m.keys) := by
        refine List.filter_congr fun k hk => ?_
        have hne : k ≠ e.1 := fun h => hfresh (h ▸ hk)
        simp [hne]
      rw [hsame]

theorem nodup_keys_merge (hm : m.keys.Nodup) (hnew : new.keys.Nodup) :
    (keys (merge m new)).Nodup := by
  rw [keys_merge hnew]
  refine hm.append (hnew.filter _) ?_
  intro k hk hk'
  exact (of_decide_eq_true (List.mem_filter.mp hk').2) hk

/-- Under each key stands the value that is merged in, if there is one. -/
theorem get?_merge (hnew : new.keys.Nodup) (key : Text) : ∀ m : OrderedMap α,
    get? key (merge m new) = (get? key new).or (get? key m) := by
  induction new with
  | nil => exact fun m => rfl
  | cons e new ih =>
    intro m
    obtain ⟨k, v⟩ := e
    rw [keys, List.map_cons] at hnew
    obtain ⟨hfresh, hrest⟩ := List.nodup_cons.mp hnew
    rw [merge_cons, ih hrest, get?_insert, get?_cons]
    by_cases h : key = k
    · subst h
      rw [if_pos rfl, if_pos rfl, get?_eq_none hfresh]
      rfl
    · rw [if_neg h, if_neg h]

end TableTypes.OrderedMap
