import TableTypes.Proofs.Text.Cutting
import TableTypes.Proofs.Text.Search
import TableTypes.TableConstraints

/-!
# Sound table constraints

Every constraint that is cut out of a list of definitions is sound: it names columns, and it refers
to columns of another table exactly if it is a foreign key.  The constraints come kind by kind
(`isSound_tableConstraints`).
-/

namespace TableTypes

open Text

/-! ### Lists of names -/

theorem strip_unquoteIdentifier (t : Text) : strip (unquoteIdentifier t) = unquoteIdentifier t := by
  unfold unquoteIdentifier
  dsimp only
  split
  · split
    · exact strip_strip _
    · exact strip_strip t
  · exact strip_strip t

theorem ne_nil_of_mem_identifierList {t n : Text} (hn : n ∈ identifierList t) :
    n ≠ [] ∧ strip n = n := by
  rw [identifierList, List.mem_filter, List.mem_map] at hn
  obtain ⟨⟨part, -, rfl⟩, hne⟩ := hn
  refine ⟨fun hnil => ?_, strip_unquoteIdentifier part⟩
  rw [hnil] at hne
  cases hne

/-! ### References -/

theorem reference_of_primaryKeySpan? {t r : Text} {s : ConstraintSpan}
    (h : primaryKeySpan? t = some (s, r)) : s.reference.isSome = false := by
  rw [primaryKeySpan?] at h
  obtain ⟨_, -, h⟩ := Option.bind_eq_some_iff.mp h
  obtain ⟨_, -, h⟩ := Option.bind_eq_some_iff.mp h
  obtain rfl := (Prod.mk.inj (Option.some.inj h)).1
  rfl

theorem reference_of_foreignKeySpan? {t r : Text} {s : ConstraintSpan}
    (h : foreignKeySpan? t = some (s, r)) : s.reference.isSome = true := by
  rw [foreignKeySpan?] at h
  obtain ⟨_, -, h⟩ := Option.bind_eq_some_iff.mp h
  obtain ⟨_, -, h⟩ := Option.bind_eq_some_iff.mp h
  obtain ⟨_, -, h⟩ := Option.bind_eq_some_iff.mp h
  obtain ⟨_, -, h⟩ := Option.bind_eq_some_iff.mp h
  obtain ⟨_, -, h⟩ := Option.bind_eq_some_iff.mp h
  obtain rfl := (Prod.mk.inj (Option.some.inj h)).1
  rfl

theorem reference_of_uniqueSpan? {t r : Text} {s : ConstraintSpan}
    (h : uniqueSpan? t = some (s, r)) : s.reference.isSome = false := by
  rw [uniqueSpan?] at h
  obtain ⟨_, -, h⟩ := Option.bind_eq_some_iff.mp h
  obtain ⟨_, -, h⟩ := Option.bind_eq_some_iff.mp h
  obtain rfl := (Prod.mk.inj (Option.some.inj h)).1
  rfl

theorem reference_of_indexSpan? {t r : Text} {s : Bool × ConstraintSpan}
    (h : indexSpan? t = some (s, r)) : s.2.reference.isSome = false := by
  rw [indexSpan?] at h
  obtain ⟨_, -, h⟩ := Option.bind_eq_some_iff.mp h
  obtain ⟨_, -, h⟩ := Option.bind_eq_some_iff.mp h
  obtain rfl := (Prod.mk.inj (Option.some.inj h)).1
  rfl

/-! ### Constraints -/

/-- What holds of a constraint that is cut out of a list of definitions. -/
structure TableConstraint.IsSound (c : TableConstraint) : Prop where
  columns_ne_nil : c.columns ≠ []
  columns : ∀ n ∈ c.columns, n ≠ [] ∧ strip n = n
  /-- Foreign keys and no other constraints refer to a table. -/
  reference : c.reference.isSome = true ↔ c.kind = .foreignKey
  targets : ∀ r ∈ c.reference, r.columns ≠ [] ∧ ∀ n ∈ r.columns, n ≠ [] ∧ strip n = n

theorem ConstraintSpan.isSound {s : ConstraintSpan} {kind : TableConstraintKind} {t : Text}
    {c : TableConstraint} (hkind : s.reference.isSome = true ↔ kind = .foreignKey)
    (h : s.constraint? kind t = some c) : c.IsSound ∧ c.kind = kind := by
  rw [constraint?] at h
  dsimp only at h
  split at h
  · cases h
  · rename_i hcolumns
    have hcolumns_ne : identifierList (between t s.columns.1 s.columns.2) ≠ [] :=
      fun hnil => hcolumns (List.isEmpty_iff.mpr hnil)
    split at h
    · rename_i hreference
      obtain rfl := Option.some.inj h
      rw [hreference] at hkind
      refine ⟨⟨hcolumns_ne, fun n => ne_nil_of_mem_identifierList, hkind, ?_⟩, rfl⟩
      exact fun r hr => (nomatch hr)
    · rename_i table target hreference
      split at h
      · cases h
      · rename_i htargets
        obtain rfl := Option.some.inj h
        rw [hreference] at hkind
        refine ⟨⟨hcolumns_ne, fun n => ne_nil_of_mem_identifierList, hkind, ?_⟩, rfl⟩
        intro r hr
        obtain rfl := Option.some.inj hr
        exact ⟨fun hnil => htargets (List.isEmpty_iff.mpr hnil),
          fun n => ne_nil_of_mem_identifierList⟩

/-- A search for one kind of constraint finds sound ones of this kind. -/
theorem isSound_of_mem_spans {α : Type} {read : Text → Option (α × Text)}
    {span : α → ConstraintSpan} {kind : TableConstraintKind}
    (hread : ∀ {s r : Text} {a : α}, read s = some (a, r) →
      ((span a).reference.isSome = true ↔ kind = .foreignKey)) {masked t : Text}
    {as : List α} (has : as ⊆ constraintSpans read masked) {c : TableConstraint}
    (hc : c ∈ as.filterMap fun a => (span a).constraint? kind t) : c.IsSound ∧ c.kind = kind := by
  obtain ⟨a, ha, hac⟩ := List.mem_filterMap.mp hc
  obtain ⟨before, s, r, -, hs⟩ := exists_of_mem_findAllFrom (has ha)
  obtain ⟨start, -, hstart⟩ := List.exists_of_findSome?_eq_some hs
  exact ConstraintSpan.isSound (hread hstart) hac

/-! ### The order of the kinds -/

/-- The place of a kind in the list of all constraints. -/
def TableConstraintKind.place : TableConstraintKind → Nat
  | primaryKey => 0
  | foreignKey => 1
  | unique => 2
  | index => 3

/-- No constraint comes before one of a kind that has an earlier place. -/
def IsByKind (cs : List TableConstraint) : Prop :=
  cs.Pairwise fun a b => a.kind.place ≤ b.kind.place

theorem IsByKind.of_forall {cs : List TableConstraint} {kind : TableConstraintKind}
    (h : ∀ c ∈ cs, c.kind = kind) :
    IsByKind cs ∧ ∀ c ∈ cs, c.kind.place ≤ kind.place := by
  refine ⟨List.pairwise_of_forall_mem_list fun a ha b hb => ?_, fun c hc => ?_⟩
  · rw [h a ha, h b hb]
  · rw [h c hc]

/-- Constraints of one kind may stand behind those of kinds with earlier places. -/
theorem IsByKind.append {cs ds : List TableConstraint} {k kind : TableConstraintKind}
    (hcs : IsByKind cs ∧ ∀ c ∈ cs, c.kind.place ≤ k.place) (hk : k.place ≤ kind.place)
    (hds : ∀ d ∈ ds, d.kind = kind) :
    IsByKind (cs ++ ds) ∧ ∀ c ∈ cs ++ ds, c.kind.place ≤ kind.place := by
  obtain ⟨hcs, hle⟩ := hcs
  obtain ⟨hds_byKind, hds_le⟩ := IsByKind.of_forall hds
  constructor
  · refine List.pairwise_append.mpr ⟨hcs, hds_byKind, fun c hc d hd => ?_⟩
    rw [hds d hd]
    exact (hle c hc).trans hk
  · intro c hc
    rcases List.mem_append.mp hc with hc | hc
    · exact (hle c hc).trans hk
    · exact hds_le c hc

/-- **The constraints of a list are sound, and they come kind by kind.** -/
theorem isSound_tableConstraints (t : Text) :
    (∀ c ∈ tableConstraints t, c.IsSound) ∧ IsByKind (tableConstraints t) := by
  -- Of the four readers only that of foreign keys finds a reference.
  have hprimary : ∀ c ∈ (constraintSpans primaryKeySpan? (maskQuoted (maskComments t))).filterMap
      (·.constraint? .primaryKey (maskComments t)), c.IsSound ∧ c.kind = .primaryKey := by
    refine fun c => isSound_of_mem_spans (fun h => ?_) (List.Subset.refl _)
    rw [reference_of_primaryKeySpan? h]
    decide
  have hforeign : ∀ c ∈ (constraintSpans foreignKeySpan? (maskQuoted (maskComments t))).filterMap
      (·.constraint? .foreignKey (maskComments t)), c.IsSound ∧ c.kind = .foreignKey := by
    refine fun c => isSound_of_mem_spans (fun h => ?_) (List.Subset.refl _)
    rw [reference_of_foreignKeySpan? h]
    decide
  have hunique : ∀ c ∈ (constraintSpans uniqueSpan? (maskQuoted (maskComments t))).filterMap
      (·.constraint? .unique (maskComments t)), c.IsSound ∧ c.kind = .unique := by
    refine fun c => isSound_of_mem_spans (fun h => ?_) (List.Subset.refl _)
    rw [reference_of_uniqueSpan? h]
    decide
  have hindex : ∀ c ∈ ((constraintSpans indexSpan? (maskQuoted (maskComments t))).filter
      (!·.1)).filterMap (·.2.constraint? .index (maskComments t)),
      c.IsSound ∧ c.kind = .index := by
    refine fun c => isSound_of_mem_spans (fun h => ?_) List.filter_sublist.subset
    rw [reference_of_indexSpan? h]
    decide
  constructor
  · intro c hc
    rw [tableConstraints, List.mem_append, List.mem_append, List.mem_append] at hc
    rcases hc with ((hc | hc) | hc) | hc
    · exact (hprimary c hc).1
    · exact (hforeign c hc).1
    · exact (hunique c hc).1
    · exact (hindex c hc).1
  · have hkey := IsByKind.of_forall fun c hc => (hprimary c hc).2
    have hreference := IsByKind.append hkey (by decide) fun c hc => (hforeign c hc).2
    have hdistinct := IsByKind.append hreference (by decide) fun c hc => (hunique c hc).2
    exact (IsByKind.append hdistinct (by decide) fun c hc => (hindex c hc).2).1

end TableTypes
