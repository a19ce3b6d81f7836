import TableTypes.Proofs.Column.Sound
import TableTypes.Proofs.Statement.Place
import TableTypes.Proofs.Table
import TableTypes.Proofs.TableConstraints.Sound

/-!
# Sound tables

Every table that is read from a statement is sound (`Statement.isSound_of_checkedTable`): it has
sound columns, no more of them than the limit allows, and sound constraints kind by kind.  Hence so
is every table that is extracted from a source, of which there is at least one and no more than the
limit allows (`isSound_of_extractTables`).
-/

namespace TableTypes

open Text

variable {o : ExtractorOptions} {l : Limits}

/-! ### Limits -/

theorem Limits.checkTableCount_eq (l : Limits) (n : Nat) : l.checkTableCount (some n) =
    if l.maxTableCount < n then .error (ParseCause.tooManyTables n l.maxTableCount).error
    else .ok () := by
  rw [checkTableCount, if_neg (Int.not_lt.mpr (Int.natCast_nonneg n))]
  simp only [Int.ofNat_lt]

theorem Limits.le_of_checkTableCount {n : Nat} (h : l.checkTableCount (some n) = .ok ()) :
    n ≤ l.maxTableCount := by
  rw [checkTableCount_eq] at h
  split_ifs at h with hmany
  exact Nat.not_lt.mp hmany

theorem Limits.le_of_checkFieldCount {n : Nat} {table : Text}
    (h : l.checkFieldCount (some n) table = .ok ()) : n ≤ l.maxFieldCount := by
  rw [checkFieldCount] at h
  split_ifs at h with hneg hmax
  omega

/-! ### One table -/

/-- What holds of a table that is read from a statement. -/
structure Table.IsSound (l : Limits) (t : Table) : Prop where
  columns_pos : 0 < t.columns.length
  columns_le : t.columns.length ≤ l.maxFieldCount
  columns : ∀ c ∈ t.columns, c.IsSound
  constraints : ∀ c ∈ t.constraints, c.IsSound
  byKind : IsByKind t.constraints

namespace Statement

theorem isSound_of_checkedTable {s : Statement} {t : Table} (h : s.checkedTable o l = .ok t) :
    t.IsSound l := by
  obtain ⟨htable, hcount⟩ := checkedTable_eq_ok_iff.mp h
  obtain ⟨columns, hread, hne, rfl⟩ := table_eq_ok_iff.mp htable
  have hsound := Column.isSound_of_readAll hread
  obtain ⟨hconstraints, hbyKind⟩ := isSound_tableConstraints s.body
  refine ⟨?_, Limits.le_of_checkFieldCount hcount, ?_, hconstraints, hbyKind⟩
  · have hpos := List.length_pos_of_ne_nil hne
    cases o.includeComments
    · exact (List.length_map Column.uncommented).symm ▸ hpos
    · exact hpos
  · cases o.includeComments
    · intro c hc
      obtain ⟨d, hd, rfl⟩ := List.mem_map.mp hc
      exact (hsound d hd).uncommented
    · exact hsound

theorem ne_nil_of_parse {sql : Source} {ss : List Statement} (h : Statement.parse sql = .ok ss) :
    ss ≠ [] := by
  unfold Statement.parse at h
  split at h
  · obtain ⟨ps, -, rfl, hne⟩ := PlacedStatement.exists_of_parse h
    exact fun hnil => hne (List.map_eq_nil_iff.mp hnil)
  · cases h

end Statement

/-! ### All tables -/

/-- The number of statements is checked before any table is read. -/
theorem checkTableCount_of_extractTables {sql : Source} {ss : List Statement} {tables : List Table}
    (hparse : Statement.parse sql = .ok ss) (h : (extractTables sql o l).outcome = .ok tables) :
    l.checkTableCount (some ss.length) = .ok () := by
  rw [extractTables_of_solid (solid_of_parse hparse), hparse] at h
  obtain ⟨_, hss, h⟩ := Report.bind_eq_ok h
  obtain rfl := Except.ok.inj hss
  obtain ⟨_, hcount, -⟩ := Report.bind_eq_ok h
  exact Report.ofExcept_eq_ok hcount

/-- Within the limit on tables nothing is left to check before they are read. -/
theorem extractTables_of_parse {sql : Source} {ss : List Statement}
    (hparse : Statement.parse sql = .ok ss) (hcount : ss.length ≤ l.maxTableCount) :
    extractTables sql o l = readTables o l [] ss := by
  rw [extractTables_of_solid (solid_of_parse hparse), hparse, Report.ofExcept_ok,
    Report.pure_bind, Limits.checkTableCount_eq, if_neg (Nat.not_lt.mpr hcount), Report.ofExcept_ok,
    Report.pure_bind]

/-- **Extracted tables are sound.**  There is at least one and no more than the limit allows; each
has at least one column and no more than the limit allows; names and types are not empty and have
no blanks around them; a primary key is not nullable; the constraints of a column are at most one
of each kind, in a fixed order; and the constraints of a table come kind by kind, name columns, and
refer to columns exactly if they are foreign keys. -/
theorem isSound_of_extractTables {sql : Source} {tables : List Table}
    (h : (extractTables sql o l).outcome = .ok tables) :
    tables ≠ [] ∧ tables.length ≤ l.maxTableCount ∧ ∀ t ∈ tables, t.IsSound l := by
  obtain ⟨ss, hparse, htables⟩ := exists_parse_of_extractTables h
  have hlength := htables.length_eq
  refine ⟨?_, ?_, fun t ht => ?_⟩
  · rintro rfl
    exact Statement.ne_nil_of_parse hparse (List.length_eq_zero_iff.mp hlength)
  · rw [← hlength]
    exact Limits.le_of_checkTableCount (checkTableCount_of_extractTables hparse h)
  · obtain ⟨s, -, hs⟩ := Report.exists_of_forall₂ htables ht
    exact Statement.isSound_of_checkedTable hs

/-- A table with a key, a check and a reference to another table. -/
def ordersText : Text :=
  "CREATE TABLE orders (id INT PRIMARY KEY CHECK (id > 0), user_id INT, ".toList ++
    "INDEX by_user (user_id), FOREIGN KEY (user_id) REFERENCES users (id));".toList

/-- The table of that text. -/
def ordersTable : Table where
  name := "orders".toList
  columns := [
    ⟨"id".toList, "INT".toList, false, none, [⟨.primaryKey, none⟩, ⟨.check, some "id > 0".toList⟩],
      none⟩,
    ⟨"user_id".toList, "INT".toList, true, none, [], none⟩]
  constraints := [
    ⟨.foreignKey, ["user_id".toList], some ⟨"users".toList, ["id".toList]⟩, none⟩,
    ⟨.index, ["user_id".toList], none, some "by_user".toList⟩]
  comment := none

theorem isSound_of_extractTables_orders :
    (extractTables (.text ordersText) .standard .standard).outcome = .ok [ordersTable] ∧
      ([ordersTable] ≠ [] ∧ [ordersTable].length ≤ Limits.standard.maxTableCount ∧
        ∀ t ∈ [ordersTable], t.IsSound .standard) := by
  have h : (extractTables (.text ordersText) .standard .standard).outcome = .ok [ordersTable] := by
    decide +kernel
  exact ⟨h, isSound_of_extractTables h⟩

end TableTypes
