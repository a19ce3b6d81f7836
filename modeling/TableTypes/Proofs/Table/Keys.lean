import TableTypes.Declaration
import TableTypes.Proofs.Table.Sound
import Mathlib.Data.List.Nodup

/-!
# Columns of the primary key

A column that is declared a primary key by itself is never nullable.  A column that a constraint of
the table makes a key is as nullable as its own definition leaves it, since the definition is read
without regard to the constraints (`givesKeys_of_extractTables`).
-/

namespace TableTypes

open Text

/-! ### The names of the key -/

theorem mem_addKey {keys : List Text} {name n : Text} :
    n ∈ addKey keys name ↔ n ∈ keys ∨ n = name := by
  rw [addKey]
  split
  · rename_i hmem
    rw [List.contains_iff_mem] at hmem
    refine ⟨Or.inl, ?_⟩
    rintro (h | rfl)
    · exact h
    · exact hmem
  · rw [List.mem_append, List.mem_singleton]

theorem mem_foldl_addKey {names keys : List Text} {n : Text} :
    n ∈ names.foldl addKey keys ↔ n ∈ keys ∨ n ∈ names := by
  induction names generalizing keys with
  | nil => simp
  | cons name names ih => rw [List.foldl_cons, ih, mem_addKey, List.mem_cons, or_assoc]

namespace Table

variable {t : Table} {name : Text}

/-- A name is in the key if a column of that name or a constraint of the table says so. -/
theorem mem_primaryKeys : name ∈ t.primaryKeys ↔
    (∃ c ∈ t.columns, c.has .primaryKey = true ∧ c.name = name) ∨
      ∃ k ∈ t.constraints, k.kind = .primaryKey ∧ name ∈ k.columns := by
  rw [primaryKeys, mem_foldl_addKey]
  simp only [List.mem_map, List.mem_filter, List.mem_flatMap, decide_eq_true_eq, and_assoc]

/-- No column of the primary key may be without a value. -/
def KeysAreRequired (t : Table) : Prop :=
  ∀ name ∈ t.primaryKeys, ∀ c ∈ t.column? name, c.nullable = false

theorem column?_eq_some {c : Column} (h : t.column? name = some c) :
    c ∈ t.columns ∧ c.name = name := by
  have hname := List.find?_some h
  exact ⟨List.mem_of_find?_eq_some h, of_decide_eq_true hname⟩

/-- Where no two columns have the same name, every column is the one of its name. -/
theorem eq_of_nodup (hnodup : (t.columns.map Column.name).Nodup) {c d : Column}
    (hc : c ∈ t.columns) (hd : d ∈ t.columns) (hname : c.name = d.name) : c = d :=
  List.inj_on_of_nodup_map hnodup hc hd hname

end Table

/-! ### Definitions and columns -/

/-- Whether a definition itself excludes that its column has no value: `NOT NULL` or `PRIMARY KEY`
stands among its attributes, outside quotes. -/
def ColumnDefinition.deniesNull (d : ColumnDefinition) : Bool :=
  hasPhrase ["not".toList, "null".toList] (maskQuoted d.attributes) ||
    hasPhrase ["primary".toList, "key".toList] (maskQuoted d.attributes)

theorem ColumnDefinition.nullable_column (d : ColumnDefinition) :
    d.column.nullable = !d.deniesNull := by
  show (!_ && !_) = _
  rw [deniesNull, Bool.not_or]

/-- The first definition of a column of the name. -/
def Statement.definition? (s : Statement) (name : Text) : Option ColumnDefinition :=
  (Column.definitions s.body).find? (·.name = name)

namespace Statement

variable {s : Statement} {o : ExtractorOptions} {t : Table}

/-- The columns of a table come from the definitions one by one, names and nullability unchanged. -/
theorem exists_columns_eq_map (h : s.table o = .ok t) : ∃ f : ColumnDefinition → Column,
    (∀ d, (f d).name = d.name ∧ (f d).nullable = !d.deniesNull) ∧
      t.columns = (Column.definitions s.body).map f := by
  obtain ⟨columns, hread, -, rfl⟩ := table_eq_ok_iff.mp h
  have hcolumns := Column.map_column_definitions hread
  cases o.includeComments with
  | true => exact ⟨ColumnDefinition.column, fun d => ⟨rfl, d.nullable_column⟩, hcolumns.symm⟩
  | false =>
    refine ⟨Column.uncommented ∘ ColumnDefinition.column, fun d => ⟨rfl, d.nullable_column⟩, ?_⟩
    rw [← List.map_map, hcolumns]
    rfl

/-- The column of a name is that of the first definition of the name. -/
theorem column?_nullable (h : s.table o = .ok t) (name : Text) :
    (t.column? name).map Column.nullable = (s.definition? name).map fun d => !d.deniesNull := by
  obtain ⟨f, hf, hcolumns⟩ := exists_columns_eq_map h
  have hname : (fun c : Column => decide (c.name = name)) ∘ f = fun d => decide (d.name = name) :=
    funext fun d => by rw [Function.comp_apply, (hf d).1]
  rw [Table.column?, hcolumns, List.find?_map, hname, Option.map_map, definition?]
  exact congrArg (Option.map · _) (funext fun d => (hf d).2)

/-- A key is nullable exactly if its own definition leaves it so. -/
theorem keysAreRequired_iff (h : s.table o = .ok t) : t.KeysAreRequired ↔
    ∀ name ∈ t.primaryKeys, ∀ d ∈ s.definition? name, d.deniesNull = true := by
  refine forall₂_congr fun name _ => ?_
  have hnullable := column?_nullable h name
  cases hd : s.definition? name with
  | none =>
    rw [hd] at hnullable
    rw [Option.map_eq_none_iff.mp hnullable]
    exact ⟨fun _ _ hmem => (nomatch hmem), fun _ _ hmem => (nomatch hmem)⟩
  | some d =>
    rw [hd] at hnullable
    obtain ⟨c, hc, hvalue⟩ := Option.map_eq_some_iff.mp hnullable
    rw [hc]
    simp only [Option.mem_def, Option.some.injEq, forall_eq', hvalue, Bool.not_eq_false']

/-- Where no two columns have the same name, only the constraints of the table can make a nullable
column a key. -/
theorem keysAreRequired_iff_of_nodup (h : s.table o = .ok t) (hsound : ∀ c ∈ t.columns, c.IsSound)
    (hnodup : (t.columns.map Column.name).Nodup) : t.KeysAreRequired ↔
      ∀ k ∈ t.constraints, k.kind = .primaryKey → ∀ name ∈ k.columns,
        ∀ d ∈ s.definition? name, d.deniesNull = true := by
  rw [keysAreRequired_iff h]
  constructor
  · intro hkeys k hk hkind name hname
    exact hkeys name (Table.mem_primaryKeys.mpr (.inr ⟨k, hk, hkind, hname⟩))
  · intro hconstraints name hname d hd
    rcases Table.mem_primaryKeys.mp hname with ⟨c, hc, hkey, rfl⟩ | ⟨k, hk, hkind, hname⟩
    · -- The column of the name is the one that is declared a key.
      have hnullable := column?_nullable h c.name
      rw [hd] at hnullable
      obtain ⟨c', hc', hvalue⟩ := Option.map_eq_some_iff.mp hnullable
      obtain ⟨hmem, hname'⟩ := Table.column?_eq_some hc'
      obtain rfl := Table.eq_of_nodup hnodup hmem hc hname'
      rw [(hsound c' hc).key hkey] at hvalue
      simpa using hvalue
    · exact hconstraints k hk hkind name hname d hd

end Statement

/-! ### Extracted tables -/

/-- How the primary key of a table depends on the definitions of its statement. -/
structure Statement.GivesKeys (s : Statement) (t : Table) : Prop where
  /-- A column that is declared a key by itself is not nullable. -/
  declared : ∀ c ∈ t.columns, c.has .primaryKey = true → c.nullable = false
  /-- No key is nullable exactly if the definition of every key, the first of its name, says
  `NOT NULL` or `PRIMARY KEY` itself. -/
  required_iff : t.KeysAreRequired ↔
    ∀ name ∈ t.primaryKeys, ∀ d ∈ s.definition? name, d.deniesNull = true
  /-- If no two columns have the same name, only the keys matter that a constraint names. -/
  required_iff_of_nodup : (t.columns.map Column.name).Nodup → (t.KeysAreRequired ↔
    ∀ k ∈ t.constraints, k.kind = .primaryKey → ∀ name ∈ k.columns,
      ∀ d ∈ s.definition? name, d.deniesNull = true)

/-- **The keys of extracted tables are as nullable as their own definitions leave them.** -/
theorem givesKeys_of_extractTables {sql : Source} {o : ExtractorOptions} {l : Limits}
    {tables : List Table} (h : (extractTables sql o l).outcome = .ok tables) :
    ∃ ss, Statement.parse sql = .ok ss ∧ List.Forall₂ Statement.GivesKeys ss tables := by
  obtain ⟨ss, hparse, htables⟩ := exists_parse_of_extractTables h
  refine ⟨ss, hparse, htables.imp fun s t hs => ?_⟩
  obtain ⟨htable, -⟩ := Statement.checkedTable_eq_ok_iff.mp hs
  have hsound := (Statement.isSound_of_checkedTable hs).columns
  exact ⟨fun c hc => (hsound c hc).key, Statement.keysAreRequired_iff htable,
    Statement.keysAreRequired_iff_of_nodup htable hsound⟩

/-- A table with a key that says `NOT NULL` itself and one that does not. -/
def pairText : Text :=
  "CREATE TABLE t (a INT NOT NULL, b INT, PRIMARY KEY (a, b));".toList

/-- The table of that text. -/
def pairTable : Table where
  name := ['t']
  columns := [
    ⟨['a'], "INT".toList, false, none, [], none⟩,
    ⟨['b'], "INT".toList, true, none, [], none⟩]
  constraints := [⟨.primaryKey, [['a'], ['b']], none, none⟩]
  comment := none

theorem givesKeys_of_extractTables_pair :
    (extractTables (.text pairText) .standard .standard).outcome = .ok [pairTable] ∧
      ∃ ss, Statement.parse (.text pairText) = .ok ss ∧
        List.Forall₂ Statement.GivesKeys ss [pairTable] := by
  have h : (extractTables (.text pairText) .standard .standard).outcome = .ok [pairTable] := by
    decide +kernel
  exact ⟨h, givesKeys_of_extractTables h⟩

/-- A key that a constraint of the table names is nullable, and so is its property. -/
theorem extractTables_nullableKey :
    ∃ t : Table, (extractTables (.text "CREATE TABLE t (id INT, PRIMARY KEY (id));".toList)
        .standard .standard).outcome = .ok [t] ∧
      ['i', 'd'] ∈ t.primaryKeys ∧ (t.column? ['i', 'd']).map Column.nullable = some true ∧
      ¬ t.KeysAreRequired ∧
      (Generator.generate
          ⟨.plain, "mysql".toList, { GeneratorOptions.standard with includeComments := false }⟩
          [] [t]).outcome =
        .ok "export interface t \x7b\n  id: number | null;\n\x7d\n".toList := by
  refine ⟨⟨['t'], [⟨['i', 'd'], "INT".toList, true, none, [], none⟩],
    [⟨.primaryKey, [['i', 'd']], none, none⟩], none⟩, by decide +kernel, by decide, by decide, ?_,
    by decide +kernel⟩
  intro h
  exact Bool.noConfusion (h ['i', 'd'] (by decide) _ rfl)

end TableTypes
