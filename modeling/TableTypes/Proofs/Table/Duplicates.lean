import TableTypes.Proofs.Table.Sound
import Mathlib.Data.Finset.Card

/-!
# Tables of the same name

While tables are read, the latest name is kept for every key that came up (`lookup_seenOf`).  So
each table with the key of an earlier one is told of, with the latest of the earlier names and with
its own line, in the order of the tables (`warnings_readTables`), and there are as many warnings as
tables beyond the first of each key (`length_warnings_readTables`).  The warnings leave the tables as
they are: there is one for every statement (`extractTables_duplicates`).
-/

namespace TableTypes

open Text

/-! ### Keys that come again -/

/-- What the names of tables are compared by. -/
def ExtractorOptions.keys (o : ExtractorOptions) (tables : List Table) : List Text :=
  tables.map fun t => o.key t.name

/-- The key at position `j` is that of an earlier position. -/
def IsRepeated (keys : List Text) (j : Nat) : Prop :=
  j < keys.length ∧ ∃ i < j, keys[i]? = keys[j]?

/-- Position `i` is the latest one in front of position `j` with the same key. -/
structure IsLatest (keys : List Text) (i j : Nat) : Prop where
  before : i < j
  same : keys[i]? = keys[j]?
  latest : ∀ k, i < k → k < j → keys[k]? ≠ keys[j]?

/-- The warning for the table at position `j`: it names this table, the latest of the earlier ones
with the same key, and the line of its statement. -/
def IsToldAt (o : ExtractorOptions) (ss : List Statement) (tables : List Table) (j : Nat)
    (w : Warning) : Prop :=
  ∃ (i : Nat) (s : Statement) (earlier table : Table), IsLatest (o.keys tables) i j ∧
    tables[i]? = some earlier ∧ tables[j]? = some table ∧ ss[j]? = some s ∧
    w = .duplicateTable table.name earlier.name s.line

section

variable {keys : List Text} {key : Text} {rest : List Text}

theorem isRepeated_length_iff :
    IsRepeated (keys ++ key :: rest) keys.length ↔ key ∈ keys := by
  have hkey : (keys ++ key :: rest)[keys.length]? = some key := by simp
  rw [IsRepeated, hkey, List.mem_iff_getElem?]
  constructor
  · rintro ⟨-, i, hi, hsame⟩
    rw [List.getElem?_append_left hi] at hsame
    exact ⟨i, hsame⟩
  · rintro ⟨i, hi⟩
    have hlt := (List.getElem?_eq_some_iff.mp hi).1
    refine ⟨by simp, i, hlt, ?_⟩
    rw [List.getElem?_append_left hlt, hi]

end

variable {o : ExtractorOptions} {l : Limits}

theorem getElem?_keys (tables : List Table) (i : Nat) :
    (o.keys tables)[i]? = tables[i]?.map fun t => o.key t.name :=
  List.getElem?_map

theorem isRepeated_keys_iff {earlier more : List Table} {table : Table} :
    IsRepeated (o.keys (earlier ++ table :: more)) earlier.length ↔
      o.key table.name ∈ o.keys earlier := by
  have hsplit : o.keys (earlier ++ table :: more) =
      o.keys earlier ++ o.key table.name :: o.keys more := by
    simp [ExtractorOptions.keys]
  have hlength : earlier.length = (o.keys earlier).length := by simp [ExtractorOptions.keys]
  rw [hsplit, hlength, isRepeated_length_iff]

theorem getElem?_keys_ne {tables : List Table} {i : Nat} (h : tables.length ≤ i) (key : Text) :
    (o.keys tables)[i]? ≠ some key := by
  rw [getElem?_keys, List.getElem?_eq_none h]
  exact (Option.some_ne_none key).symm

/-! ### What was seen -/

/-- What is kept of the tables that were read: their keys and names, the latest first. -/
def seenOf (o : ExtractorOptions) (tables : List Table) : List (Text × Text) :=
  (tables.map fun t => (o.key t.name, t.name)).reverse

theorem seenOf_concat (tables : List Table) (table : Table) :
    seenOf o (tables ++ [table]) = (o.key table.name, table.name) :: seenOf o tables := by
  rw [seenOf, List.map_append, List.reverse_append]
  rfl

theorem lookup_seenOf_eq_none_iff {tables : List Table} {key : Text} :
    (seenOf o tables).lookup key = none ↔ key ∉ o.keys tables := by
  rw [List.lookup_eq_none_iff]
  simp [seenOf, ExtractorOptions.keys, @eq_comm Text key]

theorem mem_keys_of_lookup_seenOf {tables : List Table} {key existing : Text}
    (h : (seenOf o tables).lookup key = some existing) : key ∈ o.keys tables := by
  by_contra hnot
  rw [lookup_seenOf_eq_none_iff.mpr hnot] at h
  cases h

/-- **The name that is kept for a key is the latest one.** -/
theorem lookup_seenOf {tables : List Table} {key existing : Text}
    (h : (seenOf o tables).lookup key = some existing) :
    ∃ (i : Nat) (t : Table), tables[i]? = some t ∧ o.key t.name = key ∧ t.name = existing ∧
      ∀ k, i < k → (o.keys tables)[k]? ≠ some key := by
  induction tables using List.reverseRecOn with
  | nil => cases h
  | append_singleton tables table ih =>
    rw [seenOf_concat, List.lookup_cons] at h
    by_cases hkey : key = o.key table.name
    · rw [beq_iff_eq.mpr hkey] at h
      refine ⟨tables.length, table, by simp, hkey.symm, Option.some.inj h, fun k hk => ?_⟩
      exact getElem?_keys_ne (by rw [List.length_append]; exact hk) key
    · rw [beq_eq_false_iff_ne.mpr hkey] at h
      obtain ⟨i, t, ht, hsame, hname, hlatest⟩ := ih h
      have hi := (List.getElem?_eq_some_iff.mp ht).1
      refine ⟨i, t, by rw [List.getElem?_append_left hi, ht], hsame, hname, fun k hk => ?_⟩
      rcases Nat.lt_trichotomy k tables.length with hlt | rfl | hgt
      · rw [getElem?_keys, List.getElem?_append_left hlt, ← getElem?_keys]
        exact hlatest k hk
      · rw [getElem?_keys, List.getElem?_concat_length, Option.map_some]
        exact fun heq => hkey (Option.some.inj heq).symm
      · exact getElem?_keys_ne (by rw [List.length_append]; exact hgt) key

/-! ### One table more -/

/-- The warning for a table of which the latest name of the same key is given, if there is one. -/
def duplicateWarning (s : Statement) (table : Table) (existing : Option Text) : List Warning :=
  (existing.map fun name => Warning.duplicateTable table.name name s.line).toList

theorem readTables_cons_warnings {seen : List (Text × Text)} {s : Statement} {ss : List Statement}
    {table : Table} (h : s.checkedTable o l = .ok table) :
    (readTables o l seen (s :: ss)).warnings =
      duplicateWarning s table (seen.lookup (o.key table.name)) ++
        (readTables o l ((o.key table.name, table.name) :: seen) ss).warnings := by
  rw [readTables, h, Report.ofExcept_ok, Report.pure_bind]
  dsimp only
  cases seen.lookup (o.key table.name) with
  | none => exact Report.warnings_bind_pure _ _
  | some existing =>
    dsimp only
    rw [Report.bind_of_ok rfl]
    exact congrArg (_ :: ·) (Report.warnings_bind_pure _ _)

/-- A table that is told of is told of with the latest of the earlier names. -/
theorem isToldAt_of_lookup {before ss : List Statement} {earlier more : List Table} {s : Statement}
    {table : Table} {existing : Text} (hlength : before.length = earlier.length)
    (h : (seenOf o earlier).lookup (o.key table.name) = some existing) :
    IsToldAt o (before ++ s :: ss) (earlier ++ table :: more) earlier.length
      (.duplicateTable table.name existing s.line) := by
  obtain ⟨i, t, ht, hsame, rfl, hlatest⟩ := lookup_seenOf h
  have hi := (List.getElem?_eq_some_iff.mp ht).1
  have htable : (earlier ++ table :: more)[earlier.length]? = some table := by simp
  have hfront : ∀ k < earlier.length, (o.keys (earlier ++ table :: more))[k]? =
      (o.keys earlier)[k]? := by
    intro k hk
    rw [getElem?_keys, List.getElem?_append_left hk, getElem?_keys]
  refine ⟨i, s, t, table, ⟨hi, ?_, fun k hik hk => ?_⟩, ?_, htable, ?_, rfl⟩
  · rw [hfront i hi, getElem?_keys, ht, getElem?_keys, htable, Option.map_some, hsame]
    rfl
  · rw [hfront k hk, getElem?_keys _ earlier.length, htable]
    exact hlatest k hik
  · rw [List.getElem?_append_left hi, ht]
  · rw [← hlength]
    simp

/-! ### All tables -/

/-- What holds of a position from `n` on holds of `n` or of one behind it. -/
theorem le_and_iff {n j : Nat} {P : Nat → Prop} :
    n ≤ j ∧ P j ↔ j = n ∧ P n ∨ n + 1 ≤ j ∧ P j := by
  constructor
  · rintro ⟨hle, hP⟩
    rcases Nat.eq_or_lt_of_le hle with rfl | hlt
    · exact Or.inl ⟨rfl, hP⟩
    · exact Or.inr ⟨hlt, hP⟩
  · rintro (⟨rfl, hP⟩ | ⟨hlt, hP⟩)
    · exact ⟨le_rfl, hP⟩
    · exact ⟨Nat.le_of_succ_le hlt, hP⟩

/-- **One warning for each table with the key of an earlier one**, in their order, behind tables
that were read before. -/
theorem warnings_readTables {ss : List Statement} :
    ∀ {before : List Statement} {earlier tables : List Table}, before.length = earlier.length →
      (readTables o l (seenOf o earlier) ss).outcome = .ok tables →
      ∃ js : List Nat, js.Pairwise (· < ·) ∧
        (∀ j, j ∈ js ↔ earlier.length ≤ j ∧ IsRepeated (o.keys (earlier ++ tables)) j) ∧
        List.Forall₂ (IsToldAt o (before ++ ss) (earlier ++ tables)) js
          (readTables o l (seenOf o earlier) ss).warnings := by
  -- By induction on the statements that are left, for any tables in front of them: reading one
  -- table more takes what is kept of `earlier` to what is kept of `earlier ++ [table]`.
  induction ss with
  | nil =>
    intro before earlier tables hlength h
    obtain rfl : [] = tables := Except.ok.inj h
    refine ⟨[], .nil, fun j => ?_, .nil⟩
    rw [List.append_nil, IsRepeated, ExtractorOptions.keys, List.length_map]
    refine iff_of_false List.not_mem_nil ?_
    rintro ⟨hle, hlt, -⟩
    omega
  | cons s ss ih =>
    intro before earlier tables hlength h
    obtain ⟨table, more, rfl, htable, hmore⟩ := exists_of_readTables_cons h
    rw [← seenOf_concat] at hmore
    obtain ⟨js, hordered, hmem, htold⟩ :=
      @ih (before ++ [s]) (earlier ++ [table]) more (by simp [hlength]) hmore
    rw [List.append_assoc, List.append_assoc, List.singleton_append, List.singleton_append] at htold
    simp only [List.append_assoc, List.singleton_append, List.length_append,
      List.length_singleton] at hmem
    have hhere : IsRepeated (o.keys (earlier ++ table :: more)) earlier.length ↔
        o.key table.name ∈ o.keys earlier := isRepeated_keys_iff
    rw [readTables_cons_warnings htable, ← seenOf_concat]
    cases hlookup : (seenOf o earlier).lookup (o.key table.name) with
    | none =>
      -- No table in front has this key, so nothing is told here.
      have hnew := mt hhere.mp (lookup_seenOf_eq_none_iff.mp hlookup)
      refine ⟨js, hordered, fun j => ?_, htold⟩
      rw [hmem j, le_and_iff (n := earlier.length)]
      exact (or_iff_right fun h => hnew h.2).symm
    | some existing =>
      have hold := hhere.mpr (mem_keys_of_lookup_seenOf hlookup)
      refine ⟨earlier.length :: js, List.pairwise_cons.mpr ⟨fun j hj => ?_, hordered⟩, fun j => ?_,
        .cons (isToldAt_of_lookup hlength hlookup) htold⟩
      · exact ((hmem j).mp hj).1
      · rw [List.mem_cons, hmem j, le_and_iff (n := earlier.length)]
        exact or_congr_left (and_iff_left hold).symm

/-- The tables beyond the first of each key are as many as the warnings. -/
theorem length_warnings_readTables {ss : List Statement} : ∀ {earlier tables : List Table},
    (readTables o l (seenOf o earlier) ss).outcome = .ok tables →
      (readTables o l (seenOf o earlier) ss).warnings.length +
          (o.keys (earlier ++ tables)).toFinset.card =
        (o.keys earlier).toFinset.card + tables.length := by
  induction ss with
  | nil =>
    intro earlier tables h
    obtain rfl : [] = tables := Except.ok.inj h
    rw [List.append_nil]
    exact Nat.add_comm 0 _
  | cons s ss ih =>
    intro earlier tables h
    obtain ⟨table, more, rfl, htable, hmore⟩ := exists_of_readTables_cons h
    rw [← seenOf_concat] at hmore
    have hrest := ih hmore
    rw [List.append_assoc, List.singleton_append] at hrest
    rw [readTables_cons_warnings htable, ← seenOf_concat, List.length_append]
    have hkeys : (o.keys (earlier ++ [table])).toFinset =
        insert (o.key table.name) (o.keys earlier).toFinset := by
      ext key
      simp [ExtractorOptions.keys]
    rw [hkeys] at hrest
    cases hlookup : (seenOf o earlier).lookup (o.key table.name) with
    | none =>
      have hnew := lookup_seenOf_eq_none_iff.mp hlookup
      rw [Finset.card_insert_of_notMem (by rwa [List.mem_toFinset])] at hrest
      simp only [duplicateWarning, Option.map_none, Option.toList_none, List.length_nil,
        List.length_cons]
      omega
    | some existing =>
      have hold := mem_keys_of_lookup_seenOf hlookup
      rw [Finset.insert_eq_self.mpr (List.mem_toFinset.mpr hold)] at hrest
      simp only [duplicateWarning, Option.map_some, Option.toList_some, List.length_cons,
        List.length_nil]
      omega

/-- **Duplicates are told of exactly.**  Where tables are extracted, there is one for every
statement, and the warnings are about the tables with the key of an earlier one, one for each and in
their order: they name the table, the latest of the earlier ones with the same key, and the line of
the table.  So they are as many as the tables without the number of different keys. -/
theorem extractTables_duplicates {sql : Source} {tables : List Table}
    (h : (extractTables sql o l).outcome = .ok tables) :
    ∃ (ss : List Statement) (js : List Nat), Statement.parse sql = .ok ss ∧
      List.Forall₂ (fun s table => s.checkedTable o l = .ok table) ss tables ∧
      js.Pairwise (· < ·) ∧ (∀ j, j ∈ js ↔ IsRepeated (o.keys tables) j) ∧
      List.Forall₂ (IsToldAt o ss tables) js (extractTables sql o l).warnings ∧
      (extractTables sql o l).warnings.length = tables.length - (o.keys tables).toFinset.card := by
  obtain ⟨ss, hparse, htables⟩ := exists_parse_of_extractTables h
  have hcount := Limits.le_of_checkTableCount (checkTableCount_of_extractTables hparse h)
  rw [extractTables_of_parse hparse hcount] at h ⊢
  obtain ⟨js, hordered, hmem, htold⟩ := @warnings_readTables o l ss [] [] tables rfl h
  have hlength : (readTables o l [] ss).warnings.length + (o.keys tables).toFinset.card =
      0 + tables.length := @length_warnings_readTables o l ss [] tables h
  refine ⟨ss, js, hparse, htables, hordered, fun j => ?_, htold, by omega⟩
  rw [hmem j]
  exact and_iff_right (Nat.zero_le j)

/-- One name in three spellings. -/
def repeatedUsers : Text :=
  ("CREATE TABLE users (id INT);\nCREATE TABLE Users (id INT);\n" ++
    "CREATE TABLE USERS (id INT);").toList

/-- The tables of that text, which differ in their names only. -/
def repeatedUsersTables : List Table :=
  ["users", "Users", "USERS"].map fun name =>
    ⟨name.toList, [⟨"id".toList, "INT".toList, true, none, [], none⟩], [], none⟩

/-- The third spelling is told with the second, which is the latest one in front of it. -/
theorem extractTables_duplicates_users :
    (extractTables (.text repeatedUsers) .standard .standard).outcome = .ok repeatedUsersTables ∧
    ∃ (ss : List Statement) (js : List Nat), Statement.parse (.text repeatedUsers) = .ok ss ∧
      (∀ j, j ∈ js ↔ IsRepeated (ExtractorOptions.standard.keys repeatedUsersTables) j) ∧
      List.Forall₂ (IsToldAt .standard ss repeatedUsersTables) js
        [.duplicateTable "Users".toList "users".toList 2,
          .duplicateTable "USERS".toList "Users".toList 3] := by
  have hrun : (extractTables (.text repeatedUsers) .standard .standard).outcome =
      .ok repeatedUsersTables ∧
      (extractTables (.text repeatedUsers) .standard .standard).warnings =
        [.duplicateTable "Users".toList "users".toList 2,
          .duplicateTable "USERS".toList "Users".toList 3] := by
    decide +kernel
  obtain ⟨htables, hwarnings⟩ := hrun
  obtain ⟨ss, js, hparse, -, -, hrepeated, htold, -⟩ := extractTables_duplicates htables
  rw [hwarnings] at htold
  exact ⟨htables, ss, js, hparse, hrepeated, htold⟩

end TableTypes
