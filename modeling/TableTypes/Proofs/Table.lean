import TableTypes.Proofs.Report
import TableTypes.Proofs.Text.Cutting
import TableTypes.Table
import Mathlib.Data.List.Forall2

/-!
# Tables one by one

Each table that is extracted is read from its own statement, without regard to the others
(`exists_parse_of_extractTables`), and where a text holds one statement its table is extracted alone
(`extractTable_of_parse`).
-/

namespace TableTypes

open Text

/-! ### The table of a statement -/

namespace Statement

/-- The table of a statement is made of the columns and the constraints of its body. -/
theorem table_eq_ok_iff {s : Statement} {o : ExtractorOptions} {table : Table} :
    s.table o = .ok table ↔
      ∃ columns, Column.readAll s.body = .ok columns ∧ columns ≠ [] ∧
        table = ⟨s.name, if o.includeComments then columns else columns.map Column.uncommented,
          tableConstraints s.body, if o.includeComments then s.comment else none⟩ := by
  rw [Statement.table]
  cases Column.readAll s.body with
  | error e => exact ⟨fun h => (nomatch h), fun ⟨_, h, _⟩ => (nomatch h)⟩
  | ok columns =>
    cases columns with
    | nil =>
      refine ⟨fun h => (nomatch h), ?_⟩
      rintro ⟨_, h, hne, -⟩
      exact absurd (Except.ok.inj h).symm hne
    | cons c columns =>
      constructor
      · exact fun h => ⟨c :: columns, rfl, List.cons_ne_nil c columns, (Except.ok.inj h).symm⟩
      · rintro ⟨_, h, -, rfl⟩
        obtain rfl := Except.ok.inj h
        rfl

/-- The line of a statement shows only in faults. -/
theorem table_line {s : Statement} {o : ExtractorOptions} {table : Table} (line : Nat)
    (h : s.table o = .ok table) : { s with line }.table o = .ok table := by
  obtain ⟨columns, hread, hne, htable⟩ := table_eq_ok_iff.mp h
  exact table_eq_ok_iff.mpr ⟨columns, hread, hne, htable⟩

theorem checkedTable_eq_ok_iff {s : Statement} {o : ExtractorOptions} {l : Limits} {table : Table} :
    s.checkedTable o l = .ok table ↔
      s.table o = .ok table ∧
        l.checkFieldCount (some table.columns.length) table.name = .ok () := by
  rw [checkedTable]
  cases htable : s.table o with
  | error e =>
    constructor
    · intro h; cases h
    · rintro ⟨h, -⟩; cases h
  | ok read =>
    show Except.mapError _ ((l.checkFieldCount (some read.columns.length) read.name).bind
      fun _ => .ok read) = _ ↔ _
    cases hcheck : l.checkFieldCount (some read.columns.length) read.name with
    | error e =>
      constructor
      · intro h; cases h
      · rintro ⟨h, hok⟩
        obtain rfl := Except.ok.inj h
        rw [hcheck] at hok
        cases hok
    | ok u =>
      constructor
      · intro h
        obtain rfl : read = table := Except.ok.inj h
        exact ⟨rfl, hcheck⟩
      · rintro ⟨h, -⟩
        exact congrArg Except.ok (Except.ok.inj h)

theorem checkedTable_line {s : Statement} {o : ExtractorOptions} {l : Limits} {table : Table}
    (line : Nat) (h : s.checkedTable o l = .ok table) :
    { s with line }.checkedTable o l = .ok table := by
  obtain ⟨htable, hcheck⟩ := checkedTable_eq_ok_iff.mp h
  exact checkedTable_eq_ok_iff.mpr ⟨table_line line htable, hcheck⟩

end Statement

/-! ### All tables -/

variable {o : ExtractorOptions} {l : Limits}

/-- A warning before the other tables does not change what comes of them. -/
theorem readTables_cons_outcome (seen : List (Text × Text)) (s : Statement)
    (rest : List Statement) : (readTables o l seen (s :: rest)).outcome =
      (Report.ofExcept .parse (s.checkedTable o l) >>= fun table =>
        readTables o l ((o.key table.name, table.name) :: seen) rest >>= fun more =>
          pure (table :: more)).outcome := by
  rw [readTables]
  cases s.checkedTable o l with
  | error e => rfl
  | ok table =>
    rw [Report.ofExcept_ok, Report.pure_bind, Report.pure_bind]
    dsimp only
    split
    · rw [Report.bind_of_ok rfl]
    · rfl

theorem exists_of_readTables_cons {seen : List (Text × Text)} {s : Statement}
    {rest : List Statement} {tables : List Table}
    (h : (readTables o l seen (s :: rest)).outcome = .ok tables) :
    ∃ table more, tables = table :: more ∧ s.checkedTable o l = .ok table ∧
      (readTables o l ((o.key table.name, table.name) :: seen) rest).outcome = .ok more := by
  rw [readTables_cons_outcome] at h
  obtain ⟨table, htable, h⟩ := Report.bind_eq_ok h
  obtain ⟨more, hmore, h⟩ := Report.bind_eq_ok h
  exact ⟨table, more, (Except.ok.inj h).symm, Report.ofExcept_eq_ok htable, hmore⟩

/-- **Every table is read from its own statement.** -/
theorem forall₂_of_readTables {ss : List Statement} : ∀ {seen : List (Text × Text)}
    {tables : List Table}, (readTables o l seen ss).outcome = .ok tables →
      List.Forall₂ (fun s table => s.checkedTable o l = .ok table) ss tables := by
  induction ss with
  | nil =>
    intro seen tables h
    obtain rfl : [] = tables := Except.ok.inj h
    exact .nil
  | cons s ss ih =>
    intro seen tables h
    obtain ⟨table, more, rfl, htable, hmore⟩ := exists_of_readTables_cons h
    exact .cons htable (ih hmore)

theorem solid_of_parse {sql : Source} {ss : List Statement} (h : Statement.parse sql = .ok ss) :
    sql.solid?.isSome = true := by
  cases sql with
  | text t =>
    rw [Statement.parse] at h
    rw [Source.solid?]
    split_ifs at h ⊢
    rfl
  | _ => cases h

theorem extractTables_of_solid {sql : Source} (hsolid : sql.solid?.isSome = true) :
    extractTables sql o l = (Report.ofExcept .parse (Statement.parse sql) >>= fun statements =>
      Report.ofExcept .parse (l.checkTableCount (some statements.length)) >>= fun _ =>
        readTables o l [] statements) := by
  have hnone : sql.solid?.isNone = false := by
    cases h : sql.solid? with
    | none => rw [h] at hsolid; cases hsolid
    | some t => rfl
  rw [extractTables, hnone]
  rfl

theorem exists_parse_of_extractTables {sql : Source} {tables : List Table}
    (h : (extractTables sql o l).outcome = .ok tables) : ∃ ss, Statement.parse sql = .ok ss ∧
      List.Forall₂ (fun s table => s.checkedTable o l = .ok table) ss tables := by
  have hsolid : sql.solid?.isSome = true := by
    cases hnone : sql.solid? with
    | none => rw [extractTables, hnone] at h; cases h
    | some t => rfl
  rw [extractTables_of_solid hsolid] at h
  obtain ⟨ss, hss, h⟩ := Report.bind_eq_ok h
  obtain ⟨-, -, h⟩ := Report.bind_eq_ok h
  exact ⟨ss, Report.ofExcept_eq_ok hss, forall₂_of_readTables h⟩

/-- **The table of a single statement** is extracted without a warning. -/
theorem extractTable_of_parse {t : Text} {s : Statement} {table : Table}
    (hsolid : t.isAllBlank = false) (hparse : Statement.parse (.text t) = .ok [s])
    (htable : s.checkedTable o .standard = .ok table) :
    extractTable (.text t) o = .succeed table := by
  have hsome : (Source.text t).solid?.isSome = true :=
    Option.isSome_of_eq_some (Text.solid?_of_isAllBlank hsolid)
  rw [extractTable, extractTables_of_solid hsome, hparse]
  have hread : readTables o .standard [] [s] = .succeed [table] := by
    rw [readTables, htable]
    rfl
  have hcount : Limits.standard.checkTableCount (some ([s].length : Nat)) = .ok () := rfl
  show Report.andThen (Report.andThen (Report.ofExcept .parse
    (Limits.standard.checkTableCount (some ([s].length : Nat)))) fun _ =>
      readTables o .standard [] [s]) _ = _
  rw [hread, hcount]
  rfl

end TableTypes
