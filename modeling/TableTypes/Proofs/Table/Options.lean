import TableTypes.Proofs.Table.Faults

/-!
# What the options change

The options of an extraction decide which comments are kept and which names are told of as
duplicates.  So two extractions of one source under the same limits end with the same error, or with
tables that agree in all but their comments (`Table.AgreesBesideComments`); and the comments of each
are those that were parsed, or none at all (`extractTables_options`).
-/

namespace TableTypes

open Text

/-! ### Apart from comments -/

/-- Two columns that agree in all but their comments. -/
structure Column.AgreesBesideComment (c d : Column) : Prop where
  name : c.name = d.name
  type : c.type = d.type
  nullable : c.nullable = d.nullable
  default : c.default = d.default
  constraints : c.constraints = d.constraints

/-- Two tables that agree in all but their comments and those of their columns. -/
structure Table.AgreesBesideComments (t u : Table) : Prop where
  name : t.name = u.name
  columns : List.Forall₂ Column.AgreesBesideComment t.columns u.columns
  constraints : t.constraints = u.constraints

/-- The column with the comment that the options leave it. -/
def ExtractorOptions.shown (o : ExtractorOptions) (c : Column) : Column :=
  if o.includeComments then c else c.uncommented

variable {o₁ o₂ o : ExtractorOptions} {l : Limits} {s : Statement}

theorem ExtractorOptions.agreesBesideComment_shown (o₁ o₂ : ExtractorOptions) (c : Column) :
    (o₁.shown c).AgreesBesideComment (o₂.shown c) := by
  rw [shown, shown]
  split
  · split <;> exact ⟨rfl, rfl, rfl, rfl, rfl⟩
  · split <;> exact ⟨rfl, rfl, rfl, rfl, rfl⟩

theorem ExtractorOptions.map_shown (o : ExtractorOptions) (columns : List Column) :
    columns.map o.shown =
      if o.includeComments then columns else columns.map Column.uncommented := by
  have hshown : o.shown = if o.includeComments then id else Column.uncommented := by
    funext c
    rw [shown]
    split <;> rfl
  rw [hshown]
  split
  · exact List.map_id columns
  · rfl

theorem ExtractorOptions.comment_shown (o : ExtractorOptions) (c : Column) :
    (o.shown c).comment = if o.includeComments then c.comment else none := by
  rw [shown]
  split <;> rfl

/-! ### One statement -/

namespace Statement

/-- The options have their say once the columns are read. -/
theorem table_eq (s : Statement) (o : ExtractorOptions) : s.table o =
    (Column.readAll s.body).bind fun columns =>
      if columns.isEmpty then .error ((ParseCause.noColumns s.name).onLine s.line)
      else .ok ⟨s.name, columns.map o.shown, tableConstraints s.body,
        if o.includeComments then s.comment else none⟩ := by
  rw [table]
  cases Column.readAll s.body with
  | error e => rfl
  | ok columns =>
    show Except.bind _ _ = Except.bind _ _
    rw [Except.bind, Except.bind, o.map_shown]
    cases columns <;> rfl

theorem endAlike_table (s : Statement) (o₁ o₂ : ExtractorOptions) :
    Report.EndAlike Table.AgreesBesideComments (s.table o₁) (s.table o₂) := by
  rw [table_eq, table_eq]
  refine (Report.EndAlike.refl _).bind fun columns columns' hread => ?_
  subst hread
  split
  · exact .error
  · have hcolumns : List.Forall₂ Column.AgreesBesideComment (columns.map o₁.shown)
        (columns.map o₂.shown) := by
      rw [List.forall₂_map_left_iff, List.forall₂_map_right_iff, List.forall₂_same]
      exact fun c _ => ExtractorOptions.agreesBesideComment_shown o₁ o₂ c
    exact .ok ⟨rfl, hcolumns, rfl⟩

/-- The limit on columns looks at no comment. -/
theorem endAlike_checkedTable (s : Statement) (o₁ o₂ : ExtractorOptions) (l : Limits) :
    Report.EndAlike Table.AgreesBesideComments (s.checkedTable o₁ l) (s.checkedTable o₂ l) := by
  refine Report.EndAlike.mapError ((endAlike_table s o₁ o₂).bind fun t u htu => ?_) _
  rw [htu.name, htu.columns.length_eq]
  exact (Report.EndAlike.refl _).bind fun _ _ _ => .ok htu

/-- The comments of a table and of its columns are those that were parsed, or none at all if the
options leave them out. -/
structure GivesComments (o : ExtractorOptions) (s : Statement) (t : Table) : Prop where
  table : t.comment = if o.includeComments then s.comment else none
  columns : ∃ columns, Column.readAll s.body = .ok columns ∧
    t.columns.map Column.comment =
      columns.map fun c => if o.includeComments then c.comment else none

theorem givesComments_of_checkedTable {t : Table} (h : s.checkedTable o l = .ok t) :
    s.GivesComments o t := by
  obtain ⟨htable, -⟩ := checkedTable_eq_ok_iff.mp h
  obtain ⟨columns, hread, -, rfl⟩ := table_eq_ok_iff.mp htable
  refine ⟨rfl, columns, hread, ?_⟩
  dsimp only
  rw [← o.map_shown, List.map_map]
  exact List.map_congr_left fun c _ => o.comment_shown c

end Statement

/-! ### All statements -/

/-- The tables of a source, without a word about duplicates. -/
def quietTables (sql : Source) (o : ExtractorOptions) (l : Limits) :
    Except ParseError (List Table) :=
  if sql.solid?.isNone then .error ParseCause.blankSql.error
  else
    (Statement.parse sql).bind fun ss =>
      (l.checkTableCount (some (ss.length : Nat))).bind fun _ =>
        ss.mapM fun s : Statement => s.checkedTable o l

theorem outcome_extractTables (sql : Source) (o : ExtractorOptions) (l : Limits) :
    (extractTables sql o l).outcome = (quietTables sql o l).mapError Fault.parse := by
  rw [extractTables, quietTables]
  split
  · rfl
  · exact Report.outcome_ofExcept_bind fun ss => Report.outcome_ofExcept_bind fun _ =>
      readTables_outcome []

theorem endAlike_quietTables (sql : Source) (o₁ o₂ : ExtractorOptions) (l : Limits) :
    Report.EndAlike (List.Forall₂ Table.AgreesBesideComments) (quietTables sql o₁ l)
      (quietTables sql o₂ l) := by
  rw [quietTables, quietTables]
  split
  · exact .error
  · refine (Report.EndAlike.refl _).bind fun ss ss' hss => ?_
    subst hss
    refine (Report.EndAlike.refl _).bind fun _ _ _ => ?_
    exact Report.EndAlike.mapM fun s => Statement.endAlike_checkedTable s o₁ o₂ l

/-- **The options change nothing but comments and warnings.**  Under any two of them an extraction
ends with the same error, which is one of parsing, or with tables that agree in all but their
comments.  The comments of an extraction are those that were parsed if the options include them, and
otherwise there is none. -/
theorem extractTables_options (sql : Source) (l : Limits) (o₁ o₂ : ExtractorOptions) :
    Report.EndAlike (List.Forall₂ Table.AgreesBesideComments) (extractTables sql o₁ l).outcome
      (extractTables sql o₂ l).outcome ∧
    (∀ f, (extractTables sql o₁ l).outcome = .error f → ∃ e, f = .parse e) ∧
    ∀ tables, (extractTables sql o₁ l).outcome = .ok tables →
      ∃ ss, Statement.parse sql = .ok ss ∧ List.Forall₂ (Statement.GivesComments o₁) ss tables := by
  refine ⟨?_, fun f hf => ?_, fun tables htables => ?_⟩
  · rw [outcome_extractTables, outcome_extractTables]
    exact (endAlike_quietTables sql o₁ o₂ l).mapError _
  · rw [outcome_extractTables] at hf
    cases hquiet : quietTables sql o₁ l with
    | error e =>
      rw [hquiet] at hf
      exact ⟨e, (Except.error.inj hf).symm⟩
    | ok tables =>
      rw [hquiet] at hf
      cases hf
  · obtain ⟨ss, hparse, hread⟩ := exists_parse_of_extractTables htables
    exact ⟨ss, hparse, hread.imp fun _ _ => Statement.givesComments_of_checkedTable⟩

/-- A table with comments behind one that has the same name in another case. -/
def remarkedText : Text :=
  ("CREATE TABLE T (a INT DEFAULT 0);\n" ++
    "CREATE TABLE t (a INT UNIQUE COMMENT 'x', b TEXT) COMMENT='c';").toList

/-- The tables of that text without its comments. -/
def unremarkedTables : List Table :=
  [⟨['T'], [⟨['a'], "INT".toList, true, some ['0'], [], none⟩], [], none⟩,
    ⟨['t'], [⟨['a'], "INT".toList, true, none, [⟨.unique, none⟩], none⟩,
      ⟨['b'], "TEXT".toList, true, none, [], none⟩], [], none⟩]

/-- The fault of a column without a type. -/
def typelessFault : Fault :=
  .parse ⟨.inTable ['t'] (.inColumn 1 (.unreadableColumn ['a'])), some 1, some 1⟩

theorem extractTables_options_remarked :
    ((extractTables (.text remarkedText) ⟨.auto, false, true⟩ .standard).outcome =
        .ok unremarkedTables ∧
      (extractTables (.text "CREATE TABLE t (a);".toList) .standard .standard).outcome =
        .error typelessFault) ∧
    Report.EndAlike (List.Forall₂ Table.AgreesBesideComments) (.ok unremarkedTables)
      (extractTables (.text remarkedText) .standard .standard).outcome ∧
    (∃ e, typelessFault = .parse e) ∧
    ∃ ss, Statement.parse (.text remarkedText) = .ok ss ∧
      List.Forall₂ (Statement.GivesComments ⟨.auto, false, true⟩) ss unremarkedTables := by
  have hquiet : (extractTables (.text remarkedText) ⟨.auto, false, true⟩ .standard).outcome =
      .ok unremarkedTables := by decide +kernel
  have hfault : (extractTables (.text "CREATE TABLE t (a);".toList) .standard .standard).outcome =
      .error typelessFault := by decide +kernel
  obtain ⟨hagree, -, hcomments⟩ :=
    extractTables_options (.text remarkedText) .standard ⟨.auto, false, true⟩ .standard
  obtain ⟨-, hparse, -⟩ :=
    extractTables_options (.text "CREATE TABLE t (a);".toList) .standard .standard .standard
  exact ⟨⟨hquiet, hfault⟩, hquiet ▸ hagree, hparse _ hfault, hcomments _ hquiet⟩

end TableTypes
