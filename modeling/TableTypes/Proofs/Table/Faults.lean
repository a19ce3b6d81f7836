import TableTypes.Proofs.Column.Lists
import TableTypes.Proofs.Scan.Rescan
import TableTypes.Proofs.Table.Sound

/-!
# The fault that is told

A statement has a fault if one of its columns cannot be parsed, if it has no column, or if it has
more columns than the limit allows (`Statement.IsFaulty`).  Of several faults the one that is looked
for first is told (`Statement.Fails`): a column that cannot be parsed goes before the number of
columns, and of several such columns the first in the list is told, with its place among all parts
of the list.

The table of a statement is read exactly if it has no fault (`Statement.checkedTable_eq_error_iff`),
and of several statements with faults the first is told (`extractTables_faults`).
-/

namespace TableTypes

open Text

/-! ### Rejected parts -/

/-- Whether a part of a list is a column that cannot be parsed. -/
def isRejected (part : Text) : Bool :=
  isColumnPart part && !(Column.parse (.text part) none).isOk

theorem findIdx?_eq_some_iff_getElem? {α : Type} {p : α → Bool} {l : List α} {i : Nat} :
    l.findIdx? p = some i ↔ ∃ a, l[i]? = some a ∧ p a = true ∧
      ∀ j b, j < i → l[j]? = some b → p b = false := by
  rw [List.findIdx?_eq_some_iff_getElem]
  constructor
  · rintro ⟨hi, hp, hfirst⟩
    refine ⟨l[i], List.getElem?_eq_getElem hi, hp, fun j b hj hb => ?_⟩
    obtain ⟨hlt, rfl⟩ := List.getElem?_eq_some_iff.mp hb
    exact Bool.eq_false_iff.mpr (hfirst j hj)
  · rintro ⟨a, ha, hp, hfirst⟩
    obtain ⟨hi, rfl⟩ := List.getElem?_eq_some_iff.mp ha
    refine ⟨hi, hp, fun j hj => ?_⟩
    rw [hfirst j _ hj (List.getElem?_eq_getElem _)]
    exact Bool.false_ne_true

section

variable {t part : Text}

/-- A column in a list has no blanks around it, so it is parsed as it stands. -/
theorem parse_of_mem_splitCommas (hpart : part ∈ splitCommas t)
    (hcolumn : isColumnPart part = true) :
    Column.parse (.text part) none = (Column.read part).mapError ParseCause.error := by
  have hne : part ≠ [] := by
    rintro rfl
    cases hcolumn
  exact Column.parse_of_solid (strip_of_mem_splitCommas hpart) hne none

theorem isRejected_iff (hpart : part ∈ splitCommas t) : isRejected part = true ↔
    isColumnPart part = true ∧ ∃ cause, Column.read part = .error cause := by
  rw [isRejected, Bool.and_eq_true]
  refine and_congr_right fun hcolumn => ?_
  rw [parse_of_mem_splitCommas hpart hcolumn]
  cases Column.read part with
  | error cause => exact ⟨fun _ => ⟨cause, rfl⟩, fun _ => rfl⟩
  | ok c => exact ⟨fun h => (nomatch h), fun ⟨_, h⟩ => (nomatch h)⟩

theorem isRejected_eq_false_iff (hpart : part ∈ splitCommas t) : isRejected part = false ↔
    (isColumnPart part = true → ∃ c, Column.read part = .ok c) := by
  rw [← Bool.not_eq_true, isRejected_iff hpart, not_and]
  refine imp_congr_right fun _ => ?_
  cases Column.read part with
  | error cause => exact ⟨fun h => absurd ⟨cause, rfl⟩ h, fun ⟨_, h⟩ => (nomatch h)⟩
  | ok c => exact ⟨fun _ => ⟨c, rfl⟩, fun _ ⟨_, h⟩ => (nomatch h)⟩

/-- **A list fails exactly at its first rejected part**, wherever in the list it stands. -/
theorem readAll_eq_error_iff_findIdx? {e : ParseError} : Column.readAll t = .error e ↔
    ∃ i part cause, (splitCommas t).findIdx? isRejected = some i ∧
      (splitCommas t)[i]? = some part ∧
      Column.parse (.text part) none = .error cause.error ∧
      e = ⟨.inColumn (i + 1) cause, none, some (i + 1)⟩ := by
  rw [Column.readAll_eq_error_iff]
  constructor
  · rintro ⟨i, part, cause, hpart, hcolumn, hread, hfirst, rfl⟩
    have hmem := List.mem_of_getElem? hpart
    refine ⟨i, part, cause, ?_, hpart, ?_, rfl⟩
    · refine findIdx?_eq_some_iff_getElem?.mpr
        ⟨part, hpart, (isRejected_iff hmem).mpr ⟨hcolumn, cause, hread⟩, fun j q hj hq => ?_⟩
      exact (isRejected_eq_false_iff (List.mem_of_getElem? hq)).mpr (hfirst j q hj hq)
    · rw [parse_of_mem_splitCommas hmem hcolumn, hread]
      rfl
  · rintro ⟨i, part, cause, hindex, hpart, hparse, rfl⟩
    obtain ⟨part', hpart', hrejected, hfirst⟩ := findIdx?_eq_some_iff_getElem?.mp hindex
    obtain rfl := Option.some.inj (hpart.symm.trans hpart')
    have hmem := List.mem_of_getElem? hpart
    obtain ⟨hcolumn, cause', hread⟩ := (isRejected_iff hmem).mp hrejected
    obtain rfl : cause' = cause := by
      rw [parse_of_mem_splitCommas hmem hcolumn, hread] at hparse
      exact (ParseError.mk.inj (Except.error.inj hparse)).1
    refine ⟨i, part, cause', hpart, hcolumn, hread, fun j q hj hq => ?_, rfl⟩
    exact (isRejected_eq_false_iff (List.mem_of_getElem? hq)).mp (hfirst j q hj hq)

theorem exists_readAll_iff : (∃ cs, Column.readAll t = .ok cs) ↔
    (splitCommas t).findIdx? isRejected = none := by
  constructor
  · rintro ⟨cs, hcs⟩
    rw [List.findIdx?_eq_none_iff]
    intro part hpart
    refine (isRejected_eq_false_iff hpart).mpr fun hcolumn => ?_
    have hread := Column.readAll_eq_ok_iff.mp hcs
    obtain ⟨c, -, hc⟩ := Report.exists_of_forall₂ hread.flip (List.mem_filter.mpr ⟨hpart, hcolumn⟩)
    exact ⟨c, hc⟩
  · intro hnone
    cases hread : Column.readAll t with
    | ok cs => exact ⟨cs, rfl⟩
    | error e =>
      obtain ⟨i, -, -, hindex, -⟩ := readAll_eq_error_iff_findIdx?.mp hread
      rw [hnone] at hindex
      cases hindex

end

/-! ### The fault of a statement -/

variable {o : ExtractorOptions} {l : Limits}

theorem Limits.checkFieldCount_eq (l : Limits) (n : Nat) (table : Text) :
    l.checkFieldCount (some n) table =
      if l.maxFieldCount < n then .error (ParseCause.tooManyColumns n table l.maxFieldCount).error
      else .ok () := by
  rw [checkFieldCount, if_neg (Int.not_lt.mpr (Int.natCast_nonneg n))]
  simp only [Int.ofNat_lt]

namespace Statement

variable {s : Statement}

/-- The parts of the body that are columns. -/
def columnParts (s : Statement) : List Text :=
  (splitCommas s.body).filter isColumnPart

/-- The position of the first rejected column among all parts of the body. -/
def rejectedAt? (s : Statement) : Option Nat :=
  (splitCommas s.body).findIdx? isRejected

/-- What makes the table of a statement unreadable: a column that cannot be parsed, no column at
all, or too many of them. -/
def IsFaulty (l : Limits) (s : Statement) : Prop :=
  (∃ part ∈ splitCommas s.body, isRejected part = true) ∨ s.columnParts = [] ∨
    l.maxFieldCount < s.columnParts.length

/-- What is told of a statement with faults.  The number of columns is of interest only if none of
them is rejected. -/
inductive Fails (l : Limits) (s : Statement) : ParseCause → Prop
  | rejected {i : Nat} {part : Text} {cause : ParseCause} (hindex : s.rejectedAt? = some i)
      (hpart : (splitCommas s.body)[i]? = some part)
      (hparse : Column.parse (.text part) none = .error cause.error) :
      Fails l s (.inColumn (i + 1) cause)
  | columnless (hread : s.rejectedAt? = none) (hnone : s.columnParts = []) :
      Fails l s (.noColumns s.name)
  | tooMany (hread : s.rejectedAt? = none) (hmany : l.maxFieldCount < s.columnParts.length) :
      Fails l s (.tooManyColumns s.columnParts.length s.name l.maxFieldCount)

theorem isFaulty_iff : s.IsFaulty l ↔ ∃ cause, s.Fails l cause := by
  constructor
  · intro h
    cases hindex : s.rejectedAt? with
    | some i =>
      obtain ⟨part, hpart, hrejected, -⟩ := findIdx?_eq_some_iff_getElem?.mp hindex
      have hmem := List.mem_of_getElem? hpart
      obtain ⟨hcolumn, cause, hread⟩ := (isRejected_iff hmem).mp hrejected
      have hparse : Column.parse (.text part) none = .error cause.error := by
        rw [parse_of_mem_splitCommas hmem hcolumn, hread]
        rfl
      exact ⟨_, .rejected hindex hpart hparse⟩
    | none =>
      rcases h with ⟨part, hpart, hrejected⟩ | hnone | hmany
      · have hread := List.findIdx?_eq_none_iff.mp hindex part hpart
        rw [hrejected] at hread
        cases hread
      · exact ⟨_, .columnless hindex hnone⟩
      · exact ⟨_, .tooMany hindex hmany⟩
  · rintro ⟨_, hindex | ⟨-, hnone⟩ | ⟨-, hmany⟩⟩
    · obtain ⟨part, hpart, hrejected, -⟩ := findIdx?_eq_some_iff_getElem?.mp hindex
      exact Or.inl ⟨part, List.mem_of_getElem? hpart, hrejected⟩
    · exact Or.inr (Or.inl hnone)
    · exact Or.inr (Or.inr hmany)

/-- The columns that are read are as many as the parts that are columns. -/
theorem length_columns {columns : List Column} (h : Column.readAll s.body = .ok columns) :
    columns.length = s.columnParts.length :=
  (Column.readAll_eq_ok h).length_eq.symm

theorem checkedTable_of_error {e : ParseError} (h : s.table o = .error e) :
    s.checkedTable o l = .error ⟨.inTable s.name e.cause, s.line, e.position⟩ := by
  rw [checkedTable, h]
  rfl

/-- A statement with columns that can be read has a table, if they are not too many. -/
theorem checkedTable_of_readAll {columns : List Column} (h : Column.readAll s.body = .ok columns)
    (hne : s.columnParts ≠ []) : ∃ table, s.checkedTable o l =
      if l.maxFieldCount < s.columnParts.length then
        .error ⟨.inTable s.name (.tooManyColumns s.columnParts.length s.name l.maxFieldCount),
          s.line, none⟩
      else .ok table := by
  have hlength := length_columns h
  have hcolumns : columns ≠ [] := by
    rintro rfl
    exact hne (List.length_eq_zero_iff.mp hlength.symm)
  obtain ⟨table, htable, hcount, hname⟩ : ∃ table, s.table o = .ok table ∧
      table.columns.length = s.columnParts.length ∧ table.name = s.name := by
    refine ⟨_, table_eq_ok_iff.mpr ⟨columns, h, hcolumns, rfl⟩, ?_, rfl⟩
    dsimp only
    split
    · exact hlength
    · rw [List.length_map, hlength]
  refine ⟨table, ?_⟩
  rw [checkedTable, htable]
  show Except.mapError _ ((l.checkFieldCount (some (table.columns.length : Nat)) table.name).bind
    fun _ => .ok table) = _
  rw [Limits.checkFieldCount_eq, hcount, hname]
  split_ifs
  · rfl
  · rfl

/-- **What fails is told**, with the name and the line of the table and the position of the
column. -/
theorem Fails.checkedTable_eq {cause : ParseCause} (h : s.Fails l cause) : s.checkedTable o l =
    .error ⟨.inTable s.name cause, s.line, s.rejectedAt?.map (· + 1)⟩ := by
  cases h with
  | @rejected i part cause hindex hpart hparse =>
    have hread : Column.readAll s.body = .error ⟨.inColumn (i + 1) cause, none, some (i + 1)⟩ :=
      readAll_eq_error_iff_findIdx?.mpr ⟨i, part, cause, hindex, hpart, hparse, rfl⟩
    have htable : s.table o = .error ⟨.inColumn (i + 1) cause, none, some (i + 1)⟩ := by
      rw [table, hread]
      rfl
    rw [checkedTable_of_error htable, hindex]
    rfl
  | columnless hread hnone =>
    obtain ⟨columns, hcolumns⟩ := exists_readAll_iff.mpr hread
    obtain rfl : columns = [] := by
      rw [← List.length_eq_zero_iff, length_columns hcolumns, hnone]
      rfl
    have htable : s.table o = .error ((ParseCause.noColumns s.name).onLine s.line) := by
      rw [table, hcolumns]
      rfl
    rw [checkedTable_of_error htable, hread]
    rfl
  | tooMany hread hmany =>
    obtain ⟨columns, hcolumns⟩ := exists_readAll_iff.mpr hread
    have hne : s.columnParts ≠ [] := fun hnil => by
      rw [hnil] at hmany
      exact Nat.not_lt_zero _ hmany
    obtain ⟨table, htable⟩ := checkedTable_of_readAll (o := o) (l := l) hcolumns hne
    rw [htable, if_pos hmany, hread]
    rfl

theorem exists_checkedTable (h : ¬ s.IsFaulty l) : ∃ table, s.checkedTable o l = .ok table := by
  have hread : s.rejectedAt? = none := by
    rw [rejectedAt?, List.findIdx?_eq_none_iff]
    intro part hpart
    exact Bool.eq_false_iff.mpr fun hrejected => h (Or.inl ⟨part, hpart, hrejected⟩)
  obtain ⟨columns, hcolumns⟩ := exists_readAll_iff.mpr hread
  obtain ⟨table, htable⟩ := checkedTable_of_readAll (o := o) (l := l) hcolumns
    fun hnil => h (Or.inr (Or.inl hnil))
  rw [if_neg fun hmany => h (Or.inr (Or.inr hmany))] at htable
  exact ⟨table, htable⟩

/-- **The table of a statement is read exactly if it has no fault.** -/
theorem checkedTable_eq_error_iff {e : ParseError} : s.checkedTable o l = .error e ↔
    ∃ cause, s.Fails l cause ∧ e = ⟨.inTable s.name cause, s.line, s.rejectedAt?.map (· + 1)⟩ := by
  constructor
  · intro h
    have hfaulty : s.IsFaulty l := by
      by_contra hsound
      obtain ⟨table, htable⟩ := exists_checkedTable (o := o) hsound
      rw [h] at htable
      cases htable
    obtain ⟨cause, hfails⟩ := isFaulty_iff.mp hfaulty
    exact ⟨cause, hfails, Except.error.inj (h.symm.trans hfails.checkedTable_eq)⟩
  · rintro ⟨cause, hfails, rfl⟩
    exact hfails.checkedTable_eq

theorem exists_checkedTable_iff : (∃ table, s.checkedTable o l = .ok table) ↔ ¬ s.IsFaulty l := by
  refine ⟨?_, exists_checkedTable⟩
  rintro ⟨table, htable⟩ hfaulty
  obtain ⟨cause, hfails⟩ := isFaulty_iff.mp hfaulty
  rw [hfails.checkedTable_eq] at htable
  cases htable

end Statement

/-! ### The first statement with a fault -/

/-- The tables are those of the statements one by one, whatever was seen before. -/
theorem readTables_outcome {ss : List Statement} : ∀ seen : List (Text × Text),
    (readTables o l seen ss).outcome =
      (ss.mapM fun s : Statement => s.checkedTable o l).mapError Fault.parse := by
  induction ss with
  | nil => exact fun _ => rfl
  | cons s ss ih =>
    intro seen
    rw [readTables_cons_outcome, List.mapM_cons]
    cases s.checkedTable o l with
    | error e => rfl
    | ok table =>
      have hrest := ih ((o.key table.name, table.name) :: seen)
      rw [Report.ofExcept_ok, Report.pure_bind]
      cases hmapM : ss.mapM fun s : Statement => s.checkedTable o l with
      | error e =>
        rw [hmapM] at hrest
        rw [Report.bind_of_error hrest]
        rfl
      | ok tables =>
        rw [hmapM] at hrest
        rw [Report.bind_of_ok hrest]
        rfl

/-- **Reading stops at the first statement with a fault.** -/
theorem readTables_eq_error_iff {ss : List Statement} {seen : List (Text × Text)} {f : Fault} :
    (readTables o l seen ss).outcome = .error f ↔
      ∃ (i : Nat) (s : Statement) (cause : ParseCause), ss[i]? = some s ∧ s.Fails l cause ∧
        (∀ j s', j < i → ss[j]? = some s' → ¬ s'.IsFaulty l) ∧
        f = .parse ⟨.inTable s.name cause, s.line, s.rejectedAt?.map (· + 1)⟩ := by
  rw [readTables_outcome]
  have hmapM := @Report.mapM_eq_error_iff _ _ _ (fun s : Statement => s.checkedTable o l) ss
  simp only [Statement.exists_checkedTable_iff, Statement.checkedTable_eq_error_iff] at hmapM
  constructor
  · intro h
    cases hread : ss.mapM fun s : Statement => s.checkedTable o l with
    | ok tables =>
      rw [hread] at h
      cases h
    | error e =>
      rw [hread] at h
      obtain rfl := Except.error.inj h
      obtain ⟨i, s, hs, ⟨cause, hfails, rfl⟩, hfirst⟩ := hmapM.mp hread
      exact ⟨i, s, cause, hs, hfails, hfirst, rfl⟩
  · rintro ⟨i, s, cause, hs, hfails, hfirst, rfl⟩
    rw [hmapM.mpr ⟨i, s, hs, ⟨cause, hfails, rfl⟩, hfirst⟩]
    rfl

/-- **The fault that is told.**  Where a text is parsed and the number of its statements is within
the limit, the extraction fails exactly if some statement has a fault: a part of its body that is a
column and cannot be parsed, no column at all, or more columns than the limit allows.  The fault
belongs to the first such statement: it begins with its name and has its line.  Its position is that
of the first column that cannot be parsed, counted from one among all parts of the body, and if all
columns can be parsed it has none. -/
theorem extractTables_faults {sql : Source} {ss : List Statement}
    (hparse : Statement.parse sql = .ok ss) (hcount : ss.length ≤ l.maxTableCount) :
    ((∃ f, (extractTables sql o l).outcome = .error f) ↔ ∃ s ∈ ss, s.IsFaulty l) ∧
      ∀ f, (extractTables sql o l).outcome = .error f →
        ∃ (i : Nat) (s : Statement) (cause : ParseCause), ss[i]? = some s ∧ s.IsFaulty l ∧
          (∀ j s', j < i → ss[j]? = some s' → ¬ s'.IsFaulty l) ∧ s.Fails l cause ∧
          f = .parse ⟨.inTable s.name cause, s.line, s.rejectedAt?.map (· + 1)⟩ ∧
          "Error extracting table '".toList ++ s.name <+: f.message := by
  rw [extractTables_of_parse hparse hcount]
  refine ⟨⟨?_, ?_⟩, fun f hf => ?_⟩
  · rintro ⟨f, hf⟩
    obtain ⟨i, s, cause, hs, hfails, -⟩ := readTables_eq_error_iff.mp hf
    exact ⟨s, List.mem_of_getElem? hs, Statement.isFaulty_iff.mpr ⟨cause, hfails⟩⟩
  · rintro ⟨s, hs, hfaulty⟩
    cases hread : (readTables o l [] ss).outcome with
    | error f => exact ⟨f, rfl⟩
    | ok tables =>
      -- Every statement whose table is read is without fault.
      obtain ⟨table, -, htable⟩ := Report.exists_of_forall₂ (forall₂_of_readTables hread).flip hs
      exact absurd hfaulty (Statement.exists_checkedTable_iff.mp ⟨table, htable⟩)
  · obtain ⟨i, s, cause, hs, hfails, hfirst, rfl⟩ := readTables_eq_error_iff.mp hf
    refine ⟨i, s, cause, hs, Statement.isFaulty_iff.mpr ⟨cause, hfails⟩, hfirst, hfails, rfl, ?_⟩
    exact ⟨"': ".toList ++ cause.message, (List.append_assoc _ _ _).symm⟩

/-- A table that can be read, and one with an empty part, a key and a column without a type. -/
def brokenUsers : Text :=
  "CREATE TABLE ok (id INT);\nCREATE TABLE users (id INT,, PRIMARY KEY (id), broken);".toList

/-- The statements of that text. -/
def brokenUsersStatements : List Statement :=
  [⟨"ok".toList, "id INT".toList, 1, "CREATE TABLE ok (id INT);".toList, none⟩,
    ⟨"users".toList, "id INT,, PRIMARY KEY (id), broken".toList, 2,
      "CREATE TABLE users (id INT,, PRIMARY KEY (id), broken);".toList, none⟩]

/-- The column is the fourth part of its list, though only the second column. -/
theorem extractTables_faults_users :
    (Statement.parse (.text brokenUsers) = .ok brokenUsersStatements ∧
      brokenUsersStatements.length ≤ Limits.standard.maxTableCount) ∧
    (extractTables (.text brokenUsers) .standard .standard).outcome =
      .error (.parse ⟨.inTable "users".toList (.inColumn 4 (.unreadableColumn "broken".toList)),
        some 2, some 4⟩) ∧
    ∃ s ∈ brokenUsersStatements, s.IsFaulty .standard := by
  have hrun : Statement.parse (.text brokenUsers) = .ok brokenUsersStatements ∧
      (extractTables (.text brokenUsers) .standard .standard).outcome =
        .error (.parse ⟨.inTable "users".toList
          (.inColumn 4 (.unreadableColumn "broken".toList)), some 2, some 4⟩) := by
    decide +kernel
  obtain ⟨hparse, hfault⟩ := hrun
  have hcount : brokenUsersStatements.length ≤ Limits.standard.maxTableCount := by decide
  have hfaults := extractTables_faults (o := .standard) hparse hcount
  exact ⟨⟨hparse, hcount⟩, hfault, hfaults.1.mp ⟨_, hfault⟩⟩

end TableTypes
