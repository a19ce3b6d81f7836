import TableTypes.Api
import TableTypes.Proofs.Gate.Accept
import TableTypes.Proofs.Statement.Stripped
import TableTypes.Proofs.Table

/-!
# The lines that are reported

What passes the gate has lost the blank lines in front of it, so the lines that the public functions
report are counted from the first line that is not blank, and not from the first line of the text
that was handed over (`extractTables_eq_below`).  Nothing else is different: `Report.below` moves
all lines of a report by the same number and leaves everything else as it is.
-/

namespace TableTypes

open Text

/-! ### Reports further down -/

/-- The warning when everything is `k` lines further down. -/
def Warning.below (k : Nat) : Warning → Warning
  | .duplicateTable name existing line => .duplicateTable name existing (line + k)
  | w => w

/-- The fault when everything is `k` lines further down. -/
def Fault.below (k : Nat) : Fault → Fault
  | .parse e => .parse (e.below k)
  | f => f

/-- Whether the warning names a line. -/
def Warning.namesLine : Warning → Bool
  | .duplicateTable .. => true
  | _ => false

/-- Whether the fault names a line. -/
def Fault.namesLine : Fault → Bool
  | .parse e => e.line.isSome
  | _ => false

namespace Report

variable {α β : Type}

/-- The report when everything is `k` lines further down. -/
def below (k : Nat) (r : Report α) : Report α :=
  ⟨r.warnings.map (Warning.below k), r.outcome.mapError (Fault.below k)⟩

/-- Whether any warning of the report or its fault names a line. -/
def namesLine (r : Report α) : Bool :=
  r.warnings.any Warning.namesLine ||
    match r.outcome with
    | .error f => f.namesLine
    | .ok _ => false

@[simp] theorem below_pure (k : Nat) (a : α) : (pure a : Report α).below k = pure a := rfl

@[simp] theorem below_warn (k : Nat) (w : Warning) : (warn w).below k = warn (w.below k) := rfl

@[simp] theorem below_ofExcept (k : Nat) (r : Except ParseError α) :
    (ofExcept .parse r).below k = ofExcept .parse (r.mapError (ParseError.below k)) := by
  cases r <;> rfl

theorem below_bind (k : Nat) (r : Report α) (f : α → Report β) :
    (r >>= f).below k = r.below k >>= fun a => (f a).below k := by
  obtain ⟨warnings, outcome⟩ := r
  cases outcome with
  | error e => rfl
  | ok a =>
    show below k ⟨warnings ++ (f a).warnings, (f a).outcome⟩ =
      ⟨warnings.map _ ++ ((f a).below k).warnings, ((f a).below k).outcome⟩
    rw [below, List.map_append]
    rfl

end Report

theorem Warning.below_eq_self_iff {k : Nat} {w : Warning} :
    w.below k = w ↔ k = 0 ∨ w.namesLine = false := by
  cases w <;> simp [below, namesLine]

theorem Fault.below_eq_self_iff {k : Nat} {f : Fault} :
    f.below k = f ↔ k = 0 ∨ f.namesLine = false := by
  cases f with
  | parse e =>
    obtain ⟨cause, line, position⟩ := e
    cases line <;> simp [below, namesLine, ParseError.below]
  | _ => simp [below, namesLine]

/-- A report stays the same further down only if it names no line. -/
theorem Report.below_eq_self_iff {α : Type} {k : Nat} {r : Report α} :
    r.below k = r ↔ k = 0 ∨ r.namesLine = false := by
  obtain ⟨warnings, outcome⟩ := r
  have hwarnings : warnings.map (Warning.below k) = warnings ↔
      k = 0 ∨ warnings.any Warning.namesLine = false := by
    conv_lhs => rhs; rw [← List.map_id warnings]
    rw [List.map_inj_left, List.any_eq_false]
    simp only [id_eq, Warning.below_eq_self_iff, Bool.not_eq_true]
    by_cases hk : k = 0 <;> simp [hk]
  have houtcome : outcome.mapError (Fault.below k) = outcome ↔
      k = 0 ∨ (match outcome with
        | .error f => f.namesLine
        | .ok _ => false) = false := by
    cases outcome with
    | ok a => simp [Except.mapError]
    | error f => simp [Except.mapError, Fault.below_eq_self_iff]
  rw [below, namesLine, Report.mk.injEq, hwarnings, houtcome, Bool.or_eq_false_iff]
  by_cases hk : k = 0 <;> simp [hk]

/-! ### Tables further down -/

section

variable {k : Nat} {o : ExtractorOptions} {l : Limits}

theorem Statement.IsBelow.checkedTable {s s' : Statement} (h : s.IsBelow k s') :
    s'.checkedTable o l = (s.checkedTable o l).mapError (ParseError.below k) := by
  rw [h, Statement.checkedTable, Statement.checkedTable, Statement.table, Statement.table]
  cases hcolumns : Column.readAll s.body with
  | error e => rfl
  | ok columns =>
    cases hempty : columns.isEmpty with
    | true => simp only [bind, Except.bind, hempty]; rfl
    | false =>
      simp only [bind, Except.bind, pure, Except.pure, hempty, Bool.false_eq_true, if_false]
      generalize l.checkFieldCount _ _ = r
      cases r <;> rfl

/-- Tables are read of statements further down as they are read of the statements themselves. -/
theorem readTables_below {ss ss' : List Statement} (h : List.Forall₂ (Statement.IsBelow k) ss ss') :
    ∀ seen : List (Text × Text), readTables o l seen ss' = (readTables o l seen ss).below k := by
  induction h with
  | nil => exact fun _ => rfl
  | @cons s s' ss ss' hs _ ih =>
    intro seen
    have hline : s'.line = s.line + k := congrArg Statement.line hs
    simp only [readTables, Report.below_bind, Report.below_ofExcept, hs.checkedTable, ih, hline]
    congr 1
    funext table
    cases seen.lookup (o.key table.name) with
    | none => simp only [Report.below_bind, Report.below_pure]
    | some existing =>
      simp only [Report.below_bind, Report.below_pure, Report.below_warn, Warning.below]

theorem Limits.checkTableCount_below (l : Limits) (count : Option Int) :
    (l.checkTableCount count).mapError (ParseError.below k) = l.checkTableCount count := by
  cases count with
  | none => rfl
  | some n =>
    simp only [checkTableCount]
    split_ifs <;> rfl

/-- **The tables of a text are those between the blanks around it**, with reports further down. -/
theorem extractTables_inset (s : Inset) (hclean : isClean s.text = true)
    (hsolid : s.inner.isAllBlank = false) :
    extractTables (.text s.text) o l =
      (extractTables (.text s.inner) o l).below (newlines s.front) := by
  have hinner : (Source.text s.inner).solid?.isSome = true :=
    Option.isSome_of_eq_some (solid?_of_isAllBlank hsolid)
  have hwhole : (Source.text s.text).solid?.isSome = true :=
    Option.isSome_of_eq_some (solid?_of_isAllBlank (s.isAllBlank_text.trans hsolid))
  rw [extractTables_of_solid hinner, extractTables_of_solid hwhole]
  simp only [Report.below_bind, Report.below_ofExcept, Limits.checkTableCount_below]
  have hparse := Statement.parse_inset s hclean hsolid
  generalize Statement.parse (.text s.inner) = r at hparse ⊢
  generalize Statement.parse (.text s.text) = r' at hparse ⊢
  cases hparse with
  | error e => rfl
  | ok h =>
    simp only [Except.mapError, Report.ofExcept_ok, Report.pure_bind, h.length_eq,
      readTables_below h]

/-- How line ends are written makes no difference to the tables that are read. -/
theorem extractTables_unifyNewlines {t : Text} (ht : ∀ c ∈ t, isControl c = false) :
    extractTables (.text (unifyNewlines t)) o l = extractTables (.text t) o l := by
  have hclean : isClean (unifyNewlines t) = true := by
    rw [← cleaned_of_isControl ht]
    exact isClean_cleaned t
  have hparse : Statement.parse (.text (unifyNewlines t)) = Statement.parse (.text t) := by
    rw [Statement.parse, Statement.parse, isAllBlank_unifyNewlines, cleaned_eq_self hclean,
      cleaned_of_isControl ht]
  have hsolid : (Source.text (unifyNewlines t)).solid?.isNone = (Source.text t).solid?.isNone := by
    rw [Source.solid?, Source.solid?, isAllBlank_unifyNewlines]
    split_ifs <;> rfl
  rw [extractTables, extractTables, hparse, hsolid]

end

/-! ### Through the gate -/

/-- What the public function does with an input that is accepted. -/
theorem extractSchemas_of_accept {input : Source} {r : Text} {options limits : GivenOptions}
    {o : ExtractorOptions} {l : Limits} (ho : options.toExtractor = .ok o)
    (hl : limits.toLimits = .ok l) (haccept : (acceptInput input l).outcome = .ok r)
    (hprocess : (checkForProcessing (.text r) l).outcome = .ok ()) :
    extractSchemas input options limits = extractTables (.text r) o l := by
  rw [extractSchemas, ho, hl]
  simp only [Report.ofExcept_ok, Report.pure_bind, schemasOf, acceptInput_eq_pure haccept,
    checkForProcessing_eq_pure hprocess]

end TableTypes
