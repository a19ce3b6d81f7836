import TableTypes.Api
import TableTypes.Proofs.Gate.Accept
import TableTypes.Proofs.Report
import TableTypes.Proofs.Statement.Place

/-!
# Cleaned texts stay clean

The gate and the parser clean a text in opposite orders: the gate removes control characters before
it writes line ends as newlines and strips the text, the parser writes line ends first and strips
nothing.  So they do not make the same of every text, but either leaves alone what is clean
(`cleaned_eq_self_iff`, `sanitized_eq_self_iff`), and each makes clean texts only.

Behind the gate the parser therefore has nothing to clean: it looks for statements, and counts
lines, in the very text that was checked (`extractSchemas_asChecked`).
-/

namespace TableTypes

open Text

/-! ### Fixed points -/

/-- The parser leaves alone exactly the texts without control characters and carriage returns. -/
theorem cleaned_eq_self_iff {t : Text} : cleaned t = t ↔ isClean t = true := by
  constructor
  · intro h
    rw [← h]
    exact isClean_cleaned t
  · exact cleaned_eq_self

/-- The gate leaves alone exactly those of them that have no blanks at either end. -/
theorem sanitized_eq_self_iff {t : Text} : sanitized t = t ↔ isClean t = true ∧ strip t = t := by
  constructor
  · intro h
    have hstrip : strip (sanitized t) = sanitized t := strip_strip _
    rw [h] at hstrip
    refine ⟨?_, hstrip⟩
    rw [← h]
    exact isClean_sanitized t
  · rintro ⟨hclean, hstrip⟩
    simp only [isClean, List.all_eq_true, Bool.and_eq_true, Bool.not_eq_true', decide_eq_true_eq]
      at hclean
    rw [sanitized, dropControls_eq_self fun c hc => (hclean c hc).1,
      unifyNewlines_eq_self fun h => (hclean _ h).2 rfl, hstrip]

/-! ### Behind the gate -/

/-- The statements of a text as it stands, of which there must be one. -/
def Statement.parseAsIs (t : Text) : Except ParseError (List Statement) :=
  match Statement.readAll t with
  | .ok [] => .error ParseCause.noStatements.error
  | r => r

theorem Statement.parse_of_isClean {t : Text} (hclean : isClean t = true)
    (hsolid : t.isAllBlank = false) : Statement.parse (.text t) = Statement.parseAsIs t := by
  rw [Statement.parse, hsolid, if_neg Bool.false_ne_true, cleaned_eq_self hclean]
  rfl

theorem extractTables_of_isClean {t : Text} (hclean : isClean t = true)
    (hsolid : t.isAllBlank = false) (o : ExtractorOptions) (l : Limits) :
    extractTables (.text t) o l = (do
      let statements ← .ofExcept .parse (Statement.parseAsIs t)
      .ofExcept .parse (l.checkTableCount (some statements.length))
      readTables o l [] statements) := by
  rw [extractTables, solid?_of_isAllBlank hsolid, Statement.parse_of_isClean hclean hsolid]
  rfl

/-- What passes the last check holds more than blanks. -/
theorem isAllBlank_of_checkForProcessing {t : Text} {l : Limits}
    (h : (checkForProcessing (.text t) l).outcome = .ok ()) : t.isAllBlank = false := by
  obtain ⟨_, hcheck, -⟩ := Report.bind_eq_ok h
  exact (checkText_eq_ok_iff.mp hcheck).solid

/-- The statements of a text as it stands are pieces of it, on the lines of their names. -/
theorem Statement.exists_of_parseAsIs {t : Text} {ss : List Statement}
    (h : Statement.parseAsIs t = .ok ss) : ∃ ps : List PlacedStatement,
      ps.map PlacedStatement.statement = ss ∧ ∀ p ∈ ps, p.StandsIn t := by
  have hread : Statement.readAll t = .ok ss := by
    unfold Statement.parseAsIs at h
    split at h
    · cases h
    · exact h
  obtain ⟨ps, hps, hmap⟩ := PlacedStatement.exists_of_readAll hread
  exact ⟨ps, hmap, fun p hp => PlacedStatement.standsIn_of_readAll hps hp⟩

example : sanitized "a\r\x00\nb".toList = "a\nb".toList ∧
    cleaned "a\r\x00\nb".toList = "a\n\nb".toList := by
  decide

end TableTypes
