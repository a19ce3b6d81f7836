import TableTypes.Proofs.Report
import TableTypes.Proofs.Text.Blank
import TableTypes.Proofs.Text.Clean
import TableTypes.Gate

/-!
# What the gate accepts

`Passes` lists what a text has to be like to pass the checks, and `checkText` reports nothing of
exactly these texts (`checkText_eq_pure_iff`).  What an input is accepted as is its text, which
passes the checks, without control characters and without the blanks around it
(`acceptInput_eq_ok_iff`).
-/

namespace TableTypes

open Text

/-! ### The checks -/

/-- What the checks ask of a text. -/
structure Passes (t : Text) (l : Limits) : Prop where
  solid : t.isAllBlank = false
  short : t.length ≤ l.maxSqlLength
  safe : isDangerous t = false
  wellFormed : isMalformed t = false
  matched : hasUnmatchedDelimiters t = false
  harmless : findInjection t = some none
  controls : exceedsOnePercent isControl t = false

variable {t r : Text} {l : Limits}

theorem textError?_eq_none_iff : textError? t l = none ↔
    t.isAllBlank = false ∧ t.length ≤ l.maxSqlLength ∧ isDangerous t = false ∧
      isMalformed t = false ∧ hasUnmatchedDelimiters t = false := by
  unfold textError?
  split_ifs with hblank hlong hsafe hformed hmatched
  · simp [hblank]
  · simp [Nat.not_le.mpr hlong]
  · simp [hsafe]
  · simp [hformed]
  · simp [hmatched]
  · simp_all

/-- **The checks report nothing of a text that passes**, and a warning or a fault of every other. -/
theorem checkText_eq_pure_iff : checkText t l = pure () ↔ Passes t l := by
  constructor
  · intro h
    rw [checkText] at h
    split at h
    · cases h
    · rename_i herror
      obtain ⟨hsolid, hshort, hsafe, hformed, hmatched⟩ := textError?_eq_none_iff.mp herror
      split at h
      · cases h
      · cases h
      · rename_i hharmless
        split at h
        · cases h
        · rename_i hcontrols
          exact ⟨hsolid, hshort, hsafe, hformed, hmatched, hharmless,
            Bool.eq_false_iff.mpr hcontrols⟩
  · intro h
    have herror : textError? t l = none :=
      textError?_eq_none_iff.mpr ⟨h.solid, h.short, h.safe, h.wellFormed, h.matched⟩
    rw [checkText, herror]
    simp only [h.harmless, h.controls]
    rfl

/-- A warning comes with a fault only, so a check without a fault reports nothing at all. -/
theorem checkText_eq_pure_of_ok (h : (checkText t l).outcome = .ok ()) :
    checkText t l = pure () := by
  rw [checkText] at h ⊢
  split at h
  · cases h
  · split at h
    · cases h
    · cases h
    · split at h
      · cases h
      · rename_i hcontrols
        rw [if_neg hcontrols]

theorem checkText_eq_ok_iff : (checkText t l).outcome = .ok () ↔ Passes t l := by
  refine ⟨fun h => checkText_eq_pure_iff.mp (checkText_eq_pure_of_ok h), fun h => ?_⟩
  rw [checkText_eq_pure_iff.mpr h]
  rfl

/-! ### Accepted input -/

theorem acceptInput_eq_ok_iff {input : Source} : (acceptInput input l).outcome = .ok r ↔
    ∃ t, inputText input l = .ok t ∧ Passes t l ∧ r = sanitized t := by
  constructor
  · intro h
    obtain ⟨t, ht, h⟩ := Report.bind_eq_ok h
    obtain ⟨_, hcheck, h⟩ := Report.bind_eq_ok h
    exact ⟨t, Report.ofExcept_eq_ok ht, checkText_eq_ok_iff.mp hcheck, (Except.ok.inj h).symm⟩
  · rintro ⟨t, ht, hpasses, rfl⟩
    rw [acceptInput, ht, Report.ofExcept_ok, Report.pure_bind, checkText_eq_pure_iff.mpr hpasses]
    rfl

/-- What is accepted is accepted without a warning. -/
theorem acceptInput_eq_pure {input : Source} (h : (acceptInput input l).outcome = .ok r) :
    acceptInput input l = pure r := by
  obtain ⟨t, ht, hpasses, rfl⟩ := acceptInput_eq_ok_iff.mp h
  rw [acceptInput, ht, Report.ofExcept_ok, Report.pure_bind, checkText_eq_pure_iff.mpr hpasses]
  rfl

theorem checkForProcessing_eq_pure (h : (checkForProcessing (.text t) l).outcome = .ok ()) :
    checkForProcessing (.text t) l = pure () := by
  obtain ⟨_, hcheck, h⟩ := Report.bind_eq_ok h
  obtain ⟨_, htables, h⟩ := Report.bind_eq_ok h
  simp only [checkForProcessing, checkSql, checkText_eq_pure_of_ok hcheck,
    Report.ofExcept_eq_ok htables, Report.ofExcept_eq_ok h, Report.ofExcept_ok, Report.pure_bind]

/-! ### Sanitized texts -/

theorem isClean_sanitized (t : Text) : isClean (sanitized t) = true := by
  rw [isClean, List.all_eq_true]
  intro c hc
  have hmem : c ∈ unifyNewlines (dropControls t) := by
    have hsubset := (Inset.ofText (unifyNewlines (dropControls t))).inner_subset
    rw [Inset.text_ofText] at hsubset
    exact hsubset hc
  have hreturn : c ≠ '\r' := fun h => not_mem_unifyNewlines _ (h ▸ hmem)
  have hcontrol : isControl c = false := by
    rcases mem_of_mem_unifyNewlines hmem with h | rfl
    · simpa using (List.mem_filter.mp h).2
    · rfl
  simp [hcontrol, hreturn]

/-- A text without control characters stays blank or solid. -/
theorem isAllBlank_sanitized {t : Text} (ht : ∀ c ∈ t, isControl c = false) :
    isAllBlank (sanitized t) = isAllBlank t := by
  rw [sanitized, dropControls_eq_self ht, isAllBlank_strip, isAllBlank_unifyNewlines]

theorem length_sanitized_le (t : Text) : (sanitized t).length ≤ t.length := by
  have hstrip := (Inset.ofText (unifyNewlines (dropControls t))).length_text
  rw [Inset.text_ofText, Inset.inner_ofText] at hstrip
  have hunify := length_unifyNewlines_le (dropControls t)
  have hdrop : (dropControls t).length ≤ t.length := List.length_filter_le _ t
  rw [sanitized]
  omega

end TableTypes
