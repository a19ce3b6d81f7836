import TableTypes.Proofs.Column.Searches

/-!
# Attributes with a literal among them

What stands inside quotes is blank to every search for keywords, and the quotes around it are
barriers.  So a search finds something among the attributes `a ++ q.enclose c ++ b` if and only if
it finds something in `a` or in `b` (`divides_literal`), whatever the content `c` is, and two
literals in the same place declare the same (`keywords_of_literal`).
-/

namespace TableTypes

open Text

/-! ### The mask of a literal -/

section

variable {q : Quote} {a c : Text} (ha : ∀ m ∈ (scan false a).getLast?, m.region = .code)
  (hescape : a.getLast? ≠ some '\\') (hquote : q.char ∉ c) (hplain : '\\' ∉ c) (b : Text)

include ha hescape

/-- A quote behind code opens a literal if no escape stands in front of it. -/
theorem Seals.of_quote : Seals false a (q.char :: b) where
  place := place_spotBehind ha
  escape := fun h => absurd h hescape
  comment := by
    have hq : q.char ≠ '-' ∧ q.char ≠ '*' := by cases q <;> decide
    simp [Spot.opensComment, hq.1, hq.2]

include hquote hplain

theorem maskQuoted_literal : maskQuoted (a ++ (q.enclose c ++ b)) =
    maskQuoted a ++ (q.enclose (List.replicate c.length ' ') ++ maskQuoted b) := by
  have hseals : Seals false a (q.enclose c ++ b) := Seals.of_quote ha hescape _
  rw [maskQuoted_append hseals, maskQuoted_enclose_append b hquote hplain]

/-- **A literal divides the attributes around it.** -/
theorem divides_literal : Divides (a ++ (q.enclose c ++ b)) a b := by
  intro ks f hf hstop
  have hword : isWord q.char = false := by cases q <;> rfl
  have hblank : isBlank q.char = false := by cases q <;> rfl
  -- Behind the first quote there are only blanks up to the second one, and no keyword among them.
  have hinside := hf.findWord_enclose_blank (q := q) c.length (maskQuoted b)
  rw [Quote.enclose, List.cons_append, hf.findWord_nonword hword] at hinside
  rw [maskQuoted_literal ha hescape hquote hplain, Quote.enclose, List.cons_append,
    hf.isSome_findWord_barrier hword (hstop _ hword hblank), hinside]

end

/-- **The content of a literal does not matter to the searches for keywords.**  The attributes
around it are in code where the literal begins; two contents of any lengths without the quote and
without a backslash give the same answers. -/
theorem keywords_of_literal (q : Quote) (a b c c' : Text)
    (ha : ∀ m ∈ (scan false a).getLast?, m.region = .code) (hescape : a.getLast? ≠ some '\\')
    (hc : q.char ∉ c ∧ '\\' ∉ c) (hc' : q.char ∉ c' ∧ '\\' ∉ c') :
    isNullable (a ++ (q.enclose c ++ b)) = isNullable (a ++ (q.enclose c' ++ b)) ∧
      (∀ kind ∈ [ColumnConstraintKind.primaryKey, .unique, .autoIncrement],
        (columnConstraints (a ++ (q.enclose c ++ b))).any (·.kind = kind) =
          (columnConstraints (a ++ (q.enclose c' ++ b))).any (·.kind = kind)) ∧
      (defaultValue? (a ++ (q.enclose c ++ b)) = none ↔
        defaultValue? (a ++ (q.enclose c' ++ b)) = none) := by
  have hdivides := divides_literal ha hescape hc.1 hc.2 b
  have hdivides' := divides_literal ha hescape hc'.1 hc'.2 b
  -- Neither formula mentions what is inside the quotes.
  have hphrase : ∀ ws ∈ attributePhrases, hasPhrase ws (maskQuoted (a ++ (q.enclose c ++ b))) =
      hasPhrase ws (maskQuoted (a ++ (q.enclose c' ++ b))) :=
    fun ws hws => (hdivides.hasPhrase hws).trans (hdivides'.hasPhrase hws).symm
  have hdefault := hdivides.isSome_defaultValue?.trans hdivides'.isSome_defaultValue?.symm
  refine ⟨isNullable_congr hphrase, fun kind hkind => declares_congr hphrase hkind, ?_⟩
  rw [← Option.not_isSome_iff_eq_none, ← Option.not_isSome_iff_eq_none, hdefault]

/-- A comment full of keywords declares what the empty comment in its place declares, and the
keywords around it count. -/
theorem keywords_of_literal_comment :
    let a := "UNIQUE COMMENT ".toList
    let b := " DEFAULT 'NOT NULL'".toList
    let c := "not null, \"primary key\" default 1".toList
    (∀ m ∈ (scan false a).getLast?, m.region = .code) ∧ a.getLast? ≠ some '\\' ∧
      (Quote.single.char ∉ c ∧ '\\' ∉ c) ∧
      isNullable (a ++ (Quote.single.enclose c ++ b)) = true ∧
      (∀ kind ∈ [ColumnConstraintKind.primaryKey, .unique, .autoIncrement],
        (columnConstraints (a ++ (Quote.single.enclose c ++ b))).any (·.kind = kind) =
          (columnConstraints "UNIQUE COMMENT '' DEFAULT 'NOT NULL'".toList).any (·.kind = kind)) ∧
      (defaultValue? (a ++ (Quote.single.enclose c ++ b)) = none ↔
        defaultValue? "UNIQUE COMMENT '' DEFAULT 'NOT NULL'".toList = none) := by
  have h := keywords_of_literal .single "UNIQUE COMMENT ".toList " DEFAULT 'NOT NULL'".toList
    "not null, \"primary key\" default 1".toList [] (by decide) (by decide) (by decide) (by decide)
  have hnullable : isNullable "UNIQUE COMMENT '' DEFAULT 'NOT NULL'".toList = true := by
    decide +kernel
  exact ⟨by decide, by decide, by decide, h.1.trans hnullable, h.2⟩

end TableTypes
