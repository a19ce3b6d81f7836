import TableTypes.Proofs.Column.Decoding
import TableTypes.Proofs.Column.Searches

/-!
# Words in the predicate of a check

The searches among the attributes do not stop at the parentheses of a check: its predicate declares
for the column what it would declare as attributes (`isNullable_check`, `declares_check`,
`isSome_defaultValue?_check`, `columnComment?_check`).  So a check leaves the rest of its column
alone if and only if its predicate, read as attributes, declares nothing
(`Column.agreesBesidesChecks_check_iff`).
-/

namespace TableTypes

open Text

variable {α : Type} {a p z : Text} {ks : List Text} {f : Text → Option α}

/-! ### Behind the attributes -/

/-- A text that declares nothing where it stands behind a parenthesis. -/
structure IsSilent (z : Text) : Prop where
  phrases : ∀ ws ∈ attributePhrases, hasPhrase ws (maskQuoted z) = false
  reference : findWord ReferenceSpan.read? (maskQuoted z) = none
  check : findWord checkWord? (maskQuoted z) = none
  comment : findWord commentLiteral? z = none
  paren : ')' ∉ z
  quotes : '\'' ∉ z ∧ '"' ∉ z

theorem IsSilent.nil : IsSilent [] where
  phrases := by decide
  reference := ReferenceSpan.opens_read?.findWord_nil
  check := opens_checkWord?.findWord_nil
  comment := opens_commentLiteral?.findWord_nil
  paren := List.not_mem_nil
  quotes := ⟨List.not_mem_nil, List.not_mem_nil⟩

/-! ### The word and the parenthesis -/

/-- A check as it is written. -/
def checkClause (p : Text) : Text :=
  "CHECK (".toList ++ (p ++ [')'])

theorem checkClause_append (p z : Text) :
    checkClause p ++ z = ("CHECK (".toList ++ p) ++ ')' :: z := by
  unfold checkClause
  generalize "CHECK (".toList = w
  simp only [List.append_assoc, List.singleton_append]

/-- A search for another keyword passes over what stands in front of the predicate. -/
theorem Text.Opens.findWord_checkOpening (hf : Opens ks f) (hcheck : "check".toList ∉ ks)
    (t : Text) :
    findWord f ("CHECK (".toList ++ t) = findWord f t := by
  have hword : "CHECK".toList.map Char.toLower ∉ ks := hcheck
  show findWord f ("CHECK".toList ++ (' ' :: '(' :: t)) = _
  rw [hf.findWord_upper rfl hword rfl, hf.findWord_nonword rfl, hf.findWord_nonword (by decide)]

theorem divides_checkOpening (p : Text) : Divides ("CHECK (".toList ++ p) "CHECK ".toList p := by
  have hplace : (spotBehind false "CHECK ".toList).place = .code := by decide
  -- The parenthesis is the barrier: no phrase begins with `CHECK` and goes on in the predicate.
  have hsplit : "CHECK (".toList ++ p = "CHECK ".toList ++ '(' :: p := rfl
  rw [hsplit]
  exact divides_barrier hplace (by decide) (by decide) (by decide) (by decide) p

/-- The word and the parenthesis in front of a predicate are those of a check. -/
theorem checkWord?_checkOpening (t : Text) :
    checkWord? ("CHECK (".toList ++ t) = some ('(' :: t) := by
  have hword : keyword? "check".toList ("CHECK (".toList ++ t) = some (' ' :: '(' :: t) := rfl
  rw [checkWord?, hword]
  rfl

/-! ### What a check declares -/

section

variable (hp : IsBare p) (hz : IsSilent z)

include hp

theorem place_checkOpening : (spotBehind false ("CHECK (".toList ++ p)).place = .code := by
  by_cases hne : p = []
  · subst hne
    decide
  · -- The predicate is scanned alike behind the parenthesis, one level deeper.
    rw [spotBehind_append (Seals.of_plain rfl) hne, Spot.lift, hp.place_false]

theorem divides_check (z : Text) : Divides (checkClause p ++ z) ("CHECK (".toList ++ p) z := by
  rw [checkClause_append]
  exact divides_barrier (place_checkOpening hp) (by decide) (by decide) (by decide) (by decide) z

theorem maskQuoted_check (z : Text) : maskQuoted (checkClause p ++ z) =
    "CHECK (".toList ++ (maskQuoted p ++ ')' :: maskQuoted z) := by
  rw [checkClause_append, maskQuoted_barrier (place_checkOpening hp) (by decide) (by decide),
    maskQuoted_plain_append p rfl, List.append_assoc]

include hz

/-- A phrase in the predicate is found as one of the attributes. -/
theorem hasPhrase_check {ws : List Text} (hws : ws ∈ attributePhrases) :
    hasPhrase ws (maskQuoted (checkClause p ++ z)) = hasPhrase ws (maskQuoted p) := by
  have hword : ∀ ws ∈ attributePhrases, hasPhrase ws (maskQuoted "CHECK ".toList) = false := by
    decide
  rw [(divides_check hp z).hasPhrase hws, (divides_checkOpening p).hasPhrase hws, hword ws hws,
    hz.phrases ws hws, Bool.false_or, Bool.or_false]

/-- A reference in the predicate is read as one of the attributes. -/
theorem references?_check : references? (checkClause p ++ z) = references? p := by
  rw [checkClause_append, List.append_assoc, references?_plain_append rfl
    (ReferenceSpan.opens_read?.findWord_checkOpening (by decide) _),
    references?_append hp hz.reference]

omit hp in
/-- A comment is read from the predicate, quoted or not. -/
theorem columnComment?_check : columnComment? (checkClause p ++ z) = columnComment? p := by
  rw [checkClause_append, columnComment?_append (by decide) (by decide) (by decide) hz.quotes
    hz.comment, columnComment?_eq, columnComment?_eq,
    opens_commentLiteral?.findWord_checkOpening (by decide)]

omit hz in
/-- The predicate itself is the first one that is read. -/
theorem checkPredicate?_check (z : Text) : checkPredicate? (checkClause p ++ z) =
    if (strip p).isEmpty then none else some (strip p) := by
  have hsplit : checkClause p ++ z = "CHECK ".toList ++ '(' :: (p ++ ')' :: z) := by
    rw [checkClause_append, List.append_assoc]
    rfl
  have hfind : findWord checkWord? (maskQuoted (checkClause p ++ z)) =
      some ('(' :: (maskQuoted p ++ ')' :: maskQuoted z)) := by
    rw [maskQuoted_check hp]
    exact findWord_of_eq_some (checkWord?_checkOpening _)
  have hlength : ('(' :: (maskQuoted p ++ ')' :: maskQuoted z)).length =
      ('(' :: (p ++ ')' :: z)).length := by
    simp only [List.length_cons, List.length_append, length_maskQuoted]
  rw [checkPredicate?_eq, hfind, Option.bind_some, hsplit, suffixLike_append _ _ hlength,
    predicateOf_paren hp.enclosed]

omit hz in
theorem isSome_defaultValue?_check :
    (defaultValue? (checkClause p)).isSome = (defaultValue? p).isSome := by
  have hword : (defaultValue? "CHECK ".toList).isSome = false := by decide
  have hdivides := (divides_check hp []).isSome_defaultValue?
  rw [List.append_nil, (divides_checkOpening p).isSome_defaultValue?, hword,
    Bool.false_or] at hdivides
  exact hdivides.trans (Bool.or_false _)

end

section

variable (hp : IsBare p) (hz : IsSilent z)

include hp hz

theorem isNullable_check : isNullable (checkClause p ++ z) = isNullable p :=
  isNullable_congr fun _ => hasPhrase_check hp hz

/-- A constraint of another kind in the predicate is one of the column. -/
theorem declares_check {kind : ColumnConstraintKind} (hkind : kind ≠ .check) :
    declares (checkClause p ++ z) kind = declares p kind := by
  cases kind with
  | check => exact absurd rfl hkind
  | foreignKey =>
    have hreference := congrArg Option.isSome (references?_check hp hz)
    exact (declares_eq (checkClause p ++ z) .foreignKey).trans
      (hreference.trans (declares_eq p .foreignKey).symm)
  | _ => exact declares_congr (fun _ => hasPhrase_check hp hz) (by decide)

end

/-! ### Columns with a check -/

/-- The columns declare the same but for their checks. -/
structure Column.AgreesBesidesChecks (c d : Column) : Prop where
  nullable : c.nullable = d.nullable
  default : c.default = d.default
  comment : c.comment = d.comment
  kinds : ∀ kind, kind ≠ .check → c.has kind = d.has kind

/-- The attributes declare nothing but checks. -/
structure DeclaresNothing (a : Text) : Prop where
  nullable : isNullable a = true
  default : defaultValue? a = none
  comment : columnComment? a = none
  kinds : ∀ kind, kind ≠ .check → declares a kind = false

theorem DeclaresNothing.nil : DeclaresNothing [] :=
  ⟨by decide, by decide, by decide, fun kind _ => by cases kind <;> decide⟩

theorem ColumnDefinition.agreesBesidesChecks_iff (name type a b : Text) :
    (column ⟨name, type, a⟩).AgreesBesidesChecks (column ⟨name, type, b⟩) ↔
      isNullable a = isNullable b ∧ defaultValue? a = defaultValue? b ∧
        columnComment? a = columnComment? b ∧
          ∀ kind, kind ≠ .check → declares a kind = declares b kind :=
  ⟨fun ⟨h₁, h₂, h₃, h₄⟩ => ⟨h₁, h₂, h₃, h₄⟩, fun ⟨h₁, h₂, h₃, h₄⟩ => ⟨h₁, h₂, h₃, h₄⟩⟩

theorem ColumnDefinition.agreesBesidesChecks_check (hp : IsBare p) (name type : Text) :
    (column ⟨name, type, checkClause p⟩).AgreesBesidesChecks (column ⟨name, type, []⟩) ↔
      DeclaresNothing p := by
  have hnullable : isNullable (checkClause p) = isNullable p := by
    rw [← isNullable_check hp .nil, List.append_nil]
  have hcomment : columnComment? (checkClause p) = columnComment? p := by
    have h := columnComment?_check (p := p) .nil
    rwa [List.append_nil] at h
  have hkinds : ∀ kind, kind ≠ .check → declares (checkClause p) kind = declares p kind := by
    intro kind hkind
    rw [← declares_check hp .nil hkind, List.append_nil]
  have hdefault : defaultValue? (checkClause p) = none ↔ defaultValue? p = none := by
    rw [← Option.not_isSome_iff_eq_none, ← Option.not_isSome_iff_eq_none,
      isSome_defaultValue?_check hp]
  -- The column without attributes is what `DeclaresNothing` says, field by field.
  obtain ⟨hnullable₀, hdefault₀, hcomment₀, hkinds₀⟩ := DeclaresNothing.nil
  rw [agreesBesidesChecks_iff, hnullable, hcomment, hnullable₀, hdefault₀, hcomment₀, hdefault]
  constructor
  · rintro ⟨h₁, h₂, h₃, h₄⟩
    exact ⟨h₁, h₂, h₃, fun kind hkind =>
      (hkinds kind hkind).symm.trans ((h₄ kind hkind).trans (hkinds₀ kind hkind))⟩
  · rintro ⟨h₁, h₂, h₃, h₄⟩
    exact ⟨h₁, h₂, h₃, fun kind hkind =>
      (hkinds kind hkind).trans ((h₄ kind hkind).trans (hkinds₀ kind hkind).symm)⟩

theorem endsType_check (p z : Text) : EndsType (' ' :: (checkClause p ++ z)) :=
  ⟨rfl, rfl, rfl, rfl, rfl, rfl⟩

theorem getLast?_checkClause (p : Text) : (checkClause p).getLast? = some ')' := by
  unfold checkClause
  generalize "CHECK (".toList = w
  rw [List.getLast?_append, List.getLast?_concat]
  rfl

/-- **A check leaves the rest of its column alone if and only if its predicate, read as attributes,
declares nothing.**  The predicate itself is always read. -/
theorem Column.agreesBesidesChecks_check_iff (n : Bareword tableLevelWords) (t : TypeText)
    (p : Text) (hp : IsBare p) (hsolid : p.isAllBlank = false) (line : Option Nat) :
    ∃ c c₀, Column.parse (.text (columnText n t (checkClause p))) line = .ok c ∧
      Column.parse (.text (n.text ++ ' ' :: t.text)) line = .ok c₀ ∧
      ⟨.check, some (strip p)⟩ ∈ c.constraints ∧
      (c.AgreesBesidesChecks c₀ ↔ DeclaresNothing p) := by
  have hends : EndsType (' ' :: checkClause p) :=
    List.append_nil (checkClause p) ▸ endsType_check p []
  have hread : checkPredicate? (checkClause p) = some (strip p) := by
    have h := checkPredicate?_check hp []
    rwa [List.append_nil, strip_isEmpty hsolid] at h
  refine ⟨_, _, Column.parse_columnText n t hends ?_ ⟨')', getLast?_checkClause p, rfl⟩ line,
    Column.parse_bare n t line, ?_, ColumnDefinition.agreesBesidesChecks_check hp _ _⟩
  · intro c hc
    obtain rfl : 'C' = c := Option.some.inj hc
    rfl
  · exact mem_columnConstraints.mpr (.inr (.inr (.inr (.inr ⟨_, hread, rfl⟩))))

/-- The words of this predicate are no attributes, so the column is the one without the check. -/
theorem Column.agreesBesidesChecks_check_range :
    IsBare "c <> ')' AND (c > 0)".toList ∧ isAllBlank "c <> ')' AND (c > 0)".toList = false ∧
      ∃ c c₀, Column.parse (.text "c INT CHECK (c <> ')' AND (c > 0))".toList) none = .ok c ∧
        Column.parse (.text "c INT".toList) none = .ok c₀ ∧
        ⟨.check, some "c <> ')' AND (c > 0)".toList⟩ ∈ c.constraints ∧
        c.AgreesBesidesChecks c₀ := by
  have hbare : IsBare "c <> ')' AND (c > 0)".toList :=
    isBare_iff.mpr ⟨by decide +kernel, by decide +kernel⟩
  have hnothing : DeclaresNothing "c <> ')' AND (c > 0)".toList :=
    ⟨by decide +kernel, by decide +kernel, by decide +kernel,
      fun kind hkind => by cases kind <;> first | exact absurd rfl hkind | decide +kernel⟩
  obtain ⟨c, c₀, hc, hc₀, hcheck, hagree⟩ := Column.agreesBesidesChecks_check_iff
    ⟨"c".toList, by decide, rfl, by decide⟩ ⟨"INT".toList, by decide, rfl, .none⟩
    "c <> ')' AND (c > 0)".toList hbare (by decide) none
  exact ⟨hbare, by decide, c, c₀, hc, hc₀, hcheck, hagree.mpr hnothing⟩

/-- A `NOT NULL` in the predicate is read as one of the column, and a comment even out of a literal
in the predicate. -/
theorem Column.not_agreesBesidesChecks_check :
    (IsBare "c IS NOT NULL".toList ∧ ∃ c c₀,
      Column.parse (.text "c INT CHECK (c IS NOT NULL)".toList) none = .ok c ∧
        Column.parse (.text "c INT".toList) none = .ok c₀ ∧
          c.nullable = false ∧ c₀.nullable = true) ∧
      IsBare "c <> 'COMMENT \"x\"'".toList ∧ ∃ c c₀,
        Column.parse (.text "c INT CHECK (c <> 'COMMENT \"x\"')".toList) none = .ok c ∧
          Column.parse (.text "c INT".toList) none = .ok c₀ ∧
            c.comment = some "x".toList ∧ c₀.comment = none :=
  ⟨⟨isBare_iff.mpr ⟨by decide +kernel, by decide +kernel⟩,
      ⟨"c".toList, "INT".toList, false, none, [⟨.check, some "c IS NOT NULL".toList⟩], none⟩,
      ⟨"c".toList, "INT".toList, true, none, [], none⟩,
      by decide +kernel, by decide +kernel, rfl, rfl⟩,
    isBare_iff.mpr ⟨by decide +kernel, by decide +kernel⟩,
    ⟨"c".toList, "INT".toList, true, none, [⟨.check, some "c <> 'COMMENT \"x\"'".toList⟩],
      some "x".toList⟩,
    ⟨"c".toList, "INT".toList, true, none, [], none⟩,
    by decide +kernel, by decide +kernel, rfl, rfl⟩

end TableTypes
