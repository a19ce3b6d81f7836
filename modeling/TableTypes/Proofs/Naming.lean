import TableTypes.Proofs.Naming.Identifier
import TableTypes.Proofs.Text.Case
import TableTypes.Proofs.Text.Replace

/-!
# Names of declarations and properties

The name of a declaration is an identifier.  The name of a property is an identifier or stands in
quotes, and no naming convention writes a mark, such as a newline or a star, that is not in the name
of the column (`not_mem_propertyName`).
-/

namespace TableTypes

open Text

/-! ### Identifiers -/

theorem isIdentifierChar_of_mem_toIdentifier {name : Text} {c : Char}
    (h : c ∈ toIdentifier name) : isIdentifierChar c = true :=
  isIdentifierChar_iff.mpr ((identifierName_toIdentifier name).part h)

/-- A name that can stand unquoted is made of the characters of an identifier, but for a newline at
its end. -/
theorem isIdentifierChar_of_isPlainName {name : Text} (h : isPlainName name = true) {c : Char}
    (hc : c ∈ name) : isIdentifierChar c = true ∨ c = '\n' := by
  rw [isIdentifierChar_iff]
  obtain hname | ⟨u, hu, rfl⟩ := isPlainName_iff.mp h
  · exact Or.inl (hname.part hc)
  · exact (List.mem_append.mp hc).imp hu.part List.mem_singleton.mp

/-- The name of a property begins like an identifier or with a quote. -/
theorem exists_propertyName (o : GeneratorOptions) (column : Text) : ∃ c t,
    o.propertyName column = c :: t ∧ (isIdentifierStart c = true ∨ c = '\'') := by
  rw [GeneratorOptions.propertyName]
  split_ifs with hplain
  · obtain ⟨c, t, hname, hc, -⟩ | ⟨u, ⟨c, t, rfl, hc, -⟩, hname⟩ := isPlainName_iff.mp hplain
    · exact ⟨c, t, hname, Or.inl (isIdentifierStart_iff.mpr hc)⟩
    · exact ⟨c, t ++ ['\n'], hname, Or.inl (isIdentifierStart_iff.mpr hc)⟩
  · exact ⟨'\'', _, rfl, Or.inr rfl⟩

/-! ### Marks -/

variable {x : Char} {name : Text}

section

variable (hx : isCaseless x = true)
include hx

theorem not_mem_joinParts (h : x ∉ name) : ∀ raised : Bool, x ∉ joinParts raised name := by
  induction name with
  | nil => exact fun _ => List.not_mem_nil
  | cons c t ih =>
    rw [List.mem_cons, not_or] at h
    intro raised
    rw [joinParts]
    split_ifs
    · exact ih h.2 true
    · rw [List.mem_append, mem_upperChar hx, not_or]
      exact ⟨Ne.symm h.1, ih h.2 false⟩
    · rw [List.mem_append, List.mem_singleton, not_or]
      exact ⟨h.1, ih h.2 false⟩

theorem not_mem_lowerFirst (h : x ∉ name) : x ∉ lowerFirst name := by
  cases name with
  | nil => exact List.not_mem_nil
  | cons c t =>
    rw [List.mem_cons, not_or] at h
    rw [lowerFirst, List.mem_append, not_or]
    refine ⟨?_, h.2⟩
    split_ifs
    · exact mt List.mem_singleton.mp h.1
    · exact mt (mem_lowerChar hx).mp (Ne.symm h.1)

theorem not_mem_raiseFirst (h : x ∉ name) : x ∉ raiseFirst name := by
  cases name with
  | nil => exact List.not_mem_nil
  | cons c t =>
    rw [List.mem_cons, not_or] at h
    rw [raiseFirst, List.mem_append, not_or]
    refine ⟨?_, h.2⟩
    split_ifs
    · exact mt List.mem_singleton.mp h.1
    · exact mt (mem_upperChar hx).mp (Ne.symm h.1)

end

theorem not_mem_spaceOut (hspace : x ≠ ' ') (h : x ∉ name) : x ∉ spaceOut name := by
  have hnot : x ∉ [' '] := mt List.mem_singleton.mp hspace
  fun_induction spaceOut name with
  | case1 => exact List.not_mem_nil
  | case2 c hc => exact h
  | case3 c hc => exact hnot
  | case4 c d t hc ih =>
    rw [List.mem_cons, not_or] at h ⊢
    exact ⟨h.1, ih h.2⟩
  | case5 c d t hc hd ih =>
    rw [List.mem_cons, not_or] at h ⊢
    exact ⟨hspace, ih h.2⟩
  | case6 c d t hc hd ih => exact ih fun hmem => h (List.mem_cons_of_mem c hmem)

theorem humps_ne_nil (before : Option Char) (name : Text) : humps before name ≠ [] := by
  cases name with
  | nil => exact List.cons_ne_nil _ _
  | cons c t =>
    rw [humps]
    split_ifs
    · exact List.cons_ne_nil _ _
    · exact List.cons_ne_nil _ _
    · split <;> exact List.cons_ne_nil _ _

/-- The words are all of the text but its spaces. -/
theorem flatten_humps (before : Option Char) (name : Text) :
    (humps before name).flatten = name.filter (· ≠ ' ') := by
  induction name generalizing before with
  | nil => rfl
  | cons c t ih =>
    have hrest := ih (some c)
    obtain ⟨v, vs, hvs⟩ := List.exists_cons_of_ne_nil (humps_ne_nil (some c) t)
    rw [humps]
    by_cases hc : c = ' '
    · rw [if_pos hc, List.filter_cons_of_neg (by simp [hc]), List.flatten_cons, hrest]
      rfl
    · rw [if_neg hc, List.filter_cons_of_pos (by simp [hc]), ← hrest, hvs]
      split_ifs <;> rfl

theorem mem_of_mem_humps {before : Option Char} {w : Text} (hw : w ∈ humps before name)
    (hx : x ∈ w) : x ∈ name ∧ x ≠ ' ' := by
  have hmem := List.mem_flatten_of_mem hw hx
  rwa [flatten_humps, List.mem_filter, decide_eq_true_eq] at hmem

theorem not_mem_toSnakeCase (hx : isCaseless x = true) (hspace : x ≠ ' ') (hjoin : x ≠ '_')
    (h : x ∉ name) : x ∉ toSnakeCase name := by
  intro hmem
  rcases mem_of_mem_join hmem with hmem | ⟨p, hp, hmem⟩
  · exact hjoin (List.mem_singleton.mp hmem)
  · obtain ⟨w, hw, rfl⟩ := List.mem_map.mp hp
    exact not_mem_spaceOut hspace h (mem_of_mem_humps hw ((mem_lower hx).mp hmem)).1

theorem not_mem_quoteName (hslash : x ≠ '\\') (hquote : x ≠ '\'') (h : x ∉ name) :
    x ∉ quoteName name := by
  have hnot : x ∉ ['\''] := mt List.mem_singleton.mp hquote
  rw [quoteName, List.mem_append, List.mem_append, not_or, not_or]
  refine ⟨⟨hnot, fun hmem => ?_⟩, hnot⟩
  rcases mem_replaceAll (takesPiece_after? (List.cons_ne_nil _ _)) hmem with hmem | hmem
  · simp [hslash, hquote] at hmem
  · rcases mem_replaceAll (takesPiece_after? (List.cons_ne_nil _ _)) hmem with hmem | hmem
    · simp [hslash] at hmem
    · exact h hmem

/-- A mark: a character without a case that no naming convention writes and no quoting either. -/
def isMark (x : Char) : Bool :=
  isCaseless x && x ≠ ' ' && x ≠ '_' && x ≠ '\\' && x ≠ '\''

theorem not_mem_apply (hx : isCaseless x = true) (hspace : x ≠ ' ') (hjoin : x ≠ '_')
    (h : x ∉ name) (naming : Naming) : x ∉ naming.apply name := by
  cases naming with
  | camelCase => exact not_mem_lowerFirst hx (not_mem_joinParts hx h false)
  | pascalCase => exact not_mem_raiseFirst hx (not_mem_joinParts hx h false)
  | snakeCase => exact not_mem_toSnakeCase hx hspace hjoin h
  | preserve => exact h

/-- **A mark that is not in the name of a column is not in the name of its property.** -/
theorem not_mem_propertyName (hx : isMark x = true) (h : x ∉ name) (o : GeneratorOptions) :
    x ∉ o.propertyName name := by
  simp only [isMark, Bool.and_eq_true, decide_eq_true_eq] at hx
  obtain ⟨⟨⟨⟨hx, hspace⟩, hjoin⟩, hslash⟩, hquote⟩ := hx
  have happly := not_mem_apply hx hspace hjoin h o.naming
  rw [GeneratorOptions.propertyName]
  split_ifs
  · exact happly
  · exact not_mem_quoteName hslash hquote happly

end TableTypes
