import TableTypes.Declaration
import TableTypes.Proofs.Text.Blank

/-!
# The grammar of identifiers

An identifier is a letter of ASCII, an underscore or a dollar sign, followed by more of these and by
digits (`IdentifierName`).  `isIdentifier` decides the grammar, and `isPlainName`, which tells the
names that stand unquoted, accepts one text more for each identifier: the one with a newline behind
it (`isPlainName_iff_grammar`).

What `toIdentifier` makes of a name is in the grammar, and a name that is in it already stays as it
is, so that making it an identifier twice is making it one once (`toIdentifier_toIdentifier`).
-/

namespace TableTypes

open Text

/-! ### The grammar -/

/-- A character that an identifier begins with. -/
def IdentifierStart (c : Char) : Prop :=
  ('a' ≤ c ∧ c ≤ 'z') ∨ ('A' ≤ c ∧ c ≤ 'Z') ∨ c = '_' ∨ c = '$'

/-- A character that an identifier goes on with. -/
def IdentifierPart (c : Char) : Prop :=
  IdentifierStart c ∨ ('0' ≤ c ∧ c ≤ '9')

/-- The texts that are identifiers. -/
def IdentifierName (t : Text) : Prop :=
  ∃ c u, t = c :: u ∧ IdentifierStart c ∧ ∀ d ∈ u, IdentifierPart d

variable {c : Char} {name t : Text}

theorem isIdentifierStart_iff : isIdentifierStart c = true ↔ IdentifierStart c := by
  simp [isIdentifierStart, isAsciiLetter, IdentifierStart, or_assoc]

theorem isIdentifierChar_iff : isIdentifierChar c = true ↔ IdentifierPart c := by
  simp [isIdentifierChar, isIdentifierStart_iff, isAsciiDigit, IdentifierPart]

theorem isIdentifier_iff : isIdentifier t = true ↔ IdentifierName t := by
  cases t with
  | nil => simp [isIdentifier, IdentifierName]
  | cons c u =>
    simp [isIdentifier, IdentifierName, isIdentifierStart_iff, isIdentifierChar_iff]

instance (c : Char) : Decidable (IdentifierStart c) :=
  decidable_of_iff (isIdentifierStart c = true) isIdentifierStart_iff

instance (t : Text) : Decidable (IdentifierName t) :=
  decidable_of_iff (isIdentifier t = true) isIdentifier_iff

theorem IdentifierName.ne_nil (h : IdentifierName t) : t ≠ [] := by
  obtain ⟨c, u, rfl, -⟩ := h
  exact List.cons_ne_nil c u

theorem IdentifierName.part (h : IdentifierName t) (hc : c ∈ t) : IdentifierPart c := by
  obtain ⟨d, u, rfl, hd, hu⟩ := h
  rcases List.mem_cons.mp hc with rfl | hc
  · exact Or.inl hd
  · exact hu c hc

theorem IdentifierPart.ne {d : Char} (hc : IdentifierPart c) (hd : isIdentifierChar d = false) :
    c ≠ d := by
  rintro rfl
  rw [isIdentifierChar_iff.mpr hc] at hd
  cases hd

theorem IdentifierPart.isBlank (hc : IdentifierPart c) : isBlank c = false :=
  isBlank_eq_false_of (p := isIdentifierChar) (fun _ => eq_false_of_isBlank (by decide +kernel))
    (isIdentifierChar_iff.mpr hc)

/-! ### Names that stand unquoted -/

/-- An identifier with a newline behind it. -/
def IdentifierLine (t : Text) : Prop :=
  ∃ u, IdentifierName u ∧ t = u ++ ['\n']

theorem isPlainName_iff : isPlainName name = true ↔ IdentifierName name ∨ IdentifierLine name := by
  have hline : name.getLast? = some '\n' ∧ isIdentifier name.dropLast = true ↔
      IdentifierLine name := by
    constructor
    · rintro ⟨hlast, hname⟩
      exact ⟨name.dropLast, isIdentifier_iff.mp hname, (List.dropLast_append_getLast? _ hlast).symm⟩
    · rintro ⟨u, hu, rfl⟩
      rw [List.getLast?_concat, List.dropLast_concat]
      exact ⟨rfl, isIdentifier_iff.mpr hu⟩
  simp only [isPlainName, Bool.or_eq_true, Bool.and_eq_true, decide_eq_true_eq, isIdentifier_iff,
    ← hline]

theorem IdentifierLine.newline_mem (h : IdentifierLine t) : '\n' ∈ t := by
  obtain ⟨u, -, rfl⟩ := h
  simp

theorem IdentifierName.not_line (h : IdentifierName t) : ¬IdentifierLine t :=
  fun hline => (h.part hline.newline_mem).ne (by decide) rfl

/-- Whether a key is written in quotes. -/
def IsQuotedKey (key : Text) : Prop :=
  key.head? = some '\''

theorem isQuotedKey_quoteName (name : Text) : IsQuotedKey (quoteName name) := rfl

theorem IdentifierName.not_isQuotedKey (h : IdentifierName t) (u : Text) :
    ¬IsQuotedKey (t ++ u) := by
  obtain ⟨c, v, rfl, hc, -⟩ := h
  intro hquote
  exact IdentifierPart.ne (Or.inl hc) (by decide) (Option.some.inj hquote)

/-- **The names that stand unquoted.**  The test accepts the identifiers and the identifiers with a
newline behind them, so that it decides the grammar for every name but the latter.  The key of a
column stands unquoted though there is something in it that belongs to no identifier exactly if the
converted name is such a line. -/
theorem isPlainName_iff_grammar (name : Text) :
    (isPlainName name = true ↔ IdentifierName name ∨ IdentifierLine name) ∧
    ((isPlainName name = true ↔ IdentifierName name) ↔ ¬IdentifierLine name) ∧
    ∀ (o : GeneratorOptions) (column : Text),
      ((¬IsQuotedKey (o.propertyName column) ∧ ∃ c ∈ o.propertyName column, ¬IdentifierPart c) ↔
        IdentifierLine (o.naming.apply column)) := by
  refine ⟨isPlainName_iff, ?_, fun o column => ?_⟩
  · rw [isPlainName_iff]
    constructor
    · exact fun h hline => (h.mp (Or.inr hline)).not_line hline
    · exact fun h => or_iff_left h
  · rw [GeneratorOptions.propertyName]
    split_ifs with hplain
    · rw [isPlainName_iff] at hplain
      constructor
      · rintro ⟨-, c, hc, hpart⟩
        exact hplain.resolve_left fun hname => hpart (hname.part hc)
      · intro hline
        refine ⟨?_, '\n', hline.newline_mem, fun hpart => hpart.ne (by decide) rfl⟩
        obtain ⟨u, hu, hname⟩ := hline
        rw [hname]
        exact hu.not_isQuotedKey _
    · refine iff_of_false (fun h => h.1 (isQuotedKey_quoteName _)) fun hline => hplain ?_
      exact isPlainName_iff.mpr (Or.inr hline)

/-- A newline behind an identifier is taken for its end, and stands in the key that is written. -/
theorem isPlainName_newline :
    isPlainName "a\n".toList = true ∧ ¬IdentifierName "a\n".toList ∧
      GeneratorOptions.standard.propertyName "a\n".toList = "a\n".toList := by
  decide

/-! ### Making identifiers -/

/-- The name without quotes of any kind. -/
def unquoted (t : Text) : Text :=
  t.filter fun c => c ≠ '\x60' && c ≠ '\'' && c ≠ '"'

theorem dropQuotes_eq (name : Text) : dropQuotes name = strip (unquoted name) := rfl

theorem unquoted_append (x y : Text) : unquoted (x ++ y) = unquoted x ++ unquoted y :=
  List.filter_append x y

theorem unquoted_of_forall (h : ∀ c ∈ t, IdentifierPart c) : unquoted t = t := by
  refine List.filter_eq_self.mpr fun c hc => ?_
  simp [(h c hc).ne (d := '\x60') (by decide), (h c hc).ne (d := '\'') (by decide),
    (h c hc).ne (d := '"') (by decide)]

/-- The name with what an identifier cannot hold written as underscores. -/
def underscored (t : Text) : Text :=
  t.map fun c => if isIdentifierChar c then c else '_'

theorem underscored_of_forall (h : ∀ c ∈ t, IdentifierPart c) : underscored t = t := by
  rw [underscored, List.map_congr_left fun c hc => if_pos (isIdentifierChar_iff.mpr (h c hc)),
    List.map_id']

theorem underscored_append (x y : Text) : underscored (x ++ y) = underscored x ++ underscored y :=
  List.map_append

/-- The text with an underscore in front where it is empty or begins with a digit. -/
def guarded : Text → Text
  | [] => ['_']
  | c :: t => if isAsciiDigit c then '_' :: c :: t else c :: t

theorem toIdentifier_eq (name : Text) :
    toIdentifier name = guarded (underscored (dropQuotes name)) := rfl

theorem guarded_append (h : IdentifierName t) (x : Text) : guarded (t ++ x) = t ++ x := by
  obtain ⟨c, u, rfl, hc, -⟩ := h
  have hdigit : isAsciiDigit c = false := by
    rw [← Bool.not_eq_true, isAsciiDigit_iff]
    rw [← isIdentifierStart_iff] at hc
    simp only [isIdentifierStart, Bool.or_eq_true, decide_eq_true_eq, isAsciiLetter_iff] at hc
    rcases hc with (hc | rfl) | rfl
    · omega
    · decide
    · decide
  rw [List.cons_append, guarded, hdigit, if_neg Bool.false_ne_true]

theorem suffix_guarded (t : Text) : t <:+ guarded t := by
  cases t with
  | nil => exact List.nil_suffix
  | cons c t =>
    rw [guarded]
    split_ifs
    · exact List.suffix_cons '_' (c :: t)
    · exact List.suffix_rfl

theorem identifierName_guarded (h : ∀ c ∈ t, IdentifierPart c) : IdentifierName (guarded t) := by
  cases t with
  | nil => exact ⟨'_', [], rfl, by decide, by simp⟩
  | cons c t =>
    rw [guarded]
    split_ifs with hdigit
    · exact ⟨'_', c :: t, rfl, by decide, h⟩
    · rw [List.forall_mem_cons] at h
      refine ⟨c, t, rfl, ?_, h.2⟩
      have hc := isIdentifierChar_iff.mpr h.1
      rw [isIdentifierChar, Bool.or_eq_true] at hc
      exact isIdentifierStart_iff.mp (hc.resolve_right hdigit)

theorem identifierPart_underscored (t : Text) : ∀ c ∈ underscored t, IdentifierPart c := by
  intro c hc
  obtain ⟨d, -, rfl⟩ := List.mem_map.mp hc
  rw [← isIdentifierChar_iff]
  split_ifs with hd
  · exact hd
  · decide

theorem identifierName_toIdentifier (name : Text) : IdentifierName (toIdentifier name) :=
  identifierName_guarded (identifierPart_underscored _)

theorem toIdentifier_of_identifierName (h : IdentifierName t) : toIdentifier t = t := by
  have hpart : ∀ c ∈ t, IdentifierPart c := fun _ => h.part
  rw [toIdentifier_eq, dropQuotes_eq, unquoted_of_forall hpart,
    strip_of_forall fun c hc => (hpart c hc).isBlank, underscored_of_forall hpart]
  simpa using guarded_append h []

/-- **Making a name an identifier twice is making it one once.** -/
theorem toIdentifier_toIdentifier (name : Text) :
    toIdentifier (toIdentifier name) = toIdentifier name :=
  toIdentifier_of_identifierName (identifierName_toIdentifier name)

end TableTypes
