import TableTypes.Proofs.Options
import TableTypes.Proofs.Text.Case

/-!
# Names of declarations

The name of a declaration is an identifier that begins with the prefix and ends with the suffix, the
prefix with its first letter raised where the convention raises names
(`declarationName_affixes`).  The suffix keeps its first letter unless it is raised itself, which
happens where there is no prefix and nothing is left of the name of the table, the name having
nothing but separators in it (`GeneratorOptions.Leads`).
-/

namespace TableTypes

open Text

variable {c : Char} {x t : Text}

/-! ### Raising the first letter -/

/-- In ASCII, what an identifier begins or goes on with does so too in upper case. -/
theorem toUpper_ascii (hc : c.toNat < 0x80) :
    (IdentifierStart c → IdentifierStart c.toUpper) ∧
      (IdentifierPart c → IdentifierPart c.toUpper) := by
  have hone := of_ascii (p := fun c =>
    (!isIdentifierStart c || isIdentifierStart c.toUpper) &&
      (!isIdentifierChar c || isIdentifierChar c.toUpper)) (by decide +kernel) hc
  simpa only [Bool.and_eq_true, Bool.or_eq_true, Bool.not_eq_true', ← Bool.not_eq_true,
    isIdentifierStart_iff, isIdentifierChar_iff, ← imp_iff_not_or] using hone

theorem IdentifierPart.lt (hc : IdentifierPart c) : c.toNat < 0x80 := by
  rw [← isIdentifierChar_iff] at hc
  simp only [isIdentifierChar, isIdentifierStart, Bool.or_eq_true, decide_eq_true_eq,
    isAsciiLetter_iff, isAsciiDigit_iff] at hc
  rcases hc with ((hc | rfl) | rfl) | hc
  · omega
  · decide
  · decide
  · omega

theorem IdentifierPart.upperChar (hc : IdentifierPart c) : upperChar c = [c.toUpper] := by
  rw [Text.upperChar, if_pos hc.lt]

theorem capitalize_cons (c : Char) (t : Text) : capitalize (c :: t) = upperChar c ++ t := rfl

theorem capitalize_append (hx : x ≠ []) (y : Text) : capitalize (x ++ y) = capitalize x ++ y := by
  obtain ⟨c, x, rfl⟩ := List.exists_cons_of_ne_nil hx
  rw [List.cons_append, capitalize_cons, capitalize_cons, List.append_assoc]

theorem IdentifierName.capitalize (h : IdentifierName t) : IdentifierName (capitalize t) := by
  obtain ⟨c, u, rfl, hc, hu⟩ := h
  have hpart : IdentifierPart c := Or.inl hc
  rw [capitalize_cons, hpart.upperChar]
  exact ⟨c.toUpper, u, rfl, (toUpper_ascii hpart.lt).1 hc, hu⟩

theorem identifierPart_capitalize (h : ∀ c ∈ t, IdentifierPart c) :
    ∀ c ∈ capitalize t, IdentifierPart c := by
  cases t with
  | nil => exact h
  | cons c t =>
    rw [List.forall_mem_cons] at h
    rw [capitalize_cons, h.1.upperChar, List.singleton_append, List.forall_mem_cons]
    exact ⟨(toUpper_ascii h.1.lt).2 h.1, h.2⟩

/-! ### Nothing but separators -/

theorem upperChar_ne_nil (c : Char) : upperChar c ≠ [] :=
  movesLetters_upper.ne_nil c

theorem joinParts_eq_nil_iff (t : Text) :
    ∀ raised, joinParts raised t = [] ↔ ∀ c ∈ t, isSeparator c = true := by
  induction t with
  | nil => simp [joinParts]
  | cons c t ih =>
    intro raised
    rw [joinParts, List.forall_mem_cons]
    split_ifs with hc hupper
    · simp [hc, ih]
    · simp [hc, upperChar_ne_nil]
    · simp [hc]

theorem lowerFirst_eq_nil_iff : lowerFirst t = [] ↔ t = [] := by
  cases t with
  | nil => simp [lowerFirst]
  | cons c t =>
    rw [lowerFirst]
    split_ifs <;> simp [lowerChar_ne_nil]

theorem raiseFirst_eq_nil_iff : raiseFirst t = [] ↔ t = [] := by
  cases t with
  | nil => simp [raiseFirst]
  | cons c t =>
    rw [raiseFirst]
    split_ifs <;> simp [upperChar_ne_nil]

/-- Whether the first letter of a declaration is raised by a convention. -/
def Naming.raises (naming : Naming) : Bool :=
  naming = .camelCase || naming = .pascalCase

theorem Naming.apply_eq_nil_iff {naming : Naming} (h : naming.raises = true) :
    naming.apply t = [] ↔ ∀ c ∈ t, isSeparator c = true := by
  cases naming with
  | camelCase => exact lowerFirst_eq_nil_iff.trans (joinParts_eq_nil_iff t false)
  | pascalCase => exact raiseFirst_eq_nil_iff.trans (joinParts_eq_nil_iff t false)
  | snakeCase => cases h
  | preserve => cases h

/-! ### At the ends of identifiers -/

/-- An identifier in front of a text is in front of what is made of it. -/
theorem prefix_toIdentifier (h : IdentifierName t) (x : Text) : t <+: toIdentifier (t ++ x) := by
  have hpart : ∀ c ∈ t, IdentifierPart c := fun _ => h.part
  have hsolid : ∀ c ∈ t, isBlank c = false := fun c hc => (hpart c hc).isBlank
  obtain ⟨r, hr⟩ := exists_strip_append h.ne_nil (fun c hc => hsolid c (List.mem_of_mem_head? hc))
    (fun c hc => hsolid c (List.mem_of_mem_getLast? hc)) (unquoted x)
  rw [toIdentifier_eq, dropQuotes_eq, unquoted_append, unquoted_of_forall hpart, hr,
    underscored_append, underscored_of_forall hpart, guarded_append h]
  exact List.prefix_append t _

/-- So are characters of identifiers behind a text. -/
theorem suffix_toIdentifier {s : Text} (hs : ∀ c ∈ s, IdentifierPart c) (x : Text) :
    s <:+ toIdentifier (x ++ s) := by
  obtain ⟨r, hr⟩ := suffix_strip (fun c hc => (hs c hc).isBlank) (unquoted x)
  rw [toIdentifier_eq, dropQuotes_eq, unquoted_append, unquoted_of_forall hs, ← hr,
    underscored_append, underscored_of_forall hs]
  exact (List.suffix_append _ s).trans (suffix_guarded _)

/-! ### Names of declarations -/

namespace GeneratorOptions

variable {o : GeneratorOptions} {table : Text}

/-- The text with its first letter raised, if the convention raises names. -/
def raised (o : GeneratorOptions) (t : Text) : Text :=
  if o.naming.raises then capitalize t else t

/-- The name of a declaration in front of the suffix. -/
def stem (o : GeneratorOptions) (table : Text) : Text :=
  if o.namePrefix.isEmpty then o.naming.apply table
  else o.namePrefix ++ capitalize (o.naming.apply table)

theorem declarationName_eq (o : GeneratorOptions) (table : Text) :
    o.declarationName table = toIdentifier (o.raised (o.stem table ++ o.nameSuffix)) := by
  rw [declarationName, raised, stem, Naming.raises]
  cases o.naming <;> rfl

theorem raised_append {x : Text} (hx : x ≠ []) (y : Text) :
    o.raised (x ++ y) = o.raised x ++ y := by
  rw [raised, raised, capitalize_append hx]
  split_ifs <;> rfl

/-- Whether the name of a declaration begins with the suffix, whose first letter is raised then. -/
def Leads (o : GeneratorOptions) (table : Text) : Prop :=
  o.naming.raises = true ∧ o.namePrefix = [] ∧ ∀ c ∈ table, isSeparator c = true

instance (o : GeneratorOptions) (table : Text) : Decidable (o.Leads table) :=
  inferInstanceAs (Decidable (_ ∧ _ ∧ _))

theorem leads_iff : o.Leads table ↔ o.naming.raises = true ∧ o.stem table = [] := by
  rw [Leads, stem]
  refine and_congr_right fun hraises => ?_
  cases hfront : o.namePrefix with
  | nil => simp [Naming.apply_eq_nil_iff hraises]
  | cons c t => simp

theorem prefix_declarationName (h : o.HasAffixes) :
    o.raised o.namePrefix <+: o.declarationName table := by
  obtain hnil | hname := h.namePrefix
  · have hraised : o.raised [] = [] := by
      rw [raised]
      split_ifs <;> rfl
    rw [hnil, hraised]
    exact List.nil_prefix
  · have hraised : IdentifierName (o.raised o.namePrefix) := by
      rw [raised]
      split_ifs
      · exact hname.capitalize
      · exact hname
    have hne := hname.ne_nil
    rw [declarationName_eq, stem, if_neg (by simpa using hne), List.append_assoc,
      raised_append hne]
    exact prefix_toIdentifier hraised _

theorem suffix_declarationName (h : o.HasAffixes) :
    (if o.Leads table then capitalize o.nameSuffix else o.nameSuffix) <:+
      o.declarationName table := by
  rw [declarationName_eq]
  split_ifs with hleads
  · obtain ⟨hraises, hstem⟩ := leads_iff.mp hleads
    rw [hstem, List.nil_append, raised, if_pos hraises]
    exact suffix_toIdentifier (identifierPart_capitalize h.nameSuffix) []
  · rw [leads_iff, not_and] at hleads
    by_cases hstem : o.stem table = []
    · rw [hstem, List.nil_append, raised, if_neg fun hraises => hleads hraises hstem]
      exact suffix_toIdentifier h.nameSuffix []
    · rw [raised_append hstem]
      exact suffix_toIdentifier h.nameSuffix _

/-- **The name of a declaration keeps its affixes.**  Whatever the name of the table, that of the
declaration is an identifier that begins with the prefix, its first letter raised if the convention
raises names, and ends with the suffix, its first letter raised only if the name begins with it.
What has been made an identifier stays as it is. -/
theorem declarationName_affixes {entries : OrderedMap Setting} (ho : ofEntries entries = .ok o)
    (table : Text) :
    (isPlainName (o.declarationName table) = true ∧ IdentifierName (o.declarationName table)) ∧
    (if o.naming.raises then capitalize o.namePrefix else o.namePrefix) <+:
      o.declarationName table ∧
    (if o.Leads table then capitalize o.nameSuffix else o.nameSuffix) <:+
      o.declarationName table ∧
    ∀ name, toIdentifier (toIdentifier name) = toIdentifier name := by
  have haffixes := hasAffixes_of_ofEntries ho
  have hname : IdentifierName (o.declarationName table) := identifierName_toIdentifier _
  exact ⟨⟨isPlainName_iff.mpr (Or.inl hname), hname⟩, prefix_declarationName haffixes,
    suffix_declarationName haffixes, toIdentifier_toIdentifier⟩

/-- A prefix is raised, and the suffix behind it is not, whatever stands between them. -/
theorem declarationName_affixes_row : ∃ o : GeneratorOptions,
    ofEntries [("naming".toList, .text "camelCase".toList), ("prefix".toList, .text "db".toList),
      ("suffix".toList, .text "row".toList)] = .ok o ∧
    o.declarationName "'2 ßig_data".toList = "Db2__igDatarow".toList ∧
    "Db".toList <+: o.declarationName "'2 ßig_data".toList ∧
    "row".toList <:+ o.declarationName "'2 ßig_data".toList := by
  have ho : ofEntries [("naming".toList, .text "camelCase".toList),
      ("prefix".toList, .text "db".toList), ("suffix".toList, .text "row".toList)] =
        .ok ⟨.camelCase, false, "db".toList, "row".toList, true, .interface⟩ := by
    decide +kernel
  obtain ⟨-, hfront, hback, -⟩ := declarationName_affixes ho "'2 ßig_data".toList
  exact ⟨_, ho, by decide +kernel, hfront, hback⟩

/-- Without a prefix and a name in front of it the suffix is raised, so that the name of the
declaration does not end with the suffix as it was given. -/
theorem declarationName_noName : ∃ o : GeneratorOptions,
    ofEntries [("naming".toList, .text "camelCase".toList), ("suffix".toList, .text "row".toList)] =
      .ok o ∧
    o.nameSuffix ≠ [] ∧ o.declarationName [] = "Row".toList ∧
    ¬o.nameSuffix <:+ o.declarationName [] :=
  ⟨⟨.camelCase, false, [], "row".toList, true, .interface⟩, by decide +kernel⟩

end GeneratorOptions

end TableTypes
