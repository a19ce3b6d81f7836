import TableTypes.Config
import TableTypes.Proofs.Options.Reading
import TableTypes.Proofs.Text.Blank
import TableTypes.Proofs.Text.Lower

/-!
# Configurations in the environment

A configuration is read back from the variables that spell its options: the text options as they
are, the truth values as any of their spellings, the limits in decimal, all with any blanks around
them.  The options whose variables are not set have their defaults
(`Configuration.ofEnvironment_spelled`).

Each variable stands for one option, under one key of one section (`get?_variableEntries`).
-/

namespace TableTypes

open Text

variable {env : OrderedMap Text} {s : Section}

/-! ### Variables -/

/-- The variables that set options. -/
inductive Variable where
  | dialect
  | includeComments
  | caseSensitive
  | naming
  | optionalFields
  | namePrefix
  | nameSuffix
  | exportType
  | maxSqlLength
  | maxFileSize
  | maxTableCount
  | maxFieldCount

namespace Variable

/-- The name of a variable behind `SQL_SCHEMA_`. -/
def suffix : Variable → String
  | dialect => "DIALECT"
  | includeComments => "INCLUDE_COMMENTS"
  | caseSensitive => "CASE_SENSITIVE"
  | naming => "NAMING"
  | optionalFields => "OPTIONAL_FIELDS"
  | namePrefix => "PREFIX"
  | nameSuffix => "SUFFIX"
  | exportType => "EXPORT_TYPE"
  | maxSqlLength => "MAX_SQL_LENGTH"
  | maxFileSize => "MAX_FILE_SIZE"
  | maxTableCount => "MAX_TABLE_COUNT"
  | maxFieldCount => "MAX_FIELD_COUNT"

/-- The name of a variable. -/
def name (v : Variable) : Text :=
  "SQL_SCHEMA_".toList ++ v.suffix.toList

/-- The option of a variable: its section, its key, and whether it is a truth value. -/
def option : Variable → Section × String × Bool
  | dialect => (.extractor, "dialect", false)
  | includeComments => (.extractor, "include_comments", true)
  | caseSensitive => (.extractor, "case_sensitive", true)
  | naming => (.generator, "naming", false)
  | optionalFields => (.generator, "optional_fields", true)
  | namePrefix => (.generator, "prefix", false)
  | nameSuffix => (.generator, "suffix", false)
  | exportType => (.generator, "export_type", false)
  | maxSqlLength => (.limits, "max_sql_length", false)
  | maxFileSize => (.limits, "max_file_size", false)
  | maxTableCount => (.limits, "max_table_count", false)
  | maxFieldCount => (.limits, "max_field_count", false)

theorem mem_variableOptions (v : Variable) : (v.suffix, v.option) ∈ variableOptions := by
  cases v <;> decide

end Variable

theorem mem_variableEntries_iff {e : Text × Setting} : e ∈ variableEntries env s ↔
    ∃ suffix key isBool value, (suffix, s, key, isBool) ∈ variableOptions ∧
      env.get? ("SQL_SCHEMA_".toList ++ suffix.toList) = some value ∧
      e = (key.toList, variableSetting isBool value) := by
  rw [variableEntries, List.mem_filterMap]
  constructor
  · rintro ⟨⟨suffix, s', key, isBool⟩, hrow, h⟩
    obtain ⟨rfl, hmap⟩ := Option.ite_none_right_eq_some.mp h
    obtain ⟨value, hvalue, rfl⟩ := Option.map_eq_some_iff.mp hmap
    exact ⟨suffix, key, isBool, value, hrow, hvalue, rfl⟩
  · rintro ⟨suffix, key, isBool, value, hrow, hvalue, rfl⟩
    refine ⟨(suffix, s, key, isBool), hrow, ?_⟩
    dsimp only
    rw [if_pos rfl, hvalue]
    rfl

/-- No two variables stand for the same option. -/
theorem variableOptions_inj : ∀ a ∈ variableOptions, ∀ b ∈ variableOptions, a.2.1 = b.2.1 →
    a.2.2.1.toList = b.2.2.1.toList → a = b := by
  decide +kernel

theorem get?_variableEntries {key : String} {isBool : Bool} (v : Variable)
    (hv : v.option = (s, key, isBool)) : (variableEntries env s).get? key.toList =
      (env.get? v.name).map (variableSetting isBool) := by
  have hrow : (v.suffix, s, key, isBool) ∈ variableOptions := hv ▸ v.mem_variableOptions
  -- What stands under the key comes from the variable.
  have hfrom : ∀ w, (key.toList, w) ∈ variableEntries env s →
      ∃ value, env.get? v.name = some value ∧ w = variableSetting isBool value := by
    intro w hw
    obtain ⟨suffix, key', isBool', value, hrow', hvalue, heq⟩ := mem_variableEntries_iff.mp hw
    obtain ⟨hkey, rfl⟩ := Prod.mk.inj heq
    cases variableOptions_inj _ hrow _ hrow' rfl hkey
    exact ⟨value, hvalue, rfl⟩
  cases hget : (variableEntries env s).get? key.toList with
  | some w =>
    obtain ⟨value, hvalue, rfl⟩ := hfrom w (OrderedMap.mem_of_get? hget)
    rw [hvalue]
    rfl
  | none =>
    cases hvalue : env.get? v.name with
    | none => rfl
    | some value =>
      have hmem := mem_variableEntries_iff.mpr ⟨_, _, _, value, hrow, hvalue, rfl⟩
      have hkey := OrderedMap.isSome_get?_iff.mpr (List.mem_map_of_mem hmem)
      rw [hget] at hkey
      cases hkey

theorem has_variableEntries {key : String} {isBool : Bool} (v : Variable)
    (hv : v.option = (s, key, isBool)) :
    (variableEntries env s).has key.toList = env.has v.name := by
  rw [OrderedMap.has, get?_variableEntries v hv, Option.isSome_map, OrderedMap.has]

theorem chosen_variableEntries {β : Type} {key : String} {isBool : Bool} (v : Variable)
    (hv : v.option = (s, key, isBool)) (b standard : β) :
    chosen (variableEntries env s) key b standard = if env.has v.name then b else standard := by
  rw [chosen, has_variableEntries v hv]

/-- The variables set nothing but options of their sections. -/
theorem hasKeysOf_variableEntries {standard : OrderedMap Setting}
    (h : ∀ row ∈ variableOptions, row.2.1 = s → row.2.2.1.toList ∈ standard.keys) :
    HasKeysOf (variableEntries env s) standard := by
  intro k hk
  obtain ⟨e, he, rfl⟩ := List.mem_map.mp hk
  obtain ⟨_, _, _, _, hrow, -, rfl⟩ := mem_variableEntries_iff.mp he
  exact h _ hrow rfl

/-- An option that no variable stands for is the standard one. -/
theorem get?_variableEntries_eq_none {key : String}
    (h : ∀ row ∈ variableOptions, row.2.1 = s → row.2.2.1 ≠ key) :
    (variableEntries env s).get? key.toList = none := by
  refine OrderedMap.get?_eq_none fun hk => ?_
  obtain ⟨e, he, hkey⟩ := List.mem_map.mp hk
  obtain ⟨_, _, _, _, hrow, -, rfl⟩ := mem_variableEntries_iff.mp he
  exact h _ hrow rfl (String.toList_injective hkey)

/-! ### Values -/

/-- The words for a truth value, in lower case. -/
def boolWords : Bool → List Text
  | true => ["1", "true", "yes", "on"].map String.toList
  | false => ["0", "false", "no", "off"].map String.toList

/-- The word spells the truth value, in whatever letter case. -/
def SpellsBool (b : Bool) (word : Text) : Prop :=
  word.map Char.toLower ∈ boolWords b

theorem isAsciiWord_of_spellsBool {b : Bool} {word : Text} (h : SpellsBool b word) :
    ∀ c ∈ word, isAsciiWord c = true := by
  have hwords : ∀ b, ∀ w ∈ boolWords b, w.all isAsciiWord = true := by decide
  have hword := List.all_eq_true.mp (hwords b _ h)
  exact fun c hc => isAsciiWord_of_toLower (hword _ (List.mem_map_of_mem hc))

theorem strip_text_of_solid (t : Inset) (h : ∀ c ∈ t.inner, isBlank c = false) :
    strip t.text = t.inner :=
  t.strip_text (fun c hc => h c (List.mem_of_mem_head? hc))
    fun c hc => h c (List.mem_of_mem_getLast? hc)

theorem variableSetting_text (t : Inset) (h : ∀ c ∈ t.inner, isBlank c = false) :
    variableSetting false t.text = .text t.inner := by
  rw [variableSetting, strip_text_of_solid t h]
  rfl

theorem variableSetting_bool {b : Bool} (t : Inset) (h : SpellsBool b t.inner) :
    variableSetting true t.text = .bool b := by
  have hword := isAsciiWord_of_spellsBool h
  have hlower : lower t.inner = t.inner.map Char.toLower :=
    lower_ascii fun c hc => lt_of_isAsciiWord (hword c hc)
  have hsettings : ∀ b, ∀ w ∈ boolWords b,
      trueSpellings.contains w = b ∧ falseSpellings.contains w = !b := by decide
  obtain ⟨htrue, hfalse⟩ := hsettings b _ h
  rw [variableSetting, strip_text_of_solid t fun c hc => isBlank_of_isAsciiWord (hword c hc)]
  simp only [hlower, htrue, hfalse]
  cases b <;> rfl

/-! ### What a section accepts -/

section

variable {β : Type} {accept : Setting → Except OptionProblem β} {key : String} {b : β}

theorem accepts_variableEntries {isBool : Bool} (v : Variable) (hv : v.option = (s, key, isBool))
    (h : ∀ value, env.get? v.name = some value →
      accept (variableSetting isBool value) = .ok b) :
    Accepts accept (variableEntries env s) key b := by
  intro setting hsetting
  rw [get?_variableEntries v hv] at hsetting
  obtain ⟨value, hvalue, rfl⟩ := Option.map_eq_some_iff.mp hsetting
  exact h value hvalue

theorem accepts_text (v : Variable) (hv : v.option = (s, key, false)) {word : Text}
    (haccept : accept (.text word) = .ok b) (hword : ∀ c ∈ word, isBlank c = false)
    (h : ∀ value, env.get? v.name = some value → ∃ t : Inset, value = t.text ∧ t.inner = word) :
    Accepts accept (variableEntries env s) key b := by
  refine accepts_variableEntries v hv fun value hvalue => ?_
  obtain ⟨t, rfl, rfl⟩ := h value hvalue
  rw [variableSetting_text t hword, haccept]

theorem accepts_bool {b : Bool} (v : Variable) (hv : v.option = (s, key, true))
    (h : ∀ value, env.get? v.name = some value → ∃ t : Inset, value = t.text ∧
      SpellsBool b t.inner) :
    Accepts acceptBool (variableEntries env s) key b := by
  refine accepts_variableEntries v hv fun value hvalue => ?_
  obtain ⟨t, rfl, hspells⟩ := h value hvalue
  rw [variableSetting_bool t hspells]
  rfl

theorem accepts_limit {n : Nat} (v : Variable) (hv : v.option = (s, key, false))
    (hn : 0 < n ∧ n < 2 ^ 63)
    (h : ∀ value, env.get? v.name = some value → ∃ t : Inset, value = t.text ∧
      t.inner = ofNat n) :
    Accepts acceptLimit (variableEntries env s) key n := by
  have hlt : n < 10 ^ maxDigits := calc
    n < 2 ^ 63 := hn.2
    _ ≤ 10 ^ 19 := by decide
    _ ≤ 10 ^ maxDigits := Nat.pow_le_pow_right (by decide) (by decide)
  exact accepts_text v hv (acceptLimit_ofNat hn.1 hlt) (fun c hc => isBlank_of_mem_ofNat hc) h

end

/-! ### Configurations -/

namespace Configuration

variable {c : Configuration}

/-- The options are valid, with limits of at most 63 binary digits. -/
structure IsValid (c : Configuration) : Prop where
  affixes : c.generator.HasAffixes
  limits : ∀ n ∈ [c.limits.maxSqlLength, c.limits.maxFileSize, c.limits.maxMemoryUsage,
    c.limits.maxTableCount, c.limits.maxFieldCount], 0 < n ∧ n < 2 ^ 63

/-- The word spells the option that the variable stands for. -/
def Spells (c : Configuration) (word : Text) : Variable → Prop
  | .dialect => word = c.extractor.dialect.name
  | .includeComments => SpellsBool c.extractor.includeComments word
  | .caseSensitive => SpellsBool c.extractor.caseSensitive word
  | .naming => word = c.generator.naming.name
  | .optionalFields => SpellsBool c.generator.optionalFields word
  | .namePrefix => word = c.generator.namePrefix
  | .nameSuffix => word = c.generator.nameSuffix
  | .exportType => word = c.generator.exportType.name
  | .maxSqlLength => word = ofNat c.limits.maxSqlLength
  | .maxFileSize => word = ofNat c.limits.maxFileSize
  | .maxTableCount => word = ofNat c.limits.maxTableCount
  | .maxFieldCount => word = ofNat c.limits.maxFieldCount

instance (c : Configuration) (word : Text) : DecidablePred (c.Spells word)
  | .dialect | .naming | .namePrefix | .nameSuffix | .exportType => decEq word _
  | .includeComments | .caseSensitive | .optionalFields =>
    inferInstanceAs (Decidable (word.map Char.toLower ∈ boolWords _))
  | .maxSqlLength | .maxFileSize | .maxTableCount | .maxFieldCount => decEq word _

/-- Every variable that is set spells its option, with any blanks around. -/
def IsSpelledIn (c : Configuration) (env : OrderedMap Text) : Prop :=
  ∀ (v : Variable) (value : Text), env.get? v.name = some value →
    ∃ t : Inset, value = t.text ∧ c.Spells t.inner v

theorem isSpelledIn_of_strip
    (h : ∀ v : Variable, ∀ value ∈ env.get? v.name, c.Spells (strip value) v) :
    c.IsSpelledIn env :=
  fun v value hvalue => ⟨.ofText value, (Inset.text_ofText value).symm, h v value hvalue⟩

/-- The configuration with the options of the given variables, and the standard ones elsewhere. -/
def restrict (c : Configuration) (given : Variable → Bool) : Configuration where
  extractor :=
    { dialect := if given .dialect then c.extractor.dialect else .auto
      includeComments := if given .includeComments then c.extractor.includeComments else true
      caseSensitive := if given .caseSensitive then c.extractor.caseSensitive else false }
  generator :=
    { naming := if given .naming then c.generator.naming else .preserve
      optionalFields := if given .optionalFields then c.generator.optionalFields else false
      namePrefix := if given .namePrefix then c.generator.namePrefix else []
      nameSuffix := if given .nameSuffix then c.generator.nameSuffix else []
      includeComments := true
      exportType := if given .exportType then c.generator.exportType else .interface }
  limits :=
    { maxSqlLength := if given .maxSqlLength then c.limits.maxSqlLength else 50 * 1024 * 1024
      maxFileSize := if given .maxFileSize then c.limits.maxFileSize else 100 * 1024 * 1024
      maxMemoryUsage := 200 * 1024 * 1024
      maxTableCount := if given .maxTableCount then c.limits.maxTableCount else 1000
      maxFieldCount := if given .maxFieldCount then c.limits.maxFieldCount else 500 }

theorem ofEntries_extractor (henv : c.IsSpelledIn env) :
    ExtractorOptions.ofEntries (variableEntries env .extractor) =
      .ok (c.restrict fun v => env.has v.name).extractor := by
  have hdialect : ∀ d : DialectChoice, d.name.any isBlank = false := by
    rintro ((_ | _ | _) | _) <;> rfl
  rw [ExtractorOptions.ofEntries_of_accepts c.extractor
    (hasKeysOf_variableEntries (by decide))
    (accepts_text .dialect rfl (acceptDialect_name _) (forall_eq_false (hdialect _))
      (henv .dialect))
    (accepts_bool .includeComments rfl (henv .includeComments))
    (accepts_bool .caseSensitive rfl (henv .caseSensitive)),
    chosen_variableEntries .dialect rfl, chosen_variableEntries .includeComments rfl,
    chosen_variableEntries .caseSensitive rfl]
  rfl

theorem ofEntries_generator (haffixes : c.generator.HasAffixes) (henv : c.IsSpelledIn env) :
    GeneratorOptions.ofEntries (variableEntries env .generator) =
      .ok (c.restrict fun v => env.has v.name).generator := by
  have hnaming : ∀ naming : Naming, naming.name.any isBlank = false := by
    rintro (_ | _ | _ | _) <;> rfl
  have hexport : ∀ e : ExportType, e.name.any isBlank = false := by
    rintro (_ | _) <;> rfl
  have hfront : ∀ x ∈ c.generator.namePrefix, isBlank x = false := by
    obtain hnil | hname := haffixes.namePrefix
    · rw [hnil]
      exact fun x hx => nomatch hx
    · exact fun x hx => (hname.part hx).isBlank
  have hback : ∀ x ∈ c.generator.nameSuffix, isBlank x = false :=
    fun x hx => (haffixes.nameSuffix x hx).isBlank
  have hcomments : (variableEntries env .generator).get? "include_comments".toList = none :=
    get?_variableEntries_eq_none (by decide)
  rw [GeneratorOptions.ofEntries_of_accepts c.generator (hasKeysOf_variableEntries (by decide))
    (accepts_text .naming rfl (acceptNaming_name _) (forall_eq_false (hnaming _)) (henv .naming))
    (accepts_bool .optionalFields rfl (henv .optionalFields))
    (accepts_text .namePrefix rfl (acceptNamePrefix_text haffixes.namePrefix) hfront
      (henv .namePrefix))
    (accepts_text .nameSuffix rfl (acceptNameSuffix_text haffixes.nameSuffix) hback
      (henv .nameSuffix))
    (.of_missing hcomments)
    (accepts_text .exportType rfl (acceptExportType_name _) (forall_eq_false (hexport _))
      (henv .exportType)),
    chosen_variableEntries .naming rfl, chosen_variableEntries .optionalFields rfl,
    chosen_variableEntries .namePrefix rfl, chosen_variableEntries .nameSuffix rfl,
    chosen_variableEntries .exportType rfl, chosen_of_missing hcomments]
  rfl

theorem ofEntries_limits (hc : c.IsValid) (henv : c.IsSpelledIn env) :
    Limits.ofEntries (variableEntries env .limits) =
      .ok (c.restrict fun v => env.has v.name).limits := by
  have hmemory : (variableEntries env .limits).get? "max_memory_usage".toList = none :=
    get?_variableEntries_eq_none (by decide)
  rw [Limits.ofEntries_of_accepts c.limits (hasKeysOf_variableEntries (by decide))
    (accepts_limit .maxSqlLength rfl (hc.limits _ (by simp)) (henv .maxSqlLength))
    (accepts_limit .maxFileSize rfl (hc.limits _ (by simp)) (henv .maxFileSize))
    (.of_missing hmemory)
    (accepts_limit .maxTableCount rfl (hc.limits _ (by simp)) (henv .maxTableCount))
    (accepts_limit .maxFieldCount rfl (hc.limits _ (by simp)) (henv .maxFieldCount)),
    chosen_variableEntries .maxSqlLength rfl, chosen_variableEntries .maxFileSize rfl,
    chosen_variableEntries .maxTableCount rfl, chosen_variableEntries .maxFieldCount rfl,
    chosen_of_missing hmemory]
  rfl

/-- **A configuration is read back from the variables that spell its options, when there is no file
of variables.** -/
theorem ofEnvironment_spelled (hc : c.IsValid) (henv : c.IsSpelledIn env) {tree : FileTree}
    {path : Text} (hmissing : tree.at? path = none) :
    ofEnvironment (withEnvFileAt env tree path) = .ok (c.restrict fun v => env.has v.name) ∧
      (c.generator.includeComments = GeneratorOptions.standard.includeComments →
        c.limits.maxMemoryUsage = Limits.standard.maxMemoryUsage →
        (∀ v : Variable, env.has v.name = true) →
        ofEnvironment (withEnvFileAt env tree path) =
          ofGiven (.extractor c.extractor) (.generator c.generator) (.limits c.limits)) := by
  have hread : ofEnvironment (withEnvFileAt env tree path) =
      .ok (c.restrict fun v => env.has v.name) := by
    rw [withEnvFileAt, hmissing]
    simp only [ofEnvironment, ofGiven, GivenOptions.toExtractor, GivenOptions.toGenerator,
      GivenOptions.toLimits, GivenOptions.entries?, Except.bind, ofEntries_extractor henv,
      ofEntries_generator hc.affixes henv, ofEntries_limits hc henv]
    rfl
  refine ⟨hread, fun hcomments hmemory hall => hread.trans ?_⟩
  obtain ⟨⟨d, ec, cs⟩, ⟨n, o, p, s, gc, e⟩, ⟨a, b, m, t, f⟩⟩ := c
  obtain rfl : gc = true := hcomments
  obtain rfl : m = 200 * 1024 * 1024 := hmemory
  simp only [restrict, hall, if_true]
  rfl

/-- All variables are set, some of them in capitals and with blanks. -/
theorem ofEnvironment_spelled_postgresql :
    ofEnvironment (withEnvFileAt ([("SQL_SCHEMA_DIALECT", " postgresql\t"),
        ("SQL_SCHEMA_INCLUDE_COMMENTS", "oFF"), ("SQL_SCHEMA_CASE_SENSITIVE", " Yes"),
        ("SQL_SCHEMA_NAMING", "PascalCase"), ("SQL_SCHEMA_OPTIONAL_FIELDS", "1 "),
        ("SQL_SCHEMA_PREFIX", "I"), ("SQL_SCHEMA_SUFFIX", "  "), ("SQL_SCHEMA_EXPORT_TYPE", "type"),
        ("SQL_SCHEMA_MAX_SQL_LENGTH", "9223372036854775807"), ("SQL_SCHEMA_MAX_FILE_SIZE", " 64"),
        ("SQL_SCHEMA_MAX_TABLE_COUNT", "7"), ("SQL_SCHEMA_MAX_FIELD_COUNT", "500\n")].map
        fun e => (e.1.toList, e.2.toList)) [] "missing.env".toList) =
      ofGiven (.extractor ⟨.fixed .postgresql, false, true⟩)
        (.generator ⟨.pascalCase, true, "I".toList, [], true, .type⟩)
        (.limits ⟨2 ^ 63 - 1, 64, 200 * 1024 * 1024, 7, 500⟩) := by
  let c : Configuration := ⟨⟨.fixed .postgresql, false, true⟩,
    ⟨.pascalCase, true, "I".toList, [], true, .type⟩, ⟨2 ^ 63 - 1, 64, 200 * 1024 * 1024, 7, 500⟩⟩
  have hc : c.IsValid :=
    ⟨⟨.inr (isIdentifier_iff.mp (by decide)), fun _ hx => nomatch hx⟩, by decide⟩
  refine (ofEnvironment_spelled hc (isSpelledIn_of_strip fun v => ?_) (by decide)).2 rfl rfl
    fun v => ?_
  · cases v <;> decide
  · cases v <;> decide

end Configuration

end TableTypes
