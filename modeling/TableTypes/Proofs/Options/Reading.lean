import TableTypes.Proofs.Options
import TableTypes.Proofs.OrderedMap
import TableTypes.Proofs.Text.Word
import Mathlib.Data.Nat.Digits.Defs

/-!
# Reading options that are accepted

What an option is written as is accepted for it, a limit as its decimal numeral
(`acceptLimit_ofNat`).  If all that stands under the snake case keys of a group is accepted, and
nothing stands under other keys, then the options of the group are the accepted values, with the
standard ones for the keys that are missing (`ExtractorOptions.ofEntries_of_accepts`,
`GeneratorOptions.ofEntries_of_accepts`, `Limits.ofEntries_of_accepts`).
-/

namespace TableTypes

open Text

variable {n : Nat}

/-! ### Decimal numerals -/

theorem digitsToNat_ofNat (n : Nat) : digitsToNat (ofNat n) = n :=
  Nat.ofDigitChars_ten_toDigits

theorem isAsciiDigit_of_mem_ofNat {c : Char} (hc : c ∈ ofNat n) : isAsciiDigit c = true :=
  isAsciiDigit_iff.mpr
    (Char.isDigit_iff_toNat.mp (Nat.isDigit_of_mem_toDigits (by decide) (by decide) hc))

theorem isBlank_of_mem_ofNat {c : Char} (hc : c ∈ ofNat n) : isBlank c = false :=
  isBlank_of_isAsciiWord (isAsciiWord_of_isAsciiDigit (isAsciiDigit_of_mem_ofNat hc))

/-- No zero stands in front of the numeral of a number above zero. -/
theorem head?_ofNat (hn : 0 < n) : (ofNat n).head? ≠ some '0' := by
  induction n using Nat.strong_induction_on with
  | _ n ih =>
    by_cases hlt : n < 10
    · have hdigit : ∀ d < 10, 0 < d → some (Nat.digitChar d) ≠ some '0' := by decide
      rw [ofNat, Nat.toDigits_of_lt_base hlt]
      exact hdigit n hlt hn
    · rw [ofNat, Nat.toDigits_of_base_le (by decide) (Nat.le_of_not_lt hlt),
        List.head?_append_of_ne_nil _ Nat.toDigits_ne_nil]
      exact ih (n / 10) (by omega) (by omega)

theorem plainInteger_ofNat (hpos : 0 < n) (hlt : n < 10 ^ maxDigits) :
    plainInteger (ofNat n) = .ok n := by
  have hsign : after? ['-'] (ofNat n) = none := after?_eq_none fun r hr =>
    absurd (isAsciiDigit_of_mem_ofNat (hr ▸ List.mem_cons_self : '-' ∈ ofNat n)) (by decide)
  have hdigits : (ofNat n).takeWhile isAsciiDigit = ofNat n :=
    List.takeWhile_eq_self_iff.mpr fun c hc => isAsciiDigit_of_mem_ofNat hc
  have hne : ofNat n ≠ [] := Nat.toDigits_ne_nil
  have hfront : ((ofNat n).isEmpty || ((ofNat n).head? = some '0' && ofNat n ≠ ['0'])) = false := by
    rw [List.isEmpty_eq_false_iff.mpr hne, decide_eq_false (head?_ofNat hpos)]
    rfl
  have hlength : (ofNat n).length ≤ maxDigits := Nat.toDigits_length 10 n maxDigits (by decide) hlt
  rw [plainInteger, hsign, Option.getD_none]
  simp only [hdigits, hfront, Nat.not_lt.mpr hlength, digitsToNat_ofNat, Bool.false_eq_true,
    if_false, ne_eq, not_true_eq_false, if_true]

theorem integerOfText_ofNat (hpos : 0 < n) (hlt : n < 10 ^ maxDigits) :
    integerOfText (ofNat n) = .ok n := by
  have hsolid : ∀ c ∈ ofNat n, isWhiteSpace c = false := by
    intro c hc
    rw [isWhiteSpace, isBlank_of_mem_ofNat hc]
    rfl
  have htrim : trim isWhiteSpace (ofNat n) = ofNat n := trim_eq_self
    (fun c hc => hsolid c (List.mem_of_mem_head? hc))
    fun c hc => hsolid c (List.mem_of_mem_getLast? hc)
  rw [integerOfText]
  simp only [htrim, plainInteger_ofNat hpos hlt]

/-! ### What options are written as -/

theorem acceptDialect_name (d : DialectChoice) : acceptDialect (.text d.name) = .ok d := by
  obtain d | _ := d
  · cases d <;> rfl
  · rfl

theorem acceptNaming_name (naming : Naming) : acceptNaming (.text naming.name) = .ok naming := by
  cases naming <;> rfl

theorem acceptExportType_name (e : ExportType) : acceptExportType (.text e.name) = .ok e := by
  cases e <;> rfl

theorem acceptNamePrefix_text {t : Text} (ht : t = [] ∨ IdentifierName t) :
    acceptNamePrefix (.text t) = .ok t := by
  rw [acceptNamePrefix, if_pos]
  rwa [Bool.or_eq_true, List.isEmpty_iff, isIdentifier_iff]

theorem acceptNameSuffix_text {t : Text} (ht : ∀ c ∈ t, IdentifierPart c) :
    acceptNameSuffix (.text t) = .ok t := by
  rw [acceptNameSuffix, if_pos]
  exact List.all_eq_true.mpr fun c hc => isIdentifierChar_iff.mpr (ht c hc)

theorem acceptLimit_ofNat (hpos : 0 < n) (hlt : n < 10 ^ maxDigits) :
    acceptLimit (.text (ofNat n)) = .ok n := by
  have hinteger : acceptInteger (.text (ofNat n)) = .ok n := by
    rw [acceptInteger, integerOfText_ofNat hpos hlt]
    rfl
  rw [acceptLimit, hinteger]
  show (if (n : Int) ≤ 0 then _ else _) = _
  rw [if_neg (by omega)]
  rfl

/-! ### Option by option -/

/-- What stands under the key is accepted as `b`, if anything does. -/
def Accepts {β : Type} (accept : Setting → Except OptionProblem β) (entries : OrderedMap Setting)
    (key : String) (b : β) : Prop :=
  ∀ s, entries.get? key.toList = some s → accept s = .ok b

/-- An option that is `b` if its key is there, and the standard one otherwise. -/
def chosen {β : Type} (entries : OrderedMap Setting) (key : String) (b standard : β) : β :=
  if entries.has key.toList then b else standard

theorem Accepts.of_missing {β : Type} {accept : Setting → Except OptionProblem β}
    {entries : OrderedMap Setting} {key : String} {b : β}
    (h : entries.get? key.toList = none) : Accepts accept entries key b :=
  fun _ hs => nomatch h.symm.trans hs

theorem chosen_of_missing {β : Type} {entries : OrderedMap Setting} {key : String}
    {b standard : β} (h : entries.get? key.toList = none) :
    chosen entries key b standard = standard := by
  rw [chosen, OrderedMap.has, h]
  rfl

theorem findOption?_eq {camel snake : Text} {entries : OrderedMap Setting}
    (h : camel = snake ∨ camel ∉ entries.keys) :
    findOption? camel snake entries = (entries.get? snake).map (snake, ·) := by
  rw [findOption?]
  obtain rfl | h := h
  · cases entries.get? camel <;> rfl
  · rw [OrderedMap.get?_eq_none h]
    rfl

namespace OptionReading

variable {α β : Type} {r : OptionReading α} {entries : OrderedMap Setting} {known : List String}
  {a : α}

/-- The reading has found no fault: it holds the options `a`, and those of the known keys that are
there. -/
structure IsClean (r : OptionReading α) (entries : OrderedMap Setting) (known : List String)
    (a : α) : Prop where
  value : r.value = a
  faults : r.faults = []
  keys : ∀ k ∈ known, k.toList ∈ entries.keys → k.toList ∈ r.keys

namespace IsClean

theorem start (entries : OrderedMap Setting) (a : α) : IsClean ⟨a, [], []⟩ entries [] a :=
  ⟨rfl, rfl, fun _ hk => nomatch hk⟩

/-- One more option that is accepted, if it is there; `d` is what is there without it. -/
theorem field {accept : Setting → Except OptionProblem β} {set : α → β → α} {b : β}
    (h : r.IsClean entries known a) (camel snake : String)
    (hkey : camel.toList = snake.toList ∨ camel.toList ∉ entries.keys) (d : β) (hd : set a d = a)
    (haccept : Accepts accept entries snake b) :
    (r.field entries camel snake accept set).IsClean entries (snake :: known)
      (set a (chosen entries snake b d)) := by
  rw [OptionReading.field, findOption?_eq hkey, chosen, OrderedMap.has]
  cases hget : entries.get? snake.toList with
  | none =>
    refine ⟨h.value.trans hd.symm, h.faults, List.forall_mem_cons.mpr ⟨fun hmem => ?_, h.keys⟩⟩
    rw [← OrderedMap.isSome_get?_iff, hget] at hmem
    cases hmem
  | some s =>
    rw [Option.map_some]
    dsimp only
    rw [haccept s hget]
    refine ⟨congrArg (set · b) h.value, h.faults, List.forall_mem_cons.mpr ⟨fun _ => ?_, ?_⟩⟩
    · exact List.mem_append_right _ List.mem_cons_self
    · exact fun k hk hmem => List.mem_append_left _ (h.keys k hk hmem)

theorem finish (h : r.IsClean entries known a) (s : Section)
    (hknown : ∀ k ∈ entries.keys, k ∈ known.map String.toList) : r.finish s entries = .ok a := by
  have hunknown : entries.filter (!r.keys.contains ·.1) = [] := by
    refine List.filter_eq_nil_iff.mpr fun e he => ?_
    have hkey : e.1 ∈ entries.keys := List.mem_map_of_mem he
    obtain ⟨k, hk, heq⟩ := List.mem_map.mp (hknown e.1 hkey)
    have hfound := h.keys k hk (heq ▸ hkey)
    rw [heq] at hfound
    rw [List.contains_iff_mem.mpr hfound]
    exact Bool.false_ne_true
  rw [OptionReading.finish, h.faults, hunknown, h.value]
  rfl

end IsClean

end OptionReading

/-! ### Groups of options -/

/-- All keys are snake case keys of a group, which are those of its standard options. -/
def HasKeysOf (entries standard : OrderedMap Setting) : Prop :=
  ∀ k ∈ entries.keys, k ∈ standard.keys

theorem HasKeysOf.not_mem {entries standard : OrderedMap Setting} (h : HasKeysOf entries standard)
    {key : Text} (hkey : key ∉ standard.keys) : key ∉ entries.keys :=
  mt (h key) hkey

theorem HasKeysOf.subset {entries standard : OrderedMap Setting} (h : HasKeysOf entries standard)
    {known : List Text} (hknown : ∀ k ∈ standard.keys, k ∈ known) : ∀ k ∈ entries.keys, k ∈ known :=
  fun k hk => hknown k (h k hk)

variable {entries : OrderedMap Setting}

/-- **Extractor options that are accepted are set, with the standard ones for the others.** -/
theorem ExtractorOptions.ofEntries_of_accepts (o : ExtractorOptions)
    (hkeys : HasKeysOf entries standard.entries)
    (hdialect : Accepts acceptDialect entries "dialect" o.dialect)
    (hcomments : Accepts acceptBool entries "include_comments" o.includeComments)
    (hcase : Accepts acceptBool entries "case_sensitive" o.caseSensitive) :
    ofEntries entries = .ok
      ⟨chosen entries "dialect" o.dialect standard.dialect,
        chosen entries "include_comments" o.includeComments standard.includeComments,
        chosen entries "case_sensitive" o.caseSensitive standard.caseSensitive⟩ :=
  OptionReading.IsClean.start entries standard
    |>.field "dialect" "dialect" (.inl rfl) standard.dialect rfl hdialect
    |>.field "includeComments" "include_comments" (.inr (hkeys.not_mem (by decide)))
      standard.includeComments rfl hcomments
    |>.field "caseSensitive" "case_sensitive" (.inr (hkeys.not_mem (by decide)))
      standard.caseSensitive rfl hcase
    |>.finish .extractor (hkeys.subset (by decide))

/-- **Generator options that are accepted are set, with the standard ones for the others.** -/
theorem GeneratorOptions.ofEntries_of_accepts (o : GeneratorOptions)
    (hkeys : HasKeysOf entries standard.entries)
    (hnaming : Accepts acceptNaming entries "naming" o.naming)
    (hoptional : Accepts acceptBool entries "optional_fields" o.optionalFields)
    (hfront : Accepts acceptNamePrefix entries "prefix" o.namePrefix)
    (hback : Accepts acceptNameSuffix entries "suffix" o.nameSuffix)
    (hcomments : Accepts acceptBool entries "include_comments" o.includeComments)
    (hexport : Accepts acceptExportType entries "export_type" o.exportType) :
    ofEntries entries = .ok
      ⟨chosen entries "naming" o.naming standard.naming,
        chosen entries "optional_fields" o.optionalFields standard.optionalFields,
        chosen entries "prefix" o.namePrefix standard.namePrefix,
        chosen entries "suffix" o.nameSuffix standard.nameSuffix,
        chosen entries "include_comments" o.includeComments standard.includeComments,
        chosen entries "export_type" o.exportType standard.exportType⟩ :=
  OptionReading.IsClean.start entries standard
    |>.field "naming" "naming" (.inl rfl) standard.naming rfl hnaming
    |>.field "optionalFields" "optional_fields" (.inr (hkeys.not_mem (by decide)))
      standard.optionalFields rfl hoptional
    |>.field "prefix" "prefix" (.inl rfl) standard.namePrefix rfl hfront
    |>.field "suffix" "suffix" (.inl rfl) standard.nameSuffix rfl hback
    |>.field "includeComments" "include_comments" (.inr (hkeys.not_mem (by decide)))
      standard.includeComments rfl hcomments
    |>.field "exportType" "export_type" (.inr (hkeys.not_mem (by decide)))
      standard.exportType rfl hexport
    |>.finish .generator (hkeys.subset (by decide))

/-- **Limits that are accepted are set, with the standard ones for the others.** -/
theorem Limits.ofEntries_of_accepts (l : Limits) (hkeys : HasKeysOf entries standard.entries)
    (hsql : Accepts acceptLimit entries "max_sql_length" l.maxSqlLength)
    (hfile : Accepts acceptLimit entries "max_file_size" l.maxFileSize)
    (hmemory : Accepts acceptLimit entries "max_memory_usage" l.maxMemoryUsage)
    (htable : Accepts acceptLimit entries "max_table_count" l.maxTableCount)
    (hfield : Accepts acceptLimit entries "max_field_count" l.maxFieldCount) :
    ofEntries entries = .ok
      ⟨chosen entries "max_sql_length" l.maxSqlLength standard.maxSqlLength,
        chosen entries "max_file_size" l.maxFileSize standard.maxFileSize,
        chosen entries "max_memory_usage" l.maxMemoryUsage standard.maxMemoryUsage,
        chosen entries "max_table_count" l.maxTableCount standard.maxTableCount,
        chosen entries "max_field_count" l.maxFieldCount standard.maxFieldCount⟩ :=
  OptionReading.IsClean.start entries standard
    |>.field "maxSqlLength" "max_sql_length" (.inr (hkeys.not_mem (by decide)))
      standard.maxSqlLength rfl hsql
    |>.field "maxFileSize" "max_file_size" (.inr (hkeys.not_mem (by decide)))
      standard.maxFileSize rfl hfile
    |>.field "maxMemoryUsage" "max_memory_usage" (.inr (hkeys.not_mem (by decide)))
      standard.maxMemoryUsage rfl hmemory
    |>.field "maxTableCount" "max_table_count" (.inr (hkeys.not_mem (by decide)))
      standard.maxTableCount rfl htable
    |>.field "maxFieldCount" "max_field_count" (.inr (hkeys.not_mem (by decide)))
      standard.maxFieldCount rfl hfield
    |>.finish .limits (hkeys.subset (by decide))

end TableTypes
