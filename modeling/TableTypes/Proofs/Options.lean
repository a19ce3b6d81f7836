import TableTypes.Options.Merge
import TableTypes.Proofs.Naming.Identifier

/-!
# What accepted options keep

Options are read one by one into those that are there already, and each is set only to a value that
it accepts.  So what holds of the standard options, and is kept when an accepted value is set, holds
of all options that are given out (`OptionReading.holds_field`, `OptionReading.value_of_finish`).
In particular the affixes of names are made of the characters of identifiers
(`GeneratorOptions.hasAffixes_of_ofEntries`).
-/

namespace TableTypes

namespace OptionReading

variable {α β : Type} {r : OptionReading α} {entries : OrderedMap Setting}

/-- One more option keeps what its accepted values keep. -/
theorem holds_field {P : α → Prop} {accept : Setting → Except OptionProblem β} {set : α → β → α}
    (camel snake : String) (hset : ∀ a s b, accept s = .ok b → P a → P (set a b))
    (hr : P r.value) : P (r.field entries camel snake accept set).value := by
  rw [field]
  split
  · exact hr
  · rename_i key s hfound
    split
    · rename_i b hb
      exact hset r.value s b hb hr
    · exact hr

/-- Options that are given out are those that were read. -/
theorem value_of_finish {s : Section} {a : α} (h : r.finish s entries = .ok a) : a = r.value := by
  unfold finish at h
  dsimp only at h
  split at h
  · exact (Except.ok.inj h).symm
  · cases h

end OptionReading

/-! ### Affixes of names -/

/-- The affixes that names can have: nothing or an identifier in front, and characters of
identifiers behind. -/
structure GeneratorOptions.HasAffixes (o : GeneratorOptions) : Prop where
  namePrefix : o.namePrefix = [] ∨ IdentifierName o.namePrefix
  nameSuffix : ∀ c ∈ o.nameSuffix, IdentifierPart c

theorem eq_nil_or_identifierName_of_accept {s : Setting} {t : Text}
    (h : acceptNamePrefix s = .ok t) : t = [] ∨ IdentifierName t := by
  unfold acceptNamePrefix at h
  split at h
  · split_ifs at h with hname
    obtain rfl := Except.ok.inj h
    rwa [Bool.or_eq_true, List.isEmpty_iff, isIdentifier_iff] at hname
  · cases h

theorem identifierPart_of_accept {s : Setting} {t : Text} (h : acceptNameSuffix s = .ok t) :
    ∀ c ∈ t, IdentifierPart c := by
  unfold acceptNameSuffix at h
  split at h
  · split_ifs at h with hname
    obtain rfl := Except.ok.inj h
    exact fun c hc => isIdentifierChar_iff.mp (List.all_eq_true.mp hname c hc)
  · cases h

namespace GeneratorOptions

theorem hasAffixes_standard : standard.HasAffixes :=
  ⟨Or.inl rfl, fun _ hc => nomatch hc⟩

/-- **Options that are accepted have affixes that names can have.** -/
theorem hasAffixes_of_ofEntries {entries : OrderedMap Setting} {o : GeneratorOptions}
    (h : ofEntries entries = .ok o) : o.HasAffixes := by
  rw [OptionReading.value_of_finish h]
  -- Every option but the two affixes leaves them as they are.
  have hkeep : ∀ {o o' : GeneratorOptions}, o'.namePrefix = o.namePrefix →
      o'.nameSuffix = o.nameSuffix → o.HasAffixes → o'.HasAffixes := by
    intro o o' hfront hback ho
    exact ⟨hfront ▸ ho.namePrefix, hback ▸ ho.nameSuffix⟩
  refine OptionReading.holds_field _ _ (fun _ _ _ _ => hkeep rfl rfl) ?_
  refine OptionReading.holds_field _ _ (fun _ _ _ _ => hkeep rfl rfl) ?_
  refine OptionReading.holds_field _ _
    (fun _ _ _ hb ho => ⟨ho.namePrefix, identifierPart_of_accept hb⟩) ?_
  refine OptionReading.holds_field _ _
    (fun _ _ _ hb ho => ⟨eq_nil_or_identifierName_of_accept hb, ho.nameSuffix⟩) ?_
  refine OptionReading.holds_field _ _ (fun _ _ _ _ => hkeep rfl rfl) ?_
  refine OptionReading.holds_field _ _ (fun _ _ _ _ => hkeep rfl rfl) ?_
  exact hasAffixes_standard

end GeneratorOptions

end TableTypes
