import TableTypes.Proofs.Naming.Identifier
import TableTypes.Proofs.Text.Replace

/-!
# Names of properties

The key of a property stands for the converted name of its column (`keyName?`): an unquoted key for
itself, and a quoted key for what is between its quotes when each backslash there is read together
with the character behind it (`unescape?`).  The two replacements that quote a name come to one pass
that escapes character by character (`quoteName_eq`), which `unescape?` undoes
(`unescape?_flatMap_keyChar`).  So columns with different converted names have different keys
(`propertyName_encodes`).
-/

namespace TableTypes

open Text

variable {name : Text}

/-! ### Escaping -/

theorem Text.replace_singleton (x : Char) (new t : Text) :
    replace [x] new t = t.flatMap fun c => if c = x then new else [c] := by
  induction t with
  | nil => rfl
  | cons c t ih =>
    rw [List.flatMap_cons, ← ih]
    by_cases hc : c = x
    · subst hc
      have hafter : after? [c] (c :: ([] ++ t)) = some t := after?_eq_some_iff.mpr rfl
      rw [if_pos rfl]
      exact replaceAll_match hafter
    · have hafter : after? [x] (c :: t) = none :=
        after?_eq_none fun r hr => hc (List.cons.inj hr).1
      rw [if_neg hc, replace_cons hafter]
      rfl

/-- A character as it is written in a quoted key. -/
def keyChar (c : Char) : Text :=
  if c = '\\' ∨ c = '\'' then ['\\', c] else [c]

/-- The escapes that the two replacements write are those of one pass, since the first of them
writes no quote. -/
theorem quoteName_eq (name : Text) : quoteName name = '\'' :: (name.flatMap keyChar ++ ['\'']) := by
  have hone : ∀ c, (if c = '\\' then ['\\', '\\'] else [c]).flatMap
      (fun c => if c = '\'' then ['\\', '\''] else [c]) = keyChar c := by
    intro c
    by_cases hslash : c = '\\'
    · subst hslash
      rfl
    · by_cases hquote : c = '\''
      · subst hquote
        rfl
      · simp [keyChar, hslash, hquote]
  rw [quoteName, replace_singleton, replace_singleton, List.flatMap_assoc]
  simp only [hone]
  rfl

/-- Whether the text ends with a backslash that escapes what follows, when it is read from the left
and each backslash is taken together with the character behind it. -/
def endsEscaping : Text → Bool
  | [] => false
  | ['\\'] => true
  | '\\' :: _ :: t => endsEscaping t
  | _ :: t => endsEscaping t

/-- Whether no quote stands in the text without an escaping backslash before it. -/
def QuotesEscaped (t : Text) : Prop :=
  ∀ x y, t = x ++ '\'' :: y → endsEscaping x = true

theorem endsEscaping_cons {c : Char} (hc : c ≠ '\\') (t : Text) :
    endsEscaping (c :: t) = endsEscaping t := by
  rw [endsEscaping]
  · exact fun h _ => hc h
  · exact fun d u h _ => hc h

theorem quotesEscaped_append {t : Text} (ht : QuotesEscaped t) (c : Char) :
    QuotesEscaped (keyChar c ++ t) := by
  intro x y hsplit
  rw [keyChar] at hsplit
  split_ifs at hsplit with hc
  · -- The pair stands in front of the quote, or the quote is the second of the pair.
    match x with
    | [] => exact absurd (List.cons.inj hsplit).1 (by decide)
    | [d] =>
      obtain rfl := (List.cons.inj hsplit).1
      rfl
    | d :: e :: x =>
      obtain ⟨hd, hsplit⟩ := List.cons.inj hsplit
      rw [← hd]
      exact ht x y (List.cons.inj hsplit).2
  · rw [not_or] at hc
    match x with
    | [] => exact absurd (List.cons.inj hsplit).1 hc.2
    | d :: x =>
      obtain ⟨hd, hsplit⟩ := List.cons.inj hsplit
      rw [← hd, endsEscaping_cons hc.1]
      exact ht x y hsplit

theorem quotesEscaped_flatMap (name : Text) : QuotesEscaped (name.flatMap keyChar) := by
  induction name with
  | nil => intro x y h; simp at h
  | cons c name ih => exact quotesEscaped_append ih c

/-! ### Reading a key -/

/-- What a text between single quotes stands for.  A backslash stands for the backslash or the quote
behind it; a quote without a backslash before it, or a backslash before anything else, cannot
be read. -/
def unescape? : Text → Option Text
  | [] => some []
  | '\\' :: '\\' :: t => (unescape? t).map ('\\' :: ·)
  | '\\' :: '\'' :: t => (unescape? t).map ('\'' :: ·)
  | '\\' :: _ => none
  | '\'' :: _ => none
  | c :: t => (unescape? t).map (c :: ·)

theorem unescape?_keyChar (c : Char) (t : Text) :
    unescape? (keyChar c ++ t) = (unescape? t).map (c :: ·) := by
  by_cases hslash : c = '\\'
  · subst hslash
    rfl
  · by_cases hquote : c = '\''
    · subst hquote
      rfl
    · rw [keyChar, if_neg (by simp [hslash, hquote]), List.singleton_append]
      rw [unescape?]
      all_goals simp_all

/-- Escaping is undone. -/
theorem unescape?_flatMap_keyChar (name : Text) : unescape? (name.flatMap keyChar) = some name := by
  induction name with
  | nil => rfl
  | cons c name ih => rw [List.flatMap_cons, unescape?_keyChar, ih, Option.map_some]

/-- The name that the key of a property stands for. -/
def keyName? : Text → Option Text
  | '\'' :: t => if t.getLast? = some '\'' then unescape? t.dropLast else none
  | key => if isIdentifier key then some key else none

theorem keyName?_quoteName (name : Text) : keyName? (quoteName name) = some name := by
  rw [quoteName_eq, keyName?, List.getLast?_concat, if_pos rfl, List.dropLast_concat,
    unescape?_flatMap_keyChar]

theorem keyName?_of_identifierName (h : IdentifierName name) : keyName? name = some name := by
  unfold keyName?
  split
  · exact absurd rfl (h.not_isQuotedKey (t := _) [])
  · rw [if_pos (isIdentifier_iff.mpr h)]

/-! ### Keys -/

section

variable {o : GeneratorOptions} {column : Text} (hline : '\n' ∉ o.naming.apply column)
include hline

theorem propertyName_cases :
    (o.propertyName column = o.naming.apply column ∧ IdentifierName (o.naming.apply column)) ∨
      o.propertyName column = quoteName (o.naming.apply column) := by
  rw [GeneratorOptions.propertyName]
  split_ifs with hplain
  · left
    exact ⟨rfl, (isPlainName_iff.mp hplain).resolve_right fun h => hline h.newline_mem⟩
  · exact Or.inr rfl

theorem keyName?_propertyName :
    keyName? (o.propertyName column) = some (o.naming.apply column) := by
  obtain ⟨hkey, hname⟩ | hkey := propertyName_cases hline
  · rw [hkey, keyName?_of_identifierName hname]
  · rw [hkey, keyName?_quoteName]

end

/-- **The key of a property stands for the converted name.**  For a converted name without a newline
the key is the name itself, which is an identifier then, or the name between quotes with the quotes
in it escaped; either way the name is read off the key again.  So names that are left as they are
and have no newline have different keys. -/
theorem propertyName_encodes (o : GeneratorOptions) {column : Text}
    (hline : '\n' ∉ o.naming.apply column) :
    ((o.propertyName column = o.naming.apply column ∧
        IdentifierName (o.naming.apply column)) ∨
      ∃ body, o.propertyName column = '\'' :: (body ++ ['\'']) ∧ QuotesEscaped body ∧
        unescape? body = some (o.naming.apply column)) ∧
    keyName? (o.propertyName column) = some (o.naming.apply column) ∧
    (o.naming = .preserve → ∀ other, '\n' ∉ other →
      o.propertyName column = o.propertyName other → column = other) := by
  refine ⟨?_, keyName?_propertyName hline, fun hnaming other hother hsame => ?_⟩
  · refine (propertyName_cases hline).imp_right fun hkey => ?_
    exact ⟨_, hkey.trans (quoteName_eq _), quotesEscaped_flatMap _, unescape?_flatMap_keyChar _⟩
  · have happly : ∀ c, o.naming.apply c = c := fun c => by rw [hnaming]; rfl
    have hread : some (o.naming.apply column) = some (o.naming.apply other) := by
      rw [← keyName?_propertyName hline, hsame, keyName?_propertyName (by rwa [happly])]
    rw [happly, happly] at hread
    exact Option.some.inj hread

/-- A name with a quote, a backslash before a quote and a backslash at its end is quoted, and is
neither the key of the name without the first backslash nor that of an identifier. -/
theorem propertyName_encodes_backslashes :
    '\n' ∉ GeneratorOptions.standard.naming.apply "it's\\'\\".toList ∧
    GeneratorOptions.standard.propertyName "it's\\'\\".toList =
      "'it\\'s\\\\\\'\\\\'".toList ∧
    keyName? (GeneratorOptions.standard.propertyName "it's\\'\\".toList) =
      some "it's\\'\\".toList ∧
    GeneratorOptions.standard.propertyName "it's\\'\\".toList ≠
      GeneratorOptions.standard.propertyName "it's'\\".toList := by
  have hline : '\n' ∉ GeneratorOptions.standard.naming.apply "it's\\'\\".toList := by decide
  obtain ⟨-, hkey, hdistinct⟩ := propertyName_encodes GeneratorOptions.standard hline
  refine ⟨hline, by decide, hkey, fun hsame => ?_⟩
  exact absurd (hdistinct rfl _ (by decide) hsame) (by decide)

end TableTypes
