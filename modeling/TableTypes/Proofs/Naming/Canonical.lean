import TableTypes.Proofs.Naming
import TableTypes.Proofs.Naming.Affixes
import TableTypes.Proofs.Text.Lower
import TableTypes.Proofs.Text.Search

/-!
# Canonical names

A canonical name is one of words in lower case, joined by underscores (`SnakeName`).  Snake case
gives it back from its camel case and from its Pascal case, so that two canonical names have
different ones, and each of the three conventions leaves a name as it is that it has written, of
whatever ASCII text (`naming_canonical`).

Camel case turns the words behind the first one into their capitalized forms
(`joinParts_flatMap_underscore`), and snake case cuts just in front of each of those
(`humps_flatMap_capitalize`).
-/

namespace TableTypes

open Text

variable {c : Char} {t u w : Text} {ws ps : List Text} {p : Text} {before : Option Char}

/-! ### The characters of canonical names -/

/-- Whether `c` is a lower-case ASCII letter. -/
def isAsciiLower (c : Char) : Bool :=
  'a' ≤ c && c ≤ 'z'

/-- Whether snake case writes `c`: whether it is an ASCII letter, an ASCII digit or an underscore,
and no capital. -/
def isSnakeChar (c : Char) : Bool :=
  isAsciiWord c && !isAsciiUpper c

theorem isAsciiLower_iff : isAsciiLower c = true ↔ 97 ≤ c.toNat ∧ c.toNat ≤ 122 := by
  simp only [isAsciiLower, Bool.and_eq_true, decide_eq_true_eq]
  exact Iff.rfl

theorem isAsciiUpper_iff : isAsciiUpper c = true ↔ 65 ≤ c.toNat ∧ c.toNat ≤ 90 := by
  simp only [isAsciiUpper, Bool.and_eq_true, decide_eq_true_eq]
  exact Iff.rfl

theorem isAsciiWord_of_isAsciiUpper (hc : isAsciiUpper c = true) : isAsciiWord c = true :=
  isAsciiWord_iff.mpr (Or.inr (Or.inl (isAsciiUpper_iff.mp hc)))

theorem ne_space_of_isAsciiWord (hc : isAsciiWord c = true) : c ≠ ' ' := by
  rintro rfl
  cases hc

theorem isSnakeChar_iff : isSnakeChar c = true ↔ isAsciiWord c = true ∧ isAsciiUpper c = false := by
  rw [isSnakeChar, Bool.and_eq_true, Bool.not_eq_true']

theorem isSnakeChar_of_isAsciiLower (hc : isAsciiLower c = true) : isSnakeChar c = true := by
  rw [isAsciiLower_iff] at hc
  rw [isSnakeChar_iff, isAsciiWord_iff, ← Bool.not_eq_true, isAsciiUpper_iff]
  omega

theorem isSnakeChar_of_isAsciiDigit (hc : isAsciiDigit c = true) : isSnakeChar c = true := by
  rw [isAsciiDigit_iff] at hc
  rw [isSnakeChar_iff, isAsciiWord_iff, ← Bool.not_eq_true, isAsciiUpper_iff]
  omega

theorem lowerChar_of_isSnakeChar (hc : isSnakeChar c = true) : lowerChar c = [c] := by
  have hlower := of_ascii (p := fun c => !isSnakeChar c || lowerChar c = [c]) (by decide +kernel)
    (lt_of_isAsciiWord (isSnakeChar_iff.mp hc).1)
  rwa [hc, Bool.not_true, Bool.false_or, decide_eq_true_eq] at hlower

/-- Lowering a word character of ASCII gives one that snake case writes. -/
theorem isSnakeChar_toLower (hc : isAsciiWord c = true) : isSnakeChar c.toLower = true := by
  have hlower := of_ascii (p := fun c => !isAsciiWord c || isSnakeChar c.toLower)
    (by decide +kernel) (lt_of_isAsciiWord hc)
  rwa [hc, Bool.not_true, Bool.false_or] at hlower

/-- A small letter is raised to a capital that is lowered to it. -/
theorem upperChar_of_isAsciiLower (hc : isAsciiLower c = true) : isTitle c = false ∧
    upperChar c = [c.toUpper] ∧ isAsciiUpper c.toUpper = true ∧ c.toUpper.toLower = c := by
  have hupper := of_ascii (p := fun c => !isAsciiLower c || (!isTitle c &&
    (upperChar c = [c.toUpper] && (isAsciiUpper c.toUpper && c.toUpper.toLower = c))))
    (by decide +kernel) (lt_of_isAsciiWord (isSnakeChar_iff.mp (isSnakeChar_of_isAsciiLower hc)).1)
  rw [hc, Bool.not_true, Bool.false_or] at hupper
  simpa only [Bool.and_eq_true, Bool.not_eq_true', decide_eq_true_eq] using hupper

/-- In ASCII, raising a letter twice is raising it once. -/
theorem upperChar_ascii (hc : c.toNat < 0x80) : isTitle c = false ∧ upperChar c = [c.toUpper] ∧
    isTitle c.toUpper = false ∧ upperChar c.toUpper = [c.toUpper] ∧ c.toUpper.toNat < 0x80 := by
  have hupper := of_ascii (p := fun c => !isTitle c && (upperChar c = [c.toUpper] &&
    (!isTitle c.toUpper && (upperChar c.toUpper = [c.toUpper] && c.toUpper.toNat < 0x80))))
    (by decide +kernel) hc
  simpa only [Bool.and_eq_true, Bool.not_eq_true', decide_eq_true_eq] using hupper

/-! ### Words -/

/-- The word begins with a small letter and goes on with small letters and digits. -/
def SnakeWord (w : Text) : Prop :=
  ∃ c u, w = c :: u ∧ isAsciiLower c = true ∧
    ∀ d ∈ u, isAsciiLower d = true ∨ isAsciiDigit d = true

instance : DecidablePred SnakeWord
  | [] => isFalse fun ⟨_, _, h, _⟩ => List.cons_ne_nil _ _ h.symm
  | c :: u => decidable_of_iff
      (isAsciiLower c = true ∧ u.all (fun d => isAsciiLower d || isAsciiDigit d) = true) <| by
    simp [SnakeWord]

/-- A name in snake case, by its words. -/
structure SnakeName where
  words : List Text
  words_ne_nil : words ≠ []
  word : ∀ w ∈ words, SnakeWord w

/-- The name as a text, with an underscore between each two words. -/
def SnakeName.text (s : SnakeName) : Text :=
  join ['_'] s.words

namespace SnakeWord

theorem isSnakeChar_tail (hu : ∀ d ∈ u, isAsciiLower d = true ∨ isAsciiDigit d = true) :
    ∀ d ∈ u, isSnakeChar d = true :=
  fun d hd => (hu d hd).elim isSnakeChar_of_isAsciiLower isSnakeChar_of_isAsciiDigit

theorem isSnakeChar_of_mem (hw : SnakeWord w) : ∀ c ∈ w, isSnakeChar c = true := by
  obtain ⟨c, u, rfl, hc, hu⟩ := hw
  exact List.forall_mem_cons.mpr ⟨isSnakeChar_of_isAsciiLower hc, isSnakeChar_tail hu⟩

theorem isSeparator_of_mem (hw : SnakeWord w) : ∀ c ∈ w, isSeparator c = false := by
  have hpart : ∀ d, isAsciiLower d = true ∨ isAsciiDigit d = true → isSeparator d = false := by
    intro d hd
    rw [isSeparator, Bool.or_eq_false_iff, decide_eq_false_iff_not, decide_eq_false_iff_not]
    constructor
    · rintro rfl
      exact absurd hd (by decide)
    · rintro rfl
      exact absurd hd (by decide)
  obtain ⟨c, u, rfl, hc, hu⟩ := hw
  exact List.forall_mem_cons.mpr ⟨hpart c (Or.inl hc), fun d hd => hpart d (hu d hd)⟩

theorem lower_eq (hw : SnakeWord w) : lower w = w :=
  lower_eq_self fun c hc => lowerChar_of_isSnakeChar (hw.isSnakeChar_of_mem c hc)

/-- A capitalized word is a capital in front of what is no capital. -/
theorem exists_capitalize (hw : SnakeWord w) : ∃ c u, capitalize w = c :: u ∧
    isAsciiUpper c = true ∧ ∀ d ∈ u, isSnakeChar d = true := by
  obtain ⟨c, u, rfl, hc, hu⟩ := hw
  obtain ⟨-, hraise, hupper, -⟩ := upperChar_of_isAsciiLower hc
  exact ⟨c.toUpper, u, by rw [capitalize_cons, hraise]; rfl, hupper, isSnakeChar_tail hu⟩

theorem isAsciiWord_of_mem_capitalize (hw : SnakeWord w) :
    ∀ c ∈ capitalize w, isAsciiWord c = true := by
  obtain ⟨c, u, hcap, hc, hu⟩ := hw.exists_capitalize
  rw [hcap, List.forall_mem_cons]
  exact ⟨isAsciiWord_of_isAsciiUpper hc, fun d hd => (isSnakeChar_iff.mp (hu d hd)).1⟩

theorem lower_capitalize (hw : SnakeWord w) : lower (capitalize w) = w := by
  rw [lower_ascii fun c hc => lt_of_isAsciiWord (hw.isAsciiWord_of_mem_capitalize c hc)]
  have hlower := hw.lower_eq
  rw [lower_ascii fun c hc => lt_of_isAsciiWord (isSnakeChar_iff.mp (hw.isSnakeChar_of_mem c hc)).1]
    at hlower
  obtain ⟨c, u, rfl, hc, -⟩ := hw
  obtain ⟨-, hraise, -, hback⟩ := upperChar_of_isAsciiLower hc
  rw [capitalize_cons, hraise, List.singleton_append, List.map_cons, hback]
  rw [List.map_cons] at hlower
  rw [(List.cons.inj hlower).2]

end SnakeWord

/-! ### Leaving the separators out -/

theorem joinParts_append (hu : ∀ c ∈ u, isSeparator c = false) (t : Text) :
    joinParts false (u ++ t) = u ++ joinParts false t := by
  induction u with
  | nil => rfl
  | cons c u ih =>
    rw [List.forall_mem_cons] at hu
    rw [List.cons_append, joinParts, if_neg (ne_true_of_eq_false hu.1), ih hu.2]
    rfl

/-- Each word behind an underscore is capitalized. -/
theorem joinParts_flatMap_underscore (hws : ∀ w ∈ ws, SnakeWord w) :
    joinParts false (ws.flatMap (['_'] ++ ·)) = ws.flatMap capitalize := by
  induction ws with
  | nil => rfl
  | cons w ws ih =>
    rw [List.forall_mem_cons] at hws
    have hword := hws.1.isSeparator_of_mem
    obtain ⟨c, u, rfl, hc, -⟩ := hws.1
    rw [List.forall_mem_cons] at hword
    have hraised : (true && decide (c ≠ '\n')) = true := by
      rw [Bool.true_and, decide_eq_true_eq]
      rintro rfl
      cases hc
    rw [List.flatMap_cons, List.flatMap_cons, List.append_assoc, List.cons_append,
      List.cons_append, List.nil_append, joinParts, if_pos (by decide), joinParts,
      if_neg (ne_true_of_eq_false hword.1), if_pos hraised, joinParts_append hword.2, ih hws.2,
      capitalize_cons, List.append_assoc]

/-! ### Cutting in front of capitals -/

theorem spaceOut_eq_self (h : ∀ c ∈ t, isWord c = true) : spaceOut t = t := by
  fun_induction spaceOut t with
  | case1 => rfl
  | case2 c hc => rfl
  | case3 c hc => exact absurd (h c List.mem_cons_self) hc
  | case4 c d t hc ih => rw [ih fun e he => h e (List.mem_cons_of_mem c he)]
  | case5 c d t hc => exact absurd (h c List.mem_cons_self) hc
  | case6 c d t hc => exact absurd (h c List.mem_cons_self) hc

theorem humps_cons (hc : c ≠ ' ') (h : humps (some c) t = p :: ps) : humps before (c :: t) =
    if isAsciiUpper c && before.any isWord then [] :: (c :: p) :: ps else (c :: p) :: ps := by
  rw [humps, if_neg hc, h]

/-- Nothing is cut in front of what is no capital. -/
theorem humps_append (hu : ∀ c ∈ u, isSnakeChar c = true)
    (h : humps (u.getLast?.or before) t = p :: ps) : humps before (u ++ t) = (u ++ p) :: ps := by
  induction u generalizing before with
  | nil => exact h
  | cons c u ih =>
    rw [List.forall_mem_cons] at hu
    obtain ⟨hword, hupper⟩ := isSnakeChar_iff.mp hu.1
    rw [getLast?_cons_or] at h
    rw [List.cons_append, humps_cons (ne_space_of_isAsciiWord hword) (ih hu.2 h), hupper]
    rfl

theorem any_isWord_getLast?_or (hu : ∀ d ∈ u, isSnakeChar d = true) (hc : isWord c = true) :
    (u.getLast?.or (some c)).any isWord = true := by
  cases hlast : u.getLast? with
  | none => exact hc
  | some d =>
    have hd := hu d (List.mem_of_getLast? hlast)
    exact isWord_of_isAsciiWord (isSnakeChar_iff.mp hd).1

/-- In front of a capitalized word is a cut, if a word character is in front of it. -/
theorem SnakeWord.humps_capitalize (hw : SnakeWord w)
    (h : ∀ b : Option Char, b.any isWord = true → humps b t = [] :: ps) :
    humps before (capitalize w ++ t) =
      if before.any isWord then [] :: capitalize w :: ps else capitalize w :: ps := by
  obtain ⟨c, u, hcap, hc, hu⟩ := hw.exists_capitalize
  have hword := isAsciiWord_of_isAsciiUpper hc
  have hrest := humps_append hu (h _ (any_isWord_getLast?_or hu (isWord_of_isAsciiWord hword)))
  rw [hcap, List.cons_append, humps_cons (ne_space_of_isAsciiWord hword) hrest, hc, Bool.true_and,
    List.append_nil]

theorem humps_flatMap_capitalize (hws : ∀ w ∈ ws, SnakeWord w) :
    ∀ before : Option Char, before.any isWord = true →
      humps before (ws.flatMap capitalize) = [] :: ws.map capitalize := by
  induction ws with
  | nil => exact fun _ _ => rfl
  | cons w ws ih =>
    rw [List.forall_mem_cons] at hws
    intro before hbefore
    rw [List.flatMap_cons, hws.1.humps_capitalize (ih hws.2), if_pos hbefore, List.map_cons]

theorem isWord_of_mem_flatMap_capitalize (hws : ∀ w ∈ ws, SnakeWord w) :
    ∀ c ∈ ws.flatMap capitalize, isWord c = true := by
  intro c hc
  obtain ⟨w, hw, hc⟩ := List.mem_flatMap.mp hc
  exact isWord_of_isAsciiWord ((hws w hw).isAsciiWord_of_mem_capitalize c hc)

theorem map_lower_capitalize (hws : ∀ w ∈ ws, SnakeWord w) :
    (ws.map capitalize).map lower = ws := by
  rw [List.map_map]
  exact (List.map_congr_left fun w hw => (hws w hw).lower_capitalize).trans (List.map_id ws)

/-! ### There and back -/

theorem toSnakeCase_eq (h : ∀ c ∈ t, isWord c = true) :
    toSnakeCase t = join ['_'] ((humps none t).map lower) := by
  rw [toSnakeCase, spaceOut_eq_self h]

namespace SnakeName

/-- Without its underscores a name is its first word and the other ones capitalized. -/
theorem exists_joinParts (s : SnakeName) : ∃ c u ws, s.words = (c :: u) :: ws ∧
    SnakeWord (c :: u) ∧ (∀ w ∈ ws, SnakeWord w) ∧
    joinParts false s.text = c :: u ++ ws.flatMap capitalize := by
  obtain ⟨w, ws, hwords⟩ := List.exists_cons_of_ne_nil s.words_ne_nil
  have hall := s.word
  rw [hwords, List.forall_mem_cons] at hall
  have hjoin : joinParts false s.text = w ++ ws.flatMap capitalize := by
    rw [text, hwords, join_cons, joinParts_append hall.1.isSeparator_of_mem,
      joinParts_flatMap_underscore hall.2]
  obtain ⟨c, u, rfl, -⟩ := id hall.1
  exact ⟨c, u, ws, hwords, hall.1, hall.2, hjoin⟩

theorem toSnakeCase_toCamelCase (s : SnakeName) : toSnakeCase (toCamelCase s.text) = s.text := by
  obtain ⟨c, u, ws, hwords, hw, hws, hjoin⟩ := s.exists_joinParts
  have hchars := hw.isSnakeChar_of_mem
  rw [List.forall_mem_cons] at hchars
  obtain ⟨hc, hu⟩ := hchars
  have hcamel : toCamelCase s.text = c :: u ++ ws.flatMap capitalize := by
    rw [toCamelCase, hjoin, List.cons_append, lowerFirst, lowerChar_of_isSnakeChar hc, ite_self]
    rfl
  have hword : ∀ d ∈ c :: u, isWord d = true := fun d hd =>
    isWord_of_isAsciiWord (isSnakeChar_iff.mp (hw.isSnakeChar_of_mem d hd)).1
  have hrest : humps ((c :: u).getLast?.or none) (ws.flatMap capitalize) =
      [] :: ws.map capitalize := by
    rw [getLast?_cons_or]
    exact humps_flatMap_capitalize hws _ (any_isWord_getLast?_or hu (hword c List.mem_cons_self))
  rw [hcamel, toSnakeCase_eq (List.forall_mem_append.mpr
    ⟨hword, isWord_of_mem_flatMap_capitalize hws⟩), humps_append hw.isSnakeChar_of_mem hrest,
    List.append_nil, List.map_cons, hw.lower_eq, map_lower_capitalize hws, text, hwords]

theorem toSnakeCase_toPascalCase (s : SnakeName) : toSnakeCase (toPascalCase s.text) = s.text := by
  obtain ⟨c, u, ws, hwords, hw, hws, hjoin⟩ := s.exists_joinParts
  have hc : isTitle c = false := by
    obtain ⟨c, u, heq, hc, -⟩ := id hw
    rw [(List.cons.inj heq).1]
    exact (upperChar_of_isAsciiLower hc).1
  have hpascal : toPascalCase s.text = ((c :: u) :: ws).flatMap capitalize := by
    rw [toPascalCase, hjoin, List.cons_append, raiseFirst, if_neg (ne_true_of_eq_false hc),
      List.flatMap_cons, capitalize_cons, List.append_assoc]
  have hhumps : humps none (((c :: u) :: ws).flatMap capitalize) =
      ((c :: u) :: ws).map capitalize := by
    rw [List.flatMap_cons, hw.humps_capitalize (humps_flatMap_capitalize hws)]
    rfl
  have hall : ∀ w ∈ (c :: u) :: ws, SnakeWord w := List.forall_mem_cons.mpr ⟨hw, hws⟩
  rw [hpascal, toSnakeCase_eq (isWord_of_mem_flatMap_capitalize hall), hhumps,
    map_lower_capitalize hall, text, hwords]

theorem text_eq_of_toCamelCase {s s' : SnakeName} (h : toCamelCase s.text = toCamelCase s'.text) :
    s.text = s'.text := by
  rw [← s.toSnakeCase_toCamelCase, h, s'.toSnakeCase_toCamelCase]

theorem text_eq_of_toPascalCase {s s' : SnakeName}
    (h : toPascalCase s.text = toPascalCase s'.text) : s.text = s'.text := by
  rw [← s.toSnakeCase_toPascalCase, h, s'.toSnakeCase_toPascalCase]

end SnakeName

/-! ### Written twice -/

theorem isCaseless_of_isSeparator (hc : isSeparator c = true) : isCaseless c = true := by
  rw [isSeparator, Bool.or_eq_true, decide_eq_true_eq, decide_eq_true_eq] at hc
  obtain rfl | rfl := hc <;> decide

theorem not_mem_joinParts_of_isSeparator {x : Char} (hx : isSeparator x = true) (t : Text) :
    ∀ raised, x ∉ joinParts raised t := by
  have hcase := isCaseless_of_isSeparator hx
  induction t with
  | nil => exact fun _ => List.not_mem_nil
  | cons c t ih =>
    intro raised
    rw [joinParts]
    split_ifs with hc hupper
    · exact ih true
    · rw [List.mem_append, mem_upperChar hcase, not_or]
      exact ⟨fun heq => hc (heq ▸ hx), ih false⟩
    · rw [List.mem_append, List.mem_singleton, not_or]
      exact ⟨fun heq => hc (heq ▸ hx), ih false⟩

theorem joinParts_eq_self (h : ∀ c, isSeparator c = true → c ∉ t) : joinParts false t = t := by
  have hnone : ∀ c ∈ t, isSeparator c = false := fun c hc =>
    Bool.eq_false_iff.mpr fun hsep => h c hsep hc
  have happend := joinParts_append hnone []
  rwa [List.append_nil, joinParts, List.append_nil] at happend

theorem lowerFirst_lowerFirst (t : Text) : lowerFirst (lowerFirst t) = lowerFirst t := by
  cases t with
  | nil => rfl
  | cons c t =>
    by_cases hc : isTitle c = true
    · rw [lowerFirst, if_pos hc, List.singleton_append, lowerFirst, if_pos hc]
      rfl
    · obtain ⟨d, u, hlower⟩ := List.exists_cons_of_ne_nil (lowerChar_ne_nil c)
      have hd : lowerChar d = [d] := lowerChar_of_mem (hlower ▸ List.mem_cons_self)
      rw [lowerFirst, if_neg hc, hlower, List.cons_append, lowerFirst, hd, ite_self]
      rfl

theorem toCamelCase_toCamelCase (t : Text) : toCamelCase (toCamelCase t) = toCamelCase t := by
  have hparts : joinParts false (toCamelCase t) = toCamelCase t :=
    joinParts_eq_self fun c hsep => not_mem_lowerFirst (isCaseless_of_isSeparator hsep)
      (not_mem_joinParts_of_isSeparator hsep t false)
  rw [toCamelCase, hparts, toCamelCase, lowerFirst_lowerFirst]

theorem raiseFirst_raiseFirst (h : ∀ c ∈ t.head?, c.toNat < 0x80) :
    raiseFirst (raiseFirst t) = raiseFirst t := by
  cases t with
  | nil => rfl
  | cons c t =>
    obtain ⟨htitle, hupper, htitle', hupper', -⟩ := upperChar_ascii (h c rfl)
    rw [raiseFirst, if_neg (ne_true_of_eq_false htitle), hupper, List.singleton_append, raiseFirst,
      if_neg (ne_true_of_eq_false htitle'), hupper']
    rfl

theorem joinParts_ascii (h : ∀ c ∈ t, c.toNat < 0x80) :
    ∀ raised, ∀ c ∈ joinParts raised t, c.toNat < 0x80 := by
  induction t with
  | nil => exact fun _ c hc => nomatch hc
  | cons c t ih =>
    rw [List.forall_mem_cons] at h
    intro raised
    rw [joinParts]
    split_ifs with hc hupper
    · exact ih h.2 true
    · obtain ⟨-, hraise, -, -, hascii⟩ := upperChar_ascii h.1
      rw [hraise, List.singleton_append, List.forall_mem_cons]
      exact ⟨hascii, ih h.2 false⟩
    · rw [List.singleton_append, List.forall_mem_cons]
      exact ⟨h.1, ih h.2 false⟩

theorem toPascalCase_toPascalCase (h : ∀ c ∈ t, c.toNat < 0x80) :
    toPascalCase (toPascalCase t) = toPascalCase t := by
  have hparts : joinParts false (toPascalCase t) = toPascalCase t :=
    joinParts_eq_self fun c hsep => not_mem_raiseFirst (isCaseless_of_isSeparator hsep)
      (not_mem_joinParts_of_isSeparator hsep t false)
  rw [toPascalCase, hparts, toPascalCase, raiseFirst_raiseFirst fun c hc =>
    joinParts_ascii h false c (List.mem_of_mem_head? hc)]

theorem mem_spaceOut (h : c ∈ spaceOut t) : c = ' ' ∨ c ∈ t ∧ isWord c = true := by
  fun_induction spaceOut t with
  | case1 => cases h
  | case2 d hd =>
    obtain rfl := List.mem_singleton.mp h
    exact Or.inr ⟨h, hd⟩
  | case3 d hd => exact Or.inl (List.mem_singleton.mp h)
  | case4 d e t hd ih =>
    obtain rfl | h := List.mem_cons.mp h
    · exact Or.inr ⟨List.mem_cons_self, hd⟩
    · exact (ih h).imp_right (And.imp_left (List.mem_cons_of_mem d))
  | case5 d e t hd he ih =>
    obtain rfl | h := List.mem_cons.mp h
    · exact Or.inl rfl
    · exact (ih h).imp_right (And.imp_left (List.mem_cons_of_mem d))
  | case6 d e t hd he ih => exact (ih h).imp_right (And.imp_left (List.mem_cons_of_mem d))

theorem isAsciiWord_of_isWord (hc : isWord c = true) (hascii : c.toNat < 0x80) :
    isAsciiWord c = true := by
  rwa [isWord, if_pos hascii] at hc

theorem isSnakeChar_of_mem_toSnakeCase (h : ∀ c ∈ t, c.toNat < 0x80) :
    ∀ c ∈ toSnakeCase t, isSnakeChar c = true := by
  intro c hc
  obtain hc | ⟨p, hp, hc⟩ := mem_of_mem_join hc
  · obtain rfl := List.mem_singleton.mp hc
    rfl
  · obtain ⟨w, hw, rfl⟩ := List.mem_map.mp hp
    have hword : ∀ d ∈ w, isAsciiWord d = true := by
      intro d hd
      obtain ⟨hspaced, hspace⟩ := mem_of_mem_humps hw hd
      obtain ⟨hmem, hd⟩ := (mem_spaceOut hspaced).resolve_left hspace
      exact isAsciiWord_of_isWord hd (h d hmem)
    rw [lower_ascii fun d hd => lt_of_isAsciiWord (hword d hd)] at hc
    obtain ⟨d, hd, rfl⟩ := List.mem_map.mp hc
    exact isSnakeChar_toLower (hword d hd)

theorem toSnakeCase_eq_self (h : ∀ c ∈ t, isSnakeChar c = true) : toSnakeCase t = t := by
  have hword : ∀ c ∈ t, isWord c = true := fun c hc =>
    isWord_of_isAsciiWord (isSnakeChar_iff.mp (h c hc)).1
  have hhumps : humps none t = [t] := by
    have hnil : humps (t.getLast?.or none) [] = [[]] := rfl
    have happend := humps_append h hnil
    rwa [List.append_nil] at happend
  have hlower : lower t = t := lower_eq_self fun c hc => lowerChar_of_isSnakeChar (h c hc)
  rw [toSnakeCase_eq hword, hhumps, List.map_singleton, hlower, join_cons, List.flatMap_nil,
    List.append_nil]

/-- **Snake case inverts camel and Pascal case on canonical names, so that these keep different
ones apart; each of the three conventions is idempotent on ASCII, where snake case writes small
letters, digits and underscores only.** -/
theorem naming_canonical (s s' : SnakeName) (x : Text) (hx : ∀ c ∈ x, c.toNat < 0x80) :
    (toSnakeCase (toCamelCase s.text) = s.text ∧ toSnakeCase (toPascalCase s.text) = s.text) ∧
    (s.text ≠ s'.text → toCamelCase s.text ≠ toCamelCase s'.text ∧
      toPascalCase s.text ≠ toPascalCase s'.text) ∧
    (toCamelCase (toCamelCase x) = toCamelCase x ∧
      toPascalCase (toPascalCase x) = toPascalCase x ∧
      toSnakeCase (toSnakeCase x) = toSnakeCase x) ∧
    ∀ c ∈ toSnakeCase x, isAsciiUpper c = false ∧
      (isAsciiLetter c = true ∨ isAsciiDigit c = true ∨ c = '_') := by
  refine ⟨⟨s.toSnakeCase_toCamelCase, s.toSnakeCase_toPascalCase⟩,
    fun hne => ⟨mt SnakeName.text_eq_of_toCamelCase hne, mt SnakeName.text_eq_of_toPascalCase hne⟩,
    ⟨toCamelCase_toCamelCase x, toPascalCase_toPascalCase hx,
      toSnakeCase_eq_self (isSnakeChar_of_mem_toSnakeCase hx)⟩, fun c hc => ?_⟩
  obtain ⟨hword, hupper⟩ := isSnakeChar_iff.mp (isSnakeChar_of_mem_toSnakeCase hx c hc)
  rw [isAsciiWord, Bool.or_eq_true, Bool.or_eq_true, decide_eq_true_eq, or_assoc] at hword
  exact ⟨hupper, hword⟩

/-- Where a word of one letter makes the difference: `user_id` and `user_i_d`. -/
theorem naming_canonical_user_id : ∃ s s' : SnakeName,
    s.text = "user_id".toList ∧ s'.text = "user_i_d".toList ∧
      toSnakeCase (toCamelCase s'.text) = s'.text ∧ toSnakeCase (toPascalCase s'.text) = s'.text ∧
      toCamelCase s'.text ≠ toCamelCase s.text ∧ toPascalCase s'.text ≠ toPascalCase s.text ∧
      toPascalCase (toPascalCase "order-Items 2".toList) = toPascalCase "order-Items 2".toList ∧
      ∀ c ∈ toSnakeCase "order-Items 2".toList, isAsciiUpper c = false := by
  let s : SnakeName := ⟨["user".toList, "id".toList], by decide, by decide⟩
  let s' : SnakeName := ⟨["user".toList, "i".toList, "d".toList], by decide, by decide⟩
  have hascii : ("order-Items 2".toList.all fun c => c.toNat < 0x80) = true := by decide
  rw [List.all_eq_true] at hascii
  obtain ⟨⟨hcamel, hpascal⟩, hne, ⟨-, htwice, -⟩, hchars⟩ :=
    naming_canonical s' s "order-Items 2".toList fun c hc => of_decide_eq_true (hascii c hc)
  obtain ⟨hcamel', hpascal'⟩ := hne (by decide)
  exact ⟨s, s', by decide, by decide, hcamel, hpascal, hcamel', hpascal', htwice,
    fun c hc => (hchars c hc).1⟩

end TableTypes
