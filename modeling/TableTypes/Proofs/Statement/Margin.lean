import TableTypes.Proofs.Statement.Place
import TableTypes.Proofs.Text.Blank

/-!
# Statements in front of blanks

The parts of a statement do not depend on the blanks behind the text they are read from: its head
(`StatementHead.read?_append_blanks`), its closing parenthesis (`closing?_append_blanks`) and its
options (`tableOptions_append_blanks`), which end with a solid character or a semicolon.  Nor does
the mask of comments depend on the blanks in front of the text (`Inset.maskComments_text`).
-/

namespace TableTypes

open Text

/-! ### Options -/

/-- A literal ends with a quote. -/
theorem optionLiteral?_ends {t body r : Text} (h : optionLiteral? t = some (body, r)) :
    ∃ p, t = p ++ '\'' :: r := by
  fun_induction optionLiteral? t generalizing body r with
  | case1 => cases h
  | case2 t _ _ hopen ih =>
    cases h
    obtain ⟨p, rfl⟩ := ih hopen
    exact ⟨'\'' :: '\'' :: p, rfl⟩
  | case3 t => cases h; exact ⟨[], rfl⟩
  | case4 t => cases h; exact ⟨[], rfl⟩
  | case5 => cases h
  | case6 => cases h
  | case7 c t _ ih =>
    obtain ⟨⟨b, s⟩, hb, heq⟩ := Option.map_eq_some_iff.mp h
    obtain ⟨-, rfl⟩ := Prod.mk.inj heq
    obtain ⟨p, rfl⟩ := ih hb
    exact ⟨'\\' :: c :: p, rfl⟩
  | case8 c t _ _ _ _ ih =>
    obtain ⟨⟨b, s⟩, hb, heq⟩ := Option.map_eq_some_iff.mp h
    obtain ⟨-, rfl⟩ := Prod.mk.inj heq
    obtain ⟨p, rfl⟩ := ih hb
    exact ⟨c :: p, rfl⟩

theorem endsSolid_run? {p : Char → Bool} (hp : ∀ c, isBlank c = true → p c = false) :
    EndsSolid (run? p) := by
  intro t r h
  cases t with
  | nil => cases h
  | cons c t =>
    rw [run?] at h
    split at h
    · rename_i hc
      obtain rfl := Option.some.inj h
      refine endsSolid_of_forall (u := c :: t.takeWhile p) hp (List.cons_ne_nil _ _) ?_ ?_
      · intro d hd
        rcases List.mem_cons.mp hd with rfl | hd
        · exact hc
        · exact List.all_eq_true.mp List.all_takeWhile d hd
      · rw [List.cons_append, List.takeWhile_append_dropWhile]
    · cases h

theorem isCharsetChar_of_isBlank (c : Char) (hc : isBlank c = true) : isCharsetChar c = false := by
  have hne : c ≠ '-' := by
    rintro rfl
    exact absurd hc (by decide)
  simp [isCharsetChar, isWord_of_isBlank hc, hne]

theorem endsSolid_equalsOption (k : Text) {p : Char → Bool}
    (hp : ∀ c, isBlank c = true → p c = false) :
    EndsSolid fun t => ((keyword? k t).bind equals?).bind (run? p) :=
  EndsSolid.bind ((isReader_keyword? k).bind isReader_equals?).suffix (endsSolid_run? hp)

theorem endsSolid_charsetName : EndsSolid fun r => run? isCharsetChar (dropEquals r) := by
  simp only [dropEquals_eq]
  exact EndsSolid.bind (isReader_dropMark '=').suffix (endsSolid_run? isCharsetChar_of_isBlank)

theorem endsSolid_plainOption? : EndsSolid plainOption? := by
  have hcharset : IsReader fun t => charsetWords? (skipDefault t) :=
    isReader_skipDefault ((isReader_keyword? _).orElse (isReader_phrase? _) (grows_keyword? _))
  have hcollate : IsReader fun t => keyword? "collate".toList (skipDefault t) :=
    isReader_skipDefault (isReader_keyword? _)
  exact (endsSolid_equalsOption _ fun _ => isWord_of_isBlank).orElse
    ((EndsSolid.bind hcharset.suffix endsSolid_charsetName).orElse
      ((EndsSolid.bind hcollate.suffix endsSolid_charsetName).orElse
        (endsSolid_equalsOption _ fun _ => isDecimal_of_isBlank)))

theorem endsSolid_flagOption? : EndsSolid flagOption? :=
  (endsSolid_phrase? (by decide) (by decide)).orElse (endsSolid_keyword? (by decide) (by decide))

theorem commentOption?_ends {t body r : Text} (h : commentOption? t = some (body, r)) :
    ∃ p, t = p ++ '\'' :: r := by
  rw [commentOption?_eq] at h
  obtain ⟨s, hs, hquoted⟩ := Option.bind_eq_some_iff.mp h
  have hsuffix : dropMark '=' s <:+ t :=
    ((isReader_dropMark '=').suffix rfl).trans ((isReader_keyword? _).suffix hs)
  obtain ⟨q, rfl⟩ := hsuffix
  rw [quotedLiteral?.eq_def] at hquoted
  split at hquoted
  · rename_i u hu
    obtain ⟨p, rfl⟩ := optionLiteral?_ends hquoted
    exact ⟨q ++ '\'' :: p, by rw [hu, List.append_assoc, List.cons_append]⟩
  · cases hquoted

theorem endsSolid_bareOption? : EndsSolid fun t => (bareOption? t).map Prod.snd := by
  intro t r h
  obtain ⟨⟨a, s⟩, hbare, rfl⟩ := Option.map_eq_some_iff.mp h
  rw [bareOption?] at hbare
  cases hplain : plainOption? t with
  | some u =>
    rw [hplain] at hbare
    obtain ⟨-, rfl⟩ := Prod.mk.inj (Option.some.inj hbare)
    exact endsSolid_plainOption? t u hplain
  | none =>
    cases hcomment : commentOption? t with
    | some u =>
      obtain ⟨body, u⟩ := u
      rw [hplain, hcomment] at hbare
      obtain ⟨-, rfl⟩ := Prod.mk.inj (Option.some.inj hbare)
      obtain ⟨p, hp⟩ := commentOption?_ends hcomment
      exact ⟨p, '\'', hp, rfl⟩
    | none =>
      rw [hplain, hcomment] at hbare
      obtain ⟨u, hflag, heq⟩ := Option.map_eq_some_iff.mp hbare
      obtain ⟨-, rfl⟩ := Prod.mk.inj heq
      exact endsSolid_flagOption? t u hflag

theorem endsSolid_tableOption? : EndsSolid fun t => (tableOption? t).map Prod.snd := by
  simp only [tableOption?_eq]
  exact EndsSolid.bind (isReader_dropMark ',').suffix endsSolid_bareOption?

section

variable {z : Text} (hz : ∀ c ∈ z, isBlank c = true)
include hz

theorem dropSemicolon_append_blanks (t : Text) :
    dropSemicolon (t ++ z) = dropSemicolon t ++ z ∨
      dropSemicolon t = [] ∧ dropSemicolon (t ++ z) = [] := by
  rw [dropSemicolon_eq, dropSemicolon_eq]
  cases hdrop : dropBlanks t with
  | nil =>
    have hall : dropBlanks (t ++ z) = [] := by
      rw [dropBlanks, List.dropWhile_eq_nil_iff] at hdrop ⊢
      exact fun c hc => (List.mem_append.mp hc).elim (hdrop c) (hz c)
    rw [hall]
    exact Or.inr ⟨rfl, rfl⟩
  | cons c u =>
    have hlong : dropBlanks (t ++ z) = c :: u ++ z := by
      rw [← hdrop]
      exact dropWhile_extend z (by rw [show t.dropWhile isBlank = c :: u from hdrop]; simp)
    rw [hlong, List.cons_append, List.head?_cons, List.tail_cons, List.head?_cons, List.tail_cons]
    split <;> exact Or.inl rfl

/-- **Blanks behind the options of a table are no options**, but they are dropped with those that
stand between the options and the end of the text. -/
theorem tableOptions_append_blanks (t : Text) :
    (tableOptions (t ++ z)).1 = (tableOptions t).1 ∧
      ((tableOptions (t ++ z)).2 = (tableOptions t).2 ++ z ∨
        (tableOptions t).2 = [] ∧ (tableOptions (t ++ z)).2 = []) := by
  obtain ⟨u, hu⟩ := exists_rest_of_many endsSolid_tableOption? (t := t) hz
  have hmany : many tableOption? t = ((many tableOption? (t ++ z)).1, u) :=
    many_cut isParser_tableOption? grows_tableOption? (Prod.ext rfl hu)
  rw [tableOptions, tableOptions, hmany, hu]
  exact ⟨rfl, dropSemicolon_append_blanks hz u⟩

/-! ### Parentheses and heads -/

theorem closing?_append_blanks (t : Text) : closing? (t ++ z) = closing? t := by
  have hparen : ∀ {u : Text}, u.head? ≠ some '(' → closing? u = none := by
    intro u hu
    rw [closing?.eq_def]
    split
    · exact absurd rfl hu
    · rfl
  by_cases ht : t.head? = some '('
  · obtain ⟨u, rfl⟩ := List.head?_eq_some_iff.mp ht
    have hclose : ∀ m ∈ (spotBehind true u).marks true none z, m.closesOuter = false := by
      intro m hm
      have hchar : m.char ∈ z := by
        rw [← @Spot.map_char_marks true none z (spotBehind true u)]
        exact List.mem_map_of_mem hm
      have hne : m.char ≠ ')' := fun h => absurd (hz _ (h ▸ hchar)) (by decide)
      simp [Mark.closesOuter, hne]
    rw [List.cons_append, closing?_cons, closing?_cons, (scan_append_blanks hz u).1,
      List.findIdx?_append, List.findIdx?_eq_none_iff.mpr hclose, Option.map_none, Option.or_none]
  · rw [hparen ht, hparen]
    cases t with
    | cons c t => exact ht
    | nil =>
      intro hc
      exact absurd (hz '(' (List.mem_of_mem_head? hc)) (by decide)

/-- A head is followed by a parenthesis, so it does not reach into the blanks. -/
theorem StatementHead.read?_append_blanks (t : Text) :
    read? (t ++ z) = (read? t).map fun h => h.append z := by
  cases hread : read? t with
  | some h => exact read?_append z hread
  | none =>
    cases hlong : read? (t ++ z) with
    | none => rfl
    | some h =>
      exfalso
      obtain ⟨-, -, -, -, -, -, hparen⟩ := read?_eq_some_iff.mp hlong
      obtain ⟨hstart, -, hopening, -⟩ := suffix_of_read? hlong
      obtain ⟨r, hr⟩ := List.head?_eq_some_iff.mp hparen
      obtain ⟨p, hp⟩ := hopening.trans hstart
      rw [hr] at hp
      obtain ⟨s, rfl⟩ := exists_rest_of_solid hz hp.symm (by decide)
      obtain ⟨g, -, -, hg⟩ := read?_cut (o := '(' :: s) hlong hr (List.cons_ne_nil _ _)
      rw [hread] at hg
      cases hg

end

/-! ### Masks -/

/-- Blanks in front of a text stay as they are when its comments are masked; those behind it stay
blanks. -/
theorem Text.Inset.maskComments_text (s : Inset) : ∃ y, (∀ c ∈ y, isBlank c = true) ∧
    maskComments s.text = s.front ++ (maskComments s.inner ++ y) := by
  have hplain := all_isPlain_of_blanks s.front_blank
  set spot := spotBehind true s.inner with hspot
  refine ⟨(spot.marks true none s.back).map fun m => m.blanked.char, ?_, ?_⟩
  · intro c hc
    obtain ⟨m, hm, rfl⟩ := List.mem_map.mp hc
    have hchar : m.char ∈ s.back := by
      rw [← @Spot.map_char_marks true none s.back spot]
      exact List.mem_map_of_mem hm
    exact isBlank_blanked (s.back_blank _ hchar)
  · rw [text, maskComments_append (Seals.of_plain hplain), maskComments_plain hplain,
      maskComments_eq_map (s.inner ++ s.back), (scan_append_blanks s.back_blank s.inner).1,
      List.map_append, ← maskComments_eq_map, ← hspot]

end TableTypes
