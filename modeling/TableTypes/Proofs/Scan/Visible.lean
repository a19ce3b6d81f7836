import TableTypes.Proofs.Scan.Enclosed
import TableTypes.Proofs.Text.Blank

/-!
# Masked texts seen from inside

A reader that has come to some place of a masked text sees only what is left of it.  Of a text that
closes all it opens (`Spot.Runs`) what is left is shown in code (`InCode`) or inside quotes
(`InQuotes`).  A reader that goes on over words, blanks and closed pairs knows where it is: inside
a quote all is blank up to the next quote of its kind (`InQuotes.exists_quote`), and behind an
opening parenthesis in code there is a closing one in code (`InCode.exists_paren`).
-/

namespace TableTypes

open Text

/-! ### What is shown -/

namespace Spot

/-- What is shown of a text that begins at a spot, quoted text masked. -/
def visible (s : Spot) (t : Text) : Text :=
  (s.marks false none t).map Mark.unquotedChar

theorem visible_cons (s : Spot) (c : Char) (t : Text) : s.visible (c :: t) =
    (s.mark false c t.head?).unquotedChar :: (s.move false c t.head?).visible t := by
  rw [visible, marks, List.map_cons, Option.or_none]
  rfl

/-- The text that begins at the spot closes all that is open there and all it opens, and no more. -/
structure Runs (s : Spot) (t : Text) : Prop where
  place : s.place = .code ∨ ∃ q, s.place = .quoted q
  depth : 0 ≤ s.depth
  marks : ∀ m ∈ s.marks false none t, 0 ≤ m.depth
  ends : (s.behind false none t).place = .code ∧ (s.behind false none t).depth = 0

/-- Outside quotes and inside them the scan stays out of comments. -/
theorem place_move {s : Spot} (h : s.place = .code ∨ ∃ q, s.place = .quoted q) (c : Char)
    (next : Option Char) :
    (s.move false c next).place = .code ∨ ∃ q, (s.move false c next).place = .quoted q := by
  rw [move]
  rcases h with h | ⟨q, h⟩
  · rw [h, Place.step, Place.enter]
    cases hq : Quote.ofChar? c with
    | none => exact Or.inl rfl
    | some q =>
      by_cases hb : s.before = some '\\'
      · exact Or.inl (by simp [hb])
      · exact Or.inr ⟨q, by simp [hb]⟩
  · rw [h, Place.step]
    split
    · exact Or.inl rfl
    · exact Or.inr ⟨q, rfl⟩

/-- A text runs on behind its first character. -/
theorem Runs.tail {s : Spot} {c : Char} {t : Text} (h : s.Runs (c :: t)) :
    (s.move false c t.head?).Runs t := by
  obtain ⟨hplace, -, hmarks, hends⟩ := h
  rw [Spot.marks, Option.or_none] at hmarks
  rw [behind, Option.or_none] at hends
  exact ⟨place_move hplace c t.head?, hmarks _ List.mem_cons_self,
    fun m hm => hmarks m (List.mem_cons_of_mem _ hm), hends⟩

/-- Where there are no comments it does not matter whether they are looked for. -/
theorem marks_behind_of_not_comment {next : Option Char} (t : Text) : ∀ s : Spot,
    (s.place = .code ∨ ∃ q, s.place = .quoted q) →
    (∀ m ∈ s.marks true next t, m.region ≠ .comment) →
      s.marks false next t = s.marks true next t ∧ s.behind false next t = s.behind true next t := by
  induction t with
  | nil => exact fun s _ _ => ⟨rfl, rfl⟩
  | cons c t ih =>
    intro s hs hcomment
    rw [Spot.marks] at hcomment
    have hregion := hcomment _ List.mem_cons_self
    have hstep : s.place.step false s.before c (t.head?.or next) =
        s.place.step true s.before c (t.head?.or next) := by
      rcases hs with hplace | ⟨q, hplace⟩
      · rw [mark, hplace] at hregion
        rw [hplace]
        exact step_code_masked false Iff.rfl id id hregion
      · rw [hplace]
        rfl
    have hmove : s.move false c (t.head?.or next) = s.move true c (t.head?.or next) := by
      rw [move, move, hstep]
    obtain ⟨hmarks, hbehind⟩ := ih (s.move true c (t.head?.or next)) (hmove ▸ place_move hs c _)
      fun m hm => hcomment m (List.mem_cons_of_mem _ hm)
    rw [Spot.marks, Spot.marks, behind, behind, mark, mark, hstep, hmove, hmarks, hbehind]
    exact ⟨rfl, rfl⟩

end Spot

/-- A text without comments that closes what it opens, quotes included, and no more. -/
structure IsBare (t : Text) : Prop where
  enclosed : IsEnclosed t
  comment : ∀ m ∈ scan true t, m.region ≠ .comment

namespace IsBare

variable {t : Text}

theorem maskComments (h : IsBare t) : maskComments t = t :=
  maskComments_eq_self h.comment

theorem scan_false (h : IsBare t) :
    scan false t = scan true t ∧ spotBehind false t = spotBehind true t := by
  rw [scan_eq_marks, scan_eq_marks]
  refine Spot.marks_behind_of_not_comment t Spot.start (Or.inl rfl) ?_
  rw [← scan_eq_marks]
  exact h.comment

theorem runs (h : IsBare t) : Spot.start.Runs t := by
  obtain ⟨hscan, hbehind⟩ := h.scan_false
  refine ⟨Or.inl rfl, Int.le_refl 0, ?_, ?_⟩
  · rw [← scan_eq_marks, hscan]
    exact h.enclosed.nonneg
  · rw [← spotBehind, hbehind]
    exact ⟨h.enclosed.level.place, h.enclosed.level.depth⟩

end IsBare

theorem maskQuoted_eq_visible (t : Text) : maskQuoted t = Spot.start.visible t := by
  rw [maskQuoted_eq_map, scan_eq_marks]
  rfl

/-! ### In code and inside quotes -/

/-- What is left of a masked text that closes what it opens. -/
def IsShown (v : Text) : Prop :=
  ∃ s t, Spot.Runs s t ∧ v = s.visible t

/-- What is left of a masked text from a place in code on; no quote at its front is escaped. -/
def InCode (v : Text) : Prop :=
  ∃ s t, Spot.Runs s t ∧ s.place = .code ∧ s.before ≠ some '\\' ∧ v = s.visible t

/-- What is left of a masked text from a place inside a quote on. -/
def InQuotes (q : Quote) (v : Text) : Prop :=
  ∃ s t, Spot.Runs s t ∧ s.place = .quoted q ∧ v = s.visible t

/-- What is left of a masked text from a place on of which it is known where it is. -/
def IsOpen (v : Text) : Prop :=
  InCode v ∨ ∃ q, InQuotes q v

theorem Spot.Runs.inCode {s : Spot} {t : Text} (h : s.Runs t) (hplace : s.place = .code)
    (hbefore : s.before ≠ some '\\') : InCode (s.visible t) :=
  ⟨s, t, h, hplace, hbefore, rfl⟩

theorem IsBare.inCode {t : Text} (h : IsBare t) : InCode (maskQuoted t) := by
  rw [maskQuoted_eq_visible]
  exact h.runs.inCode rfl (by intro h; cases h)

theorem IsBare.isShown {t : Text} (h : IsBare t) : IsShown (maskQuoted t) :=
  ⟨Spot.start, t, h.runs, maskQuoted_eq_visible t⟩

/-- The first character that is shown of a text stands for its first one. -/
theorem Spot.Runs.exists_shown {s : Spot} {t : Text} {c : Char} {v : Text} (h : s.Runs t)
    (hv : c :: v = s.visible t) : ∃ d u, c = (s.mark false d u.head?).unquotedChar ∧
      v = (s.move false d u.head?).visible u ∧ (s.move false d u.head?).Runs u := by
  cases t with
  | nil => cases hv
  | cons d u =>
    rw [visible_cons] at hv
    obtain ⟨hc, hrest⟩ := List.cons.inj hv
    exact ⟨d, u, hc, hrest, h.tail⟩

theorem IsShown.tail {c : Char} {v : Text} (h : IsShown (c :: v)) : IsShown v := by
  obtain ⟨s, t, hruns, hv⟩ := h
  obtain ⟨d, u, -, rfl, hrest⟩ := hruns.exists_shown hv
  exact ⟨_, u, hrest, rfl⟩

theorem IsShown.suffix {v w : Text} (h : IsShown v) (hw : w <:+ v) : IsShown w := by
  obtain ⟨u, rfl⟩ := hw
  induction u with
  | nil => exact h
  | cons c u ih => exact ih h.tail

/-! ### One character on -/

namespace Spot

variable {s : Spot} {q : Quote} {c : Char} {next : Option Char}

/-- A character in code is shown, also the quote that it opens. -/
theorem unquotedChar_code (h : s.place = .code) : (s.mark false c next).unquotedChar = c := by
  rw [mark, h, Place.step, Place.enter]
  cases hq : Quote.ofChar? c with
  | none => rfl
  | some q =>
    have hc := Quote.ofChar?_eq_some_iff.mp hq
    by_cases hb : s.before = some '\\'
    · simp [hb, Mark.unquotedChar, Mark.isQuotedContent]
    · simp [hb, Mark.unquotedChar, Mark.isQuotedContent, hc]

/-- In code the first character that is shown is the first one. -/
theorem Runs.exists_behind {t v : Text} (h : s.Runs t) (hplace : s.place = .code)
    (hv : c :: v = s.visible t) :
    ∃ u, v = (s.move false c u.head?).visible u ∧ (s.move false c u.head?).Runs u := by
  obtain ⟨d, u, hd, hrest⟩ := h.exists_shown hv
  rw [unquotedChar_code hplace] at hd
  subst hd
  exact ⟨u, hrest⟩

theorem place_move_code (h : s.place = .code) (hc : Quote.ofChar? c = none) :
    (s.move false c next).place = .code := by
  rw [move, h, Place.step, Place.enter, hc]
  rfl

theorem place_move_quote (h : s.place = .code) (hb : s.before ≠ some '\\') :
    (s.move false q.char next).place = .quoted q := by
  rw [move, h, step_quote hb]

/-- Inside quotes only the quote is shown. -/
theorem unquotedChar_quoted (h : s.place = .quoted q) :
    (s.mark false c next).unquotedChar = if c = q.char then c else ' ' := by
  rw [mark, h]
  by_cases hc : c = q.char
  · subst hc
    by_cases hb : s.before = some '\\' <;>
      simp [Place.step, hb, Mark.unquotedChar, Mark.isQuotedContent]
  · simp [step_quoted hc, hc, Mark.unquotedChar, Mark.isQuotedContent]

theorem place_move_quoted (h : s.place = .quoted q) (hc : c ≠ q.char) :
    (s.move false c next).place = .quoted q := by
  rw [move, h, step_quoted hc]

end Spot

/-! ### Reading on -/

/-- Behind a character that opens no quote and escapes none one is in code again. -/
theorem InCode.tail {c : Char} {v : Text} (h : InCode (c :: v)) (hq : Quote.ofChar? c = none)
    (hc : c ≠ '\\') : InCode v := by
  obtain ⟨s, t, hruns, hplace, -, hv⟩ := h
  obtain ⟨u, rfl, hrest⟩ := hruns.exists_behind hplace hv
  exact hrest.inCode (Spot.place_move_code hplace hq) fun h => hc (Option.some.inj h)

/-- Behind a quote in code one is inside it. -/
theorem InCode.tail_quote {q : Quote} {v : Text} (h : InCode (q.char :: v)) : InQuotes q v := by
  obtain ⟨s, t, hruns, hplace, hbefore, hv⟩ := h
  obtain ⟨u, rfl, hrest⟩ := hruns.exists_behind hplace hv
  exact ⟨_, u, hrest, Spot.place_move_quote hplace hbefore, rfl⟩

/-- What is not the quote is shown as a space, and behind it one is still inside. -/
theorem InQuotes.tail {q : Quote} {c : Char} {v : Text} (h : InQuotes q (c :: v))
    (hc : c ≠ q.char) : c = ' ' ∧ InQuotes q v := by
  obtain ⟨s, t, hruns, hplace, hv⟩ := h
  obtain ⟨d, u, hd, rfl, hrest⟩ := hruns.exists_shown hv
  rw [Spot.unquotedChar_quoted hplace] at hd
  subst hd
  have hne : d ≠ q.char := fun hd => hc (by rw [if_pos hd, hd])
  exact ⟨if_neg hne, _, u, hrest, Spot.place_move_quoted hplace hne, rfl⟩

/-- Behind a quote that closes the text or is escaped in it one is in code or inside still. -/
theorem InQuotes.tail_quote {q : Quote} {v : Text} (h : InQuotes q (q.char :: v)) : IsOpen v := by
  obtain ⟨s, t, hruns, hplace, hv⟩ := h
  obtain ⟨d, u, hd, rfl, hrest⟩ := hruns.exists_shown hv
  rw [Spot.unquotedChar_quoted hplace] at hd
  obtain rfl : d = q.char := by
    by_contra hne
    rw [if_neg hne] at hd
    cases q <;> cases hd
  by_cases hb : s.before = some '\\'
  · refine Or.inr ⟨q, _, u, hrest, ?_, rfl⟩
    simp [Spot.move, hplace, Place.step, hb]
  · refine Or.inl (hrest.inCode ?_ ?_)
    · rw [Spot.move, hplace, step_unquote _ _ hb]
    · intro h
      cases q <;> cases h

/-- **What is inside a quote is blank up to the next quote of its kind.** -/
theorem InQuotes.exists_quote {q : Quote} {v : Text} (h : InQuotes q v) :
    ∃ b r, v = b ++ q.char :: r ∧ (∀ c ∈ b, c = ' ') ∧ IsOpen r := by
  induction v with
  | nil =>
    -- A text that ends here would leave the quote open.
    obtain ⟨s, t, hruns, hplace, hv⟩ := h
    cases t with
    | nil => exact absurd (hplace.symm.trans hruns.ends.1) (fun h => Place.noConfusion h)
    | cons d t => cases hv
  | cons c v ih =>
    by_cases hc : c = q.char
    · subst hc
      exact ⟨[], v, rfl, fun d hd => absurd hd List.not_mem_nil, h.tail_quote⟩
    · obtain ⟨rfl, hinside⟩ := h.tail hc
      obtain ⟨b, r, rfl, hb, hr⟩ := ih hinside
      exact ⟨' ' :: b, r, rfl, List.forall_mem_cons.mpr ⟨rfl, hb⟩, hr⟩

/-! ### Separators -/

theorem ofChar?_of_isBlank {c : Char} (hc : isBlank c = true) : Quote.ofChar? c = none :=
  (isPlain_iff.mp (isPlain_of_isBlank hc)).1

/-- What holds behind each blank holds behind all of them. -/
theorem dropBlanks_induction {A : Text → Prop}
    (hA : ∀ (c : Char) (v : Text), A (c :: v) → isBlank c = true → A v) {v : Text} (h : A v) :
    A (dropBlanks v) := by
  induction v with
  | nil => exact h
  | cons c v ih =>
    by_cases hc : isBlank c = true
    · rw [dropBlanks, List.dropWhile_cons_of_pos hc]
      exact ih (hA c v h hc)
    · rwa [dropBlanks, List.dropWhile_cons_of_neg hc]

theorem InCode.dropBlanks {v : Text} (h : InCode v) : InCode (dropBlanks v) :=
  dropBlanks_induction
    (fun _ _ h hc => h.tail (ofChar?_of_isBlank hc) (ne_of_isBlank (by decide) hc)) h

theorem InQuotes.dropBlanks {q : Quote} {v : Text} (h : InQuotes q v) :
    InQuotes q (dropBlanks v) :=
  dropBlanks_induction (fun _ _ h hc => (h.tail (ne_of_isBlank (by cases q <;> decide) hc)).2) h

theorem IsOpen.dropBlanks {v : Text} (h : IsOpen v) : IsOpen (dropBlanks v) :=
  h.imp InCode.dropBlanks fun ⟨q, h⟩ => ⟨q, h.dropBlanks⟩

/-- Behind a blank or a comma that is shown it is known where one is. -/
theorem IsShown.tail_gap {c : Char} {v : Text} (h : IsShown (c :: v))
    (hc : c = ',' ∨ isBlank c = true) : IsOpen v := by
  have hquote : Quote.ofChar? c = none := by
    rcases hc with rfl | hc
    · rfl
    · exact ofChar?_of_isBlank hc
  have hne : ∀ d : Char, d ≠ ',' → isBlank d = false → c ≠ d := by
    rintro d hcomma hblank rfl
    rcases hc with hc | hc
    · exact hcomma hc
    · exact ne_of_isBlank hblank hc rfl
  obtain ⟨s, t, hruns, hv⟩ := h
  rcases hruns.place with hplace | ⟨q, hplace⟩
  · obtain ⟨u, rfl, hrest⟩ := hruns.exists_behind hplace hv
    refine Or.inl (hrest.inCode (Spot.place_move_code hplace hquote) fun h => ?_)
    exact hne '\\' (by decide) (by decide) (Option.some.inj h)
  · have hinside : InQuotes q (c :: v) := ⟨s, t, hruns, hplace, hv⟩
    exact Or.inr ⟨q, (hinside.tail (hne _ (by cases q <;> decide) (by cases q <;> decide))).2⟩

/-! ### Parentheses -/

/-- Inside parentheses a closing one in code follows. -/
theorem Spot.Runs.exists_paren {t : Text} : ∀ {s : Spot}, s.Runs t → 0 < s.depth →
    ∃ x r, s.visible t = x ++ ')' :: r ∧ ')' ∉ x ∧ InCode r := by
  induction t with
  | nil =>
    intro s hruns hdepth
    exact absurd hruns.ends.2 (ne_of_gt hdepth)
  | cons c t ih =>
    intro s hruns hdepth
    rw [visible_cons]
    by_cases hclose : (s.mark false c t.head?).unquotedChar = ')'
    · -- Inside quotes the parenthesis would not be shown.
      have hplace : s.place = .code := by
        rcases hruns.place with hplace | ⟨q, hplace⟩
        · exact hplace
        · rw [unquotedChar_quoted hplace] at hclose
          split_ifs at hclose with hc
          · exact absurd (hc.symm.trans hclose) (by cases q <;> decide)
          · cases hclose
      rw [hclose]
      rw [unquotedChar_code hplace] at hclose
      subst hclose
      refine ⟨[], _, rfl, List.not_mem_nil, hruns.tail.inCode (place_move_code hplace rfl) ?_⟩
      intro h
      cases h
    · have hweight : 0 ≤ (s.place.step false s.before c t.head?).1.weight c := by
        refine weight_nonneg fun ⟨hc, hregion⟩ => hclose ?_
        rw [mark, Mark.unquotedChar, Mark.isQuotedContent, hregion, hc]
        rfl
      obtain ⟨x, r, hv, hx, hr⟩ := ih hruns.tail (Int.add_pos_of_pos_of_nonneg hdepth hweight)
      refine ⟨_ :: x, r, by rw [hv, List.cons_append], ?_, hr⟩
      rw [List.mem_cons, not_or]
      exact ⟨fun h => hclose h.symm, hx⟩

/-- **Behind an opening parenthesis in code there is a closing one in code.** -/
theorem InCode.exists_paren {v : Text} (h : InCode ('(' :: v)) :
    ∃ x r, v = x ++ ')' :: r ∧ ')' ∉ x ∧ InCode r := by
  obtain ⟨s, t, hruns, hplace, -, hv⟩ := h
  obtain ⟨u, rfl, hrest⟩ := hruns.exists_behind hplace hv
  refine hrest.exists_paren ?_
  have hdepth := hruns.depth
  have hmove : (s.move false '(' u.head?).depth = s.depth + 1 := by
    rw [Spot.move, hplace]
    rfl
  omega

end TableTypes
