import TableTypes.Proofs.Scan.Compose
import TableTypes.Scan.Delimiters
import TableTypes.Scan.Mask

/-!
# Masked texts under the scan

Masking comments changes no mark outside them and turns every mark of a comment into one of code
(`scan_maskComments`), so the closing parenthesis stays where it is (`closing?_maskComments`).
Both masks of a text are put together from the masks of its pieces (`maskComments_append`,
`maskQuoted_append`).
-/

namespace TableTypes

/-! ### The masks as maps of marks -/

/-- The mark that takes the place of `m` when comments are masked. -/
def Mark.blanked (m : Mark) : Mark :=
  if m.isComment then ⟨if m.char = '\n' then '\n' else ' ', .code, m.depth⟩ else m

theorem maskComments_eq_map (t : Text) :
    maskComments t = (scan true t).map fun m => m.blanked.char := by
  apply List.map_congr_left
  intro m _
  unfold Mark.blanked
  by_cases hm : m.isComment
  · by_cases hn : m.char = '\n' <;> simp [hm, hn]
  · simp [hm]

/-- What a mark is written as when quoted text is masked. -/
def Mark.unquotedChar (m : Mark) : Char :=
  if m.isQuotedContent then ' ' else m.char

theorem maskQuoted_eq_map (t : Text) : maskQuoted t = (scan false t).map Mark.unquotedChar := by
  rw [maskQuoted, maskQuotedWith, List.map_eq_flatMap]
  congr 1
  funext m
  unfold Mark.unquotedChar
  split <;> rfl

@[simp] theorem length_maskComments (t : Text) : (maskComments t).length = t.length := by
  rw [maskComments, List.length_map, scan_eq_marks, Spot.length_marks]

@[simp] theorem length_maskQuoted (t : Text) : (maskQuoted t).length = t.length := by
  rw [maskQuoted_eq_map, List.length_map, scan_eq_marks, Spot.length_marks]

@[simp] theorem maskComments_nil : maskComments [] = [] := rfl

@[simp] theorem maskQuoted_nil : maskQuoted [] = [] := rfl

/-! ### Masks of pieces -/

theorem maskComments_append {a b : Text} (h : Seals true a b) :
    maskComments (a ++ b) = maskComments a ++ maskComments b := by
  have hlift : ∀ (d : Int) (m : Mark), (m.lift d).blanked.char = m.blanked.char := by
    intro d m
    rw [Mark.blanked, Mark.blanked, show (m.lift d).isComment = m.isComment from rfl]
    split <;> rfl
  simp only [maskComments_eq_map, scan_append h, List.map_append, List.map_map,
    Function.comp_def, hlift]

theorem maskQuoted_append {a b : Text} (h : Seals false a b) :
    maskQuoted (a ++ b) = maskQuoted a ++ maskQuoted b := by
  have hlift : ∀ (d : Int) (m : Mark), (m.lift d).unquotedChar = m.unquotedChar := fun _ _ => rfl
  simp only [maskQuoted_eq_map, scan_append h, List.map_append, List.map_map,
    Function.comp_def, hlift]

/-! ### Masked comments -/

/-- The place of the masked text where the text itself is at a place. -/
def Place.uncommented : Place → Place
  | .quoted q => .quoted q
  | _ => .code

/-- What ties the character before a position of the masked text to the spot in the text itself:
behind a comment they differ, but then neither is a backslash that could escape a quote. -/
def Spot.Tracks (s : Spot) (before : Option Char) (t : Text) : Prop :=
  match s.place with
  | .code | .quoted _ => s.before = some '\\' ↔ before = some '\\'
  | .blockClosing => t.head? = some '/'
  | _ => True

/-- A character at the front of the masked text is a blank or stands in the text itself. -/
theorem head?_masked {s : Spot} {t : Text} {x : Char} (hblank : x ≠ ' ') (hline : x ≠ '\n')
    (h : ((s.marks true none t).map fun m => m.blanked.char).head? = some x) :
    t.head? = some x := by
  cases t with
  | nil => cases h
  | cons c t =>
    simp only [Spot.marks, List.map_cons, List.head?_cons, Option.some.injEq] at h ⊢
    unfold Mark.blanked at h
    split at h
    · rename_i hm
      by_cases hc : (s.mark true c (t.head?.or none)).char = '\n'
      · rw [if_pos hc] at h; exact absurd h.symm hline
      · rw [if_neg hc] at h; exact absurd h.symm hblank
    · exact h

/-- A step in code that opens no comment is the same step in the masked text, whether or not
comments are looked for there. -/
theorem step_code_masked (comments : Bool) {before before' : Option Char} {c : Char}
    {next next' : Option Char} (hbefore : before = some '\\' ↔ before' = some '\\')
    (hdash : next' = some '-' → next = some '-') (hstar : next' = some '*' → next = some '*')
    (h : (Place.step true before c next .code).1 ≠ .comment) :
    Place.step comments before' c next' .code = Place.step true before c next .code := by
  simp only [Place.step, Place.enter] at h ⊢
  grind

/-- A blank in code changes nothing. -/
theorem step_code_blank {comments : Bool} {before next : Option Char} {x : Char}
    (hx : x = ' ' ∨ x = '\n') : Place.step comments before x next .code = (.code, .code) := by
  rcases hx with rfl | rfl <;> simp [Place.step, Place.enter, Quote.ofChar?]

theorem blanked_of_comment {m : Mark} (h : m.region = .comment) :
    m.blanked.region = .code ∧ m.blanked.depth = m.depth ∧
      (m.blanked.char = ' ' ∨ m.blanked.char = '\n') := by
  unfold Mark.blanked
  rw [if_pos (by simp [Mark.isComment, h])]
  refine ⟨rfl, rfl, ?_⟩
  by_cases hn : m.char = '\n'
  · exact Or.inr (if_pos hn)
  · exact Or.inl (if_neg hn)

theorem blanked_of_not_comment {m : Mark} (h : m.region ≠ .comment) : m.blanked = m := by
  unfold Mark.blanked
  exact if_neg (by simp [Mark.isComment, h])

/-- The character `c` of the masked text is read like that of the text itself, comments as code: it
leaves the scan at the same place, which the character before goes on to track. -/
structure StepsMasked (comments : Bool) (before next' : Option Char) (s : Spot) (c : Char)
    (t : Text) : Prop where
  step : s.place.uncommented.step comments before (s.mark true c t.head?).blanked.char next' =
    ((s.mark true c t.head?).blanked.region, (s.move true c t.head?).place.uncommented)
  tracks : (s.move true c t.head?).Tracks (some (s.mark true c t.head?).blanked.char) t

section

variable {comments : Bool} {b before next' : Option Char} {d : Int} {c : Char} {t : Text}

/-- A character of a comment is a blank in code, whatever the place. -/
theorem StepsMasked.of_comment {place : Place}
    (hregion : (place.step true b c t.head?).1 = .comment) (hplace : place.uncommented = .code)
    (hnext : (place.step true b c t.head?).2.uncommented = .code)
    (htracks : ((Spot.mk b place d).move true c t.head?).Tracks
      (some ((Spot.mk b place d).mark true c t.head?).blanked.char) t) :
    StepsMasked comments before next' ⟨b, place, d⟩ c t := by
  obtain ⟨hcode, -, hchar⟩ :=
    blanked_of_comment (m := (Spot.mk b place d).mark true c t.head?) hregion
  refine ⟨?_, htracks⟩
  show place.uncommented.step comments before _ next' =
    (_, (place.step true b c t.head?).2.uncommented)
  rw [hplace, hnext, hcode, step_code_blank hchar]

theorem stepsMasked_code (htracks : (Spot.mk b .code d).Tracks before (c :: t))
    (hdash : next' = some '-' → t.head? = some '-')
    (hstar : next' = some '*' → t.head? = some '*') :
    StepsMasked comments before next' ⟨b, .code, d⟩ c t := by
  by_cases hregion : (Place.step true b c t.head? .code).1 = .comment
  · have hplace : (Place.step true b c t.head? .code).2 = .lineComment ∨
        (Place.step true b c t.head? .code).2 = .blockOpening := by
      simp only [Place.step, Place.enter] at hregion ⊢
      grind
    apply StepsMasked.of_comment hregion rfl
    · rcases hplace with h | h <;> rw [h] <;> rfl
    · unfold Spot.Tracks Spot.move
      rcases hplace with h | h <;> rw [h] <;> trivial
  · have hstep := step_code_masked comments htracks hdash hstar hregion
    have hplace : (Place.step true b c t.head? .code).2 = .code ∨
        ∃ q, (Place.step true b c t.head? .code).2 = .quoted q := by
      simp only [Place.step, Place.enter] at hregion ⊢
      grind
    have hmark : ((Spot.mk b .code d).mark true c t.head?).blanked =
        (Spot.mk b .code d).mark true c t.head? := blanked_of_not_comment hregion
    refine ⟨?_, ?_⟩
    · rw [hmark]
      show Place.step comments before c next' .code =
        (_, (Place.step true b c t.head? .code).2.uncommented)
      rw [hstep]
      rcases hplace with h | ⟨q, h⟩ <;> exact Prod.ext rfl (by rw [h]; rfl)
    · rw [hmark]
      unfold Spot.Tracks Spot.move
      rcases hplace with h | ⟨q, h⟩ <;> rw [h] <;> exact Iff.rfl

theorem stepsMasked_quoted {q : Quote} (htracks : (Spot.mk b (.quoted q) d).Tracks before (c :: t)) :
    StepsMasked comments before next' ⟨b, .quoted q, d⟩ c t := by
  have hregion : (Place.step true b c t.head? (.quoted q)).1 ≠ .comment := by
    simp only [Place.step]
    split <;> simp
  have hmark : ((Spot.mk b (.quoted q) d).mark true c t.head?).blanked =
      (Spot.mk b (.quoted q) d).mark true c t.head? := blanked_of_not_comment hregion
  have hstep : Place.step comments before c next' (.quoted q) =
      Place.step true b c t.head? (.quoted q) := by
    have hiff : b = some '\\' ↔ before = some '\\' := htracks
    simp only [Place.step, ne_eq, hiff]
  have hplace : (Place.step true b c t.head? (.quoted q)).2 = .code ∨
      (Place.step true b c t.head? (.quoted q)).2 = .quoted q := by
    simp only [Place.step]
    split <;> simp
  refine ⟨?_, ?_⟩
  · rw [hmark]
    show Place.step comments before c next' (.quoted q) =
      (_, (Place.step true b c t.head? (.quoted q)).2.uncommented)
    rw [hstep]
    rcases hplace with h | h <;> exact Prod.ext rfl (by rw [h]; rfl)
  · rw [hmark]
    unfold Spot.Tracks Spot.move
    rcases hplace with h | h <;> rw [h] <;> exact Iff.rfl

theorem stepsMasked_lineComment : StepsMasked comments before next' ⟨b, .lineComment, d⟩ c t := by
  by_cases hc : c = '\n'
  · subst hc
    exact ⟨step_code_blank (Or.inr rfl), Iff.rfl⟩
  · have hstep : Place.step true b c t.head? .lineComment = (.comment, .lineComment) := by
      simp [Place.step, hc]
    apply StepsMasked.of_comment (by rw [hstep]) rfl (by rw [hstep]; rfl)
    unfold Spot.Tracks Spot.move
    rw [hstep]
    trivial

theorem stepsMasked_block : StepsMasked comments before next' ⟨b, .block, d⟩ c t := by
  by_cases hc : c = '*' ∧ t.head? = some '/'
  · have hstep : Place.step true b c t.head? .block = (.comment, .blockClosing) := by
      simp [Place.step, hc]
    apply StepsMasked.of_comment (by rw [hstep]) rfl (by rw [hstep]; rfl)
    unfold Spot.Tracks Spot.move
    rw [hstep]
    exact hc.2
  · have hstep : Place.step true b c t.head? .block = (.comment, .block) := by
      simp [Place.step, hc]
    apply StepsMasked.of_comment (by rw [hstep]) rfl (by rw [hstep]; rfl)
    unfold Spot.Tracks Spot.move
    rw [hstep]
    trivial

theorem stepsMasked_blockClosing (htracks : (Spot.mk b .blockClosing d).Tracks before (c :: t)) :
    StepsMasked comments before next' ⟨b, .blockClosing, d⟩ c t := by
  obtain rfl : c = '/' := Option.some.inj htracks
  apply StepsMasked.of_comment rfl rfl rfl
  -- Neither the slash nor the blank in its place escapes a quote behind the comment.
  show some '/' = some '\\' ↔
    some ((Spot.mk b .blockClosing d).mark true '/' t.head?).blanked.char = some '\\'
  rcases (blanked_of_comment (m := (Spot.mk b .blockClosing d).mark true '/' t.head?) rfl).2.2
    with h | h <;> rw [h] <;> decide

/-- One character of the masked text is read like the character of the text itself. -/
theorem stepsMasked {place : Place} (htracks : (Spot.mk b place d).Tracks before (c :: t))
    (hdash : next' = some '-' → t.head? = some '-')
    (hstar : next' = some '*' → t.head? = some '*') :
    StepsMasked comments before next' ⟨b, place, d⟩ c t := by
  cases place with
  | code => exact stepsMasked_code htracks hdash hstar
  | quoted q => exact stepsMasked_quoted htracks
  | lineComment => exact stepsMasked_lineComment
  | blockOpening => exact StepsMasked.of_comment rfl rfl rfl trivial
  | block => exact stepsMasked_block
  | blockClosing => exact stepsMasked_blockClosing htracks

end

theorem weight_blanked (m : Mark) :
    m.blanked.region.weight m.blanked.char = m.region.weight m.char := by
  by_cases hm : m.region = .comment
  · obtain ⟨hregion, -, hchar⟩ := blanked_of_comment hm
    rw [hregion, hm]
    rcases hchar with h | h <;> rw [h] <;> rfl
  · rw [blanked_of_not_comment hm]

theorem marks_masked {comments : Bool} (t : Text) : ∀ (s : Spot) (before : Option Char),
    s.Tracks before t →
      (Spot.mk before s.place.uncommented s.depth).marks comments none
          ((s.marks true none t).map fun m => m.blanked.char) =
        (s.marks true none t).map Mark.blanked := by
  induction t with
  | nil => intro s before _; rfl
  | cons c t ih =>
    intro s before htracks
    obtain ⟨b, place, d⟩ := s
    rw [Spot.marks, List.map_cons, List.map_cons, Spot.marks, Option.or_none, Option.or_none]
    set m := (Spot.mk b place d).mark true c t.head? with hm
    set s := (Spot.mk b place d).move true c t.head? with hs
    obtain ⟨hstep, hnext⟩ := stepsMasked htracks
      (head?_masked (s := s) (by decide) (by decide))
      (head?_masked (s := s) (by decide) (by decide))
    have hdepth : d + m.blanked.region.weight m.blanked.char = s.depth := by
      rw [weight_blanked]; rfl
    have hmark : m.blanked.depth = s.depth := by
      by_cases hr : m.region = .comment
      · rw [(blanked_of_comment hr).2.1]; rfl
      · rw [blanked_of_not_comment hr]; rfl
    have hmove : (Spot.mk before place.uncommented d).move comments m.blanked.char
        ((s.marks true none t).map fun m => m.blanked.char).head? =
          ⟨some m.blanked.char, s.place.uncommented, s.depth⟩ := by
      rw [Spot.move, hstep, hdepth]
    rw [hmove, ih s _ hnext, Spot.mark, hstep, hdepth, ← hmark]

/-- **Masking comments does not change the scan**, whether or not the masked text is searched for
comments. -/
theorem scan_maskComments (comments : Bool) (t : Text) :
    scan comments (maskComments t) = (scan true t).map Mark.blanked := by
  rw [maskComments_eq_map, scan_eq_marks, scan_eq_marks]
  exact marks_masked t Spot.start none Iff.rfl

/-! ### The closing parenthesis -/

theorem blanked_closes (m : Mark) :
    (decide (m.blanked.char = ')') && m.blanked.isTopLevel) =
      (decide (m.char = ')') && m.isTopLevel) := by
  by_cases hm : m.region = .comment
  · obtain ⟨-, -, hchar⟩ := blanked_of_comment hm
    have hraw : m.isTopLevel = false := by simp [Mark.isTopLevel, hm]
    rw [hraw, Bool.and_false]
    rcases hchar with h | h <;> rw [h] <;> rfl
  · rw [blanked_of_not_comment hm]

/-- The parenthesis at the front of a text is closed at the same position when comments are
masked. -/
theorem closing?_maskComments (t : Text) :
    closing? (maskComments ('(' :: t)) = closing? ('(' :: t) := by
  have hscan := scan_maskComments true ('(' :: t)
  obtain ⟨r, hr⟩ : ∃ r, maskComments ('(' :: t) = '(' :: r := by
    rw [maskComments_eq_map, scan_eq_marks, Spot.marks, List.map_cons]
    exact ⟨_, by rw [show (Spot.start.mark true '(' (t.head?.or none)).blanked.char = '(' by rfl]⟩
  rw [hr] at hscan ⊢
  rw [closing?, closing?, hscan, List.findIdx?_map]
  congr 1
  funext m
  exact blanked_closes m

end TableTypes
