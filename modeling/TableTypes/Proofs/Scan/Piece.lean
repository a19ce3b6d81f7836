import TableTypes.Proofs.Scan.Mask
import TableTypes.Proofs.Text.Word

/-!
# Plain text and literals under the scan

Two pieces that SQL text is put together from: text without quotes, escapes and comments, which is
all code, and a literal in quotes without a quote or a backslash inside.  Either ends in code and
can be followed by everything, so the masks of a text that begins with one of them are found piece
by piece.
-/

namespace TableTypes

/-- Whether a character takes no part in a quote, an escape or the opening of a comment. -/
def isPlain (c : Char) : Bool :=
  (Quote.ofChar? c).isNone && c ≠ '-' && c ≠ '/' && c ≠ '\\'

theorem isPlain_iff {c : Char} :
    isPlain c = true ↔ Quote.ofChar? c = none ∧ c ≠ '-' ∧ c ≠ '/' ∧ c ≠ '\\' := by
  simp [isPlain, and_assoc]

theorem isPlain_of_isAsciiWord {c : Char} (hc : Text.isAsciiWord c = true) : isPlain c = true := by
  have hne : ∀ d : Char, Text.isAsciiWord d = false → c ≠ d := by
    intro d hd h
    rw [h, hd] at hc
    cases hc
  simp [isPlain, Quote.ofChar?, hne '\'' (by decide), hne '"' (by decide), hne '\x60' (by decide),
    hne '-' (by decide), hne '/' (by decide), hne '\\' (by decide)]

variable {comments : Bool} {next : Option Char}

theorem all_isPlain_of_forall {t : Text} (ht : ∀ c ∈ t, Text.isAsciiWord c = true) :
    t.all isPlain = true :=
  List.all_eq_true.mpr fun c hc => isPlain_of_isAsciiWord (ht c hc)

/-! ### Plain text -/

theorem step_plain {before : Option Char} {c : Char} (hc : isPlain c = true) :
    Place.step comments before c next .code = (.code, .code) := by
  obtain ⟨hq, hd, hs, -⟩ := isPlain_iff.mp hc
  simp [Place.step, Place.enter, hq, hd, hs]

theorem keeps_plain {t : Text} (ht : t.all isPlain = true) :
    Spot.Keeps comments .code .code next t :=
  fun c _ hv _ => step_plain (List.all_eq_true.mp ht c (hv.subset List.mem_cons_self))

theorem region_of_plain {t : Text} (ht : t.all isPlain = true) :
    ∀ m ∈ scan comments t, m.region = .code := by
  rw [scan_eq_marks]
  exact ((keeps_plain ht).marks Spot.start rfl).1

theorem Seals.of_plain {a b : Text} (ha : a.all isPlain = true) : Seals comments a b := by
  have hplace : (spotBehind comments a).place = .code := ((keeps_plain ha).marks Spot.start rfl).2
  rcases List.eq_nil_or_concat a with rfl | ⟨u, c, rfl⟩
  · exact ⟨hplace, fun h => absurd h (by simp), by simp [Spot.opensComment]⟩
  · obtain ⟨-, hd, hs, hb⟩ := isPlain_iff.mp (List.all_eq_true.mp ha c (by simp))
    exact Seals.of_last hplace (by simp) ⟨hb, hd, hs⟩

/-- Plain text without parentheses is level. -/
theorem IsLevel.of_plain {t : Text} (ht : t.all isPlain = true)
    (hweight : ∀ c ∈ t, Region.code.weight c = 0) : IsLevel comments t := by
  have hbehind := (keeps_plain ht : Spot.Keeps comments .code .code none t).marks_eq hweight
    Spot.start rfl |>.2
  constructor
  · rw [spotBehind, hbehind]
  · rw [spotBehind, hbehind]
    rfl

/-- Where no mark is of a comment there is nothing to mask. -/
theorem maskComments_eq_self {t : Text} (h : ∀ m ∈ scan true t, m.region ≠ .comment) :
    maskComments t = t := by
  have hchar : (scan true t).map (fun m => m.blanked.char) = (scan true t).map Mark.char :=
    List.map_congr_left fun m hm => by rw [blanked_of_not_comment (h m hm)]
  rw [maskComments_eq_map, hchar, scan_eq_marks, Spot.map_char_marks]

theorem maskComments_plain {t : Text} (ht : t.all isPlain = true) : maskComments t = t :=
  maskComments_eq_self fun m hm => by rw [region_of_plain ht m hm]; decide

theorem maskQuoted_plain {t : Text} (ht : t.all isPlain = true) : maskQuoted t = t := by
  have hchar : (scan false t).map Mark.unquotedChar = (scan false t).map Mark.char :=
    List.map_congr_left fun m hm => by
      simp [Mark.unquotedChar, Mark.isQuotedContent, region_of_plain ht m hm]
  rw [maskQuoted_eq_map, hchar, scan_eq_marks, Spot.map_char_marks]

theorem maskComments_plain_append {a : Text} (b : Text) (ha : a.all isPlain = true) :
    maskComments (a ++ b) = a ++ maskComments b := by
  rw [maskComments_append (Seals.of_plain ha), maskComments_plain ha]

theorem maskQuoted_plain_append {a : Text} (b : Text) (ha : a.all isPlain = true) :
    maskQuoted (a ++ b) = a ++ maskQuoted b := by
  rw [maskQuoted_append (Seals.of_plain ha), maskQuoted_plain ha]

/-! ### Literals -/

/-- A text between two quotes. -/
def Quote.enclose (q : Quote) (t : Text) : Text :=
  q.char :: (t ++ [q.char])

theorem step_quote {before : Option Char} {q : Quote} (hb : before ≠ some '\\') :
    Place.step comments before q.char next .code = (.quoted q, .quoted q) := by
  cases q <;> simp [Place.step, Place.enter, Quote.ofChar?, Quote.char, hb]

theorem step_quoted {before : Option Char} {q : Quote} {c : Char} (hc : c ≠ q.char) :
    Place.step comments before c next (.quoted q) = (.quoted q, .quoted q) := by
  simp [Place.step, hc]

theorem step_unquote (comments : Bool) (next : Option Char) {before : Option Char} {q : Quote}
    (hb : before ≠ some '\\') :
    Place.step comments before q.char next (.quoted q) = (.code, .code) := by
  simp [Place.step, hb]

theorem weight_quote (q : Quote) : Region.code.weight q.char = 0 := by
  cases q <;> rfl

/-- Inside quotes the scan stays inside as long as the quote does not come. -/
theorem keeps_quoted (comments : Bool) (next : Option Char) {q : Quote} {t : Text}
    (ht : q.char ∉ t) : Spot.Keeps comments (.quoted q) (.quoted q) next t :=
  fun _ _ hv _ => step_quoted fun h => ht (h ▸ hv.subset List.mem_cons_self)

/-- A literal without a quote and a backslash inside, as the scan marks it. -/
theorem scan_enclose {q : Quote} {t : Text} (ht : q.char ∉ t) (hb : '\\' ∉ t) :
    scan comments (q.enclose t) =
        ⟨q.char, .quoted q, 0⟩ :: (t.map (⟨·, .quoted q, 0⟩) ++ [⟨q.char, .code, 0⟩]) ∧
      spotBehind comments (q.enclose t) = ⟨some q.char, .code, 0⟩ := by
  have hmove : ∀ n, Spot.start.move comments q.char n = ⟨some q.char, .quoted q, 0⟩ := by
    intro n
    rw [Spot.move]
    simp [Spot.start, step_quote, Region.weight]
  have hmark : ∀ n, Spot.start.mark comments q.char n = ⟨q.char, .quoted q, 0⟩ := by
    intro n
    rw [Spot.mark]
    simp [Spot.start, step_quote, Region.weight]
  have hlast : t.getLast?.or (some q.char) ≠ some '\\' := by
    cases h : t.getLast? with
    | none => cases q <;> decide
    | some c =>
      intro hc
      obtain rfl : c = '\\' := Option.some.inj hc
      exact hb (List.mem_of_getLast? h)
  obtain ⟨hmarks, hbehind⟩ := (keeps_quoted comments (some q.char) ht).marks_eq (fun _ _ => rfl)
    ⟨some q.char, .quoted q, 0⟩ rfl
  have hstep := step_unquote comments none (q := q) hlast
  constructor
  · rw [scan_eq_marks, Quote.enclose, Spot.marks, hmark, hmove, Spot.marks_append,
      List.head?_cons, Option.some_or, hmarks, hbehind, Spot.marks, Spot.mark, Spot.marks,
      List.head?_nil, Option.or_none]
    simp only [hstep, weight_quote, Int.add_zero]
  · rw [spotBehind, Quote.enclose, Spot.behind, hmove, Spot.behind_append, List.head?_cons,
      Option.some_or, hbehind, Spot.behind, Spot.behind, Spot.move, List.head?_nil,
      Option.or_none]
    simp only [hstep, weight_quote, Int.add_zero]

theorem Seals.of_enclose {q : Quote} {t b : Text} (ht : q.char ∉ t) (hb : '\\' ∉ t) :
    Seals comments (q.enclose t) b :=
  Seals.of_last (c := q.char) (by rw [(scan_enclose ht hb).2])
    (by rw [Quote.enclose, List.getLast?_cons, List.getLast?_concat]; rfl)
    (by cases q <;> decide)

theorem maskComments_enclose_append {q : Quote} {t : Text} (b : Text) (ht : q.char ∉ t)
    (hb : '\\' ∉ t) : maskComments (q.enclose t ++ b) = q.enclose t ++ maskComments b := by
  rw [maskComments_append (Seals.of_enclose ht hb), maskComments_eq_self]
  intro m hm
  rw [(scan_enclose ht hb).1] at hm
  simp only [List.mem_cons, List.mem_append, List.mem_map, List.not_mem_nil, or_false] at hm
  rcases hm with rfl | ⟨c, -, rfl⟩ | rfl <;> simp

theorem maskQuoted_enclose_append {q : Quote} {t : Text} (b : Text) (ht : q.char ∉ t)
    (hb : '\\' ∉ t) :
    maskQuoted (q.enclose t ++ b) = q.enclose (List.replicate t.length ' ') ++ maskQuoted b := by
  rw [maskQuoted_append (Seals.of_enclose ht hb)]
  congr 1
  have hinside : t.map (Mark.unquotedChar ∘ (Mark.mk · (.quoted q) 0)) =
      List.replicate t.length ' ' := by
    rw [List.eq_replicate_iff]
    refine ⟨by simp, ?_⟩
    intro c hc
    obtain ⟨x, hx, rfl⟩ := List.mem_map.mp hc
    have hne : x ≠ q.char := fun h => ht (h ▸ hx)
    simp [Mark.unquotedChar, Mark.isQuotedContent, hne]
  rw [maskQuoted_eq_map, (scan_enclose ht hb).1, List.map_cons, List.map_append, List.map_map,
    hinside, Quote.enclose]
  simp [Mark.unquotedChar, Mark.isQuotedContent]

end TableTypes
