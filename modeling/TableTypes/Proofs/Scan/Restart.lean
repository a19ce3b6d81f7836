import TableTypes.Proofs.Scan.Mask

/-!
# Scans that begin inside a text

A scan that begins anew at a position in code goes on as the scan of the whole text does there, at
another depth (`scan_restart`), and so comments are masked alike behind that position
(`maskComments_restart`).  The other way around, a text is scanned and masked alike whatever follows
it, if its last character opens and closes no comment (`scan_front`, `maskComments_front`).
-/

namespace TableTypes

variable {comments : Bool}

/-! ### Positions -/

/-- What the scan knows in front of a position of the text. -/
def spotAt (comments : Bool) (t : Text) (i : Nat) : Spot :=
  Spot.start.behind comments (t.drop i).head? (t.take i)

/-- The region of the character at a position of the text, comments told apart. -/
def regionAt (t : Text) (i : Nat) : Option Region :=
  (scan true t)[i]?.map Mark.region

/-- The depth of parentheses in front of a position of the text. -/
def depthBefore (t : Text) (i : Nat) : Int :=
  (((scan true t).take i).getLast?.map Mark.depth).getD 0

@[simp] theorem length_scan (comments : Bool) (t : Text) : (scan comments t).length = t.length := by
  rw [scan_eq_marks, Spot.length_marks]

/-- The scan of a whole text, cut at a position. -/
theorem scan_split (comments : Bool) (t : Text) (i : Nat) :
    scan comments t = Spot.start.marks comments (t.drop i).head? (t.take i) ++
      (spotAt comments t i).marks comments none (t.drop i) := by
  have h := @Spot.marks_append comments none (t.take i) (t.drop i) Spot.start
  rwa [List.take_append_drop, Option.or_none, ← scan_eq_marks] at h

theorem scan_take (comments : Bool) (t : Text) (i : Nat) :
    (scan comments t).take i = Spot.start.marks comments (t.drop i).head? (t.take i) := by
  rw [scan_split comments t i]
  by_cases hi : i ≤ t.length
  · apply List.take_left'
    rw [Spot.length_marks, List.length_take, Nat.min_eq_left hi]
  · have hdrop : t.drop i = [] := List.drop_eq_nil_of_le (by omega)
    rw [hdrop, Spot.marks, List.append_nil]
    apply List.take_of_length_le
    rw [Spot.length_marks, List.length_take]
    omega

theorem scan_drop (comments : Bool) (t : Text) (i : Nat) :
    (scan comments t).drop i = (spotAt comments t i).marks comments none (t.drop i) := by
  have h : (scan comments t).take i ++ (scan comments t).drop i =
      (scan comments t).take i ++ (spotAt comments t i).marks comments none (t.drop i) := by
    rw [List.take_append_drop, scan_take]
    exact scan_split comments t i
  exact List.append_cancel_left h

theorem depthBefore_eq (t : Text) (i : Nat) : depthBefore t i = (spotAt true t i).depth := by
  rw [depthBefore, scan_take, spotAt, Spot.depth_behind]
  rfl

theorem Mark.blanked_lift (d : Int) (m : Mark) : (m.lift d).blanked = m.blanked.lift d := by
  unfold Mark.blanked
  rw [show (m.lift d).isComment = m.isComment from rfl]
  split <;> rfl

/-! ### Beginning anew -/

/-- A character of code that is neither a quote nor the end of a line comment has code in front of
it. -/
theorem Place.eq_code_of_step {place : Place} {before : Option Char} {c : Char}
    {next : Option Char} (hquote : Quote.ofChar? c = none) (hline : c ≠ '\n')
    (h : (place.step comments before c next).1 = .code) : place = .code := by
  cases place with
  | code => rfl
  | quoted q =>
    have hc : c ≠ q.char := by
      rintro rfl
      cases q <;> cases hquote
    simp [Place.step, hc] at h
  | lineComment => simp [Place.step, hline] at h
  | blockOpening => cases h
  | block =>
    rw [Place.step] at h
    split at h <;> cases h
  | blockClosing => cases h

/-- **A scan that begins anew in code** goes on as the whole scan does, at another depth. -/
theorem scan_restart {t : Text} {i : Nat} (hplace : (spotAt comments t i).place = .code)
    (hescape : (spotAt comments t i).before = some '\\' → Spot.quoteAhead (t.drop i) = false) :
    (scan comments t).drop i =
      (scan comments (t.drop i)).map (Mark.lift (spotAt comments t i).depth) := by
  rw [scan_drop]
  cases hs : spotAt comments t i with
  | mk before place depth =>
    -- Only a quote looks back at the character before it, to see whether it is escaped.
    rw [hs] at hplace hescape
    obtain rfl : place = .code := hplace
    rw [Spot.marks_of_before hescape, scan_eq_marks, ← Spot.marks_lift]
    simp [Spot.lift, Spot.start]

theorem map_char_scan (comments : Bool) (t : Text) : (scan comments t).map Mark.char = t := by
  rw [scan_eq_marks, Spot.map_char_marks]

/-- A solid character of the masked text stands in the text itself, outside comments. -/
theorem exists_mark_of_maskComments {t : Text} {i : Nat} {c : Char} (hblank : c ≠ ' ')
    (hline : c ≠ '\n') (h : (maskComments t)[i]? = some c) :
    ∃ m, (scan true t)[i]? = some m ∧ m.char = c ∧ m.region ≠ .comment := by
  rw [maskComments_eq_map, List.getElem?_map] at h
  obtain ⟨m, hm, hchar⟩ := Option.map_eq_some_iff.mp h
  have hregion : m.region ≠ .comment := by
    intro hcomment
    rcases (blanked_of_comment hcomment).2.2 with heq | heq
    · exact hblank (hchar.symm.trans heq)
    · exact hline (hchar.symm.trans heq)
  rw [blanked_of_not_comment hregion] at hchar
  exact ⟨m, hm, hchar, hregion⟩

theorem getElem?_of_maskComments {t : Text} {i : Nat} {c : Char} (hblank : c ≠ ' ')
    (hline : c ≠ '\n') (h : (maskComments t)[i]? = some c) : t[i]? = some c := by
  obtain ⟨m, hm, hchar, -⟩ := exists_mark_of_maskComments hblank hline h
  rw [← map_char_scan true t, List.getElem?_map, hm, Option.map_some, hchar]

/-- Behind a position in code comments are masked as in the text from there on. -/
theorem maskComments_restart {t : Text} {i : Nat} (hplace : (spotAt true t i).place = .code)
    (hescape : (spotAt true t i).before = some '\\' → Spot.quoteAhead (t.drop i) = false) :
    (maskComments t).drop i = maskComments (t.drop i) := by
  rw [maskComments_eq_map, ← List.map_drop, scan_restart hplace hescape, List.map_map,
    maskComments_eq_map]
  apply List.map_congr_left
  intro m _
  rw [Function.comp_apply, Mark.blanked_lift, Mark.lift_char]

/-- A position whose character is marked as code, and is neither a quote nor a newline, is one where
a scan can begin anew. -/
theorem spotAt_of_regionAt {t : Text} {i : Nat} {c : Char} {r : Text} (ht : t.drop i = c :: r)
    (hquote : Quote.ofChar? c = none) (hline : c ≠ '\n') (hregion : regionAt t i = some .code) :
    (spotAt true t i).place = .code ∧
      ((spotAt true t i).before = some '\\' → Spot.quoteAhead (t.drop i) = false) := by
  have hmark : (scan true t)[i]? = some ((spotAt true t i).mark true c (r.head?.or none)) := by
    rw [← List.head?_drop, scan_drop, ht]
    rfl
  constructor
  · rw [regionAt, hmark, Option.map_some, Option.some.injEq] at hregion
    exact Place.eq_code_of_step hquote hline hregion
  · intro _
    rw [Spot.quoteAhead, ht, List.head?_cons, Option.bind_some, hquote]
    rfl

/-! ### Ending early -/

/-- A character that opens and closes no comment is read without a look at the next one. -/
theorem step_of_char {before next next' : Option Char} {c : Char} {place : Place}
    (hc : c ≠ '-' ∧ c ≠ '/' ∧ c ≠ '*') :
    place.step comments before c next = place.step comments before c next' := by
  cases place <;> simp [Place.step, Place.enter, hc.1, hc.2.1, hc.2.2]

/-- A character that goes on with no comment is of no interest to the one before it. -/
theorem step_of_next_char {before next : Option Char} {c : Char} {place : Place}
    (hnext : ∀ d ∈ next, d ≠ '-' ∧ d ≠ '*' ∧ d ≠ '/') :
    place.step comments before c next = place.step comments before c none := by
  cases next with
  | none => rfl
  | some d =>
    obtain ⟨hdash, hstar, hslash⟩ := hnext d rfl
    cases place <;> simp [Place.step, Place.enter, hdash, hstar, hslash]

theorem marks_behind_of_last {next : Option Char} {c : Char} {t : Text}
    (hlast : t.getLast? = some c) (hc : c ≠ '-' ∧ c ≠ '/' ∧ c ≠ '*') (s : Spot) :
    s.marks comments next t = s.marks comments none t ∧
      s.behind comments next t = s.behind comments none t := by
  obtain ⟨u, rfl⟩ := List.getLast?_eq_some_iff.mp hlast
  have hstep : ∀ v : Spot, v.place.step comments v.before c next =
      v.place.step comments v.before c none := fun v => step_of_char hc
  rw [Spot.marks_append, Spot.marks_append, Spot.behind_append, Spot.behind_append]
  simp only [Spot.marks, Spot.behind, Spot.mark, Spot.move, List.head?_nil, List.head?_cons,
    Option.none_or, Option.some_or, hstep, and_self]

theorem marks_behind_of_next_char {next : Option Char}
    (hnext : ∀ d ∈ next, d ≠ '-' ∧ d ≠ '*' ∧ d ≠ '/') (t : Text) :
    ∀ s : Spot, s.marks comments next t = s.marks comments none t ∧
      s.behind comments next t = s.behind comments none t := by
  induction t with
  | nil => exact fun s => ⟨rfl, rfl⟩
  | cons c t ih =>
    intro s
    have hstep : s.place.step comments s.before c (t.head?.or next) =
        s.place.step comments s.before c (t.head?.or none) := by
      cases t with
      | nil => exact step_of_next_char hnext
      | cons x t => rfl
    have hmove : s.move comments c (t.head?.or next) = s.move comments c (t.head?.or none) := by
      rw [Spot.move, Spot.move, hstep]
    rw [Spot.marks, Spot.marks, Spot.behind, Spot.behind, Spot.mark, Spot.mark, hstep, hmove,
      (ih _).1, (ih _).2]
    exact ⟨rfl, rfl⟩

/-- A text is scanned by itself if what follows it goes on with no comment. -/
theorem scan_append_of_next {r : Text} (hr : ∀ c ∈ r.head?, c ≠ '-' ∧ c ≠ '*' ∧ c ≠ '/')
    (b : Text) :
    scan comments (b ++ r) = scan comments b ++ (spotBehind comments b).marks comments none r ∧
      spotBehind comments (b ++ r) = (spotBehind comments b).behind comments none r := by
  obtain ⟨hmarks, hbehind⟩ := @marks_behind_of_next_char comments _ hr b Spot.start
  constructor
  · rw [scan_eq_marks, Spot.marks_append, Option.or_none, hmarks, hbehind, ← scan_eq_marks]
    rfl
  · rw [spotBehind, Spot.behind_append, Option.or_none, hbehind]
    rfl

/-- **A text is scanned alike whatever follows it**, if its last character opens and closes no
comment. -/
theorem scan_front {c : Char} {a : Text} (b : Text) (hlast : a.getLast? = some c)
    (hc : c ≠ '-' ∧ c ≠ '/' ∧ c ≠ '*') :
    ∃ ms, scan comments (a ++ b) = scan comments a ++ ms ∧ ms.length = b.length := by
  rw [scan_eq_marks, Spot.marks_append, (marks_behind_of_last hlast hc _).1, ← scan_eq_marks]
  exact ⟨_, rfl, Spot.length_marks _ _ _⟩

theorem maskComments_front {c : Char} {a : Text} (b : Text) (hlast : a.getLast? = some c)
    (hc : c ≠ '-' ∧ c ≠ '/' ∧ c ≠ '*') :
    ∃ m, maskComments (a ++ b) = maskComments a ++ m ∧ m.length = b.length := by
  obtain ⟨ms, hms, hlength⟩ := @scan_front true c a b hlast hc
  rw [maskComments_eq_map, hms, List.map_append, ← maskComments_eq_map]
  exact ⟨_, rfl, by rw [List.length_map, hlength]⟩

end TableTypes
