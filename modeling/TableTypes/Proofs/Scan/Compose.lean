import TableTypes.Proofs.Text.Search
import TableTypes.Scan
import Mathlib.Tactic.Ring

/-!
# Scanning a text piece by piece

The scan of `a ++ b` is the scan of `a` followed by the scan of `b`, moved to the depth that `a`
ends at (`scan_append`), when `a` ends in code and no quote, comment or escape reaches over the
joint (`Seals`).

The scan looks one character ahead and one character back, so the pieces are first composed with
what stands around them: a `Spot` is all that the scan knows between two characters, and
`Spot.marks` takes the character behind the text as an argument (`Spot.marks_append`).
-/

namespace TableTypes

/-! ### Spots -/

/-- What the scan knows between two characters: the one before, the place and the depth. -/
structure Spot where
  before : Option Char
  place : Place
  depth : Int

namespace Spot

/-- The spot in front of a whole text. -/
def start : Spot := ⟨none, .code, 0⟩

/-- The mark of the character `c` with `next` behind it. -/
def mark (comments : Bool) (s : Spot) (c : Char) (next : Option Char) : Mark :=
  ⟨c, (s.place.step comments s.before c next).1,
    s.depth + (s.place.step comments s.before c next).1.weight c⟩

/-- The spot behind the character `c` with `next` behind it. -/
def move (comments : Bool) (s : Spot) (c : Char) (next : Option Char) : Spot :=
  ⟨some c, (s.place.step comments s.before c next).2,
    s.depth + (s.place.step comments s.before c next).1.weight c⟩

/-- The marks of a text that begins at a spot and goes on with `next`. -/
def marks (comments : Bool) (next : Option Char) : Spot → Text → List Mark
  | _, [] => []
  | s, c :: t =>
    s.mark comments c (t.head?.or next) ::
      marks comments next (s.move comments c (t.head?.or next)) t

/-- The spot behind a text that begins at a spot and goes on with `next`. -/
def behind (comments : Bool) (next : Option Char) : Spot → Text → Spot
  | s, [] => s
  | s, c :: t => behind comments next (s.move comments c (t.head?.or next)) t

/-- A spot moved by `d` levels of parentheses. -/
def lift (d : Int) (s : Spot) : Spot :=
  ⟨s.before, s.place, s.depth + d⟩

end Spot

/-- A mark moved by `d` levels of parentheses. -/
def Mark.lift (d : Int) (m : Mark) : Mark :=
  ⟨m.char, m.region, m.depth + d⟩

@[simp] theorem Mark.lift_char (d : Int) (m : Mark) : (m.lift d).char = m.char := rfl

@[simp] theorem Mark.lift_region (d : Int) (m : Mark) : (m.lift d).region = m.region := rfl

@[simp] theorem Mark.lift_depth (d : Int) (m : Mark) : (m.lift d).depth = m.depth + d := rfl

theorem Quote.ofChar?_eq_some_iff {c : Char} {q : Quote} : ofChar? c = some q ↔ q.char = c := by
  constructor
  · intro h
    unfold ofChar? at h
    split_ifs at h with h₁ h₂ h₃
    · rw [← Option.some.inj h, h₁, char]
    · rw [← Option.some.inj h, h₂, char]
    · rw [← Option.some.inj h, h₃, char]
  · rintro rfl
    cases q <;> rfl

theorem scanFrom_eq_marks (comments : Bool) (t : Text) : ∀ s : Spot,
    scanFrom comments s.before s.place s.depth t = s.marks comments none t := by
  induction t with
  | nil => intro s; rfl
  | cons c t ih =>
    intro s
    rw [scanFrom, Spot.marks, ← ih, Option.or_none]
    rfl

theorem scan_eq_marks (comments : Bool) (t : Text) :
    scan comments t = Spot.start.marks comments none t :=
  scanFrom_eq_marks comments t Spot.start

namespace Spot

variable {comments : Bool}

@[simp] theorem length_marks (next : Option Char) (t : Text) : ∀ s : Spot,
    (s.marks comments next t).length = t.length := by
  induction t with
  | nil => intro s; rfl
  | cons c t ih => intro s; rw [marks, List.length_cons, ih, List.length_cons]

@[simp] theorem map_char_marks (next : Option Char) (t : Text) : ∀ s : Spot,
    (s.marks comments next t).map Mark.char = t := by
  induction t with
  | nil => intro s; rfl
  | cons c t ih => intro s; rw [marks, List.map_cons, ih]; rfl

theorem getLast?_marks_eq_none_iff {next : Option Char} {t : Text} {s : Spot} :
    (s.marks comments next t).getLast? = none ↔ t = [] := by
  rw [List.getLast?_eq_none_iff, ← List.length_eq_zero_iff, length_marks, List.length_eq_zero_iff]

/-! ### Composition -/

theorem head?_append_or (a b : Text) (next : Option Char) :
    (a ++ b).head?.or next = a.head?.or (b.head?.or next) := by
  cases a <;> rfl

theorem marks_append (next : Option Char) (a b : Text) : ∀ s : Spot,
    s.marks comments next (a ++ b) =
      s.marks comments (b.head?.or next) a ++
        (s.behind comments (b.head?.or next) a).marks comments next b := by
  induction a with
  | nil => intro s; rfl
  | cons c a ih =>
    intro s
    rw [List.cons_append, marks, marks, behind, head?_append_or, ih, List.cons_append]

theorem behind_append (next : Option Char) (a b : Text) : ∀ s : Spot,
    s.behind comments next (a ++ b) =
      (s.behind comments (b.head?.or next) a).behind comments next b := by
  induction a with
  | nil => intro s; rfl
  | cons c a ih => intro s; rw [List.cons_append, behind, behind, head?_append_or, ih]

theorem before_behind (next : Option Char) (t : Text) : ∀ s : Spot,
    (s.behind comments next t).before = t.getLast?.or s.before := by
  induction t with
  | nil => intro s; rfl
  | cons c t ih =>
    intro s
    rw [behind, ih, Text.getLast?_cons_or]
    rfl

/-- A character of code is followed by code. -/
theorem step_code_place {before : Option Char} {c : Char} {next : Option Char} {place : Place}
    (h : (place.step comments before c next).1 = .code) :
    (place.step comments before c next).2 = .code := by
  cases place <;> simp only [Place.step, Place.enter] at h ⊢ <;> grind

/-- The last mark tells where the scan stands. -/
theorem behind_of_getLast? {next : Option Char} {m : Mark} (t : Text) : ∀ s : Spot,
    (s.marks comments next t).getLast? = some m →
      (s.behind comments next t).depth = m.depth ∧
        (m.region = .code → (s.behind comments next t).place = .code) := by
  induction t with
  | nil => intro s h; cases h
  | cons c t ih =>
    intro s h
    rw [behind]
    rw [marks, List.getLast?_cons] at h
    cases hlast : ((s.move comments c (t.head?.or next)).marks comments next t).getLast? with
    | some m' =>
      rw [hlast, Option.getD_some] at h
      exact ih _ (hlast.trans h)
    | none =>
      rw [hlast, Option.getD_none, Option.some.injEq] at h
      obtain rfl := getLast?_marks_eq_none_iff.mp hlast
      subst h
      exact ⟨rfl, step_code_place⟩

/-- The depth behind a text is the one of its last mark, or the one in front if it has none. -/
theorem depth_behind {next : Option Char} {t : Text} {s : Spot} :
    (s.behind comments next t).depth =
      ((s.marks comments next t).getLast?.map Mark.depth).getD s.depth := by
  cases h : (s.marks comments next t).getLast? with
  | some m => exact (behind_of_getLast? t s h).1
  | none =>
    obtain rfl := getLast?_marks_eq_none_iff.mp h
    rfl

/-! ### Texts that keep the scan in place -/

/-- Every character of the text leaves the scan at one place, in one region. -/
def Keeps (comments : Bool) (place : Place) (region : Region) (next : Option Char) (t : Text) :
    Prop :=
  ∀ c v, c :: v <:+ t → ∀ before,
    place.step comments before c (v.head?.or next) = (region, place)

variable {place : Place} {region : Region} {next : Option Char} {t : Text}

theorem Keeps.tail {c : Char} (h : Keeps comments place region next (c :: t)) :
    Keeps comments place region next t :=
  fun d v hv => h d v (hv.trans (List.suffix_cons c t))

theorem Keeps.marks (h : Keeps comments place region next t) : ∀ s : Spot, s.place = place →
    (∀ m ∈ s.marks comments next t, m.region = region) ∧
      (s.behind comments next t).place = place := by
  induction t with
  | nil => intro s hs; exact ⟨fun m hm => absurd hm List.not_mem_nil, hs⟩
  | cons c t ih =>
    intro s hs
    have hstep : s.place.step comments s.before c (t.head?.or next) = (region, place) := by
      rw [hs]; exact h c t List.suffix_rfl s.before
    obtain ⟨hmarks, hplace⟩ := ih h.tail (s.move comments c (t.head?.or next))
      (by rw [move, hstep])
    refine ⟨?_, hplace⟩
    intro m hm
    rw [Spot.marks, List.mem_cons] at hm
    rcases hm with rfl | hm
    · rw [mark, hstep]
    · exact hmarks m hm

/-- Without a parenthesis in code the depth is kept, too. -/
theorem Keeps.marks_eq (h : Keeps comments place region next t)
    (hweight : ∀ c ∈ t, region.weight c = 0) : ∀ s : Spot, s.place = place →
    s.marks comments next t = t.map (⟨·, region, s.depth⟩) ∧
      s.behind comments next t = ⟨t.getLast?.or s.before, place, s.depth⟩ := by
  induction t with
  | nil => intro s hs; exact ⟨rfl, by rw [← hs]; rfl⟩
  | cons c t ih =>
    intro s hs
    have hstep : s.place.step comments s.before c (t.head?.or next) = (region, place) := by
      rw [hs]; exact h c t List.suffix_rfl s.before
    have hc : region.weight c = 0 := hweight c List.mem_cons_self
    have hmove : s.move comments c (t.head?.or next) = ⟨some c, place, s.depth⟩ := by
      rw [move, hstep, hc, Int.add_zero]
    have hmark : s.mark comments c (t.head?.or next) = ⟨c, region, s.depth⟩ := by
      rw [mark, hstep, hc, Int.add_zero]
    obtain ⟨hmarks, hbehind⟩ := ih h.tail (fun x hx => hweight x (List.mem_cons_of_mem c hx))
      ⟨some c, place, s.depth⟩ rfl
    refine ⟨by rw [Spot.marks, hmark, hmove, hmarks, List.map_cons], ?_⟩
    rw [behind, hmove, hbehind, Text.getLast?_cons_or]

/-! ### Moving to another depth -/

theorem move_lift (d : Int) (s : Spot) (c : Char) (next : Option Char) :
    (s.lift d).move comments c next = (s.move comments c next).lift d := by
  simp only [move, lift]
  congr 1
  ring

theorem marks_lift (d : Int) (next : Option Char) (t : Text) : ∀ s : Spot,
    (s.lift d).marks comments next t = (s.marks comments next t).map (Mark.lift d) := by
  induction t with
  | nil => intro s; rfl
  | cons c t ih =>
    intro s
    rw [marks, marks, List.map_cons, move_lift, ih]
    congr 1
    simp only [mark, lift, Mark.lift]
    congr 1
    ring

theorem behind_lift (comments : Bool) (d : Int) (next : Option Char) (t : Text) : ∀ s : Spot,
    (s.lift d).behind comments next t = (s.behind comments next t).lift d := by
  induction t with
  | nil => intro s; rfl
  | cons c t ih => intro s; rw [behind, behind, move_lift, ih]

/-! ### The character before -/

theorem step_eq_of_ofChar?_eq_none {before before' : Option Char} {c : Char} {next : Option Char}
    (h : Quote.ofChar? c = none) :
    Place.step comments before c next .code = Place.step comments before' c next .code := by
  simp only [Place.step, Place.enter, h]

theorem step_eq_of_before {before before' : Option Char} {c : Char} {next : Option Char}
    {place : Place} (h : before = some '\\' ↔ before' = some '\\') :
    Place.step comments before c next place = Place.step comments before' c next place := by
  cases place <;> simp only [Place.step, Place.enter, h, ne_eq]

/-- Whether a text begins with one of the three quotes. -/
def quoteAhead (t : Text) : Bool :=
  (t.head?.bind Quote.ofChar?).isSome

/-- What stands before a text in code matters only if it is a backslash and the text begins with
a quote. -/
theorem move_of_before {before : Option Char} {d : Int} {c : Char} {t : Text}
    {next : Option Char} (h : before = some '\\' → quoteAhead (c :: t) = false) :
    (Spot.mk before .code d).move comments c next = (Spot.mk none .code d).move comments c next ∧
      (Spot.mk before .code d).mark comments c next =
        (Spot.mk none .code d).mark comments c next := by
  have hstep : Place.step comments before c next .code = Place.step comments none c next .code := by
    by_cases hb : before = some '\\'
    · apply step_eq_of_ofChar?_eq_none
      have hq := h hb
      rw [quoteAhead, List.head?_cons, Option.bind_some] at hq
      exact Option.not_isSome_iff_eq_none.mp (by rw [hq]; exact Bool.false_ne_true)
    · exact step_eq_of_before (by simp [hb])
  exact ⟨by rw [move, move]; simp only [hstep], by rw [mark, mark]; simp only [hstep]⟩

theorem marks_of_before {before : Option Char} {d : Int} {t : Text} {next : Option Char}
    (h : before = some '\\' → quoteAhead t = false) :
    (Spot.mk before .code d).marks comments next t =
      (Spot.mk none .code d).marks comments next t := by
  cases t with
  | nil => rfl
  | cons c t => rw [marks, marks, (move_of_before h).1, (move_of_before h).2]

theorem behind_of_before {before : Option Char} {d : Int} {c : Char} {t : Text}
    {next : Option Char} (h : before = some '\\' → quoteAhead (c :: t) = false) :
    (Spot.mk before .code d).behind comments next (c :: t) =
      (Spot.mk none .code d).behind comments next (c :: t) := by
  rw [behind, behind, (move_of_before h).1]

/-! ### The character behind -/

/-- Whether the characters on the two sides of a joint open a comment together. -/
def opensComment (last next : Option Char) : Bool :=
  (last = some '-' && next = some '-') || (last = some '/' && next = some '*')

/-- A step that leaves the scan in code does not look at the next character, unless the two open a
comment. -/
theorem step_of_next {before : Option Char} {c : Char} {next : Option Char} {place : Place}
    (hcode : (place.step comments before c none).2 = .code)
    (hopen : opensComment (some c) next = false) :
    place.step comments before c next = place.step comments before c none := by
  cases place with
  | code =>
    simp only [opensComment, Option.some.injEq, Bool.or_eq_false_iff, Bool.and_eq_false_iff,
      decide_eq_false_iff_not] at hopen
    simp only [Place.step, Place.enter]
    grind
  | block => simp [Place.step] at hcode
  | quoted q => rfl
  | lineComment => rfl
  | blockOpening => rfl
  | blockClosing => rfl

theorem marks_behind_of_next {next : Option Char} (t : Text) : ∀ s : Spot,
    (s.behind comments none t).place = .code → opensComment t.getLast? next = false →
      s.marks comments next t = s.marks comments none t ∧
        s.behind comments next t = s.behind comments none t := by
  induction t with
  | nil => intro s _ _; exact ⟨rfl, rfl⟩
  | cons c t ih =>
    intro s hplace hopen
    cases t with
    | nil =>
      have hstep := step_of_next hplace hopen
      simp only [marks, behind, mark, move, List.head?_nil, Option.none_or, hstep, and_self]
    | cons d t =>
      have h := ih (s.move comments c (some d)) hplace (by rwa [List.getLast?_cons_cons] at hopen)
      exact ⟨congrArg (s.mark comments c (some d) :: ·) h.1, h.2⟩

end Spot

/-! ### Joints -/

/-- The spot behind a whole text. -/
def spotBehind (comments : Bool) (t : Text) : Spot :=
  Spot.start.behind comments none t

/-- The depth behind a whole text, as its last mark tells it. -/
theorem depth_spotBehind (comments : Bool) (t : Text) :
    (spotBehind comments t).depth = ((scan comments t).getLast?.map Mark.depth).getD 0 := by
  rw [spotBehind, Spot.depth_behind, scan_eq_marks]
  rfl

/-- A whole text whose last mark is of code ends in code, and so does the empty one. -/
theorem place_spotBehind {comments : Bool} {t : Text}
    (h : ∀ m ∈ (scan comments t).getLast?, m.region = .code) :
    (spotBehind comments t).place = .code := by
  rw [scan_eq_marks] at h
  cases hlast : (Spot.start.marks comments none t).getLast? with
  | some m => exact (Spot.behind_of_getLast? t Spot.start hlast).2 (h m hlast)
  | none =>
    obtain rfl := Spot.getLast?_marks_eq_none_iff.mp hlast
    rfl

/-- The joint of `a` and `b` is plain: `a` ends in code, and neither an escaped quote nor the
opening of a comment stands across it. -/
structure Seals (comments : Bool) (a b : Text) : Prop where
  place : (spotBehind comments a).place = .code
  escape : a.getLast? = some '\\' → Spot.quoteAhead b = false
  comment : Spot.opensComment a.getLast? b.head? = false

namespace Seals

variable {comments : Bool} {a b : Text}

/-- A text that ends in code can be followed by everything, if its last character takes no part in
an escape or the opening of a comment. -/
theorem of_last {c : Char} (hplace : (spotBehind comments a).place = .code)
    (hlast : a.getLast? = some c) (hc : c ≠ '\\' ∧ c ≠ '-' ∧ c ≠ '/') : Seals comments a b where
  place := hplace
  escape := by rw [hlast]; intro h; exact absurd (Option.some.inj h) hc.1
  comment := by rw [hlast]; simp [Spot.opensComment, hc.2.1, hc.2.2]

/-- A text that ends in code can be followed by a character that takes no part in an escape or the
opening of a comment. -/
theorem of_head {c : Char} (hplace : (spotBehind comments a).place = .code)
    (hhead : b.head? = some c) (hc : Quote.ofChar? c = none ∧ c ≠ '-' ∧ c ≠ '*') :
    Seals comments a b where
  place := hplace
  escape := by intro _; simp [Spot.quoteAhead, hhead, hc.1]
  comment := by rw [hhead]; simp [Spot.opensComment, hc.2.1, hc.2.2]

/-- Scanning over a plain joint. -/
theorem spot_eq (h : Seals comments a b) :
    Spot.start.behind comments b.head? a = spotBehind comments a ∧
      Spot.start.marks comments b.head? a = scan comments a := by
  have hnext := Spot.marks_behind_of_next a Spot.start h.place h.comment
  exact ⟨hnext.2, by rw [hnext.1, scan_eq_marks]⟩

theorem spot (h : Seals comments a b) : spotBehind comments a =
    ⟨(spotBehind comments a).before, .code, (spotBehind comments a).depth⟩ := by
  rw [← h.place]

theorem before_ne (h : Seals comments a b) :
    (spotBehind comments a).before = some '\\' → Spot.quoteAhead b = false := by
  intro hb
  rw [spotBehind, Spot.before_behind, Spot.start, Option.or_none] at hb
  exact h.escape hb

end Seals

variable {comments : Bool} {a b : Text}

/-- **Compositionality of the scan.** -/
theorem scan_append (h : Seals comments a b) :
    scan comments (a ++ b) =
      scan comments a ++ (scan comments b).map (Mark.lift (spotBehind comments a).depth) := by
  rw [scan_eq_marks, Spot.marks_append, Option.or_none, h.spot_eq.1, h.spot_eq.2]
  congr 1
  rw [h.spot, Spot.marks_of_before h.before_ne, scan_eq_marks, ← Spot.marks_lift]
  simp [Spot.lift, Spot.start]

theorem spotBehind_append (h : Seals comments a b) (hb : b ≠ []) :
    spotBehind comments (a ++ b) =
      (spotBehind comments b).lift (spotBehind comments a).depth := by
  obtain ⟨c, t, rfl⟩ := List.exists_cons_of_ne_nil hb
  have hab : spotBehind comments (a ++ c :: t) =
      (spotBehind comments a).behind comments none (c :: t) := by
    rw [spotBehind, Spot.behind_append, Option.or_none, h.spot_eq.1]
  have hlift := Spot.behind_lift comments (spotBehind comments a).depth none (c :: t)
    Spot.start
  rw [hab, h.spot, Spot.behind_of_before h.before_ne]
  simpa [Spot.lift, Spot.start, spotBehind] using hlift

/-! ### Level texts -/

/-- Behind the text the scan is in code again, at the depth it began at. -/
structure IsLevel (comments : Bool) (t : Text) : Prop where
  place : (spotBehind comments t).place = .code
  depth : (spotBehind comments t).depth = 0

namespace IsLevel

@[simp] theorem nil : IsLevel comments [] := ⟨rfl, rfl⟩

/-- The last mark of a level text is of code outside all parentheses. -/
theorem of_getLast? (h : ∀ m ∈ (scan comments a).getLast?, m.region = .code ∧ m.depth = 0) :
    IsLevel comments a where
  place := place_spotBehind fun m hm => (h m hm).1
  depth := by
    rw [depth_spotBehind]
    cases hlast : (scan comments a).getLast? with
    | none => rfl
    | some m => exact (h m hlast).2

/-- Behind a level text the scan begins anew. -/
theorem scan_append (ha : IsLevel comments a) (h : Seals comments a b) :
    scan comments (a ++ b) = scan comments a ++ scan comments b := by
  have hlift : Mark.lift 0 = id := by
    funext m
    rw [Mark.lift, Int.add_zero]
    rfl
  rw [TableTypes.scan_append h, ha.depth, hlift, List.map_id]

theorem append (ha : IsLevel comments a) (hb : IsLevel comments b) (h : Seals comments a b) :
    IsLevel comments (a ++ b) := by
  by_cases hnil : b = []
  · rw [hnil, List.append_nil]
    exact ha
  · have hspot := spotBehind_append h hnil
    constructor
    · rw [hspot, Spot.lift, hb.place]
    · rw [hspot, Spot.lift, hb.depth, ha.depth]
      rfl

end IsLevel

end TableTypes
