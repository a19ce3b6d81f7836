import TableTypes.Proofs.Scan.Comment
import TableTypes.Proofs.Scan.Restart

/-!
# The scan by positions

The scan gives every position of a text one mark, in order, with the character that stands there,
and the depth of a mark is the number of opening parentheses less the number of closing ones that
are marked as code up to it (`Spot.depth_marks`).

A text may be scanned in two parts where the first ends in code, unless an escape or the opening of
a comment stands across the joint.  These are the only exceptions: over every other joint the scan
composes, and over these it does not (`scan_append_iff`).
-/

namespace TableTypes

variable {comments : Bool} {a b : Text}

/-! ### Counting parentheses -/

/-- How often the character `c` is marked as code. -/
def codeCount (c : Char) (ms : List Mark) : Nat :=
  ms.countP fun m => m.region = .code && m.char = c

/-- How far marks raise the depth: the opening parentheses among them less the closing ones. -/
def rise (ms : List Mark) : Int :=
  codeCount '(' ms - codeCount ')' ms

theorem rise_cons (m : Mark) (ms : List Mark) :
    rise (m :: ms) = m.region.weight m.char + rise ms := by
  simp only [rise, codeCount, List.countP_cons, Region.weight]
  by_cases hm : m.region = .code
  · by_cases ho : m.char = '('
    · simp [hm, ho]
      omega
    · by_cases hc : m.char = ')'
      · simp [hm, hc]
        omega
      · simp [hm, ho, hc]
  · simp [hm]

/-- The depth of a mark is the one at the front and what the marks up to it add. -/
theorem Spot.depth_marks {next : Option Char} (t : Text) : ∀ (s : Spot) {i : Nat} {m : Mark},
    (s.marks comments next t)[i]? = some m →
      m.depth = s.depth + rise ((s.marks comments next t).take (i + 1)) := by
  induction t with
  | nil => intro s i m h; cases h
  | cons c t ih =>
    intro s i m h
    rw [marks] at h ⊢
    rw [List.take_succ_cons, rise_cons]
    cases i with
    | zero =>
      obtain rfl := Option.some.inj h
      rw [List.take_zero, show rise [] = 0 from rfl, Int.add_zero]
      rfl
    | succ i =>
      rw [ih _ h, ← Int.add_assoc]
      rfl

/-! ### Joints -/

theorem Spot.opensComment_eq_false_iff {last next : Option Char} :
    opensComment last next = false ↔
      ¬ (last = some '-' ∧ next = some '-') ∧ ¬ (last = some '/' ∧ next = some '*') := by
  simp [opensComment]

theorem Seals.of_getLast? (hcode : ∀ m ∈ (scan comments a).getLast?, m.region = .code)
    (hescape : ¬ (a.getLast? = some '\\' ∧ Spot.quoteAhead b = true))
    (hopen : Spot.opensComment a.getLast? b.head? = false) : Seals comments a b where
  place := place_spotBehind hcode
  escape := fun ha => Bool.eq_false_iff.mpr fun hquote => hescape ⟨ha, hquote⟩
  comment := hopen

/-- The depth behind a text, as its last mark tells it. -/
def depthBehind (comments : Bool) (t : Text) : Int :=
  ((scan comments t).getLast?.map Mark.depth).getD 0

/-- The scan of `a ++ b` is the one of `a` and, from its depth on, the one of `b`. -/
def ScansApart (comments : Bool) (a b : Text) : Prop :=
  scan comments (a ++ b) =
    scan comments a ++ (scan comments b).map (Mark.lift (depthBehind comments a))

theorem Seals.scansApart (h : Seals comments a b) : ScansApart comments a b := by
  rw [ScansApart, depthBehind, ← depth_spotBehind]
  exact scan_append h

/-- The marks in front of a character do not depend on what follows it. -/
theorem scan_append_cons (comments : Bool) (u : Text) (c : Char) (r : Text) :
    scan comments (u ++ c :: r) = Spot.start.marks comments (some c) u ++
      (Spot.start.behind comments (some c) u).mark comments c r.head? ::
        ((Spot.start.behind comments (some c) u).move comments c r.head?).marks comments none r := by
  rw [scan_eq_marks, Spot.marks_append, List.head?_cons, Option.some_or, Spot.marks, Option.or_none]

/-- A quote behind a backslash is code there, and inside quotes by itself. -/
theorem ScansApart.escape (hcode : ∀ m ∈ (scan comments a).getLast?, m.region = .code)
    (h : ScansApart comments a b) : ¬ (a.getLast? = some '\\' ∧ Spot.quoteAhead b = true) := by
  rintro ⟨ha, hquote⟩
  cases b with
  | nil => cases hquote
  | cons c r =>
    obtain ⟨q, hq⟩ : ∃ q, Quote.ofChar? c = some q := Option.isSome_iff_exists.mp hquote
    obtain rfl := Quote.ofChar?_eq_some_iff.mp hq
    have hplace := place_spotBehind hcode
    have hopen : Spot.opensComment a.getLast? (some q.char) = false := by
      rw [ha]
      rfl
    obtain ⟨hmarks, hbehind⟩ := Spot.marks_behind_of_next a Spot.start hplace hopen
    have hspot : spotBehind comments a = ⟨some '\\', .code, (spotBehind comments a).depth⟩ := by
      rw [← hplace, ← ha, ← Option.or_none (o := a.getLast?)]
      exact congrArg (Spot.mk · _ _) (Spot.before_behind none a Spot.start)
    rw [ScansApart, scan_append_cons, hmarks, ← scan_eq_marks, hbehind, ← spotBehind, hspot] at h
    have hregion : (Place.step comments (some '\\') q.char r.head? .code).1 =
        (Place.step comments none q.char r.head? .code).1 :=
      congrArg Mark.region (List.cons.inj (List.append_cancel_left h)).1
    cases q <;> simp [Place.step, Place.enter, Quote.char, Quote.ofChar?] at hregion

/-- Two characters that open a comment together are both in it, and the first by itself is not. -/
theorem ScansApart.comment (hcode : ∀ m ∈ (scan true a).getLast?, m.region = .code)
    (h : ScansApart true a b) : Spot.opensComment a.getLast? b.head? = false := by
  rw [← Bool.not_eq_true]
  intro hopen
  rcases List.eq_nil_or_concat a with rfl | ⟨u, c, rfl⟩
  · cases hopen
  · rw [List.concat_eq_append] at hcode h hopen
    rw [List.getLast?_concat] at hopen
    rw [ScansApart, List.append_assoc, List.singleton_append, scan_append_cons,
      scan_append_cons, List.append_assoc] at h
    rw [scan_append_cons, Spot.marks, List.getLast?_concat] at hcode
    generalize Spot.start.behind true (some c) u = s at h hcode
    -- The last character is code with nothing behind it, so the scan is in code in front of it.
    have hlast : (s.place.step true s.before c none).1 = .code := hcode _ rfl
    have hjoint : (s.place.step true s.before c b.head?).1 = .code :=
      (congrArg Mark.region (List.cons.inj (List.append_cancel_left h)).1).trans hlast
    simp only [Spot.opensComment, Option.some.injEq, Bool.or_eq_true, Bool.and_eq_true,
      decide_eq_true_eq] at hopen
    rcases hopen with ⟨rfl, hb⟩ | ⟨rfl, hb⟩
    · rw [Place.eq_code_of_step rfl (by decide) hlast, hb] at hjoint
      cases hjoint
    · rw [Place.eq_code_of_step rfl (by decide) hlast, hb] at hjoint
      cases hjoint

/-- **Where a scan may be cut**: behind code, if neither an escaped quote nor the opening of a
comment stands across the joint. -/
theorem scan_append_iff (hcode : ∀ m ∈ (scan true a).getLast?, m.region = .code) :
    ScansApart true a b ↔ ¬ (a.getLast? = some '\\' ∧ Spot.quoteAhead b = true) ∧
      Spot.opensComment a.getLast? b.head? = false := by
  constructor
  · exact fun h => ⟨h.escape hcode, h.comment hcode⟩
  · rintro ⟨hescape, hopen⟩
    exact (Seals.of_getLast? hcode hescape hopen).scansApart

/-! ### Positions -/

/-- **The scan is complete and composes.**  Every position of a text gets one mark, in order, as if
each comment were gone over at once, with its character and the depth that the parentheses in code
up to it make.  Two texts are scanned one after the other if the first is empty or ends in code and
neither an escaped quote nor the opening of a comment stands across the joint. -/
theorem scan_positions (comments : Bool) :
    (∀ t, (scan comments t).zipIdx = walk comments t ∧
      (scan comments t).zipIdx.map (Prod.map Mark.char id) = t.zipIdx ∧
      ∀ p ∈ (scan comments t).zipIdx, p.1.depth =
        codeCount '(' ((scan comments t).take (p.2 + 1)) -
          codeCount ')' ((scan comments t).take (p.2 + 1))) ∧
    ∀ a b, (∀ m ∈ (scan comments a).getLast?, m.region = .code) →
      ¬ (a.getLast? = some '\\' ∧ Spot.quoteAhead b = true) →
      ¬ (a.getLast? = some '-' ∧ b.head? = some '-') →
      ¬ (a.getLast? = some '/' ∧ b.head? = some '*') →
      (scan comments (a ++ b)).zipIdx = (scan comments a).zipIdx ++
        (scan comments b).zipIdx.map
          (Prod.map (Mark.lift (depthBehind comments a)) (· + a.length)) := by
  refine ⟨fun t => ⟨(walk_eq_zipIdx_scan comments t).symm, ?_, ?_⟩, ?_⟩
  · rw [← List.zipIdx_map, map_char_scan]
  · intro p hp
    rw [scan_eq_marks] at hp ⊢
    have hdepth := Spot.depth_marks t Spot.start (List.mem_zipIdx_iff_getElem?.mp hp)
    exact hdepth.trans (Int.zero_add _)
  · intro a b hcode hescape hline hblock
    have hopen := Spot.opensComment_eq_false_iff.mpr ⟨hline, hblock⟩
    have hapart := (Seals.of_getLast? hcode hescape hopen).scansApart
    rw [hapart, List.zipIdx_append, List.zipIdx_map, length_scan, Nat.add_comm,
      ← List.map_snd_add_zipIdx_eq_zipIdx, List.map_map]
    rfl

/-- A text that ends with a single dash, inside a parenthesis, and goes on with a block comment. -/
theorem scan_positions_dash :
    let a : Text := "k('(' /* ) */ -- (\n-".toList
    let b : Text := "/* ( */ 1)".toList
    ((∀ m ∈ (scan true a).getLast?, m.region = .code) ∧
      ¬ (a.getLast? = some '\\' ∧ Spot.quoteAhead b = true) ∧
      ¬ (a.getLast? = some '-' ∧ b.head? = some '-') ∧
      ¬ (a.getLast? = some '/' ∧ b.head? = some '*')) ∧
    (scan true (a ++ b)).zipIdx = (scan true a).zipIdx ++
      (scan true b).zipIdx.map (Prod.map (Mark.lift 1) (· + 20)) := by
  intro a b
  have hcode : ∀ m ∈ (scan true a).getLast?, m.region = .code := by decide
  have hescape : ¬ (a.getLast? = some '\\' ∧ Spot.quoteAhead b = true) := by decide
  have hline : ¬ (a.getLast? = some '-' ∧ b.head? = some '-') := by decide
  have hblock : ¬ (a.getLast? = some '/' ∧ b.head? = some '*') := by decide
  exact ⟨⟨hcode, hescape, hline, hblock⟩, (scan_positions true).2 a b hcode hescape hline hblock⟩

end TableTypes
