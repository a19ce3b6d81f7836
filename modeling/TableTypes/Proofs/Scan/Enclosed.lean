import TableTypes.Proofs.Scan.Delimiters
import TableTypes.Proofs.Scan.Restart

/-!
# What stands between two parentheses

The parenthesis in front of a text is closed behind the first piece of it that closes everything it
opens (`closing?_eq_some_iff`), which is where the scan of a whole text comes back to its depth in
front of the parenthesis (`returnsAt_of_closing?`).  A whole text closes what it opens if the scan ends
in code at depth zero (`hasUnmatchedDelimiters_eq_false_iff_spotBehind`).
-/

namespace TableTypes

open Text

/-- The text can stand between a parenthesis and the one that closes it: it closes no parenthesis
that it has not opened, and behind it the scan is in code again, at the depth it began at. -/
structure IsEnclosed (t : Text) : Prop where
  nonneg : ∀ m ∈ scan true t, 0 ≤ m.depth
  level : IsLevel true t

/-! ### The closing parenthesis -/

/-- Whether the mark is of the parenthesis that closes one in front of the text. -/
def Mark.closesOuter (m : Mark) : Bool :=
  m.char = ')' && m.region = .code && m.depth = -1

theorem matchingParen?_natCast (t : Text) (i : Nat) :
    matchingParen? t i = (closing? (t.drop i)).map (i + ·) := by
  rw [matchingParen?, if_neg (by omega), Int.toNat_natCast]

theorem closing?_cons (t : Text) :
    closing? ('(' :: t) = ((scan true t).findIdx? Mark.closesOuter).map (· + 1) := by
  have hopen : scan true ('(' :: t) = ⟨'(', .code, 1⟩ :: (scan true t).map (Mark.lift 1) :=
    scan_append (Seals.of_plain (a := ['(']) rfl)
  have hcloses : ∀ m : Mark, (decide ((m.lift 1).char = ')') && (m.lift 1).isTopLevel) =
      m.closesOuter := by
    intro m
    have hdepth : decide (m.depth + 1 = 0) = decide (m.depth = -1) :=
      decide_eq_decide.mpr (by omega)
    rw [Mark.isTopLevel, Mark.closesOuter, Mark.lift_char, Mark.lift_region, Mark.lift_depth,
      hdepth, Bool.and_assoc]
  rw [closing?, hopen, List.findIdx?_cons, List.findIdx?_map]
  simp only [Function.comp_def, hcloses]
  rfl

theorem weight_eq_zero {c : Char} (hopen : c ≠ '(') (hclose : c ≠ ')') (r : Region) :
    r.weight c = 0 := by
  simp [Region.weight, hopen, hclose]

/-- A step moves the depth down only at a closing parenthesis in code. -/
theorem weight_nonneg {r : Region} {c : Char} (h : ¬ (c = ')' ∧ r = .code)) :
    0 ≤ r.weight c := by
  unfold Region.weight
  split_ifs with h₁ h₂ h₃
  · decide
  · exact absurd ⟨h₃, h₁⟩ h
  · decide
  · decide

/-- The depth does not fall below zero before a parenthesis in front of the text is closed. -/
theorem Spot.depth_nonneg {next : Option Char} (t : Text) : ∀ s : Spot, 0 ≤ s.depth →
    (∀ m ∈ s.marks true next t, m.closesOuter = false) →
      ∀ m ∈ s.marks true next t, 0 ≤ m.depth := by
  induction t with
  | nil => exact fun s _ _ m hm => absurd hm List.not_mem_nil
  | cons c t ih =>
    intro s hs hcloses
    rw [marks] at hcloses ⊢
    have hfirst := hcloses _ List.mem_cons_self
    have hdepth : 0 ≤ (s.mark true c (t.head?.or next)).depth := by
      rw [mark] at hfirst ⊢
      by_cases hclose : c = ')' ∧ (s.place.step true s.before c (t.head?.or next)).1 = .code
      · -- Only the parenthesis that closes the outer one would lead below zero.
        obtain ⟨rfl, hregion⟩ := hclose
        rw [hregion] at hfirst ⊢
        have hne : s.depth + -1 ≠ -1 := by
          intro heq
          simp [Mark.closesOuter, Region.weight, heq] at hfirst
        show 0 ≤ s.depth + -1
        omega
      · exact Int.add_nonneg hs (weight_nonneg hclose)
    intro m hm
    rcases List.mem_cons.mp hm with rfl | hm
    · exact hdepth
    · exact ih _ hdepth (fun n hn => hcloses n (List.mem_cons_of_mem _ hn)) m hm

theorem exists_of_findIdx? {α : Type} {p : α → Bool} {l : List α} {k : Nat}
    (h : l.findIdx? p = some k) :
    ∃ u m v, l = u ++ m :: v ∧ u.length = k ∧ p m = true ∧ ∀ x ∈ u, p x = false := by
  induction l generalizing k with
  | nil => cases h
  | cons a l ih =>
    rw [List.findIdx?_cons] at h
    split at h
    · rename_i ha
      exact ⟨[], a, l, rfl, Option.some.inj h, ha, fun x hx => absurd hx List.not_mem_nil⟩
    · rename_i ha
      obtain ⟨j, hj, rfl⟩ := Option.map_eq_some_iff.mp h
      obtain ⟨u, m, v, rfl, rfl, hm, hu⟩ := ih hj
      refine ⟨a :: u, m, v, rfl, rfl, hm, ?_⟩
      intro x hx
      rcases List.mem_cons.mp hx with rfl | hx
      · exact Bool.eq_false_iff.mpr ha
      · exact hu x hx

/-- A text can be cut in front of a character of code that takes no part in quotes and comments: the
scan in front of it is that of a text by itself. -/
theorem exists_of_scan {t : Text} {u v : List Mark} {m : Mark} (hscan : scan true t = u ++ m :: v)
    (hcode : m.region = .code) (hplain : isPlain m.char = true)
    (hother : m.char ≠ '\n' ∧ m.char ≠ '*') :
    ∃ a r, t = a ++ m.char :: r ∧ scan true a = u ∧ (spotBehind true a).place = .code ∧
      m.depth = (spotBehind true a).depth + Region.code.weight m.char := by
  obtain ⟨hquote, hdash, hslash, -⟩ := isPlain_iff.mp hplain
  have ht : t = u.map Mark.char ++ m.char :: v.map Mark.char := by
    have h := congrArg (List.map Mark.char) hscan
    rwa [scan_eq_marks, Spot.map_char_marks, List.map_append, List.map_cons] at h
  subst ht
  -- `a` is scanned by itself as it is in front of the character, so its marks are `u`.
  set a := u.map Mark.char with ha
  have hlength : (scan true a).length = u.length := by rw [length_scan, ha, List.length_map]
  have hnext : ∀ c ∈ (m.char :: v.map Mark.char).head?, c ≠ '-' ∧ c ≠ '*' ∧ c ≠ '/' := by
    intro c hc
    obtain rfl := Option.some.inj hc
    exact ⟨hdash, hother.2, hslash⟩
  rw [(scan_append_of_next hnext a).1] at hscan
  obtain ⟨hu, hrest⟩ := List.append_inj hscan hlength
  obtain ⟨hm, -⟩ := List.cons.inj hrest
  set step := (spotBehind true a).place.step true (spotBehind true a).before m.char
    ((v.map Mark.char).head?.or none) with hstep
  have hregion : step.1 = .code := (congrArg Mark.region hm).trans hcode
  have hdepth : (spotBehind true a).depth + step.1.weight m.char = m.depth := congrArg Mark.depth hm
  rw [hregion] at hdepth
  exact ⟨a, v.map Mark.char, rfl, hu, Place.eq_code_of_step hquote hother.1 hregion, hdepth.symm⟩

/-- The scan of a text that goes on with a closing parenthesis. -/
theorem scan_append_paren (b r : Text) : scan true (b ++ ')' :: r) = scan true b ++
    (spotBehind true b).marks true none (')' :: r) := by
  refine (scan_append_of_next (r := ')' :: r) ?_ b).1
  intro c hc
  rw [← Option.some.inj hc]
  decide

/-- **The parenthesis in front of a text is closed behind the first enclosed piece.** -/
theorem closing?_eq_some_iff {t : Text} {width : Nat} : closing? ('(' :: t) = some width ↔
    ∃ b r, t = b ++ ')' :: r ∧ width = b.length + 1 ∧ IsEnclosed b := by
  rw [closing?_cons, Option.map_eq_some_iff]
  constructor
  · rintro ⟨k, hk, rfl⟩
    obtain ⟨u, m, v, hscan, rfl, hclose, hbefore⟩ := exists_of_findIdx? hk
    have hm := hclose
    simp only [Mark.closesOuter, Bool.and_eq_true, decide_eq_true_eq] at hm
    obtain ⟨⟨hchar, hregion⟩, hdepth⟩ := hm
    obtain ⟨b, r, rfl, rfl, hplace, hlevel⟩ := exists_of_scan hscan hregion
      (by rw [hchar]; decide) (by rw [hchar]; decide)
    have hzero : (spotBehind true b).depth = 0 := by
      rw [hchar, hdepth] at hlevel
      have : -1 = (spotBehind true b).depth + -1 := hlevel
      omega
    refine ⟨b, r, by rw [hchar], by rw [length_scan], ?_, hplace, hzero⟩
    rw [scan_eq_marks] at hbefore
    rw [scan_eq_marks]
    exact Spot.depth_nonneg b Spot.start (Int.le_refl 0) hbefore
  · rintro ⟨b, r, rfl, rfl, hb⟩
    refine ⟨b.length, ?_, rfl⟩
    have hinside : ∀ m ∈ scan true b, m.closesOuter = false := by
      intro m hm
      have hne : m.depth ≠ -1 := by
        have := hb.nonneg m hm
        omega
      simp [Mark.closesOuter, hne]
    have hclose :
        Mark.closesOuter ((spotBehind true b).mark true ')' (r.head?.or none)) = true := by
      rw [Spot.mark, hb.level.place, hb.level.depth]
      rfl
    rw [scan_append_paren, List.findIdx?_append, List.findIdx?_eq_none_iff.mpr hinside, Spot.marks,
      List.findIdx?_cons, hclose, length_scan, if_pos rfl, Option.map_some, Nat.zero_add]
    rfl

/-- A text with a parenthesis that is closed begins with that parenthesis and an enclosed text. -/
theorem exists_of_closing? {t : Text} {width : Nat} (h : closing? t = some width) :
    ∃ b r, t = '(' :: (b ++ ')' :: r) ∧ width = b.length + 1 ∧ IsEnclosed b := by
  rw [closing?.eq_def] at h
  split at h
  · rename_i u
    obtain ⟨b, r, rfl, hwidth, hb⟩ := closing?_eq_some_iff.mp h
    exact ⟨b, r, rfl, hwidth, hb⟩
  · cases h

/-- What stands behind the closing parenthesis does not matter. -/
theorem closing?_append_congr {x z z' : Text} {width : Nat}
    (h : closing? (x ++ z) = some width) (hx : x.length = width + 1) :
    closing? (x ++ z') = some width := by
  obtain ⟨b, r, hdrop, rfl, hb⟩ := exists_of_closing? h
  have hsplit : x ++ z = ('(' :: (b ++ [')'])) ++ r := by
    rw [hdrop, List.cons_append, List.append_assoc, List.singleton_append]
  have hlength : x.length = ('(' :: (b ++ [')'])).length := by
    rw [hx, List.length_cons, List.length_append, List.length_singleton]
  obtain ⟨rfl, rfl⟩ := List.append_inj hsplit hlength
  rw [List.cons_append, List.append_assoc, List.singleton_append]
  exact closing?_eq_some_iff.mpr ⟨b, z', rfl, rfl, hb⟩

/-- At position `j` the text has the first closing parenthesis behind position `i` that brings the
depth back to what it is in front of `i`. -/
structure ReturnsAt (t : Text) (i j : Nat) : Prop where
  behind : i < j
  closes : (scan true t)[j]? = some ⟨')', .code, depthBefore t i⟩
  first : ∀ (k : Nat) (m : Mark), i ≤ k → k < j → (scan true t)[k]? = some m →
    depthBefore t i < m.depth

/-- The marks of a parenthesis with an enclosed text behind it. -/
theorem IsEnclosed.scan_paren {b : Text} (hb : IsEnclosed b) (r : Text) : ∃ ms,
    scan true ('(' :: (b ++ ')' :: r)) =
      ⟨'(', .code, 1⟩ :: ((scan true b).map (Mark.lift 1) ++ ⟨')', .code, 0⟩ :: ms) := by
  have hopen : scan true ('(' :: (b ++ ')' :: r)) =
      ⟨'(', .code, 1⟩ :: (scan true (b ++ ')' :: r)).map (Mark.lift 1) :=
    scan_append (Seals.of_plain (a := ['(']) rfl)
  have hmark : (spotBehind true b).mark true ')' (r.head?.or none) = ⟨')', .code, -1⟩ := by
    rw [Spot.mark, hb.level.place, hb.level.depth]
    rfl
  rw [hopen, scan_append_paren, Spot.marks, hmark, List.map_append, List.map_cons]
  exact ⟨_, rfl⟩

/-- **The depth returns first where the parenthesis is closed**, if it stands in code. -/
theorem returnsAt_of_closing? {t : Text} {i width : Nat} (hregion : regionAt t i = some .code)
    (hclose : closing? (t.drop i) = some width) : ReturnsAt t i (i + width) := by
  obtain ⟨b, r, hu, rfl, hb⟩ := exists_of_closing? hclose
  obtain ⟨hplace, hescape⟩ := spotAt_of_regionAt hu rfl (by decide) hregion
  obtain ⟨ms, hms⟩ := hb.scan_paren r
  set d := depthBefore t i with hd
  have hscan : (scan true t).drop i = ⟨'(', .code, 1 + d⟩ ::
      ((scan true b).map (fun m => (m.lift 1).lift d) ++
        ⟨')', .code, 0 + d⟩ :: ms.map (Mark.lift d)) := by
    rw [scan_restart hplace hescape, ← depthBefore_eq, ← hd, hu, hms]
    simp only [List.map_cons, List.map_append, List.map_map, Function.comp_def]
    rfl
  have hget : ∀ k, (scan true t)[i + k]? = (⟨'(', .code, 1 + d⟩ :: ((scan true b).map
      (fun m => (m.lift 1).lift d) ++ ⟨')', .code, 0 + d⟩ :: ms.map (Mark.lift d)))[k]? := by
    intro k
    rw [← hscan, List.getElem?_drop]
  refine ⟨by omega, ?_, ?_⟩
  · rw [hget, List.getElem?_cons_succ, List.getElem?_append_right (by simp), List.length_map,
      length_scan, Nat.sub_self, List.getElem?_cons_zero, Int.zero_add]
  · intro k m hik hk hm
    obtain ⟨l, rfl⟩ := Nat.exists_eq_add_of_le hik
    rw [hget] at hm
    cases l with
    | zero =>
      obtain rfl := Option.some.inj hm
      show d < 1 + d
      omega
    | succ l =>
      have hl : l < ((scan true b).map fun m => (m.lift 1).lift d).length := by
        rw [List.length_map, length_scan]
        omega
      rw [List.getElem?_cons_succ, List.getElem?_append_left hl, List.getElem?_map] at hm
      obtain ⟨n, hn, rfl⟩ := Option.map_eq_some_iff.mp hm
      have hnonneg := hb.nonneg n (List.mem_of_getElem? hn)
      show d < n.depth + 1 + d
      omega

/-- The parenthesis at a position in code is closed at the same place when comments are masked. -/
theorem closing?_drop_maskComments {t : Text} {i : Nat} (hparen : t[i]? = some '(')
    (hcode : regionAt t i = some .code) :
    closing? ((maskComments t).drop i) = closing? (t.drop i) := by
  rw [← List.head?_drop] at hparen
  obtain ⟨u, hu⟩ := List.head?_eq_some_iff.mp hparen
  obtain ⟨hplace, hescape⟩ := spotAt_of_regionAt hu rfl (by decide) hcode
  rw [maskComments_restart hplace hescape, hu, closing?_maskComments]

/-! ### Whole texts -/

/-- A text closes what it opens if the depth is never negative, and in the end neither a
parenthesis nor a quote is open. -/
theorem hasUnmatchedDelimiters_eq_false_iff {t : Text} : hasUnmatchedDelimiters t = false ↔
    (∀ m ∈ scan true t, 0 ≤ m.depth) ∧
      ∀ m ∈ (scan true t).getLast?, m.depth = 0 ∧ m.leavesQuote = false := by
  rw [hasUnmatchedDelimiters, Bool.not_eq_false', isBalanced, Bool.and_eq_true, List.all_eq_true]
  simp only [decide_eq_true_eq]
  refine and_congr_right fun _ => ?_
  cases (scan true t).getLast? with
  | none => simp
  | some m => simp

/-- The last mark is inside quotes if the quote is still open behind it. -/
theorem Spot.quoted_of_getLast? {next : Option Char} {m : Mark} {t : Text} {s : Spot}
    (h : (s.marks true next t).getLast? = some m) {q : Quote} :
    m.region = .quoted q ↔ (s.behind true next t).place = .quoted q := by
  have hstep : ∀ (place : Place) (before : Option Char) (c : Char) (n : Option Char),
      (place.step true before c n).1 = .quoted q ↔ (place.step true before c n).2 = .quoted q := by
    intro place before c n
    cases place <;> simp only [Place.step, Place.enter] <;> grind
  rcases List.eq_nil_or_concat t with rfl | ⟨u, c, rfl⟩
  · cases h
  · rw [List.concat_eq_append] at h ⊢
    rw [marks_append, marks, marks, List.getLast?_concat] at h
    rw [← Option.some.inj h, behind_append, behind, behind, move]
    exact hstep _ _ _ _

/-- A text closes what it opens if the depth is never negative, and the scan ends outside quotes at
depth zero. -/
theorem hasUnmatchedDelimiters_eq_false_iff_spotBehind {t : Text} :
    hasUnmatchedDelimiters t = false ↔ (∀ m ∈ scan true t, 0 ≤ m.depth) ∧
      (spotBehind true t).depth = 0 ∧ ∀ q, (spotBehind true t).place ≠ .quoted q := by
  rw [hasUnmatchedDelimiters_eq_false_iff]
  refine and_congr_right fun _ => ?_
  cases hlast : (scan true t).getLast? with
  | none =>
    rw [scan_eq_marks] at hlast
    obtain rfl := Spot.getLast?_marks_eq_none_iff.mp hlast
    simp [spotBehind, Spot.behind, Spot.start]
  | some m =>
    rw [scan_eq_marks] at hlast
    have hquoted := fun q => Spot.quoted_of_getLast? hlast (q := q)
    have hleaves : m.leavesQuote = false ↔ ∀ q, m.region ≠ .quoted q := by
      cases hm : m.region <;> simp [Mark.leavesQuote, hm]
    simp only [Option.mem_def, Option.some.injEq, forall_eq', hleaves, spotBehind,
      (Spot.behind_of_getLast? t _ hlast).1, ne_eq, hquoted]

/-! ### Plain texts -/

/-- Behind plain text the scan is as deep as parentheses were opened and not closed. -/
theorem Spot.depth_behind_plain {next : Option Char} {t : Text} (ht : t.all isPlain = true) :
    ∀ s : Spot, s.place = .code →
      (s.behind true next t).depth = s.depth + (t.count '(' - t.count ')') := by
  induction t with
  | nil => exact fun s _ => (Int.add_zero s.depth).symm
  | cons c t ih =>
    intro s hs
    rw [List.all_cons, Bool.and_eq_true] at ht
    have hmove : s.move true c (t.head?.or next) =
        ⟨some c, .code, s.depth + Region.code.weight c⟩ := by
      rw [move, hs, step_plain ht.1]
    rw [behind, hmove, ih ht.2 _ rfl]
    simp only [Region.weight, List.count_cons, beq_iff_eq, if_true]
    -- Each parenthesis counts on one side only, and no other character counts.
    by_cases hopen : c = '('
    · subst hopen
      simp
      omega
    · by_cases hclose : c = ')'
      · subst hclose
        simp
        omega
      · simp [hopen, hclose]

/-- Plain text without parentheses leaves nothing open. -/
theorem hasUnmatchedDelimiters_plain {t : Text} (ht : t.all isPlain = true) (hopen : '(' ∉ t)
    (hclose : ')' ∉ t) : hasUnmatchedDelimiters t = false := by
  have hweight : ∀ c ∈ t, Region.code.weight c = 0 := fun c hc =>
    weight_eq_zero (fun h => hopen (h ▸ hc)) (fun h => hclose (h ▸ hc)) _
  have hmarks := ((keeps_plain ht : Spot.Keeps true .code .code none t).marks_eq hweight
    Spot.start rfl).1
  have hlevel : IsLevel true t := IsLevel.of_plain ht hweight
  rw [hasUnmatchedDelimiters_eq_false_iff_spotBehind]
  refine ⟨fun m hm => ?_, hlevel.depth, fun q hq => ?_⟩
  · rw [scan_eq_marks, hmarks] at hm
    obtain ⟨c, -, rfl⟩ := List.mem_map.mp hm
    exact le_rfl
  · rw [hlevel.place] at hq
    cases hq

/-- Plain text with more parentheses opened than closed leaves one open. -/
theorem hasUnmatchedDelimiters_of_count {t : Text} (ht : t.all isPlain = true)
    (hcount : t.count '(' ≠ t.count ')') : hasUnmatchedDelimiters t = true := by
  rw [← Bool.not_eq_false]
  intro h
  have hzero : (spotBehind true t).depth = 0 :=
    (hasUnmatchedDelimiters_eq_false_iff_spotBehind.mp h).2.1
  have hdepth : (spotBehind true t).depth = 0 + (t.count '(' - t.count ')') :=
    Spot.depth_behind_plain ht Spot.start rfl
  omega

/-! ### Blanks around a text -/

theorem isPlain_of_isBlank {c : Char} (hc : isBlank c = true) : isPlain c = true := by
  have hne : ∀ d : Char, isBlank d = false → c ≠ d := by
    intro d hd h
    rw [h, hd] at hc
    cases hc
  simp [isPlain, Quote.ofChar?, hne '\'' (by decide), hne '"' (by decide), hne '\x60' (by decide),
    hne '-' (by decide), hne '/' (by decide), hne '\\' (by decide)]

theorem weight_of_isBlank {c : Char} (r : Region) (hc : isBlank c = true) : r.weight c = 0 :=
  weight_eq_zero (fun h => absurd (h ▸ hc) (by decide)) (fun h => absurd (h ▸ hc) (by decide)) r

/-- A blank is masked as a blank. -/
theorem isBlank_blanked {m : Mark} (h : isBlank m.char = true) : isBlank m.blanked.char = true := by
  by_cases hm : m.region = .comment
  · rcases (blanked_of_comment hm).2.2 with heq | heq <;> rw [heq] <;> decide
  · rwa [blanked_of_not_comment hm]

theorem all_isPlain_of_blanks {l : Text} (hl : ∀ c ∈ l, isBlank c = true) : l.all isPlain = true :=
  List.all_eq_true.mpr fun c hc => isPlain_of_isBlank (hl c hc)

/-- A text is scanned by itself if blanks follow it. -/
theorem scan_append_blanks {comments : Bool} {r : Text} (hr : ∀ c ∈ r, isBlank c = true)
    (b : Text) :
    scan comments (b ++ r) = scan comments b ++ (spotBehind comments b).marks comments none r ∧
      spotBehind comments (b ++ r) = (spotBehind comments b).behind comments none r := by
  refine scan_append_of_next ?_ b
  intro c hc
  have hblank := hr c (List.mem_of_mem_head? hc)
  refine ⟨?_, ?_, ?_⟩ <;> rintro rfl <;> exact absurd hblank (by decide)

end TableTypes
