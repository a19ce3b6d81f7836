import TableTypes.Proofs.Scan.Segments

/-!
# The parts of a text, scanned again

Written without its comments, a text is scanned as before: each mark outside comments stays, and
each run of comment marks becomes one blank of code (`scan_uncomment`).  A text goes on behind a
separator as if it began there (`IsLevel.scan_comma`), so the parts of a text have no comments and
no separators when they are scanned by themselves (`eq_of_mem_splitCommas`).

Together the parts are the text, up to comments, blanks and an empty part at the end
(`inked_join_splitCommas`).
-/

namespace TableTypes

open Text

open IsBare (isComma)

/-! ### Comments as blanks -/

/-- The marks of a text that is written without its comments. -/
def settle : List Mark → List Mark
  | [] => []
  | m :: ms =>
    if m.isComment then
      if (ms.head?.map Mark.isComment).getD false then settle ms
      else ⟨' ', .code, m.depth⟩ :: settle ms
    else m :: settle ms

section

variable {m : Mark} {ms : List Mark}

theorem settle_of_not_comment (hm : m.isComment = false) : settle (m :: ms) = m :: settle ms := by
  rw [settle, if_neg (by rw [hm]; exact Bool.false_ne_true)]

/-- Inside a run of comment marks nothing is written. -/
theorem settle_inside {n : Mark} (hm : m.isComment = true) (hn : n.isComment = true) :
    settle (m :: n :: ms) = settle (n :: ms) := by
  rw [settle, if_pos hm, List.head?_cons, Option.map_some, Option.getD_some, if_pos hn]

/-- A blank is written where a run of comment marks ends. -/
theorem settle_end (hm : m.isComment = true) (hms : ∀ n ∈ ms.head?, n.isComment = false) :
    settle (m :: ms) = ⟨' ', .code, m.depth⟩ :: settle ms := by
  have hend : ¬ (ms.head?.map Mark.isComment).getD false = true := by
    cases hhead : ms.head? with
    | none => exact Bool.false_ne_true
    | some n =>
      rw [Option.map_some, Option.getD_some, hms n hhead]
      exact Bool.false_ne_true
  rw [settle, if_pos hm, if_neg hend]

end

theorem map_char_settle (ms : List Mark) : (settle ms).map Mark.char = uncomment ms := by
  induction ms with
  | nil => rfl
  | cons m ms ih =>
    rw [settle, uncomment, ← ih]
    split_ifs <;> rfl

/-- A settled mark stands outside comments in the text, or takes the place of a comment. -/
theorem of_mem_settle {m : Mark} {ms : List Mark} (h : m ∈ settle ms) :
    m ∈ ms ∧ m.isComment = false ∨ m.char = ' ' ∧ m.region = .code := by
  induction ms with
  | nil => cases h
  | cons n ms ih =>
    have htail : m ∈ settle ms →
        m ∈ n :: ms ∧ m.isComment = false ∨ m.char = ' ' ∧ m.region = .code := fun hm =>
      (ih hm).imp_left fun h' => ⟨List.mem_cons_of_mem n h'.1, h'.2⟩
    rw [settle] at h
    split_ifs at h with hn hrun
    · exact htail h
    · rcases List.mem_cons.mp h with rfl | h
      · exact .inr ⟨rfl, rfl⟩
      · exact htail h
    · rcases List.mem_cons.mp h with rfl | h
      · exact .inl ⟨List.mem_cons_self, Bool.eq_false_iff.mpr hn⟩
      · exact htail h

/-- A run of comment marks in front is written as a blank. -/
theorem head?_settle {m : Mark} {ms : List Mark} (hm : m.isComment = true) :
    ((settle (m :: ms)).map Mark.char).head? = some ' ' := by
  induction ms generalizing m with
  | nil => rw [settle_end hm (by simp)]; rfl
  | cons n ms ih =>
    by_cases hn : n.isComment = true
    · rw [settle_inside hm hn]
      exact ih hn
    · rw [settle_end hm (by simpa using hn)]
      rfl

/-- The settled text begins with a blank or with the first character of the text. -/
theorem head?_settle_marks {s : Spot} {t : Text} {x : Char} (hx : x ≠ ' ')
    (h : ((settle (s.marks true none t)).map Mark.char).head? = some x) : t.head? = some x := by
  cases t with
  | nil => cases h
  | cons c t =>
    rw [Spot.marks] at h
    by_cases hm : (s.mark true c (t.head?.or none)).isComment = true
    · rw [head?_settle hm] at h
      exact absurd (Option.some.inj h).symm hx
    · rw [settle_of_not_comment (by simpa using hm)] at h
      exact h

/-! ### One step of two scans -/

section

variable {before next : Option Char} {c : Char} {place : Place}

/-- What a character of a comment does to the scan: it is read outside quotes and leads nowhere
but through the comment, and only the end of a block comment leads back to code. -/
theorem step_of_comment (h : (place.step true before c next).1 = .comment) :
    place.uncommented = .code ∧ (place.step true before c next).2.uncommented = .code ∧
      ((place.step true before c next).2 = .code → place = .blockClosing) ∧
      ((place.step true before c next).2 = .blockClosing → next = some '/') ∧
      ∀ q, (place.step true before c next).2 ≠ .quoted q := by
  cases place <;> simp only [Place.step, Place.enter, Place.uncommented] at h ⊢ <;> grind

/-- What any other character does: it leads to code or to quoted text. -/
theorem step_of_not_comment (h : (place.step true before c next).1 ≠ .comment) :
    (place = .code ∨ (∃ q, place = .quoted q) ∨ place = .lineComment ∧ c = '\n') ∧
      ((place.step true before c next).2 = .code ∨
        ∃ q, (place.step true before c next).2 = .quoted q) := by
  cases place <;> simp only [Place.step, Place.enter] at h ⊢ <;> grind

end

/-- What ties the character before a position of the uncommented text to the spot in the text
itself.  The two may differ in front of a comment, where they do not matter. -/
structure Spot.Follows (s : Spot) (before : Option Char) (t : Text) : Prop where
  closing : s.place = .blockClosing → t.head? = some '/'
  escape : (∀ m ∈ (s.marks true none t).head?, m.isComment = false) →
    s.place = .code ∨ (∃ q, s.place = .quoted q) → (s.before = some '\\' ↔ before = some '\\')

section

variable {s : Spot} {before : Option Char} {c : Char} {t : Text}

/-- In front of the next comment mark the character before does not matter. -/
theorem Spot.Follows.inside (hm : (s.mark true c t.head?).region = .comment) {n : Mark}
    (hn : n ∈ ((s.move true c t.head?).marks true none t).head?) (hrun : n.isComment = true) :
    (s.move true c t.head?).Follows before t := by
  obtain ⟨-, -, -, hslash, -⟩ := step_of_comment hm
  refine ⟨hslash, fun hfirst => ?_⟩
  rw [hfirst n hn] at hrun
  cases hrun

/-- Behind a comment stands a blank in the one text and no backslash in the other. -/
theorem Spot.Follows.end (h : s.Follows before (c :: t))
    (hm : (s.mark true c t.head?).region = .comment) :
    (s.move true c t.head?).Follows (some ' ') t := by
  obtain ⟨-, -, hback, hslash, hquoted⟩ := step_of_comment hm
  refine ⟨hslash, fun _ hplace => ?_⟩
  rcases hplace with hplace | ⟨q, hplace⟩
  · obtain rfl : c = '/' := Option.some.inj (h.closing (hback hplace))
    show some '/' = some '\\' ↔ some ' ' = some '\\'
    decide
  · exact absurd hplace (hquoted q)

theorem Spot.Follows.char (hm : (s.mark true c t.head?).region ≠ .comment) :
    (s.move true c t.head?).Follows (some c) t := by
  refine ⟨fun hclosing => ?_, fun _ _ => Iff.rfl⟩
  rcases (step_of_not_comment hm).2 with h | ⟨q, h⟩
  · exact absurd (h.symm.trans hclosing) Place.noConfusion
  · exact absurd (h.symm.trans hclosing) Place.noConfusion

/-- A character outside comments is read in the uncommented text as in the text itself. -/
theorem step_uncommented {next' : Option Char} (h : s.Follows before (c :: t))
    (hm : (s.mark true c t.head?).region ≠ .comment)
    (hdash : next' = some '-' → t.head? = some '-')
    (hstar : next' = some '*' → t.head? = some '*') :
    s.place.uncommented.step true before c next' =
      ((s.mark true c t.head?).region, (s.move true c t.head?).place.uncommented) := by
  obtain ⟨hplace, hnext⟩ := step_of_not_comment hm
  have hescape := h.escape fun m hfirst => by
    rw [Spot.marks, Option.or_none] at hfirst
    rw [← Option.some.inj hfirst]
    exact decide_eq_false hm
  have hpair : (s.move true c t.head?).place.uncommented =
      (s.place.step true s.before c t.head?).2 := by
    rcases hnext with h | ⟨q, h⟩ <;> rw [Spot.move, h] <;> rfl
  rw [hpair]
  rw [Spot.mark] at hm
  show _ = ((s.place.step true s.before c t.head?).1, (s.place.step true s.before c t.head?).2)
  rcases hplace with hcode | ⟨q, hquoted⟩ | ⟨hline, rfl⟩
  · rw [hcode] at hm ⊢
    exact step_code_masked true (hescape (.inl hcode)) hdash hstar hm
  · rw [hquoted]
    exact (Spot.step_eq_of_before (hescape (.inr ⟨q, hquoted⟩))).symm
  · rw [hline]
    exact step_code_blank (.inr rfl)

end

/-- **A text is scanned alike without its comments**, from any spot in it. -/
theorem marks_settle (t : Text) : ∀ (s : Spot) (before : Option Char), s.Follows before t →
    (Spot.mk before s.place.uncommented s.depth).marks true none
        ((settle (s.marks true none t)).map Mark.char) = settle (s.marks true none t) := by
  induction t with
  | nil => intro s before _; rfl
  | cons c t ih =>
    intro s before hfollows
    rw [Spot.marks, Option.or_none]
    set m := s.mark true c t.head? with hmark
    set s' := s.move true c t.head? with hmove
    by_cases hm : m.region = .comment
    · obtain ⟨hcode, hnext, -⟩ := step_of_comment hm
      have hcomment : m.isComment = true := decide_eq_true hm
      have hdepth : s.depth = m.depth := by
        show s.depth = s.depth + m.region.weight c
        rw [hm]
        exact (Int.add_zero _).symm
      by_cases hrun : ∃ n ∈ (s'.marks true none t).head?, n.isComment = true
      · -- Inside a comment nothing is written.
        obtain ⟨n, hn, hrun⟩ := hrun
        have hrest := ih s' before (.inside hm hn hrun)
        obtain ⟨ns, hns⟩ := List.head?_eq_some_iff.mp hn
        rw [show s'.place.uncommented = .code from hnext, hns] at hrest
        rw [hns, settle_inside hcomment hrun, hcode, hdepth]
        exact hrest
      · have hend : ∀ n ∈ (s'.marks true none t).head?, n.isComment = false := fun n hn =>
          Bool.eq_false_iff.mpr fun h => hrun ⟨n, hn, h⟩
        have hrest := ih s' (some ' ') (hfollows.end hm)
        rw [show s'.place.uncommented = .code from hnext] at hrest
        have hblank : m.depth + Region.code.weight ' ' = m.depth := Int.add_zero _
        rw [settle_end hcomment hend, List.map_cons, Spot.marks, Spot.mark, Spot.move, hcode,
          step_code_blank (.inl rfl), hdepth]
        simp only [hblank]
        exact congrArg _ hrest
    · have hrest := ih s' (some c) (.char hm)
      have hstep := step_uncommented hfollows hm
        (head?_settle_marks (s := s') (by decide)) (head?_settle_marks (s := s') (by decide))
      rw [settle_of_not_comment (decide_eq_false hm), List.map_cons, Spot.marks, Spot.mark,
        Spot.move, Option.or_none]
      simp only [show m.char = c from rfl, hstep]
      exact congrArg (m :: ·) hrest

/-- **A text is scanned alike without its comments.** -/
theorem scan_uncomment (t : Text) : scan true (uncomment (scan true t)) = settle (scan true t) := by
  rw [← map_char_settle, scan_eq_marks, scan_eq_marks]
  refine marks_settle t Spot.start none ⟨fun h => ?_, fun _ _ => Iff.rfl⟩
  cases h

/-! ### The parts of a text -/

/-- Each run of marks between separators is the scan of a text by itself. -/
theorem exists_of_mem_cutMarks {t : Text} {run : List Mark}
    (h : run ∈ cutMarks isComma (scan true t)) :
    ∃ a, run = scan true a ∧ ∀ m ∈ scan true a, isComma m = false := by
  induction hn : t.length using Nat.strong_induction_on generalizing t with
  | _ n ih =>
    rcases exists_scan_comma t with hnone | ⟨a, b, rfl, -, ha, hscan⟩
    · rw [cutMarks_of_forall hnone, List.mem_singleton] at h
      exact ⟨t, h, hnone⟩
    · have hlength : b.length < n := by
        rw [← hn, List.length_append, List.length_cons]
        omega
      rw [hscan, cutMarks_append ha rfl, List.mem_cons] at h
      rcases h with rfl | h
      · exact ⟨a, rfl, ha⟩
      · exact ih b.length hlength h rfl

theorem scan_strip_subset (t : Text) : scan true (strip t) ⊆ scan true t := by
  obtain ⟨l, r, ht, hl, hr⟩ := strip_split t
  intro m hm
  rw [ht]
  exact IsBare.scan_inset hl hr _ hm

/-- A text without comments and separators is the only part of itself, but for blanks around it. -/
theorem splitCommas_of_forall {p : Text} (hne : p ≠ []) (hsolid : strip p = p)
    (h : ∀ m ∈ scan true p, m.region ≠ .comment ∧ isComma m = false) : splitCommas p = [p] := by
  have hcut : cutMarks isComma (scan true p) = [scan true p] :=
    cutMarks_of_forall fun m hm => (h m hm).2
  show dropEmptyLast ((cutMarks isComma (scan true p)).map fun run => strip (uncomment run)) = [p]
  rw [hcut, List.map_singleton, uncomment_of_forall fun m hm => (h m hm).1, map_char_scan, hsolid]
  exact dropEmptyLast_of_forall (by simpa using hne)

theorem strip_of_mem_splitCommas {t p : Text} (hp : p ∈ splitCommas t) : strip p = p := by
  obtain ⟨run, -, rfl⟩ := List.mem_map.mp (subset_dropEmptyLast _ hp)
  exact strip_strip _

/-- **A part is final**: split again, it is its only part. -/
theorem splitCommas_of_mem {t p : Text} (hp : p ∈ splitCommas t) (hne : p ≠ []) :
    splitCommas p = [p] := by
  obtain ⟨run, hrun, rfl⟩ := List.mem_map.mp (subset_dropEmptyLast _ hp)
  obtain ⟨a, rfl, hcomma⟩ := exists_of_mem_cutMarks hrun
  refine splitCommas_of_forall hne (strip_strip _) fun m hm => ?_
  have hsettled := scan_strip_subset _ hm
  rw [scan_uncomment] at hsettled
  rcases of_mem_settle hsettled with ⟨hmem, hcomment⟩ | ⟨hchar, hregion⟩
  · exact ⟨by simpa [Mark.isComment] using hcomment, hcomma m hmem⟩
  · exact ⟨by rw [hregion]; exact Region.noConfusion, by rw [isComma, hchar]; rfl⟩

/-! ### What is left out -/

/-- The text without its comments. -/
def uncommented (t : Text) : Text :=
  ((scan true t).filter fun m => !m.isComment).map Mark.char

/-- The text without its blanks. -/
def inked (t : Text) : Text :=
  t.filter fun c => !isBlank c

/-- What is left of marks without comments and blanks. -/
def ink (ms : List Mark) : Text :=
  inked ((ms.filter fun m => !m.isComment).map Mark.char)

theorem inked_append (a b : Text) : inked (a ++ b) = inked a ++ inked b :=
  List.filter_append a b

theorem inked_eq_nil_iff {t : Text} : inked t = [] ↔ ∀ c ∈ t, isBlank c = true := by
  simp [inked, List.filter_eq_nil_iff]

@[simp] theorem inked_strip (t : Text) : inked (strip t) = inked t := by
  obtain ⟨l, r, ht, hl, hr⟩ := strip_split t
  conv_rhs => rw [ht]
  rw [inked_append, inked_append, inked_eq_nil_iff.mpr hl, inked_eq_nil_iff.mpr hr, List.nil_append,
    List.append_nil]

theorem ink_append (ms ns : List Mark) : ink (ms ++ ns) = ink ms ++ ink ns := by
  rw [ink, List.filter_append, List.map_append, inked_append]
  rfl

theorem ink_cons (m : Mark) (ms : List Mark) : ink (m :: ms) = ink [m] ++ ink ms :=
  ink_append [m] ms

theorem ink_comma {m : Mark} (hm : isComma m = true) : ink [m] = [','] := by
  obtain ⟨char, region, depth⟩ := m
  simp only [isComma, Mark.isTopLevel, Bool.and_eq_true, decide_eq_true_eq] at hm
  obtain ⟨rfl, rfl, -⟩ := hm
  rfl

/-- Nothing is left of blanks and comments, and only of them. -/
theorem ink_eq_nil_iff {ms : List Mark} :
    ink ms = [] ↔ ∀ m ∈ ms, m.isComment = true ∨ isBlank m.char = true := by
  rw [ink, inked_eq_nil_iff]
  simp only [List.mem_map, List.mem_filter, Bool.not_eq_true', forall_exists_index, and_imp]
  constructor
  · intro h m hm
    cases hcomment : m.isComment with
    | true => exact .inl rfl
    | false => exact .inr (h m.char m hm hcomment rfl)
  · rintro h - m hm hcomment rfl
    exact (h m hm).resolve_left (by rw [hcomment]; exact Bool.false_ne_true)

@[simp] theorem inked_uncomment (ms : List Mark) : inked (uncomment ms) = ink ms := by
  induction ms with
  | nil => rfl
  | cons m ms ih =>
    have hblank : inked (' ' :: uncomment ms) = inked (uncomment ms) := rfl
    rw [uncomment, ink_cons, ← ih]
    split_ifs with hm hrun
    · rw [ink_eq_nil_iff.mpr (by simpa using .inl hm), List.nil_append]
    · rw [ink_eq_nil_iff.mpr (by simpa using .inl hm), List.nil_append, hblank]
    · rw [← List.singleton_append, inked_append]
      congr 1
      simp [ink, hm]

/-! ### Runs between separators -/

/-- Marks have no separator, or a last one. -/
theorem exists_last_separator (p : Mark → Bool) (ms : List Mark) : (∀ m ∈ ms, p m = false) ∨
    ∃ before m after, ms = before ++ m :: after ∧ p m = true ∧ ∀ n ∈ after, p n = false := by
  induction ms with
  | nil => exact .inl fun _ hm => absurd hm List.not_mem_nil
  | cons m ms ih =>
    rcases ih with hnone | ⟨before, n, after, rfl, hn, hafter⟩
    · cases hm : p m with
      | true => exact .inr ⟨[], m, ms, rfl, hm, hnone⟩
      | false => exact .inl (List.forall_mem_cons.mpr ⟨hm, hnone⟩)
    · exact .inr ⟨m :: before, n, after, rfl, hn, hafter⟩

/-- What is left of the runs, with commas between them, is what is left of all marks. -/
theorem join_ink_cutMarks (ms : List Mark) :
    join [','] ((cutMarks isComma ms).map ink) = ink ms := by
  induction ms with
  | nil => rfl
  | cons m ms ih =>
    obtain ⟨run, runs, hruns⟩ := List.exists_cons_of_ne_nil (cutMarks_ne_nil isComma ms)
    rw [hruns, List.map_cons] at ih
    cases hm : isComma m with
    | true =>
      rw [cutMarks_separator hm, hruns, List.map_cons, List.map_cons, join_cons,
        List.flatMap_cons, List.append_assoc, ← join_cons, ih, ink_cons, ink_comma hm]
      rfl
    | false =>
      rw [cutMarks_cons hm hruns, List.map_cons, join_cons, ink_cons, ink_cons m ms,
        List.append_assoc, ← join_cons, ih]

theorem inked_join (ps : List Text) : inked (join [','] ps) = join [','] (ps.map inked) := by
  cases ps with
  | nil => rfl
  | cons p ps =>
    have hcomma : ∀ q, inked ([','] ++ q) = [','] ++ inked q := fun q => inked_append [','] q
    rw [List.map_cons, join_cons, join_cons, inked_append, List.flatMap_map]
    congr 1
    induction ps with
    | nil => rfl
    | cons q ps ih => rw [List.flatMap_cons, List.flatMap_cons, inked_append, hcomma, ih]

/-- The text of a run as it stands among the parts. -/
def partOf (run : List Mark) : Text :=
  strip (uncomment run)

theorem splitCommas_eq (t : Text) :
    splitCommas t = dropEmptyLast ((cutMarks isComma (scan true t)).map partOf) :=
  rfl

theorem inked_partOf (run : List Mark) : inked (partOf run) = ink run := by
  rw [partOf, inked_strip, inked_uncomment]

theorem partOf_eq_nil_iff {run : List Mark} :
    partOf run = [] ↔ ∀ m ∈ run, m.isComment = true ∨ isBlank m.char = true := by
  rw [← ink_eq_nil_iff, ← inked_uncomment, inked_eq_nil_iff]
  exact strip_eq_nil_iff

theorem inked_join_partOf (ms : List Mark) :
    inked (join [','] ((cutMarks isComma ms).map partOf)) = ink ms := by
  rw [inked_join, List.map_map, ← join_ink_cutMarks ms]
  congr 1
  exact List.map_congr_left fun run _ => inked_partOf run

/-! ### An empty part at the end -/

theorem join_concat_nil {ps : List Text} (hps : ps ≠ []) :
    join [','] (ps ++ [[]]) = join [','] ps ++ [','] := by
  obtain ⟨p, ps, rfl⟩ := List.exists_cons_of_ne_nil hps
  rw [List.cons_append, join_cons, join_cons, List.flatMap_append, List.append_assoc]
  rfl

/-- Behind the last separator of the text, if there is one, stand blanks and comments only. -/
def EndsAtComma (t : Text) : Prop :=
  ∃ before m after, scan true t = before ++ m :: after ∧ isComma m = true ∧
    ∀ n ∈ after, n.isComment = true ∨ isBlank n.char = true

theorem isComma_eq_false {m : Mark} (h : m.isComment = true ∨ isBlank m.char = true) :
    isComma m = false := by
  rw [← Bool.not_eq_true]
  intro hm
  have hink : ink [m] = [] := ink_eq_nil_iff.mpr (by simpa using h)
  rw [ink_comma hm] at hink
  cases hink

/-- A text ends at a comma if nothing is left of what stands behind its last separator. -/
theorem endsAtComma_iff {t : Text} {before after : List Mark} {m : Mark}
    (hscan : scan true t = before ++ m :: after) (hm : isComma m = true)
    (hafter : ∀ n ∈ after, isComma n = false) : EndsAtComma t ↔ partOf after = [] := by
  rw [partOf_eq_nil_iff]
  refine ⟨?_, fun h => ⟨before, m, after, hscan, hm, h⟩⟩
  rintro ⟨before', m', after', hscan', hm', hblank⟩
  have hafter' : ∀ n ∈ after', isComma n = false := fun n hn => isComma_eq_false (hblank n hn)
  -- Both cut the text at its last separator.
  have hruns : cutMarks isComma before ++ [after] = cutMarks isComma before' ++ [after'] := by
    rw [← cutMarks_of_forall hafter, ← cutMarks_of_forall hafter', ← cutMarks_append_cons hm,
      ← cutMarks_append_cons hm', ← hscan, ← hscan']
  obtain ⟨-, h⟩ := List.append_inj' hruns rfl
  obtain rfl : after = after' := List.singleton_inj.mp h
  exact hblank

theorem inked_join_of_endsAtComma {t : Text} (h : EndsAtComma t) :
    inked (join [','] (splitCommas t)) ++ [','] = inked (uncommented t) := by
  obtain ⟨before, m, after, hscan, hm, hblank⟩ := h
  have hruns : cutMarks isComma (scan true t) = cutMarks isComma before ++ [after] := by
    rw [hscan, cutMarks_append_cons hm,
      cutMarks_of_forall fun n hn => isComma_eq_false (hblank n hn)]
  have hempty : partOf after = [] := partOf_eq_nil_iff.mpr hblank
  have hparts : (cutMarks isComma before).map partOf ≠ [] := by
    simpa using cutMarks_ne_nil isComma before
  have hall := inked_join_partOf (scan true t)
  rw [hruns, List.map_append, List.map_singleton, hempty, join_concat_nil hparts,
    inked_append] at hall
  rw [splitCommas_eq, hruns, List.map_append, List.map_singleton, hempty, dropEmptyLast_concat_nil]
  exact hall

theorem inked_join_of_not_endsAtComma {t : Text} (h : ¬ EndsAtComma t) :
    inked (join [','] (splitCommas t)) = inked (uncommented t) := by
  have hall := inked_join_partOf (scan true t)
  rw [splitCommas_eq]
  rcases exists_last_separator isComma (scan true t) with
    hnone | ⟨before, m, after, hscan, hm, hafter⟩
  · rw [cutMarks_of_forall hnone, List.map_singleton] at hall ⊢
    by_cases hpart : partOf (scan true t) = []
    · rw [hpart] at hall ⊢
      exact hall
    · rw [dropEmptyLast_of_forall (by simpa using hpart)]
      exact hall
  · have hruns : cutMarks isComma (scan true t) = cutMarks isComma before ++ [after] := by
      rw [hscan, cutMarks_append_cons hm, cutMarks_of_forall hafter]
    have hpart : partOf after ≠ [] := fun hempty =>
      h ((endsAtComma_iff hscan hm hafter).mpr hempty)
    rw [hruns, List.map_append, List.map_singleton] at hall ⊢
    rw [dropEmptyLast_concat hpart]
    exact hall

/-- **Splitting loses and doubles nothing but blanks, comments and a comma at the end, and its parts
are final.** -/
theorem inked_join_splitCommas (t : Text) :
    (EndsAtComma t → inked (join [','] (splitCommas t)) ++ [','] = inked (uncommented t)) ∧
    (¬ EndsAtComma t → inked (join [','] (splitCommas t)) = inked (uncommented t)) ∧
    ∀ p ∈ splitCommas t, p ≠ [] → splitCommas p = [p] := by
  exact ⟨inked_join_of_endsAtComma, inked_join_of_not_endsAtComma,
    fun p hp => splitCommas_of_mem hp⟩

/-- A comma with a comment on either side at the end of the text. -/
def commaBetweenComments : Text :=
  "a/* , */, 'b,' --\n,-- c".toList

theorem endsAtComma_commaBetweenComments : EndsAtComma commaBetweenComments := by
  refine ⟨(scan true commaBetweenComments).take 18, ⟨',', .code, 0⟩,
    (scan true commaBetweenComments).drop 19, ?_, ?_, ?_⟩ <;> decide +kernel

theorem inked_join_commaBetweenComments : EndsAtComma commaBetweenComments ∧
    splitCommas commaBetweenComments = ["a".toList, "'b,'".toList] ∧
    inked (join [','] (splitCommas commaBetweenComments)) ++ [','] =
      inked (uncommented commaBetweenComments) := by
  refine ⟨endsAtComma_commaBetweenComments, by decide +kernel, ?_⟩
  exact (inked_join_splitCommas commaBetweenComments).1 endsAtComma_commaBetweenComments

end TableTypes
