import TableTypes.Declaration.Layout
import TableTypes.Proofs.Text.Reader
import TableTypes.Proofs.Text.Replace

/-!
# The layout of two blocks of code

Code in its final layout is the layout of its blocks, one behind the other (`formatCode_append`): a
block begins and ends with a character that is not blank, so the blank line between two blocks stays
as it is, and nothing that is taken out of one block reaches into the next.
-/

namespace TableTypes

open Text

/-! ### Ends of lines -/

theorem isSpacing_newline : isSpacing '\n' = false := rfl

/-- Every line is cut by itself. -/
theorem trimLines_of_splitOnChar {t line : Text} {lines : List Text}
    (h : splitOnChar '\n' t = line :: lines) : trimLines t = dropEndWhile isSpacing line ++
      (lines.map (dropEndWhile isSpacing)).flatMap (['\n'] ++ ·) := by
  rw [trimLines, h, List.map_cons, join_cons]

/-- A space or a tab is left out if nothing but a newline follows what is kept of the text behind
it. -/
theorem trimLines_cons (c : Char) (t : Text) : trimLines (c :: t) =
    if isSpacing c && (trimLines t).head?.all (· = '\n') then trimLines t
    else c :: trimLines t := by
  obtain ⟨line, lines, hlines⟩ := List.exists_cons_of_ne_nil (splitOnChar_ne_nil '\n' t)
  have htail := trimLines_of_splitOnChar hlines
  by_cases hc : c = '\n'
  · subst hc
    have hsplit : splitOnChar '\n' ('\n' :: t) = [] :: line :: lines := by
      rw [splitOnChar, if_pos rfl, hlines]
    rw [isSpacing_newline, Bool.false_and, if_neg Bool.false_ne_true,
      trimLines_of_splitOnChar hsplit, List.map_cons, List.flatMap_cons, htail]
    rfl
  · have hsplit : splitOnChar '\n' (c :: t) = (c :: line) :: lines := by
      rw [splitOnChar, if_neg hc, hlines]
    rw [trimLines_of_splitOnChar hsplit, dropEndWhile_cons, List.all_cons, htail]
    cases hline : line.all isSpacing with
    | true =>
      -- Nothing is kept of the line behind `c`, so the next newline follows, if there is one.
      have hnil : dropEndWhile isSpacing line = [] := by
        rw [dropEndWhile, List.reverse_eq_nil_iff, List.dropWhile_eq_nil_iff]
        exact fun d hd => List.all_eq_true.mp hline d (List.mem_reverse.mp hd)
      have hhead : ((lines.map (dropEndWhile isSpacing)).flatMap (['\n'] ++ ·)).head?.all
          (· = '\n') = true := by
        cases lines <;> rfl
      rw [hnil, List.nil_append, hhead]
      split <;> rfl
    | false =>
      obtain ⟨d, line, rfl⟩ : ∃ d u, line = d :: u := by
        cases line with
        | nil => cases hline
        | cons d u => exact ⟨d, u, rfl⟩
      have hd : d ≠ '\n' := by
        rintro rfl
        exact not_mem_of_splitOnChar (hlines ▸ List.mem_cons_self) List.mem_cons_self
      -- The line behind `c` does not vanish, so something other than a newline follows.
      rw [dropEndWhile_cons, hline]
      simp [hd]

theorem trimLines_append (x y : Text) :
    trimLines (x ++ '\n' :: y) = trimLines x ++ '\n' :: trimLines y := by
  induction x with
  | nil =>
    rw [List.nil_append, trimLines_cons, isSpacing_newline, Bool.false_and,
      if_neg Bool.false_ne_true]
    rfl
  | cons c x ih =>
    have hhead : (trimLines (x ++ '\n' :: y)).head?.all (· = '\n') =
        (trimLines x).head?.all (· = '\n') := by
      rw [ih]
      cases trimLines x <;> rfl
    rw [List.cons_append, trimLines_cons, trimLines_cons c x, hhead, ih]
    split <;> rfl

theorem trimLines_concat {c : Char} (hc : isSpacing c = false) (x : Text) :
    ∃ u, trimLines (x ++ [c]) = u ++ [c] := by
  induction x with
  | nil =>
    refine ⟨[], ?_⟩
    rw [List.nil_append, trimLines_cons, hc, Bool.false_and, if_neg Bool.false_ne_true]
    rfl
  | cons d x ih =>
    obtain ⟨u, hu⟩ := ih
    rw [List.cons_append, trimLines_cons, hu]
    split
    · exact ⟨u, rfl⟩
    · exact ⟨d :: u, rfl⟩

/-! ### Blank lines -/

/-- A run of three newlines or more is taken off as a whole. -/
theorem blankLines?_eq_some_iff {t r : Text} : blankLines? t = some r ↔
    ∃ b, t = b ++ r ∧ (3 ≤ b.length ∧ ∀ c ∈ b, c = '\n') ∧ r.head? ≠ some '\n' := by
  rw [blankLines?, Option.map_eq_some_iff]
  constructor
  · rintro ⟨s, hs, rfl⟩
    obtain rfl := after?_eq_some_iff.mp hs
    have hrun : ∀ c ∈ s.takeWhile (· = '\n'), c = '\n' := fun c hc =>
      of_decide_eq_true (List.all_eq_true.mp List.all_takeWhile c hc)
    refine ⟨['\n', '\n', '\n'] ++ s.takeWhile (· = '\n'), ?_, ⟨by simp, ?_⟩, ?_⟩
    · rw [List.append_assoc, List.takeWhile_append_dropWhile]
    · intro c hc
      rcases List.mem_append.mp hc with hc | hc
      · simpa using hc
      · exact hrun c hc
    · intro hhead
      have hnot := List.head?_dropWhile_not (· = '\n') s
      rw [hhead] at hnot
      simp at hnot
  · rintro ⟨b, rfl, ⟨hlength, hb⟩, hr⟩
    obtain ⟨n, rfl⟩ : ∃ n, b = List.replicate (3 + n) '\n' :=
      ⟨b.length - 3, List.eq_replicate_iff.mpr ⟨by omega, hb⟩⟩
    refine ⟨List.replicate n '\n' ++ r, ?_, ?_⟩
    · rw [after?_eq_some_iff, List.replicate_add, List.append_assoc]
      rfl
    · refine dropWhile_run ?_ ?_
      · exact fun c hc => decide_eq_true (List.eq_of_mem_replicate hc)
      · intro c hc
        exact decide_eq_false fun h => hr (h ▸ hc)

/-- A run of newlines ends in front of any other character. -/
theorem parts_blankLines? (x : Text) {y : Text} (hy : y.head? ≠ some '\n') :
    Parts blankLines? x y := by
  refine Parts.of_iff (fun t r => blankLines?_eq_some_iff) ?_ ?_
  · rintro u v - ⟨w, rfl⟩ hv ⟨-, hall⟩
    obtain ⟨c, v, rfl⟩ := List.exists_cons_of_ne_nil hv
    refine absurd ?_ hy
    rw [List.cons_append, List.head?_cons, hall c (by simp)]
  · intro r _
    cases r with
    | nil => exact ⟨fun _ => by simp, fun _ => hy⟩
    | cons c r => rfl

/-! ### Empty bodies -/

/-- Two braces with nothing but blanks between them, a newline among these. -/
def IsEmptyBody (b : Text) : Prop :=
  ∃ w, b = '\x7b' :: (w ++ ['\x7d']) ∧ (∀ c ∈ w, isBlank c = true) ∧ '\n' ∈ w

theorem emptyBody?_eq_some_iff {t r : Text} :
    emptyBody? t = some r ↔ ∃ b, t = b ++ r ∧ IsEmptyBody b := by
  constructor
  · intro h
    unfold emptyBody? at h
    split at h
    · rename_i t
      split at h
      · rename_i rest hrest
        split_ifs at h with hnewline
        obtain rfl := Option.some.inj h
        have hsplit : t = t.takeWhile isBlank ++ '\x7d' :: rest := by
          rw [← hrest, dropBlanks, List.takeWhile_append_dropWhile]
        refine ⟨'\x7b' :: (t.takeWhile isBlank ++ ['\x7d']), ?_, t.takeWhile isBlank, rfl, ?_, ?_⟩
        · rw [List.cons_append, List.append_assoc]
          exact congrArg ('\x7b' :: ·) hsplit
        · exact fun c hc => List.all_eq_true.mp List.all_takeWhile c hc
        · simpa using hnewline
      · cases h
    · cases h
  · rintro ⟨b, rfl, w, rfl, hw, hnewline⟩
    have hend : ∀ c ∈ ('\x7d' :: r).head?, isBlank c = false := by
      intro c hc
      obtain rfl : '\x7d' = c := Option.some.inj hc
      rfl
    rw [List.cons_append, List.append_assoc, List.singleton_append, emptyBody?, dropBlanks,
      dropWhile_run hw hend, takeWhile_run hw hend]
    exact if_pos (List.contains_iff_mem.mpr hnewline)

/-- A body that reaches over a joint has only blanks between its opening brace and the joint, and
between the joint and its closing brace. -/
theorem parts_emptyBody?_of_joint {x y : Text}
    (h : ∀ u v w z, x = u ++ '\x7b' :: v → y = w ++ '\x7d' :: z → isAllBlank v = true →
      isAllBlank w ≠ true) : Parts emptyBody? x y := by
  refine Parts.of_iff (P := IsEmptyBody) (R := fun _ => True) ?_ ?_ (fun _ _ => Iff.rfl)
  · intro t r
    simp only [emptyBody?_eq_some_iff, and_true]
  · rintro u v ⟨x, rfl⟩ ⟨z, rfl⟩ hv ⟨w, hsplit, hw, -⟩
    cases u with
    | nil => rfl
    | cons d u =>
      exfalso
      rw [List.cons_append, List.cons.injEq] at hsplit
      obtain ⟨v, c, rfl⟩ := List.eq_nil_or_concat' v |>.resolve_left hv
      rw [← List.append_assoc] at hsplit
      obtain ⟨hblanks, hbrace⟩ := List.append_inj' hsplit.2 rfl
      obtain rfl : c = '\x7d' := List.singleton_inj.mp hbrace
      refine h x u v z (by rw [hsplit.1]) (List.append_assoc _ _ _) ?_ ?_
      · exact isAllBlank_iff.mpr fun c hc => hw c (hblanks ▸ List.mem_append_left v hc)
      · exact isAllBlank_iff.mpr fun c hc => hw c (hblanks ▸ List.mem_append_right u hc)

/-- An empty body ends with the first character behind its brace that is not blank. -/
theorem parts_emptyBody? (x : Text) {y : Text} (hy : (dropBlanks y).head? ≠ some '\x7d') :
    Parts emptyBody? x y := by
  refine parts_emptyBody?_of_joint fun u v w z _ hsplit _ hw => hy ?_
  rw [hsplit, dropBlanks_of_isAllBlank hw]
  rfl

/-! ### Blocks of code -/

/-- A block of code begins and ends with characters that are not blank, and does not begin with a
closing brace. -/
structure IsBlock (t : Text) : Prop where
  head : ∃ c u, t = c :: u ∧ isBlank c = false ∧ c ≠ '\x7d'
  last : ∃ u c, t = u ++ [c] ∧ isBlank c = false

/-- Code in its final layout, but for the blanks around it. -/
def layout (code : Text) : Text :=
  replaceAll emptyBody? ['\x7b', '\x7d'] (replaceAll blankLines? ['\n', '\n'] (trimLines code))

theorem formatCode_eq (code : Text) : formatCode code = strip (layout code) ++ ['\n'] := rfl

theorem isSpacing_of_isBlank {c : Char} (hc : isBlank c = false) : isSpacing c = false := by
  rw [← Bool.not_eq_true, isSpacing, Bool.or_eq_true, decide_eq_true_eq, decide_eq_true_eq]
  rintro (rfl | rfl)
  · exact absurd hc (by decide)
  · exact absurd hc (by decide)

theorem ne_newline_of_isBlank {c : Char} (hc : isBlank c = false) : c ≠ '\n' := by
  rintro rfl
  exact absurd hc (by decide)

theorem blankLines?_cons {c : Char} (hc : c ≠ '\n') (t : Text) : blankLines? (c :: t) = none := by
  rw [blankLines?, after?, if_neg (Ne.symm hc)]
  rfl

namespace IsBlock

variable {x y : Text}

/-- A block with a blank line and another block behind it. -/
theorem append (hx : IsBlock x) (hy : IsBlock y) : IsBlock (x ++ (['\n', '\n'] ++ y)) := by
  obtain ⟨c, u, rfl, hc⟩ := hx.head
  obtain ⟨v, d, rfl, hd⟩ := hy.last
  exact ⟨⟨c, _, rfl, hc⟩, ⟨c :: u ++ (['\n', '\n'] ++ v), d, by simp, hd⟩⟩

theorem trimLines (hx : IsBlock x) : IsBlock (trimLines x) := by
  constructor
  · obtain ⟨c, u, rfl, hc⟩ := hx.head
    refine ⟨c, TableTypes.trimLines u, ?_, hc⟩
    rw [trimLines_cons, isSpacing_of_isBlank hc.1, Bool.false_and, if_neg Bool.false_ne_true]
  · obtain ⟨u, c, rfl, hc⟩ := hx.last
    obtain ⟨v, hv⟩ := trimLines_concat (isSpacing_of_isBlank hc) u
    exact ⟨v, c, hv, hc⟩

theorem replaceAll_blankLines (hx : IsBlock x) :
    IsBlock (replaceAll blankLines? ['\n', '\n'] x) := by
  constructor
  · obtain ⟨c, u, rfl, hc⟩ := hx.head
    exact ⟨c, _, replaceAll_cons (blankLines?_cons (ne_newline_of_isBlank hc.1) u), hc⟩
  · obtain ⟨u, c, rfl, hc⟩ := hx.last
    have hne := ne_newline_of_isBlank hc
    refine ⟨replaceAll blankLines? ['\n', '\n'] u, c, ?_, hc⟩
    rw [replaceAll_append (parts_blankLines? u (by simpa using hne)),
      replaceAll_cons (blankLines?_cons hne [])]
    rfl

/-- Nothing is stripped off a block in its final layout. -/
theorem strip_layout (hx : IsBlock x) : strip (layout x) = layout x := by
  have hblock := hx.trimLines.replaceAll_blankLines
  apply strip_eq_self
  · obtain ⟨c, u, hu, hc⟩ := hblock.head
    rw [layout, hu, replaceAll, replaceFrom]
    split
    · intro d hd
      obtain rfl : '\x7b' = d := Option.some.inj hd
      rfl
    · intro d hd
      obtain rfl : c = d := Option.some.inj hd
      exact hc.1
  · obtain ⟨u, c, hu, hc⟩ := hblock.last
    refine getLast?_replaceAll (List.cons_ne_nil _ _) ?_ ?_
    · intro d hd
      obtain rfl : '\x7d' = d := Option.some.inj hd
      rfl
    · intro d hd
      rw [hu, List.getLast?_concat] at hd
      exact Option.some.inj hd ▸ hc

end IsBlock

/-- The blank line between two blocks stays as it is. -/
theorem layout_append {x y : Text} (hx : IsBlock x) (hy : IsBlock y) :
    layout (x ++ (['\n', '\n'] ++ y)) = layout x ++ (['\n', '\n'] ++ layout y) := by
  have hlines : trimLines (x ++ (['\n', '\n'] ++ y)) =
      trimLines x ++ (['\n', '\n'] ++ trimLines y) :=
    (trimLines_append x ('\n' :: y)).trans
      (congrArg (trimLines x ++ '\n' :: ·) (trimLines_append [] y))
  -- The blank line is too short to be replaced, and the newlines in it do not join others.
  have hblank : replaceAll blankLines? ['\n', '\n']
      (trimLines x ++ (['\n', '\n'] ++ trimLines y)) =
      replaceAll blankLines? ['\n', '\n'] (trimLines x) ++
        (['\n', '\n'] ++ replaceAll blankLines? ['\n', '\n'] (trimLines y)) := by
    obtain ⟨u, c, hu, hc⟩ := hx.trimLines.last
    obtain ⟨d, v, hv, hd, -⟩ := hy.trimLines.head
    have hc := ne_newline_of_isBlank hc
    have hd := ne_newline_of_isBlank hd
    rw [hu, hv, List.append_assoc, replaceAll_append (parts_blankLines? u (by simpa using hc)),
      replaceAll_append (parts_blankLines? u (by simpa using hc)), List.singleton_append,
      replaceAll_cons (blankLines?_cons hc _), replaceAll_cons (blankLines?_cons hc _),
      replaceAll_append (parts_blankLines? ['\n', '\n'] (by simpa using hd)), List.append_assoc]
    rfl
  -- No body is closed behind the blank line, since the second block begins with something else.
  rw [layout, hlines, hblank, layout, layout]
  obtain ⟨d, v, hv, hd, hbrace⟩ := hy.trimLines.replaceAll_blankLines.head
  have hhead : (dropBlanks (['\n', '\n'] ++ d :: v)).head? ≠ some '\x7d' := by
    show (dropBlanks (d :: v)).head? ≠ _
    rw [dropBlanks_of_head v hd]
    simpa using hbrace
  rw [hv, replaceAll_append (parts_emptyBody? _ hhead)]
  rfl

/-- **Two blocks of code are laid out one by one**, with a blank line between them. -/
theorem formatCode_append {x y : Text} (hx : IsBlock x) (hy : IsBlock y) :
    formatCode (x ++ (['\n', '\n'] ++ y)) = formatCode x ++ ['\n'] ++ formatCode y := by
  rw [formatCode_eq, formatCode_eq, formatCode_eq, (hx.append hy).strip_layout, hx.strip_layout,
    hy.strip_layout, layout_append hx hy]
  simp only [List.append_assoc, List.cons_append, List.nil_append]

end TableTypes
