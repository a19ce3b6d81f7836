import TableTypes.Proofs.Declaration.Layout

/-!
# The lines that are not blank

The layout of code may leave out blank lines, but of the others, the solid ones, none is lost, split
or moved: spaces are taken off their ends, and the two lines of an empty body become one
(`solidLines_layout`).
-/

namespace TableTypes

open Text

variable {l t w x y : Text} {c : Char}

/-! ### Solid lines -/

/-- The lines of the text that are not blank. -/
def solidLines (t : Text) : List Text :=
  (splitOnChar '\n' t).filter (!·.isAllBlank)

theorem solidLines_append (x y : Text) :
    solidLines (x ++ '\n' :: y) = solidLines x ++ solidLines y := by
  rw [solidLines, splitOnChar_append, List.filter_append, solidLines, solidLines]

theorem solidLines_line (hl : '\n' ∉ l) :
    solidLines l = if isAllBlank l then [] else [l] := by
  rw [solidLines, splitOnChar_of_not_mem hl, List.filter_singleton]
  cases isAllBlank l <;> rfl

/-- Newlines between texts keep their lines apart. -/
theorem solidLines_newlines (n : Nat) (x y : Text) :
    solidLines (x ++ (List.replicate (n + 1) '\n' ++ y)) = solidLines x ++ solidLines y := by
  induction n generalizing x with
  | zero => exact solidLines_append x y
  | succ n ih =>
    have hempty := ih []
    exact (solidLines_append x _).trans (congrArg (solidLines x ++ ·) hempty)

theorem solidLines_join (n : Nat) (parts : List Text) :
    solidLines (join (List.replicate (n + 1) '\n') parts) = parts.flatMap solidLines := by
  induction parts with
  | nil => rfl
  | cons p parts ih =>
    cases parts with
    | nil => rw [join_cons, List.flatMap_nil, List.append_nil, List.flatMap_singleton]
    | cons q parts =>
      rw [join_cons_cons, solidLines_newlines, ih, List.flatMap_cons (x := p)]

/-- A text is a line, or a line with a text behind it. -/
theorem line_induction {motive : Text → Prop} (line : ∀ l, '\n' ∉ l → motive l)
    (cons : ∀ l t, '\n' ∉ l → motive t → motive (l ++ '\n' :: t)) (t : Text) : motive t := by
  induction hn : t.length using Nat.strong_induction_on generalizing t with
  | _ n ih =>
    subst hn
    by_cases h : '\n' ∈ t
    · obtain ⟨l, u, rfl, hl⟩ := List.eq_append_cons_of_mem h
      refine cons l u hl (ih u.length ?_ u rfl)
      rw [List.length_append, List.length_cons]
      omega
    · exact line t h

theorem solidLines_of_isAllBlank (hw : isAllBlank w = true) : solidLines w = [] := by
  induction w using line_induction with
  | line l hl => rw [solidLines_line hl, if_pos hw]
  | cons l t hl ih =>
    rw [isAllBlank_append, Bool.and_eq_true] at hw
    rw [solidLines_append, solidLines_line hl, if_pos hw.1, List.nil_append]
    exact ih hw.2

section

variable {q : Text} {qs : List Text}

theorem splitOnChar_prefix (hx : '\n' ∉ x) (ht : splitOnChar '\n' t = q :: qs) :
    splitOnChar '\n' (x ++ t) = (x ++ q) :: qs := by
  induction x with
  | nil => exact ht
  | cons c x ih =>
    have hc : c ≠ '\n' := fun h => hx (h ▸ List.mem_cons_self)
    rw [List.cons_append, splitOnChar, if_neg hc, ih fun h => hx (List.mem_cons_of_mem c h)]
    rfl

/-- The first line of a text, behind the character `c` that makes it solid. -/
theorem solidLines_solid (hx : '\n' ∉ x) (hc : isBlank c = false)
    (ht : splitOnChar '\n' t = q :: qs) :
    solidLines (x ++ c :: t) = (x ++ c :: q) :: qs.filter (!·.isAllBlank) := by
  have hcons : splitOnChar '\n' (c :: t) = (c :: q) :: qs :=
    splitOnChar_prefix (x := [c]) (mt List.mem_singleton.mp (ne_newline_of_isBlank hc).symm) ht
  rw [solidLines, splitOnChar_prefix hx hcons, List.filter_cons,
    isAllBlank_of_solid hc]
  rfl

theorem solidLines_blanks (hw : isAllBlank w = true) (hc : isBlank c = false)
    (ht : splitOnChar '\n' t = q :: qs) : ∃ v, isAllBlank v = true ∧
      solidLines (w ++ c :: t) = (v ++ c :: q) :: qs.filter (!·.isAllBlank) := by
  induction w using line_induction with
  | line l hl => exact ⟨l, hw, solidLines_solid hl hc ht⟩
  | cons l u hl ih =>
    rw [isAllBlank_append, Bool.and_eq_true] at hw
    obtain ⟨v, hv, hlines⟩ := ih hw.2
    refine ⟨v, hv, ?_⟩
    rw [List.append_assoc, List.cons_append, solidLines_append, solidLines_line hl, if_pos hw.1,
      hlines, List.nil_append]

end

/-! ### Ends of lines -/

theorem isAllBlank_dropEndWhile (t : Text) :
    isAllBlank (dropEndWhile isSpacing t) = isAllBlank t := by
  obtain ⟨s, hsplit, hs⟩ := dropEndWhile_split isSpacing t
  have hblank : isAllBlank s = true := isAllBlank_iff.mpr fun c hc => by
    by_contra h
    rw [Bool.not_eq_true] at h
    exact Bool.false_ne_true ((isSpacing_of_isBlank h).symm.trans (hs c hc))
  conv_rhs => rw [hsplit, isAllBlank_append, hblank, Bool.and_true]

/-- Each solid line loses the spaces at its end. -/
theorem solidLines_trimLines (t : Text) :
    solidLines (trimLines t) = (solidLines t).map (dropEndWhile isSpacing) := by
  have hparts : ∀ p ∈ (splitOnChar '\n' t).map (dropEndWhile isSpacing), '\n' ∉ p := by
    intro p hp hmem
    obtain ⟨q, hq, rfl⟩ := List.mem_map.mp hp
    obtain ⟨s, hsplit, -⟩ := dropEndWhile_split isSpacing q
    exact not_mem_of_splitOnChar hq (hsplit ▸ List.mem_append_left s hmem)
  have hne : (splitOnChar '\n' t).map (dropEndWhile isSpacing) ≠ [] := fun h =>
    splitOnChar_ne_nil '\n' t (List.map_eq_nil_iff.mp h)
  rw [solidLines, trimLines, splitOnChar_join hne hparts, List.filter_map, solidLines]
  congr 2
  funext l
  exact congrArg (!·) (isAllBlank_dropEndWhile l)

/-! ### Blank lines -/

/-- Two texts with the same first line and the same solid lines behind it. -/
def SameLines (t t' : Text) : Prop :=
  ∃ l ls ls', splitOnChar '\n' t = l :: ls ∧ splitOnChar '\n' t' = l :: ls' ∧
    ls.filter (!·.isAllBlank) = ls'.filter (!·.isAllBlank)

theorem SameLines.solidLines_eq (h : SameLines t x) : solidLines x = solidLines t := by
  obtain ⟨l, ls, ls', ht, hx, hrest⟩ := h
  rw [solidLines, solidLines, ht, hx, List.filter_cons, List.filter_cons, hrest]

namespace SameLines

theorem refl (t : Text) : SameLines t t := by
  obtain ⟨l, ls, h⟩ := List.exists_cons_of_ne_nil (splitOnChar_ne_nil '\n' t)
  exact ⟨l, ls, ls, h, h, rfl⟩

theorem cons (h : SameLines t x) (c : Char) : SameLines (c :: t) (c :: x) := by
  obtain ⟨l, ls, ls', ht, hx, hrest⟩ := h
  by_cases hc : c = '\n'
  · subst hc
    refine ⟨[], l :: ls, l :: ls', ?_, ?_, by rw [List.filter_cons, List.filter_cons, hrest]⟩
    · rw [splitOnChar, if_pos rfl, ht]
    · rw [splitOnChar, if_pos rfl, hx]
  · have hnot : '\n' ∉ [c] := mt List.mem_singleton.mp (Ne.symm hc)
    exact ⟨c :: l, ls, ls', splitOnChar_prefix hnot ht, splitOnChar_prefix hnot hx, hrest⟩

/-- One run of newlines in the place of another. -/
theorem newlines (h : SameLines t x) (m n : Nat) :
    SameLines (List.replicate (m + 1) '\n' ++ t) (List.replicate (n + 1) '\n' ++ x) := by
  have hrun : ∀ (k : Nat) (u : Text), ∃ ls, splitOnChar '\n' (List.replicate (k + 1) '\n' ++ u) =
      [] :: ls ∧ ls.filter (!isAllBlank ·) = solidLines u := by
    intro k u
    induction k with
    | zero => exact ⟨splitOnChar '\n' u, splitOnChar_append '\n' [] u, rfl⟩
    | succ k ih =>
      obtain ⟨ls, hls, hsolid⟩ := ih
      refine ⟨[] :: ls, ?_, hsolid⟩
      rw [← hls]
      exact splitOnChar_append '\n' [] _
  obtain ⟨ls, hls, hm⟩ := hrun m t
  obtain ⟨ls', hls', hn⟩ := hrun n x
  exact ⟨[], ls, ls', hls, hls', by rw [hm, hn, h.solidLines_eq]⟩

theorem blankLines (t : Text) : SameLines t (replaceAll blankLines? ['\n', '\n'] t) := by
  have htakes : TakesPiece blankLines? := fun h => by
    obtain ⟨b, hsplit, ⟨hlength, -⟩, -⟩ := blankLines?_eq_some_iff.mp h
    refine ⟨b, ?_, hsplit⟩
    rintro rfl
    exact absurd hlength (by decide)
  refine replaceAll_induction (motive := SameLines) htakes (refl []) ?_ ?_ t
  · exact fun c t t' _ ih => ih.cons c
  · intro b r r' h ih
    obtain ⟨b', hsplit, ⟨hlength, hb⟩, -⟩ := blankLines?_eq_some_iff.mp h
    obtain rfl := List.append_cancel_right hsplit
    have hrun : b = List.replicate (b.length - 1 + 1) '\n' :=
      List.eq_replicate_iff.mpr ⟨by omega, hb⟩
    rw [hrun]
    exact ih.newlines _ 1

end SameLines

/-! ### Empty bodies -/

/-- Whether the text begins with `w`, but for blanks. -/
def beginsWith (w t : Text) : Bool :=
  (after? w (dropBlanks t)).isSome

/-- Whether a line ends with an opening brace, but for blanks. -/
def opensBody (l : Text) : Bool :=
  (dropEndWhile isBlank l).getLast? = some '\x7b'

/-- Whether a text begins with a closing brace, but for blanks. -/
def closesBody (t : Text) : Bool :=
  beginsWith ['\x7d'] t

/-- A line in front of others, joined with the first of them if these are the lines of an empty
body. -/
def consLine (l : Text) : List Text → List Text
  | [] => [l]
  | m :: ms =>
    if opensBody l && closesBody m then (dropEndWhile isBlank l ++ dropBlanks m) :: ms
    else l :: m :: ms

/-- The lines with the two lines of every empty body joined. -/
def joinBodies (ls : List Text) : List Text :=
  ls.foldr consLine []

theorem beginsWith_iff : beginsWith w t = true ↔ w <+: dropBlanks t := by
  rw [beginsWith, Option.isSome_iff_exists]
  exact exists_congr fun r => after?_eq_some_iff.trans eq_comm

theorem opensBody_iff : opensBody l = true ↔
    ∃ u s, l = u ++ '\x7b' :: s ∧ isAllBlank s = true := by
  rw [opensBody, decide_eq_true_eq]
  constructor
  · intro h
    obtain ⟨s, hsplit, hs⟩ := dropEndWhile_split isBlank l
    obtain ⟨u, hu⟩ := List.getLast?_eq_some_iff.mp h
    refine ⟨u, s, ?_, isAllBlank_iff.mpr hs⟩
    conv_lhs => rw [hsplit, hu, List.append_assoc, List.singleton_append]
  · rintro ⟨u, s, rfl, hs⟩
    rw [dropEndWhile_run (by decide) (isAllBlank_iff.mp hs), List.getLast?_concat]

theorem closesBody_iff : closesBody t = true ↔
    ∃ s u, t = s ++ '\x7d' :: u ∧ isAllBlank s = true := by
  rw [closesBody, beginsWith_iff]
  constructor
  · rintro ⟨u, hu⟩
    refine ⟨t.takeWhile isBlank, u, ?_, List.all_takeWhile⟩
    conv_lhs => rw [← List.takeWhile_append_dropWhile (p := isBlank) (l := t)]
    exact congrArg (t.takeWhile isBlank ++ ·) hu.symm
  · rintro ⟨s, u, rfl, hs⟩
    rw [dropBlanks_of_isAllBlank hs, dropBlanks_of_head u (by decide)]
    exact ⟨u, rfl⟩

theorem closesBody_of_solid (hw : isAllBlank w = true) (hc : isBlank c = false) (t : Text) :
    closesBody (w ++ c :: t) = decide (c = '\x7d') := by
  rw [Bool.eq_iff_iff, closesBody, beginsWith_iff, dropBlanks_of_isAllBlank hw,
    dropBlanks_of_head t hc, decide_eq_true_eq, List.cons_prefix_cons]
  exact ⟨fun h => h.1.symm, fun h => ⟨h.symm, List.nil_prefix⟩⟩

/-- Whether the first solid line closes a body depends on the first character that is not blank. -/
theorem closesBody_of_head? (hl : (solidLines t).head? = some l) : closesBody l = closesBody t := by
  rcases isAllBlank_or_split t with h | ⟨w, c, u, rfl, hw, hc⟩
  · rw [solidLines_of_isAllBlank h] at hl
    cases hl
  · obtain ⟨q, qs, hq⟩ := List.exists_cons_of_ne_nil (splitOnChar_ne_nil '\n' u)
    obtain ⟨v, hv, hlines⟩ := solidLines_blanks hw hc hq
    rw [hlines] at hl
    obtain rfl := Option.some.inj hl
    rw [closesBody_of_solid hv hc, closesBody_of_solid hw hc]

/-! ### Joined bodies -/

/-- The text with every empty body written as two braces. -/
def closeBodies (t : Text) : Text :=
  replaceAll emptyBody? ['\x7b', '\x7d'] t

theorem emptyBody?_of_ne (hc : c ≠ '\x7b') (t : Text) : emptyBody? (c :: t) = none := by
  rw [Option.eq_none_iff_forall_ne_some]
  intro r h
  obtain ⟨b, hsplit, w, rfl, -⟩ := emptyBody?_eq_some_iff.mp h
  exact hc (List.cons.inj hsplit).1

theorem emptyBody?_of_line (ht : '\n' ∉ t) : emptyBody? t = none := by
  rw [Option.eq_none_iff_forall_ne_some]
  intro r h
  obtain ⟨b, rfl, w, rfl, -, hw⟩ := emptyBody?_eq_some_iff.mp h
  exact ht (List.mem_append_left r (List.mem_cons_of_mem _ (List.mem_append_left _ hw)))

theorem closeBodies_line (hl : '\n' ∉ l) : closeBodies l = l := by
  induction l with
  | nil => rfl
  | cons c l ih =>
    rw [closeBodies, replaceAll_cons (emptyBody?_of_line hl), ← closeBodies,
      ih fun h => hl (List.mem_cons_of_mem c h)]

/-- What comes before the first opening brace stays as it is. -/
theorem closeBodies_front (hw : '\x7b' ∉ w) (t : Text) :
    closeBodies (w ++ t) = w ++ closeBodies t := by
  induction w with
  | nil => rfl
  | cons c w ih =>
    rw [List.mem_cons, not_or] at hw
    rw [List.cons_append, closeBodies, replaceAll_cons (emptyBody?_of_ne (Ne.symm hw.1) _),
      ← closeBodies, ih hw.2]
    rfl

/-- No body is opened in the first line and closed behind it. -/
theorem parts_line (h : (opensBody x && closesBody y) = false) :
    Parts emptyBody? x ('\n' :: y) := by
  rcases Bool.and_eq_false_iff.mp h with hx | hy
  · refine parts_emptyBody?_of_joint fun u v w z hsplit _ hv _ => ?_
    rw [opensBody_iff.mpr ⟨u, v, hsplit, hv⟩] at hx
    cases hx
  · refine parts_emptyBody? x ?_
    show (dropBlanks y).head? ≠ some '\x7d'
    intro hhead
    obtain ⟨u, hu⟩ := List.head?_eq_some_iff.mp hhead
    have hcloses : closesBody y = true := beginsWith_iff.mpr ⟨u, hu.symm⟩
    rw [hcloses] at hy
    cases hy

/-- The first line of an empty body is joined with what closes it. -/
theorem closeBodies_body (hw : isAllBlank w = true) (hs : isAllBlank t = true) (u y : Text) :
    closeBodies (u ++ '\x7b' :: w ++ '\n' :: (t ++ '\x7d' :: y)) =
      closeBodies u ++ ['\x7b', '\x7d'] ++ closeBodies y := by
  have hmatch : emptyBody? ('\x7b' :: ((w ++ '\n' :: (t ++ ['\x7d'])) ++ y)) = some y := by
    refine emptyBody?_eq_some_iff.mpr ⟨'\x7b' :: (w ++ '\n' :: (t ++ ['\x7d'])), rfl,
      w ++ '\n' :: t, by simp, ?_, by simp⟩
    intro c hc
    rw [List.mem_append, List.mem_cons] at hc
    rcases hc with hc | rfl | hc
    · exact isAllBlank_iff.mp hw c hc
    · rfl
    · exact isAllBlank_iff.mp hs c hc
  have hsplit : u ++ '\x7b' :: w ++ '\n' :: (t ++ '\x7d' :: y) =
      u ++ '\x7b' :: ((w ++ '\n' :: (t ++ ['\x7d'])) ++ y) := by
    simp
  have hhead : (dropBlanks ('\x7b' :: ((w ++ '\n' :: (t ++ ['\x7d'])) ++ y))).head? ≠
      some '\x7d' := by
    rw [dropBlanks_of_head _ (by decide)]
    exact fun h => absurd (Option.some.inj h) (by decide)
  rw [hsplit, closeBodies, replaceAll_append (parts_emptyBody? u hhead), replaceAll_match hmatch,
    List.append_assoc]
  rfl

theorem head?_closeBodies (t : Text) : (closeBodies t).head? = t.head? := by
  have htakes : TakesPiece emptyBody? := fun h => by
    obtain ⟨b, hsplit, w, rfl, -⟩ := emptyBody?_eq_some_iff.mp h
    exact ⟨_, List.cons_ne_nil _ _, hsplit⟩
  refine replaceAll_induction (motive := fun t t' => t'.head? = t.head?) htakes rfl ?_ ?_ t
  · exact fun c t t' _ _ => rfl
  · intro b r r' h _
    obtain ⟨b', hsplit, w, rfl, -⟩ := emptyBody?_eq_some_iff.mp h
    rw [hsplit]
    rfl

theorem closesBody_closeBodies (t : Text) : closesBody (closeBodies t) = closesBody t := by
  rcases isAllBlank_or_split t with h | ⟨w, c, u, rfl, hw, hc⟩
  · have hbrace : '\x7b' ∉ t := fun hmem => absurd (isAllBlank_iff.mp h _ hmem) (by decide)
    have hself := closeBodies_front hbrace []
    rw [List.append_nil] at hself
    rw [hself]
    exact congrArg closesBody (List.append_nil t)
  · have hbrace : '\x7b' ∉ w := fun hmem => absurd (isAllBlank_iff.mp hw _ hmem) (by decide)
    obtain ⟨u', hu'⟩ := List.head?_eq_some_iff.mp (head?_closeBodies (c :: u))
    rw [closeBodies_front hbrace, hu', closesBody_of_solid hw hc, closesBody_of_solid hw hc]

theorem consLine_of_not (ls : List Text)
    (h : ∀ m ∈ ls.head?, (opensBody l && closesBody m) = false) : consLine l ls = l :: ls := by
  cases ls with
  | nil => rfl
  | cons m ms => rw [consLine, h m rfl, if_neg Bool.false_ne_true]

/-- The line that opens an empty body is joined with the next solid line. -/
theorem solidLines_body {u s : Text} (hu : '\n' ∉ u) (hw : isAllBlank w = true)
    (hs : isAllBlank s = true) (y : Text) :
    solidLines (closeBodies (u ++ '\x7b' :: w ++ '\n' :: (s ++ '\x7d' :: y))) =
      consLine (u ++ '\x7b' :: w) (solidLines (closeBodies (s ++ '\x7d' :: y))) := by
  obtain ⟨q, qs, hq⟩ := List.exists_cons_of_ne_nil (splitOnChar_ne_nil '\n' (closeBodies y))
  -- What stands behind the closing brace is on its line, also when that line is joined.
  have hclosing : closeBodies (s ++ '\x7d' :: y) = s ++ '\x7d' :: closeBodies y := by
    have hbrace : '\x7b' ∉ s ++ ['\x7d'] :=
      List.not_mem_append (fun h => absurd (isAllBlank_iff.mp hs _ h) (by decide)) (by decide)
    rw [List.append_cons s, closeBodies_front hbrace, ← List.append_cons]
  obtain ⟨v, hv, hlines⟩ := solidLines_blanks (c := '\x7d') hs (by decide) hq
  have hopen : '\n' ∉ u ++ ['\x7b'] := List.not_mem_append hu (by decide)
  have hjoined : solidLines (u ++ ['\x7b', '\x7d'] ++ closeBodies y) =
      (u ++ ['\x7b'] ++ '\x7d' :: q) :: qs.filter (!·.isAllBlank) := by
    rw [← solidLines_solid hopen (by decide) hq]
    simp only [List.append_assoc, List.cons_append, List.nil_append]
  have hopens : opensBody (u ++ '\x7b' :: w) = true := opensBody_iff.mpr ⟨u, w, rfl, hw⟩
  have hcloses : closesBody (v ++ '\x7d' :: q) = true := closesBody_iff.mpr ⟨v, q, rfl, hv⟩
  rw [closeBodies_body hw hs, closeBodies_line hu, hjoined, hclosing, hlines, consLine, hopens,
    hcloses, dropEndWhile_run (by decide) (isAllBlank_iff.mp hw), dropBlanks_of_isAllBlank hv,
    dropBlanks_of_head q (by decide)]
  rfl

theorem solidLines_closeBodies_cons (hl : '\n' ∉ l) (t : Text) :
    solidLines (closeBodies (l ++ '\n' :: t)) =
      if isAllBlank l then solidLines (closeBodies t)
      else consLine l (solidLines (closeBodies t)) := by
  cases hbody : opensBody l && closesBody t with
  | false =>
    have hsplit : closeBodies (l ++ '\n' :: t) = l ++ '\n' :: closeBodies t := by
      rw [closeBodies, replaceAll_append (parts_line hbody), ← closeBodies, closeBodies_line hl]
      exact congrArg (l ++ ·) (closeBodies_front (w := ['\n']) (by decide) t)
    rw [hsplit, solidLines_append, solidLines_line hl]
    split_ifs
    · rfl
    · -- `closesBody` is about the first solid line behind `l`, which need not be the next line.
      refine (consLine_of_not _ fun m hm => ?_).symm
      rw [closesBody_of_head? hm, closesBody_closeBodies, hbody]
  | true =>
    rw [Bool.and_eq_true] at hbody
    obtain ⟨u, w, rfl, hw⟩ := opensBody_iff.mp hbody.1
    obtain ⟨s, y, rfl, hs⟩ := closesBody_iff.mp hbody.2
    have hsolid : isAllBlank (u ++ '\x7b' :: w) = false := isAllBlank_of_solid (by decide) u w
    rw [solidLines_body (fun h => hl (List.mem_append_left _ h)) hw hs, hsolid]
    rfl

/-- **An empty body becomes one line, and no other solid line changes.** -/
theorem solidLines_closeBodies (t : Text) :
    solidLines (closeBodies t) = joinBodies (solidLines t) := by
  induction t using line_induction with
  | line l hl =>
    rw [closeBodies_line hl, solidLines_line hl]
    split_ifs <;> rfl
  | cons l t hl ih =>
    rw [solidLines_closeBodies_cons hl, ih, solidLines_append, solidLines_line hl]
    split_ifs <;> rfl

/-- **The layout keeps the solid lines**: it takes the spaces off their ends and joins the two lines
of an empty body. -/
theorem solidLines_layout (t : Text) :
    solidLines (layout t) = joinBodies ((solidLines t).map (dropEndWhile isSpacing)) := by
  have hlayout : layout t = closeBodies (replaceAll blankLines? ['\n', '\n'] (trimLines t)) := rfl
  rw [hlayout, solidLines_closeBodies, (SameLines.blankLines _).solidLines_eq, solidLines_trimLines]

theorem solidLines_formatCode (h : IsBlock t) :
    solidLines (formatCode t) = joinBodies ((solidLines t).map (dropEndWhile isSpacing)) := by
  rw [formatCode_eq, h.strip_layout, solidLines_append, solidLines_layout]
  exact List.append_nil _

end TableTypes
