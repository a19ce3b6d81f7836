import TableTypes.Proofs.Declaration.Layout
import TableTypes.Proofs.Text.Blank

/-!
# Code in its final layout

Code is laid out if no line ends with a space or a tab, no three newlines stand in a row, no body is
empty but for blanks, and no blank stands around it but the newline at its end (`IsLaidOut`).  Each
pass of the layout takes out what it is for, and no later pass brings it back: what is in front of a
brace stays as it is when an empty body is written as two braces (`SameMargin`).  So what is laid
out stays as it is, and nothing else does (`formatCode_normal`).
-/

namespace TableTypes

open Text

variable {t t' x y : Text} {c : Char}

/-! ### Ends of lines -/

/-- No line of the text ends with a space or a tab. -/
def LinesTrimmed (t : Text) : Prop :=
  ∀ line ∈ splitOnChar '\n' t, ∀ c ∈ line.getLast?, isSpacing c = false

theorem linesTrimmed_nil : LinesTrimmed [] := by
  simp [LinesTrimmed, splitOnChar]

/-- A line ends where a newline follows, or nothing at all. -/
theorem linesTrimmed_cons : LinesTrimmed (c :: t) ↔
    (isSpacing c && t.head?.all (· = '\n')) = false ∧ LinesTrimmed t := by
  obtain ⟨line, lines, hlines⟩ := List.exists_cons_of_ne_nil (splitOnChar_ne_nil '\n' t)
  by_cases hc : c = '\n'
  · subst hc
    rw [isSpacing_newline, Bool.false_and, LinesTrimmed, splitOnChar, if_pos rfl]
    simp [LinesTrimmed]
  · have hline : line = [] ↔ t.head?.all (· = '\n') = true := by
      cases t with
      | nil =>
        rw [splitOnChar, List.cons.injEq] at hlines
        simp [← hlines.1]
      | cons d t =>
        obtain ⟨line', lines', hlines'⟩ :=
          List.exists_cons_of_ne_nil (splitOnChar_ne_nil '\n' t)
        rw [splitOnChar] at hlines
        by_cases hd : d = '\n'
        · rw [if_pos hd, List.cons.injEq] at hlines
          simp [← hlines.1, hd]
        · rw [if_neg hd, hlines', List.cons.injEq] at hlines
          simp [← hlines.1, hd]
    have hlast : (∀ d ∈ (c :: line).getLast?, isSpacing d = false) ↔
        (isSpacing c && t.head?.all (· = '\n')) = false ∧
          ∀ d ∈ line.getLast?, isSpacing d = false := by
      by_cases hnil : line = []
      · rw [hline.mp hnil]
        simp [hnil]
      · have hmore : t.head?.all (· = '\n') = false := by
          rw [← Bool.not_eq_true, ← hline]
          exact hnil
        obtain ⟨d, u, rfl⟩ := List.exists_cons_of_ne_nil hnil
        rw [List.getLast?_cons_cons, hmore, Bool.and_false]
        simp
    rw [LinesTrimmed, LinesTrimmed, splitOnChar, if_neg hc, hlines, List.forall_mem_cons,
      List.forall_mem_cons, hlast, and_assoc]

theorem linesTrimmed_trimLines (t : Text) : LinesTrimmed (trimLines t) := by
  induction t with
  | nil => exact linesTrimmed_nil
  | cons c t ih =>
    rw [trimLines_cons]
    split_ifs with hdrop
    · exact ih
    · exact linesTrimmed_cons.mpr ⟨Bool.eq_false_iff.mpr hdrop, ih⟩

theorem LinesTrimmed.trimLines_eq (h : LinesTrimmed t) : trimLines t = t := by
  induction t with
  | nil => rfl
  | cons c t ih =>
    obtain ⟨hfront, hrest⟩ := linesTrimmed_cons.mp h
    rw [trimLines_cons, ih hrest, hfront, if_neg Bool.false_ne_true]

theorem LinesTrimmed.of_append (h : LinesTrimmed (x ++ y)) : LinesTrimmed y := by
  induction x with
  | nil => exact h
  | cons c x ih => exact ih (linesTrimmed_cons.mp h).2

/-- What follows a text that does not end with a space or a tab may be put in another's place. -/
theorem LinesTrimmed.append (h : LinesTrimmed (x ++ t)) (hy : LinesTrimmed y)
    (hlast : ∀ c ∈ x.getLast?, isSpacing c = false) : LinesTrimmed (x ++ y) := by
  induction x with
  | nil => exact hy
  | cons c x ih =>
    obtain ⟨hfront, hrest⟩ := linesTrimmed_cons.mp h
    refine linesTrimmed_cons.mpr ?_
    cases x with
    | nil => exact ⟨by rw [hlast c rfl, Bool.false_and], hy⟩
    | cons d x =>
      rw [List.getLast?_cons_cons] at hlast
      exact ⟨hfront, ih hrest hlast⟩

theorem LinesTrimmed.append_left (hy : LinesTrimmed y) (hx : ∀ c ∈ x, isSpacing c = false) :
    LinesTrimmed (x ++ y) := by
  induction x with
  | nil => exact hy
  | cons c x ih =>
    rw [List.forall_mem_cons] at hx
    exact linesTrimmed_cons.mpr ⟨by rw [hx.1, Bool.false_and], ih hx.2⟩

/-- Pieces may be replaced if what is written for them begins alike and has no spaces or tabs. -/
theorem LinesTrimmed.replaceAll {m : Text → Option Text} {new : Text}
    (hnew : ∀ c ∈ new, isSpacing c = false)
    (hm : ∀ {t r : Text}, m t = some r → ∃ b, b ≠ [] ∧ t = b ++ r ∧ b.head? = new.head?)
    (h : LinesTrimmed t) : LinesTrimmed (replaceAll m new t) := by
  have htakes : TakesPiece m := fun hmatch => by
    obtain ⟨b, hne, hsplit, -⟩ := hm hmatch
    exact ⟨b, hne, hsplit⟩
  suffices hboth : (LinesTrimmed t → LinesTrimmed (Text.replaceAll m new t)) ∧
      (Text.replaceAll m new t).head? = t.head? from hboth.1 h
  refine replaceAll_induction htakes (motive := fun t t' =>
    (LinesTrimmed t → LinesTrimmed t') ∧ t'.head? = t.head?) ⟨id, rfl⟩ ?_ ?_ t
  · rintro c t t' - ⟨hlines, hhead⟩
    rw [linesTrimmed_cons, linesTrimmed_cons, hhead]
    exact ⟨And.imp_right hlines, rfl⟩
  · rintro b r r' hmatch ⟨hlines, -⟩
    obtain ⟨b', hne, hsplit, hhead⟩ := hm hmatch
    obtain rfl := List.append_cancel_right hsplit
    have hnil : new ≠ [] := by
      rintro rfl
      exact hne (List.head?_eq_none_iff.mp hhead)
    constructor
    · exact fun hbr => (hlines hbr.of_append).append_left hnew
    · rw [List.head?_append_of_ne_nil _ hnil, List.head?_append_of_ne_nil _ hne, hhead]

/-! ### Runs of newlines -/

/-- The number of newlines in front of anything else. -/
def leadingNewlines (t : Text) : Nat :=
  (t.takeWhile (· = '\n')).length

theorem leadingNewlines_cons (c : Char) (t : Text) :
    leadingNewlines (c :: t) = if c = '\n' then leadingNewlines t + 1 else 0 := by
  unfold leadingNewlines
  rw [List.takeWhile_cons]
  split_ifs with h h' <;> simp_all

theorem leadingNewlines_append (hx : ∀ c ∈ x, c = '\n') (hy : y.head? ≠ some '\n') :
    leadingNewlines (x ++ y) = x.length := by
  unfold leadingNewlines
  rw [takeWhile_run]
  · exact fun c hc => decide_eq_true (hx c hc)
  · exact fun c hc => decide_eq_false fun h => hy (h ▸ hc)

theorem triple_prefix_iff : ['\n', '\n', '\n'] <+: t ↔ 3 ≤ leadingNewlines t := by
  constructor
  · rintro ⟨r, rfl⟩
    simp only [List.cons_append, leadingNewlines_cons, if_true]
    omega
  · intro h
    have hrun : ['\n', '\n', '\n'] <+: t.takeWhile (· = '\n') := by
      obtain ⟨n, hn⟩ := Nat.exists_eq_add_of_le h
      have hall : t.takeWhile (· = '\n') = List.replicate (3 + n) '\n' :=
        List.eq_replicate_iff.mpr ⟨hn, fun c hc =>
          of_decide_eq_true (List.all_eq_true.mp List.all_takeWhile c hc)⟩
      rw [hall, List.replicate_add]
      exact List.prefix_append _ _
    exact hrun.trans (List.takeWhile_prefix _)

theorem blankLines?_eq_none_iff : blankLines? t = none ↔ leadingNewlines t < 3 := by
  rw [← Nat.not_le, ← triple_prefix_iff, blankLines?, Option.map_eq_none_iff]
  constructor
  · rintro h ⟨r, hr⟩
    rw [after?_eq_some_iff.mpr hr.symm] at h
    cases h
  · exact fun h => after?_eq_none fun r hr => h ⟨r, hr.symm⟩

theorem absent_blankLines?_iff : Absent blankLines? t ↔ ¬['\n', '\n', '\n'] <:+: t := by
  induction t with
  | nil => simp [absent_nil]
  | cons c t ih =>
    rw [absent_cons, ih, List.infix_cons_iff, not_or, blankLines?_eq_none_iff, triple_prefix_iff,
      Nat.not_le]

/-- Of a run of newlines two are left at most. -/
theorem absent_replaceAll_blankLines? (t : Text) :
    Absent blankLines? (replaceAll blankLines? ['\n', '\n'] t) := by
  have htakes : TakesPiece blankLines? := fun hmatch => by
    obtain ⟨b, hsplit, ⟨hlength, -⟩, -⟩ := blankLines?_eq_some_iff.mp hmatch
    exact ⟨b, List.ne_nil_of_length_pos (by omega), hsplit⟩
  refine (replaceAll_induction htakes (motive := fun t t' =>
    leadingNewlines t' = min 2 (leadingNewlines t) ∧ Absent blankLines? t') ?_ ?_ ?_ t).2
  · exact ⟨rfl, absent_nil _⟩
  · rintro c t t' hnone ⟨hlead, habsent⟩
    rw [blankLines?_eq_none_iff, leadingNewlines_cons] at hnone
    rw [absent_cons, blankLines?_eq_none_iff, leadingNewlines_cons, leadingNewlines_cons, hlead]
    refine ⟨?_, ?_, habsent⟩
    · split_ifs at hnone ⊢ <;> omega
    · split_ifs at hnone ⊢ <;> omega
  · rintro b r r' hmatch ⟨hlead, habsent⟩
    obtain ⟨b', hsplit, ⟨hlength, hb⟩, hr⟩ := blankLines?_eq_some_iff.mp hmatch
    obtain rfl := List.append_cancel_right hsplit
    have hrest : leadingNewlines r = 0 := by
      simpa using leadingNewlines_append (x := []) (by simp) hr
    have hnew : leadingNewlines (['\n', '\n'] ++ r') = 2 := by
      simp only [List.cons_append, List.nil_append, leadingNewlines_cons, if_true]
      omega
    rw [leadingNewlines_append hb hr, hnew]
    refine ⟨by omega, ?_⟩
    simp only [List.cons_append, List.nil_append, absent_cons, blankLines?_eq_none_iff,
      leadingNewlines_cons, if_true]
    exact ⟨by omega, by omega, habsent⟩

/-! ### Empty bodies -/

/-- The texts begin with the same blanks and go on with the same character. -/
structure SameMargin (t t' : Text) : Prop where
  blanks : t'.takeWhile isBlank = t.takeWhile isBlank
  next : (dropBlanks t').head? = (dropBlanks t).head?

namespace SameMargin

theorem refl (t : Text) : SameMargin t t := ⟨rfl, rfl⟩

theorem of_solid (hc : isBlank c = false) (x y : Text) : SameMargin (c :: x) (c :: y) := by
  constructor
  · rw [List.takeWhile_cons, List.takeWhile_cons, hc]
    rfl
  · rw [dropBlanks_of_head x hc, dropBlanks_of_head y hc]
    rfl

theorem cons (h : SameMargin t t') (c : Char) : SameMargin (c :: t) (c :: t') := by
  cases hc : isBlank c with
  | false => exact of_solid hc t t'
  | true =>
    constructor
    · rw [List.takeWhile_cons, List.takeWhile_cons, hc, h.blanks]
    · have hdrop : ∀ u, dropBlanks (c :: u) = dropBlanks u := fun u => by
        rw [dropBlanks, List.dropWhile_cons, if_pos hc, dropBlanks]
      rw [hdrop, hdrop, h.next]

theorem leadingNewlines_eq (h : SameMargin t t') : leadingNewlines t' = leadingNewlines t := by
  have hblank : ∀ u : Text,
      u.takeWhile (· = '\n') = (u.takeWhile isBlank).takeWhile (· = '\n') := by
    intro u
    rw [List.takeWhile_takeWhile]
    congr 1
    ext c
    by_cases hc : c = '\n'
    · simp [hc, show isBlank '\n' = true by decide]
    · simp [hc]
  rw [leadingNewlines, leadingNewlines, hblank t', h.blanks, ← hblank t]

theorem emptyBody?_eq_none_iff (h : SameMargin t t') :
    emptyBody? (c :: t') = none ↔ emptyBody? (c :: t) = none := by
  have hopen : ∀ u : Text, emptyBody? (c :: u) = none ↔
      ¬(c = '\x7b' ∧ (dropBlanks u).head? = some '\x7d' ∧ '\n' ∈ u.takeWhile isBlank) := by
    intro u
    by_cases hc : c = '\x7b'
    · subst hc
      rw [emptyBody?]
      cases hrest : dropBlanks u with
      | nil => simp
      | cons d r =>
        by_cases hd : d = '\x7d'
        · subst hd
          simp
        · simp [hd]
    · rw [emptyBody?]
      · simp [hc]
      · exact fun u hu => hc (List.cons.inj hu).1
  rw [hopen, hopen, h.next, h.blanks]

end SameMargin

theorem absent_emptyBody?_iff : Absent emptyBody? t ↔ ∀ b, IsEmptyBody b → ¬b <:+: t := by
  refine absent_iff (fun t r => emptyBody?_eq_some_iff) ?_
  rintro ⟨w, hw, -⟩
  cases hw

/-- **No empty body is left, and no run of newlines becomes longer.** -/
theorem absent_replaceAll_emptyBody? (t : Text) :
    Absent emptyBody? (replaceAll emptyBody? ['\x7b', '\x7d'] t) ∧
      (Absent blankLines? t → Absent blankLines? (replaceAll emptyBody? ['\x7b', '\x7d'] t)) := by
  have htakes : TakesPiece emptyBody? := fun hmatch => by
    obtain ⟨b, hsplit, w, rfl, -⟩ := emptyBody?_eq_some_iff.mp hmatch
    exact ⟨_, List.cons_ne_nil _ _, hsplit⟩
  refine (replaceAll_induction htakes (motive := fun t t' => SameMargin t t' ∧
    Absent emptyBody? t' ∧ (Absent blankLines? t → Absent blankLines? t')) ?_ ?_ ?_ t).2
  · exact ⟨SameMargin.refl [], absent_nil _, id⟩
  · rintro c t t' hnone ⟨hmargin, hbodies, hruns⟩
    refine ⟨hmargin.cons c, ?_, ?_⟩
    · exact absent_cons.mpr ⟨hmargin.emptyBody?_eq_none_iff.mpr hnone, hbodies⟩
    · rw [absent_cons, absent_cons, blankLines?_eq_none_iff, blankLines?_eq_none_iff,
        (hmargin.cons c).leadingNewlines_eq]
      exact And.imp_right hruns
  · rintro b r r' hmatch ⟨-, hbodies, hruns⟩
    obtain ⟨b', hsplit, w, hb, -⟩ := emptyBody?_eq_some_iff.mp hmatch
    obtain rfl := List.append_cancel_right hsplit
    refine ⟨?_, ?_, ?_⟩
    · rw [hb]
      exact SameMargin.of_solid (by decide) _ _
    · -- A closing brace stands directly behind the opening one, with no newline before it.
      have hclose : emptyBody? ('\x7b' :: '\x7d' :: r') = none := rfl
      have hbrace : emptyBody? ('\x7d' :: r') = none := rfl
      exact absent_cons.mpr ⟨hclose, absent_cons.mpr ⟨hbrace, hbodies⟩⟩
    · intro habsent
      have hr : Absent blankLines? r := fun u hne hu =>
        habsent u hne (hu.trans (List.suffix_append b r))
      refine absent_cons.mpr ⟨blankLines?_cons (by decide) _, ?_⟩
      exact absent_cons.mpr ⟨blankLines?_cons (by decide) _, hruns hr⟩

/-! ### The final layout -/

/-- Code in its final layout. -/
structure IsLaidOut (t : Text) : Prop where
  /-- No line ends with a space or a tab. -/
  lines : LinesTrimmed t
  /-- No three newlines stand in a row. -/
  runs : ¬['\n', '\n', '\n'] <:+: t
  /-- No braces have nothing but blanks between them, a newline among these. -/
  bodies : ∀ b, IsEmptyBody b → ¬b <:+: t
  /-- There is one newline at the end, and no other blank there or at the beginning. -/
  ends : ∃ s, t = s ++ ['\n'] ∧ (∀ c ∈ s.head?, isBlank c = false) ∧
    ∀ c ∈ s.getLast?, isBlank c = false

theorem IsLaidOut.formatCode_eq (h : IsLaidOut t) : formatCode t = t := by
  obtain ⟨s, hs, hhead, hlast⟩ := h.ends
  have hlayout : layout t = t := by
    rw [layout, h.lines.trimLines_eq, (absent_blankLines?_iff.mpr h.runs).replaceAll_eq,
      (absent_emptyBody?_iff.mpr h.bodies).replaceAll_eq]
  have hstrip : strip (s ++ ['\n']) = s :=
    Inset.strip_text ⟨[], s, ['\n'], by simp, List.forall_mem_singleton.mpr rfl⟩ hhead hlast
  rw [TableTypes.formatCode_eq, hlayout, hs, hstrip]

theorem linesTrimmed_layout (code : Text) : LinesTrimmed (layout code) := by
  have hblank : LinesTrimmed (replaceAll blankLines? ['\n', '\n'] (trimLines code)) := by
    refine LinesTrimmed.replaceAll (forall_eq_false rfl) (fun hmatch => ?_)
      (linesTrimmed_trimLines code)
    obtain ⟨b, hsplit, ⟨hlength, hb⟩, -⟩ := blankLines?_eq_some_iff.mp hmatch
    obtain ⟨d, u, rfl⟩ : ∃ d u, b = d :: u :=
      List.exists_cons_of_ne_nil (List.ne_nil_of_length_pos (by omega))
    refine ⟨d :: u, List.cons_ne_nil d u, hsplit, ?_⟩
    rw [hb d List.mem_cons_self]
    rfl
  refine LinesTrimmed.replaceAll (forall_eq_false rfl) (fun hmatch => ?_) hblank
  obtain ⟨b, hsplit, w, rfl, -⟩ := emptyBody?_eq_some_iff.mp hmatch
  exact ⟨_, List.cons_ne_nil _ _, hsplit, rfl⟩

theorem isLaidOut_formatCode (code : Text) : IsLaidOut (formatCode code) := by
  obtain ⟨l, r, hsplit, -, -⟩ := strip_split (layout code)
  have hlast : ∀ c ∈ (strip (layout code)).getLast?, isBlank c = false :=
    isBlank_of_getLast?_strip
  have hinside : strip (layout code) <:+: layout code :=
    ⟨l, r, by rw [List.append_assoc, ← hsplit]⟩
  obtain ⟨hbodies, hruns⟩ :=
    absent_replaceAll_emptyBody? (replaceAll blankLines? ['\n', '\n'] (trimLines code))
  rw [absent_emptyBody?_iff] at hbodies
  have hruns := absent_blankLines?_iff.mp (hruns (absent_replaceAll_blankLines? _))
  rw [formatCode_eq]
  constructor
  · have hlines := linesTrimmed_layout code
    rw [hsplit] at hlines
    have hend : LinesTrimmed ['\n'] :=
      linesTrimmed_nil.append_left (x := ['\n']) (forall_eq_false rfl)
    exact hlines.of_append.append hend fun c hc => isSpacing_of_isBlank (hlast c hc)
  · rw [List.infix_concat_iff, not_or]
    refine ⟨?_, fun htriple => hruns (htriple.trans hinside)⟩
    -- Three newlines at the end would leave one at the end of what was stripped.
    rintro ⟨x, hx⟩
    have hdrop := congrArg List.dropLast hx
    rw [List.dropLast_concat, show ['\n', '\n', '\n'] = ['\n', '\n'] ++ ['\n'] from rfl,
      ← List.append_assoc, List.dropLast_concat] at hdrop
    have hblank := hlast '\n' (by rw [← hdrop]; simp)
    exact absurd hblank (by decide)
  · intro b hb
    rw [List.infix_concat_iff, not_or]
    refine ⟨?_, fun hbody => hbodies b hb (hbody.trans hinside)⟩
    rintro ⟨x, hx⟩
    obtain ⟨w, rfl, -⟩ := hb
    have hend := congrArg List.getLast? hx
    rw [← List.cons_append, ← List.append_assoc, List.getLast?_concat,
      List.getLast?_concat] at hend
    exact absurd (Option.some.inj hend) (by decide)
  · exact ⟨_, rfl, isBlank_of_head?_strip, hlast⟩

/-- **The layout is a normal form.**  Whatever the code was, it is laid out when it has been brought
into its final layout, and what is laid out is exactly what stays as it is; so bringing code into
its final layout twice is doing it once. -/
theorem formatCode_normal (code : Text) :
    formatCode (formatCode code) = formatCode code ∧ IsLaidOut (formatCode code) ∧
      (formatCode code = code ↔ IsLaidOut code) := by
  have hlaid := isLaidOut_formatCode code
  refine ⟨hlaid.formatCode_eq, hlaid, fun h => ?_, IsLaidOut.formatCode_eq⟩
  rw [← h]
  exact hlaid

end TableTypes
