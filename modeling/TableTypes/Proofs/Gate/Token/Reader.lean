import TableTypes.Proofs.Gate.Token.Quoted
import TableTypes.Gate.Token.Lexer

/-!
# The readers of the lexer and line ends

Each reader takes the same off a text whether its line ends are written as newlines or not, and
whether blanks follow it or not; what it leaves over is again the same up to that.
-/

namespace TableTypes.Token

open Text

/-- Two readers have taken the same off two texts, and leave over the same. -/
def SameRest {α : Type} (x y : α × Text) : Prop :=
  x.1 = y.1 ∧ Relined false isAllBlank x.2 y.2

variable {t r : Text}

/-! ### Up to the end of a comment -/

section

variable {a b : Char}

theorem upTo?_cons (c : Char) (t : Text) : upTo? a b (c :: t) =
    if c = a ∧ t.head? = some b then some ([], t.tail)
    else (upTo? a b t).map fun r => (c :: r.1, r.2) := by
  cases t with
  | nil => simp [upTo?]
  | cons d t => simp [upTo?]

theorem upTo?_leaves (t : Text) : Leaves t (upTo? a b t) := by
  fun_induction upTo? a b t with
  | case1 => exact .none
  | case2 => exact .none
  | case3 c d t => exact ((Leaves.some List.suffix_rfl).cons d).cons c
  | case4 c d t _ ih => exact (ih.map _).cons c

theorem upTo?_blank (ha : isBlank a = false) {c : Char} (hc : isBlank c = true) (t : Text) :
    upTo? a b (c :: t) = (upTo? a b t).map fun r => (c :: r.1, r.2) := by
  rw [upTo?_cons, if_neg fun h => ne_of_isBlank ha hc h.1]

theorem upTo?_relined (ha : isBlank a = false) (hb : isBlank b = false)
    (h : Relined false isAllBlank t r) : Option.Rel SameCut (upTo? a b t) (upTo? a b r) := by
  induction h with
  | @stop z hz =>
    have hnone : upTo? a b z = none := by
      induction z with
      | nil => rfl
      | cons c z ih =>
        obtain ⟨hc, hz⟩ := Bool.and_eq_true _ _ ▸ hz
        rw [upTo?_blank ha hc, ih hz]
        rfl
    rw [hnone]
    exact .none
  | @keep c t r h ih =>
    rw [upTo?_cons, upTo?_cons]
    rcases h.head_cases hb with ⟨u, v, rfl, rfl, huv⟩ | ⟨ht, hr⟩
    · simp only [List.head?_cons, and_true, List.tail_cons]
      split
      · exact .some ⟨.stop rfl, huv⟩
      · exact rel_map ih fun hxy => ⟨hxy.1.keep c, hxy.2⟩
    · rw [if_neg fun h => ht h.2, if_neg fun h => hr h.2]
      exact rel_map ih fun hxy => ⟨hxy.1.keep c, hxy.2⟩
  | pair _ ih =>
    rw [upTo?_blank ha rfl, upTo?_blank ha rfl, upTo?_blank ha rfl, Option.map_map]
    exact rel_map ih fun hxy => ⟨hxy.1.pair, hxy.2⟩
  | single hlone => cases hlone

end

theorem dropLine_relined (h : Relined false isAllBlank t r) :
    Relined false isAllBlank (dropLine t) (dropLine r) := by
  unfold dropLine
  induction h with
  | stop hz => exact .stop (isAllBlank_dropWhile _ hz)
  | keep c h ih =>
    rw [List.dropWhile_cons, List.dropWhile_cons]
    split
    · exact ih
    · exact .keep c h
  | pair h => exact .keep '\n' h
  | single hlone => cases hlone

theorem endsDashes_relined (h : Relined false isAllBlank t r) : endsDashes t = endsDashes r :=
  h.head?_all fun c hc => by rw [hc]; rfl

/-! ### Operators -/

theorem operator?_leaves (c : Char) (t : Text) : Leaves t (operator? (c :: t)) := by
  intro p hp
  obtain ⟨o, ho, hafter⟩ := List.exists_of_findSome?_eq_some hp
  obtain ⟨r, hr, rfl⟩ := Option.map_eq_some_iff.mp hafter
  have hne : ∀ o ∈ operators, o ≠ [] := by decide
  exact suffix_of_after? (hne o ho) hr

theorem operator?_relined (h : Relined false isAllBlank t r) :
    Option.Rel SameRest (operator? t) (operator? r) := by
  have hsolid : ∀ o ∈ operators, o.any isBlank = false := by decide
  refine rel_findSome? fun o ho => ?_
  exact rel_map (h.after? (hsolid o ho)) fun h => ⟨rfl, h⟩

/-! ### Words -/

theorem isWordPart_of_isBlank {c : Char} (hc : isBlank c = true) : isWordPart c = false := by
  rw [isWordPart, hc]
  rfl

theorem isAsciiDigit_of_isBlank {c : Char} (hc : isBlank c = true) : isAsciiDigit c = false :=
  eq_false_of_isBlank (by decide +kernel) hc

theorem upperChar_of_isBlank {c : Char} (hc : isBlank c = true) : upperChar c = [c] :=
  of_decide_eq_true (of_isBlank (p := fun c => upperChar c = [c]) (by decide +kernel) hc)

theorem upperWord?_nil (t : Text) : upperWord? [] t = some t := by
  cases t <;> rfl

theorem upperWord?_cons (x : Char) (w : Text) (c : Char) (t : Text) :
    upperWord? (x :: w) (c :: t) = (after? (upperChar c) (x :: w)).bind (upperWord? · t) := rfl

theorem upperWord?_suffix {w : Text} : ∀ {t r : Text}, upperWord? w t = some r → r <:+ t := by
  intro t
  induction t generalizing w with
  | nil =>
    intro r h
    cases w with
    | nil => exact Option.some.inj h ▸ List.suffix_rfl
    | cons x w => cases h
  | cons c t ih =>
    intro r h
    cases w with
    | nil => exact Option.some.inj h ▸ List.suffix_rfl
    | cons x w =>
      obtain ⟨v, -, hv⟩ := Option.bind_eq_some_iff.mp h
      exact (ih hv).trans (List.suffix_cons c t)

/-- A word takes a character off the text. -/
theorem upperWord?_suffix_cons {w : Text} (hw : w ≠ []) {c : Char} {t r : Text}
    (h : upperWord? w (c :: t) = some r) : r <:+ t := by
  obtain ⟨x, w, rfl⟩ := List.exists_cons_of_ne_nil hw
  obtain ⟨v, -, hv⟩ := Option.bind_eq_some_iff.mp h
  exact upperWord?_suffix hv

section

variable {w : Text} (hw : w.any isBlank = false)
include hw

theorem upperWord?_blank (hne : w ≠ []) {c : Char} (hc : isBlank c = true) (t : Text) :
    upperWord? w (c :: t) = none := by
  obtain ⟨x, w, rfl⟩ := List.exists_cons_of_ne_nil hne
  have hx : c ≠ x := ne_of_isBlank (forall_eq_false hw x List.mem_cons_self) hc
  rw [upperWord?_cons, upperChar_of_isBlank hc, after?, if_neg hx, Option.bind_none]

theorem upperWord?_relined (h : Relined false isAllBlank t r) :
    Option.Rel (Relined false isAllBlank) (upperWord? w t) (upperWord? w r) := by
  by_cases hne : w = []
  · rw [hne, upperWord?_nil, upperWord?_nil]
    exact .some h
  induction h generalizing w with
  | @stop z hz =>
    obtain ⟨x, w, rfl⟩ := List.exists_cons_of_ne_nil hne
    cases z with
    | nil => exact .none
    | cons c z =>
      rw [upperWord?_blank hw hne (List.all_eq_true.mp hz c List.mem_cons_self)]
      exact .none
  | @keep c t r h ih =>
    obtain ⟨x, w, rfl⟩ := List.exists_cons_of_ne_nil hne
    rw [upperWord?_cons, upperWord?_cons]
    cases hafter : after? (upperChar c) (x :: w) with
    | none => exact .none
    | some v =>
      have hv : v.any isBlank = false := by
        rw [after?_eq_some_iff.mp hafter, List.any_append, Bool.or_eq_false_iff] at hw
        exact hw.2
      by_cases hnil : v = []
      · rw [hnil, Option.bind_some, Option.bind_some, upperWord?_nil, upperWord?_nil]
        exact .some h
      · exact ih hv hnil
  | pair =>
    rw [upperWord?_blank hw hne rfl, upperWord?_blank hw hne rfl]
    exact .none
  | single hlone => cases hlone

end

/-- The end of a pair of words. -/
def endPair? (pair : String × String) (rest : Text) : Option (Token × Text) :=
  if rest.head?.all (!isWordPart ·) then
    some (⟨.word, pair.1.toList ++ [' '] ++ pair.2.toList⟩, rest)
  else none

/-- A pair of words as a sequence of readers. -/
theorem wordPair?_eq (t : Text) : wordPair? t = wordPairs.findSome? fun pair =>
    (upperWord? pair.1.toList t).bind fun s =>
      ((dropBlanks1? s).bind (upperWord? pair.2.toList)).bind (endPair? pair) := by
  unfold wordPair?
  congr 1
  funext ⟨first, second⟩
  dsimp only
  rw [← Option.bind_assoc, ← Option.bind_assoc]
  cases ((upperWord? first.toList t).bind dropBlanks1?).bind (upperWord? second.toList) <;> rfl

theorem wordPairs_solid : ∀ pair ∈ wordPairs, (pair.1.toList ≠ [] ∧ pair.2.toList ≠ []) ∧
    pair.1.toList.any isBlank = false ∧ pair.2.toList.any isBlank = false := by
  decide

theorem wordPair?_leaves (c : Char) (t : Text) : Leaves t (wordPair? (c :: t)) := by
  intro p hp
  rw [Option.mem_def, wordPair?_eq] at hp
  obtain ⟨pair, hpair, h⟩ := List.exists_of_findSome?_eq_some hp
  obtain ⟨s, hs, h⟩ := Option.bind_eq_some_iff.mp h
  obtain ⟨v, hv, hend⟩ := Option.bind_eq_some_iff.mp h
  obtain ⟨u, hu, hv⟩ := Option.bind_eq_some_iff.mp hv
  have hfirst := upperWord?_suffix_cons (wordPairs_solid pair hpair).1.1 hs
  have hsecond := (upperWord?_suffix hv).trans (isReader_dropBlanks1?.suffix hu)
  unfold endPair? at hend
  split at hend
  · obtain rfl := Option.some.inj hend
    exact hsecond.trans hfirst
  · cases hend

theorem wordPair?_relined (h : Relined false isAllBlank t r) :
    Option.Rel SameRest (wordPair? t) (wordPair? r) := by
  rw [wordPair?_eq, wordPair?_eq]
  refine rel_findSome? fun pair hpair => ?_
  obtain ⟨⟨-, hne⟩, hfirst, hsecond⟩ := wordPairs_solid pair hpair
  have hnil : upperWord? pair.2.toList [] = none := by
    obtain ⟨x, w, hw⟩ := List.exists_cons_of_ne_nil hne
    rw [hw]
    rfl
  refine rel_bind (upperWord?_relined hfirst h) fun hs => ?_
  refine rel_bind (hs.dropBlanks1?_bind hnil (upperWord?_relined hsecond)) fun hrest => ?_
  unfold endPair?
  rw [hrest.head?_all fun c hc => by rw [isWordPart_of_isBlank hc]; rfl]
  split
  · exact .some ⟨rfl, hrest⟩
  · exact .none

theorem dashedWord?_leaves (c : Char) (t : Text) : Leaves t (dashedWord? (c :: t)) := by
  intro p hp
  obtain ⟨r, hr, rfl⟩ := Option.map_eq_some_iff.mp hp
  exact upperWord?_suffix_cons (by decide) hr

theorem dashedWord?_relined (h : Relined false isAllBlank t r) :
    Option.Rel SameRest (dashedWord? t) (dashedWord? r) :=
  rel_map (upperWord?_relined (by decide) h) fun h => ⟨rfl, h⟩

/-! ### Numbers -/

theorem numberRest_suffix (s : NumberState) (t : Text) : (numberRest s t).2 <:+ t := by
  induction t generalizing s with
  | nil => exact List.suffix_rfl
  | cons c t ih =>
    rw [numberRest]
    dsimp only
    split_ifs
    · exact (ih _).trans (List.suffix_cons c t)
    · exact (ih _).trans (List.suffix_cons c t)
    · exact (ih _).trans (List.suffix_cons c t)
    · exact (ih _).trans (List.suffix_cons c t)
    · exact List.dropWhile_suffix _
    · exact List.suffix_rfl

theorem numberRest_blank (s : NumberState) {c : Char} (hc : isBlank c = true) (t : Text) :
    numberRest s (c :: t) = ([], c :: t) := by
  have hne : ∀ d, isBlank d = false → c ≠ d := fun d hd => ne_of_isBlank hd hc
  have hdigit : isAsciiDigit c = false := isAsciiDigit_of_isBlank hc
  have hinitial : isInitial c = false := eq_false_of_isBlank (by decide +kernel) hc
  simp [numberRest, hdigit, hinitial, hne '.' rfl, hne '+' rfl, hne '-' rfl, hne 'e' rfl,
    hne 'E' rfl]

theorem numberRest_relined (s : NumberState) (h : Relined false isAllBlank t r) :
    SameRest (numberRest s t) (numberRest s r) := by
  induction h generalizing s with
  | @stop z hz =>
    cases z with
    | nil => exact ⟨rfl, .stop rfl⟩
    | cons c z =>
      rw [numberRest_blank s (List.all_eq_true.mp hz c List.mem_cons_self)]
      exact ⟨rfl, .stop hz⟩
  | @keep c t r h ih =>
    have hword := h.keep c
    have hgoOn : ∀ s, SameRest (c :: (numberRest s t).1, (numberRest s t).2)
        (c :: (numberRest s r).1, (numberRest s r).2) :=
      fun s => ⟨congrArg (c :: ·) (ih s).1, (ih s).2⟩
    rw [numberRest, numberRest, h.head?_any (p := isAsciiDigit) fun d => isAsciiDigit_of_isBlank]
    dsimp only
    -- The number goes on in four cases, becomes a word in the next, and is at its end in the last.
    split_ifs
    · exact hgoOn _
    · exact hgoOn _
    · exact hgoOn _
    · exact hgoOn _
    · exact ⟨hword.takeWhile_eq fun d => isWordPart_of_isBlank,
        hword.dropWhile isAllBlank_dropWhile (by decide)⟩
    · exact ⟨rfl, hword⟩
  | pair h =>
    rw [numberRest_blank s rfl, numberRest_blank s rfl]
    exact ⟨rfl, h.pair⟩
  | single hlone => cases hlone

end TableTypes.Token
