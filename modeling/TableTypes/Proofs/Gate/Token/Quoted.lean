import TableTypes.Proofs.Text.LineEnds
import TableTypes.Gate.Token.Quoted

/-!
# Quoted text and line ends

What stands between quotes is read up to the same quote whether its line ends are written as
newlines or not (`quoted?_relined`), and is a number or not alike (`isLiteralContent_respelled`).
-/

namespace TableTypes.Token

open Text

/-! ### What readers leave over -/

/-- What a reader leaves over is a suffix of the text. -/
def Leaves {α : Type} (t : Text) (o : Option (α × Text)) : Prop :=
  ∀ p ∈ o, p.2 <:+ t

namespace Leaves

variable {α β : Type} {t : Text} {o : Option (α × Text)}

theorem map (f : α → β) (h : Leaves t o) : Leaves t (o.map fun r => (f r.1, r.2)) := by
  intro p hp
  obtain ⟨r, hr, rfl⟩ := Option.map_eq_some_iff.mp hp
  exact h r hr

theorem cons (c : Char) (h : Leaves t o) : Leaves (c :: t) o :=
  fun p hp => (h p hp).trans (List.suffix_cons c t)

theorem none : Leaves t (none : Option (α × Text)) := fun _ => nofun

theorem some {a : α} {r : Text} (h : r <:+ t) : Leaves t (some (a, r)) := by
  rintro p ⟨⟩
  exact h

end Leaves

/-! ### Up to the closing quote -/

/-- Two readers have taken the same content off two texts, and leave over the same. -/
def SameCut (x y : Text × Text) : Prop :=
  Respelled x.1 y.1 ∧ Relined false isAllBlank x.2 y.2

section

variable {q : Char} {escapes : Bool}

theorem quoted?_cons (c : Char) (t : Text) : quoted? q escapes (c :: t) =
    if c = q then
      if t.head? = some q then (quoted? q escapes t.tail).map fun r => (q :: r.1, r.2)
      else some ([], t)
    else if escapes && c = '\\' then
      t.head?.bind fun d => (quoted? q escapes t.tail).map fun r => (unescaped d ++ r.1, r.2)
    else (quoted? q escapes t).map fun r => (c :: r.1, r.2) := by
  cases t with
  | nil => simp [quoted?]
  | cons d t => simp [quoted?]

theorem quoted?_leaves (t : Text) : Leaves t (quoted? q escapes t) := by
  fun_induction quoted? q escapes t with
  | case1 => exact .none
  | case2 => exact .some (List.suffix_cons _ _)
  | case3 => exact .none
  | case4 t ih => exact ((ih.map _).cons _).cons _
  | case5 d t => exact .some (List.suffix_cons _ _)
  | case6 c d t _ _ ih => exact ((ih.map _).cons _).cons _
  | case7 c d t _ _ ih => exact (ih.map _).cons _

/-- A blank closes no quote and begins no escape. -/
theorem quoted?_blank (hq : isBlank q = false) {c : Char} (hc : isBlank c = true) (t : Text) :
    quoted? q escapes (c :: t) = (quoted? q escapes t).map fun r => (c :: r.1, r.2) := by
  have hescape : c ≠ '\\' := ne_of_isBlank rfl hc
  rw [quoted?_cons, if_neg (ne_of_isBlank hq hc), if_neg (by simp [hescape])]

theorem quoted?_of_isAllBlank (hq : isBlank q = false) {z : Text} (hz : isAllBlank z = true) :
    quoted? q escapes z = none := by
  induction z with
  | nil => rfl
  | cons c z ih =>
    obtain ⟨hc, hz⟩ := Bool.and_eq_true _ _ ▸ hz
    rw [quoted?_blank hq hc, ih hz]
    rfl

theorem quoted?_relined (hq : isBlank q = false) {t r : Text} (h : Relined false isAllBlank t r) :
    Option.Rel SameCut (quoted? q escapes t) (quoted? q escapes r) := by
  induction hn : r.length using Nat.strong_induction_on generalizing t r with
  | _ n ih =>
    subst hn
    cases h with
    | stop hz =>
      rw [quoted?_of_isAllBlank hq hz]
      exact .none
    | @keep c t r h =>
      rw [quoted?_cons, quoted?_cons]
      split
      · -- The quote closes the text in both, or is doubled in both.
        rcases h.head_cases hq with ⟨u, v, rfl, rfl, huv⟩ | ⟨ht, hr⟩
        · simp only [List.head?_cons, List.tail_cons, if_true]
          exact rel_map (ih _ (by simp only [List.length_cons]; omega) huv rfl) fun hxy =>
            ⟨hxy.1.keep q, hxy.2⟩
        · rw [if_neg ht, if_neg hr]
          exact .some ⟨.stop rfl, h⟩
      split
      · -- An escape takes the next character along, which may be the front of a line end.
        cases h with
        | stop hz =>
          rw [quoted?_of_isAllBlank hq (isAllBlank_of_suffix (List.tail_suffix _) hz)]
          cases t <;> exact .none
        | keep d h =>
          simp only [List.head?_cons, Option.bind_some, List.tail_cons]
          exact rel_map (ih _ (by simp only [List.length_cons]; omega) h rfl) fun hxy =>
            ⟨hxy.1.append_left _, hxy.2⟩
        | pair h =>
          -- The escaped line end stays one line end.
          simp only [List.head?_cons, Option.bind_some, List.tail_cons]
          rw [quoted?_blank hq rfl, Option.map_map]
          exact rel_map (ih _ (by simp only [List.length_cons]; omega) h rfl) fun hxy =>
            ⟨hxy.1.pair, hxy.2⟩
        | single hlone => cases hlone
      · exact rel_map (ih _ (by simp) h rfl) fun hxy => ⟨hxy.1.keep c, hxy.2⟩
    | pair h =>
      rw [quoted?_blank hq rfl, quoted?_blank hq rfl, quoted?_blank hq rfl, Option.map_map]
      exact rel_map (ih _ (by simp) h rfl) fun hxy => ⟨hxy.1.pair, hxy.2⟩
    | single hlone => cases hlone

end

/-! ### Binary and hexadecimal literals -/

/-- Content with a line end in it has one however the line end is written. -/
theorem eq_or_mem_of_respelled {x y : Text} (h : Respelled x y) : x = y ∨ '\n' ∈ x ∧ '\n' ∈ y := by
  induction h with
  | stop hz => exact .inl (List.isEmpty_iff.mp hz)
  | keep c _ ih =>
    rcases ih with rfl | ⟨hx, hy⟩
    · exact .inl rfl
    · exact .inr ⟨List.mem_cons_of_mem c hx, List.mem_cons_of_mem c hy⟩
  | pair => exact .inr ⟨by simp, by simp⟩
  | single hlone => cases hlone

theorem toAscii?_cons (c : Char) (t : Text) :
    toAscii? (c :: t) = (toAscii? [c]).bind fun d => (toAscii? t).map (d ++ ·) := by
  unfold toAscii?
  simp only [List.mapM_cons, List.mapM_nil, Option.bind_eq_bind, Option.pure_def, Option.bind_some,
    Option.bind_assoc, List.cons_append, List.nil_append, Option.map_eq_bind, Function.comp_def]

theorem toAscii?_respelled {x y : Text} (h : Respelled x y) :
    Option.Rel Respelled (toAscii? x) (toAscii? y) := by
  induction h with
  | stop hz =>
    rw [List.isEmpty_iff.mp hz]
    exact .some (.stop rfl)
  | @keep c x y _ ih =>
    rw [toAscii?_cons c x, toAscii?_cons c y]
    cases toAscii? [c] with
    | none => exact .none
    | some d => exact rel_map ih fun h => h.append_left d
  | @pair x y _ ih =>
    have hreturn : toAscii? ['\r'] = some ['\r'] := rfl
    have hnewline : toAscii? ['\n'] = some ['\n'] := rfl
    rw [toAscii?_cons, toAscii?_cons '\n' x, toAscii?_cons '\n' y, hreturn, hnewline,
      Option.bind_some, Option.bind_some, Option.bind_some, Option.map_map]
    exact rel_map ih fun h => h.pair
  | single hlone => cases hlone

theorem all_respelled {p : Char → Bool} (hreturn : p '\r' = true) {x y : Text}
    (h : Respelled x y) : x.all p = y.all p := by
  induction h with
  | stop hz => rw [List.isEmpty_iff.mp hz]
  | keep c _ ih => rw [List.all_cons, List.all_cons, ih]
  | pair _ ih => rw [List.all_cons, List.all_cons, List.all_cons, ih, hreturn, Bool.true_and]
  | single hlone => cases hlone

theorem trim_respelled {p : Char → Bool} (hreturn : p '\r' = true) (hnewline : p '\n' = true)
    {x y : Text} (h : Respelled x y) : Respelled (trim p x) (trim p y) := by
  have hfront : Respelled (x.dropWhile p) (y.dropWhile p) :=
    h.dropWhile (fun z hz => by rw [List.isEmpty_iff.mp hz]; rfl) (hreturn.trans hnewline.symm)
  rw [trim, trim]
  generalize x.dropWhile p = x at hfront
  generalize y.dropWhile p = y at hfront
  induction hfront with
  | stop hz =>
    rw [List.isEmpty_iff.mp hz]
    exact .stop rfl
  | @keep c x y h ih =>
    rw [dropEndWhile_cons p c x, dropEndWhile_cons p c y,
      all_respelled hreturn (h.keep c)]
    split
    · exact .stop rfl
    · exact .keep c ih
  | @pair x y h ih =>
    have hfirst : ('\r' :: '\n' :: x).all p = ('\n' :: x).all p := by
      rw [List.all_cons, hreturn, Bool.true_and]
    rw [dropEndWhile_cons, dropEndWhile_cons p '\n' x, dropEndWhile_cons p '\n' y, hfirst,
      all_respelled hreturn (h.keep '\n')]
    split
    · exact .stop rfl
    · exact .pair ih
  | single hlone => cases hlone

theorem forall_mem_of_splitOnChar {separator : Char} {p : Char → Bool} {t : Text}
    (h : ∀ g ∈ splitOnChar separator t, g.all p = true) :
    ∀ c ∈ t, c = separator ∨ p c = true := by
  fun_induction splitOnChar separator t with
  | case1 => exact fun c hc => absurd hc List.not_mem_nil
  | case2 t ih =>
    rw [List.forall_mem_cons] at h ⊢
    exact ⟨.inl rfl, ih h.2⟩
  | case3 c t _ hnil ih =>
    simp only [List.forall_mem_cons, List.all_cons, Bool.and_eq_true] at h ⊢
    refine ⟨.inr h.1.1, ih ?_⟩
    rw [hnil]
    exact fun g hg => absurd hg List.not_mem_nil
  | case4 c t _ g gs hsplit ih =>
    rw [hsplit] at ih
    simp only [List.forall_mem_cons, List.all_cons, Bool.and_eq_true] at h ih ⊢
    exact ⟨.inr h.1.1, ih ⟨h.1.2, h.2⟩⟩

/-- There is no line end inside a number. -/
theorem isGrouped_of_newline {radix : Char} {isDigit : Char → Bool} (hradix : radix ≠ '\n')
    (hdigit : isDigit '\n' = false) {t : Text} (ht : '\n' ∈ t) :
    isGrouped isDigit (dropRadix radix (dropSign t)) = false := by
  -- Neither the sign nor the radix is a newline, so the newline stays in the numeral.
  have hsign : '\n' ∈ dropSign t := by
    unfold dropSign
    grind
  have hnumeral : '\n' ∈ dropRadix radix (dropSign t) := by
    generalize dropSign t = t at hsign
    unfold dropRadix
    split
    · rename_i c u
      split
      · rename_i hc
        have hne : c ≠ '\n' := by
          rintro rfl
          exact hradix hc.symm
        have hu : '\n' ∈ u := by simpa [hne.symm] using hsign
        cases hafter : after? ['_'] u with
        | none => exact hu
        | some v =>
          rw [after?_eq_some_iff.mp hafter] at hu
          simpa using hu
      · exact hsign
    · exact hsign
  rw [← Bool.not_eq_true]
  intro h
  have hdigits : ∀ g ∈ splitOnChar '_' (dropRadix radix (dropSign t)), g.all isDigit = true :=
    fun g hg => (Bool.and_eq_true _ _ ▸ List.all_eq_true.mp h g hg).2
  rcases forall_mem_of_splitOnChar hdigits '\n' hnumeral with h | h
  · cases h
  · rw [hdigit] at h
    cases h

theorem isNumber_respelled {radix : Char} {isDigit : Char → Bool} (hradix : radix ≠ '\n')
    (hdigit : isDigit '\n' = false) {x y : Text} (h : Respelled x y) :
    isNumber radix isDigit x = isNumber radix isDigit y := by
  refine rel_any (toAscii?_respelled h) fun h => ?_
  have htrim := trim_respelled (p := isAsciiSpace) (by decide) (by decide) h
  rcases eq_or_mem_of_respelled htrim with heq | ⟨hx, hy⟩
  · rw [heq]
  · rw [isGrouped_of_newline hradix hdigit hx, isGrouped_of_newline hradix hdigit hy]

/-- **A literal is right or wrong however its line ends are written.** -/
theorem isLiteralContent_respelled (letter : Char) {x y : Text} (h : Respelled x y) :
    isLiteralContent letter x = isLiteralContent letter y := by
  have hempty : x.isEmpty = y.isEmpty := by
    cases h with
    | stop hz => exact hz
    | keep => rfl
    | pair => rfl
    | single hlone => cases hlone
  unfold isLiteralContent
  split
  · rw [hempty, isNumber_respelled (by decide) (by decide) h]
  · rw [hempty, isNumber_respelled (by decide) (by decide) h]
  · rfl

end TableTypes.Token
