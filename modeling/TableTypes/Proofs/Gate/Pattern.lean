import TableTypes.Proofs.Text.LineEnds
import TableTypes.Gate.Pattern

/-!
# Refused patterns and line ends

A text in which line ends are written as newlines, and which is stripped, holds no dangerous and no
malformed pattern that the text it comes from does not hold (`Relined.isDangerous`,
`Relined.isMalformed`).  The converse does not hold of patterns that stay on one line, since a
carriage return does not end a line before it is written as a newline.
-/

namespace TableTypes

open Text

/-! ### Positions and occurrences -/

/-- What a text goes on with somewhere are its suffixes. -/
theorem holdsAt_eq_true_iff {p : Text → Bool} {t : Text} :
    holdsAt p t = true ↔ ∃ s, s <:+ t ∧ p s = true := by
  rw [holdsAt]
  generalize (none : Option Char) = before
  induction t generalizing before with
  | nil => simp [suffixes]
  | cons c t ih => simp [suffixes, ih, List.suffix_cons_iff]

theorem holdsAt_of_prefix {p : Text → Bool} (hp : ∀ s z, p s = true → p (s ++ z) = true)
    {a b : Text} (hab : a <+: b) (ha : holdsAt p a = true) : holdsAt p b = true := by
  obtain ⟨z, rfl⟩ := hab
  obtain ⟨s, hs, hps⟩ := holdsAt_eq_true_iff.mp ha
  exact holdsAt_eq_true_iff.mpr ⟨s ++ z, List.suffix_append_self_iff.mpr hs, hp s z hps⟩

section

variable {f : Text → Option Text}

theorem find?_cons (c : Char) (t : Text) :
    find? (fun _ => f) (c :: t) = (f (c :: t)).or (find? (fun _ => f) t) := by
  -- What is looked for does not depend on the character in front of it.
  have hbefore : ∀ (t : Text) (a b : Option Char),
      (suffixes a t).findSome? (fun s => f s.2) = (suffixes b t).findSome? fun s => f s.2 := by
    rintro (_ | ⟨c, t⟩) a b <;> rfl
  rw [find?, suffixes, List.findSome?_cons, hbefore t (some c) none, find?]
  cases f (c :: t) <;> rfl

/-- What is found is found at a position of the text. -/
theorem exists_of_find? {t u : Text} (h : find? (fun _ => f) t = some u) :
    ∃ s, s <:+ t ∧ f s = some u := by
  obtain ⟨⟨b, s⟩, hs, hf⟩ := List.exists_of_findSome?_eq_some h
  have hat : holdsAt (· == s) t = true := List.any_eq_true.mpr ⟨(b, s), hs, beq_self_eq_true s⟩
  obtain ⟨v, hv, heq⟩ := holdsAt_eq_true_iff.mp hat
  obtain rfl := beq_iff_eq.mp heq
  exact ⟨v, hv, hf⟩

/-- Where there is something to be found, the search stops there or before it. -/
theorem exists_find?_of_suffix {s t : Text} (hs : s <:+ t) (hf : (f s).isSome = true) :
    ∃ u, s <:+ u ∧ (f u).isSome = true ∧ find? (fun _ => f) t = f u := by
  induction t with
  | nil =>
    obtain rfl := List.suffix_nil.mp hs
    exact ⟨[], List.suffix_rfl, hf, by simp [find?, suffixes]⟩
  | cons c t ih =>
    rw [find?_cons]
    cases hfront : f (c :: t) with
    | some v => exact ⟨c :: t, hs, by rw [hfront]; rfl, by rw [hfront]; rfl⟩
    | none =>
      rcases List.suffix_cons_iff.mp hs with rfl | hs
      · rw [hfront] at hf
        cases hf
      · exact ih hs

end

/-! ### Patterns as sequences of readers -/

/-- Whether the tag of a script ends here, and the script on the same line. -/
def closesScript (t : Text) : Bool :=
  match t.dropWhile (· ≠ '>') with
  | [] => false
  | _ :: content => holdsAt (fun s => (keyword? "</script>".toList s).isSome) (line content)

theorem startsScript_eq (t : Text) :
    startsScript t = (keyword? "<script".toList t).any closesScript := by
  rw [startsScript]
  cases keyword? "<script".toList t <;> rfl

theorem startsLongHexadecimal_eq (t : Text) : startsLongHexadecimal t =
    (keyword? "0x".toList t).any fun r => 16 ≤ (r.takeWhile isHexDigit).length := by
  rw [startsLongHexadecimal]
  cases keyword? "0x".toList t <;> rfl

theorem startsClimbingComment_eq (t : Text) : startsClimbingComment t =
    (after? ['/', '*'] t).any fun r =>
      (find? (fun _ => climb?) (line r)).any (occursIn ['*', '/']) := by
  rw [startsClimbingComment]
  cases after? ['/', '*'] t with
  | none => rfl
  | some r =>
    simp only [Option.any_some]
    cases find? (fun _ => climb?) (line r) <;> rfl

/-- Whether the text ends here, but for blanks and a semicolon. -/
def endsStatement (t : Text) : Bool :=
  match dropBlanks t with
  | ';' :: rest => isAllBlank rest
  | rest => rest.isEmpty

theorem startsBareCreate_eq (t : Text) : startsBareCreate t =
    ((phrase? ["create".toList, "table".toList] t).bind fun s =>
      (dropBlanks1? s).bind word?).any fun w => endsStatement w.2 := by
  rw [startsBareCreate, ← Option.bind_assoc]
  cases (phrase? ["create".toList, "table".toList] t).bind dropBlanks1? with
  | none => rfl
  | some s =>
    simp only [Option.bind_some]
    cases word? s <;> rfl

namespace Text.Relined

variable {lone : Bool} {t r : Text}

/-! ### Dangerous text -/

/-- Where all line ends are newlines the lines are shorter. -/
theorem line_prefix {rest : Text → Bool} (h : Relined lone rest t r) : line r <+: line t := by
  induction h with
  | stop => exact List.nil_prefix
  | keep c _ ih =>
    rw [line, line, List.takeWhile_cons, List.takeWhile_cons]
    split
    · exact (List.prefix_cons_inj c).mpr ih
    · exact List.prefix_rfl
  | pair => exact List.nil_prefix
  | single => exact List.nil_prefix

theorem closesScript (h : Relined lone isAllBlank t r) (hr : closesScript r = true) :
    closesScript t = true := by
  rw [TableTypes.closesScript] at hr ⊢
  have hcontent := h.dropWhile (p := (· ≠ '>')) isAllBlank_dropWhile rfl
  cases hdrop : r.dropWhile (· ≠ '>') with
  | nil => rw [hdrop] at hr; cases hr
  | cons c content =>
    -- The tag ends with the same character in both texts, which is no line end.
    have hc : c = '>' := by
      have := List.head?_dropWhile_not (· ≠ '>') r
      rw [hdrop] at this
      simpa using this
    rw [hdrop, hc] at hcontent
    obtain ⟨u, hu, h⟩ := hcontent.exists_of_cons (by decide)
    rw [hdrop] at hr
    rw [hu]
    refine holdsAt_of_prefix ?_ h.line_prefix hr
    intro s z hs
    obtain ⟨v, hv⟩ := Option.isSome_iff_exists.mp hs
    rw [keyword?_append_right z hv]
    rfl

theorem startsScript (h : Relined lone isAllBlank t r) (hr : startsScript r = true) :
    startsScript t = true := by
  rw [startsScript_eq] at hr ⊢
  exact any_of_rel (h.keyword? (by decide)) closesScript hr

theorem startsSubstitution (h : Relined lone isAllBlank t r) (hr : startsSubstitution r = true) :
    startsSubstitution t = true := by
  unfold TableTypes.startsSubstitution at hr
  split at hr
  · rename_i c s
    have hc : c ≠ '\n' := by rintro rfl; cases hr
    obtain ⟨u, rfl, hrest⟩ := h.exists_of_cons (by decide)
    obtain ⟨v, rfl, -⟩ := hrest.exists_of_cons hc
    exact hr
  · cases hr

theorem startsLongHexadecimal (h : Relined lone isAllBlank t r) :
    startsLongHexadecimal t = startsLongHexadecimal r := by
  have hdigits : ∀ c, isBlank c = true → isHexDigit c = false :=
    fun c => eq_false_of_isBlank (by decide +kernel)
  rw [startsLongHexadecimal_eq, startsLongHexadecimal_eq]
  exact rel_any (h.keyword? (by decide)) fun h => by rw [h.takeWhile_eq hdigits]

theorem climb?_eq_some_iff {s u : Text} : climb? s = some u ↔
    ∃ c, s = '.' :: '.' :: c :: u ∧ (c = '/' ∨ c = '\\') := by
  unfold climb?
  split
  · rename_i c v
    split <;> grind
  · grind

/-- In a longer line a climb is found at the same position or before it. -/
theorem occursIn_of_climb {x y u : Text} (hxy : x <+: y) (hx : find? (fun _ => climb?) x = some u)
    {w : Text} (hw : occursIn w u = true) :
    ∃ v, find? (fun _ => climb?) y = some v ∧ occursIn w v = true := by
  obtain ⟨z, rfl⟩ := hxy
  obtain ⟨s, hs, hclimb⟩ := exists_of_find? hx
  obtain ⟨c, rfl, hc⟩ := climb?_eq_some_iff.mp hclimb
  have hlonger : climb? ('.' :: '.' :: c :: u ++ z) = some (u ++ z) :=
    climb?_eq_some_iff.mpr ⟨c, rfl, hc⟩
  obtain ⟨s', hs', hsome, hfind⟩ := exists_find?_of_suffix (List.suffix_append_self_iff.mpr hs)
    (Option.isSome_iff_exists.mpr ⟨_, hlonger⟩)
  obtain ⟨v, hv⟩ := Option.isSome_iff_exists.mp hsome
  obtain ⟨d, rfl, -⟩ := climb?_eq_some_iff.mp hv
  refine ⟨v, hfind.trans hv, occursIn_eq_true_iff.mpr ?_⟩
  -- An earlier climb leaves more of the text behind it.
  have hsuffix : u ++ z <:+ v := by
    obtain ⟨p, hp⟩ := hs'
    have hdrop := congrArg (List.drop 3) hp
    rw [List.drop_append] at hdrop
    exact (List.drop_suffix_drop_left _ (Nat.sub_le 3 _)).trans ⟨_, hdrop⟩
  exact ((occursIn_eq_true_iff.mp hw).trans (List.infix_append' [] u z)).trans hsuffix.isInfix

theorem startsClimbingComment (h : Relined lone isAllBlank t r)
    (hr : startsClimbingComment r = true) : startsClimbingComment t = true := by
  rw [startsClimbingComment_eq] at hr ⊢
  refine any_of_rel (h.after? (by decide)) (fun h hr => ?_) hr
  obtain ⟨u, hclimb, hclose⟩ := (Option.any_eq_true _ _).mp hr
  exact (Option.any_eq_true _ _).mpr (occursIn_of_climb h.line_prefix hclimb hclose)

/-- **No dangerous text appears** where line ends are written as newlines and blanks at either end
are left out. -/
theorem isDangerous {s : Text} (hs : s <:+ t) (h : Relined lone isAllBlank s r)
    (hr : isDangerous r = true) : isDangerous t = true := by
  obtain ⟨v, hv, hstarts⟩ := holdsAt_eq_true_iff.mp hr
  obtain ⟨u, hu, h⟩ := h.exists_of_suffix hv
  refine holdsAt_eq_true_iff.mpr ⟨u, hu.trans hs, ?_⟩
  simp only [Bool.or_eq_true] at hstarts ⊢
  rcases hstarts with ((hscript | hshell) | hhex) | hclimb
  · exact .inl (.inl (.inl (h.startsScript hscript)))
  · exact .inl (.inl (.inr (h.startsSubstitution hshell)))
  · exact .inl (.inr (h.startsLongHexadecimal.trans hhex))
  · exact .inr (h.startsClimbingComment hclimb)

/-! ### Malformed text -/

theorem endsStatement (h : Relined lone isAllBlank t r) : endsStatement t = endsStatement r := by
  have hblanks := h.dropBlanks
  have hsolid : ∀ c ∈ (Text.dropBlanks t).head?, isBlank c = false :=
    fun c hc => isBlank_of_head?_dropWhile hc
  rw [TableTypes.endsStatement, TableTypes.endsStatement]
  generalize Text.dropBlanks t = u at hblanks hsolid ⊢
  generalize Text.dropBlanks r = v at hblanks ⊢
  cases hblanks with
  | stop hz =>
    cases u with
    | nil => rfl
    | cons c u =>
      have hc := hsolid c rfl
      rw [List.all_eq_true.mp hz c List.mem_cons_self] at hc
      cases hc
  | keep c h =>
    by_cases hc : c = ';'
    · subst hc
      exact h.isAllBlank_eq
    · simp [hc]
  | pair => rfl
  | single => rfl

theorem word? (h : Relined lone isAllBlank t r) :
    Option.Rel (fun a b => Relined lone isAllBlank a.2 b.2) (word? t) (word? r) := by
  have hrest := h.dropWhile (p := isWord) isAllBlank_dropWhile (by decide)
  rw [Text.word?, Text.word?, h.takeWhile_eq fun c => isWord_of_isBlank]
  split
  · exact .none
  · exact .some hrest

theorem startsBareCreate (h : Relined lone isAllBlank t r) :
    startsBareCreate t = startsBareCreate r := by
  have hwords : ∀ w ∈ ["create".toList, "table".toList], w ≠ [] ∧ w.any isBlank = false := by
    decide
  have hname := rel_bind (h.phrase? hwords) fun hs => hs.dropBlanks1?_bind rfl word?
  rw [startsBareCreate_eq, startsBareCreate_eq]
  exact rel_any hname fun h => h.endsStatement

/-- **No malformed text appears** where line ends are written as newlines and blanks at either end
are left out. -/
theorem isMalformed {s : Text} (hs : s <:+ t) (h : Relined lone isAllBlank s r)
    (hr : isMalformed r = true) : isMalformed t = true := by
  obtain ⟨v, hv, hstarts⟩ := holdsAt_eq_true_iff.mp hr
  obtain ⟨u, hu, h⟩ := h.exists_of_suffix hv
  refine holdsAt_eq_true_iff.mpr ⟨u, hu.trans hs, ?_⟩
  rw [h.startsBareCreate, rel_isSome (h.after? (by decide))]
  exact hstarts

end Text.Relined

end TableTypes
