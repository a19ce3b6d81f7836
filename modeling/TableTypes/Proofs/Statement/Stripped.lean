import TableTypes.Proofs.Statement.Margin
import TableTypes.Proofs.Text.Clean
import Mathlib.Data.List.Forall2

/-!
# Statements of stripped texts

The statements of a text are those of the text without the blanks around it, but for two things:
their lines are counted from the front of the blanks, and the last of them may have blanks at the
end of its own text (`Statement.parse_inset`).  The same holds of the fault at which the reading
stops.
-/

namespace TableTypes

open Text

/-! ### Lines further down -/

/-- The error on a line that is `k` lines further down. -/
def ParseError.below (k : Nat) (e : ParseError) : ParseError :=
  { e with line := e.line.map (· + k) }

/-- `b` is the result that takes the place of `a` when everything is `k` lines further down: errors
move with the lines, and results are related by `R`. -/
inductive ReadsBelow {α β : Type} (k : Nat) (R : α → β → Prop) :
    Except ParseError α → Except ParseError β → Prop
  | error (e : ParseError) : ReadsBelow k R (.error e) (.error (e.below k))
  | ok {a : α} {b : β} (h : R a b) : ReadsBelow k R (.ok a) (.ok b)

/-- The statement `s'` is `s`, `k` lines further down and with another text of its own. -/
def Statement.IsBelow (k : Nat) (s s' : Statement) : Prop :=
  s' = { s with line := s.line + k, source := s'.source }

theorem ReadsBelow.mapM {α β : Type} {k : Nat} {R : α → β → Prop} {l : List (Except ParseError α)}
    {l' : List (Except ParseError β)} (h : List.Forall₂ (ReadsBelow k R) l l') :
    ReadsBelow k (List.Forall₂ R) (l.mapM id) (l'.mapM id) := by
  induction h with
  | nil => exact .ok .nil
  | @cons a b l l' hab _ ih =>
    rw [List.mapM_cons, List.mapM_cons]
    cases hab with
    | error e => exact .error e
    | ok hab =>
      generalize l.mapM id = r at ih ⊢
      generalize l'.mapM id = r' at ih ⊢
      cases ih with
      | error e => exact .error e
      | ok hrest => exact .ok (.cons hab hrest)

/-! ### Heads among blanks -/

theorem Statement.at?_eq_none_of_blank {t m : Text} (hm : ∀ c ∈ m.head?, isBlank c = true) :
    Statement.at? t m = none := by
  cases hread : StatementHead.read? m with
  | none => rw [Statement.at?, hread, Option.map_none]
  | some h =>
    obtain ⟨c, hc, hword⟩ := StatementHead.exists_head?_of_read? hread
    rw [isWord_of_isBlank (hm c hc)] at hword
    cases hword

theorem Statement.consumes_at? (t : Text) : Consumes (Statement.at? t) := by
  intro m r a h
  rw [← PlacedStatement.at?_statement] at h
  obtain ⟨⟨p, s⟩, hp, heq⟩ := Option.map_eq_some_iff.mp h
  obtain ⟨-, rfl⟩ := Prod.mk.inj heq
  exact PlacedStatement.consumes_at? t hp

/-! ### One statement -/

theorem eq_of_drop_maskComments {t : Text} {i j : Nat} (hi : i ≤ t.length) (hj : j ≤ t.length)
    (h : (maskComments t).drop i = (maskComments t).drop j) : i = j := by
  have hlength := congrArg List.length h
  rw [List.length_drop, List.length_drop, length_maskComments] at hlength
  omega

namespace Text.Inset

variable (s : Inset) {y : Text}

theorem slice_body {o width : Nat} (hwidth : o + width < s.inner.length) (hpos : 0 < width) :
    slice s.text (s.front.length + o + 1) (s.front.length + o + width) =
      slice s.inner (o + 1) (o + width) := by
  rw [Nat.add_assoc, Nat.add_assoc]
  exact s.slice_text (by omega) (by omega)

/-- The options of a statement of the inner text are read in the whole text as well, and end at the
same position, or at the end of the inner text and somewhere among the blanks. -/
theorem exists_options {j : Nat} (hj : j ≤ s.inner.length) :
    ∃ k, s.text.length - (tableOptions (s.text.drop (s.front.length + j))).2.length =
        s.front.length + k ∧
      (tableOptions (s.text.drop (s.front.length + j))).1 =
        (tableOptions (s.inner.drop j)).1 ∧
      s.inner.length - (tableOptions (s.inner.drop j)).2.length ≤ k ∧
      s.front.length + k ≤ s.text.length ∧
      (k = s.inner.length - (tableOptions (s.inner.drop j)).2.length ∨
        s.inner.length - (tableOptions (s.inner.drop j)).2.length = s.inner.length) := by
  have hlength := s.length_text
  have hle := (tableOptions_suffix (s.inner.drop j)).length_le
  rw [List.length_drop] at hle
  obtain ⟨heq, hrest⟩ := tableOptions_append_blanks s.back_blank (s.inner.drop j)
  rw [← s.drop_text hj] at heq hrest
  generalize (tableOptions (s.inner.drop j)).2 = rest at hle hrest ⊢
  generalize (tableOptions (s.text.drop (s.front.length + j))).2 = rest' at hrest ⊢
  rcases hrest with rfl | ⟨rfl, rfl⟩
  · refine ⟨s.inner.length - rest.length, ?_, heq, by omega, by omega, Or.inl rfl⟩
    rw [List.length_append]
    omega
  · refine ⟨s.inner.length + s.back.length, ?_, heq, by omega, by omega, Or.inr (Nat.sub_zero _)⟩
    rw [List.length_nil]
    omega

variable (hy : ∀ c ∈ y, isBlank c = true)
  (hmask : maskComments s.text = s.front ++ (maskComments s.inner ++ y))
include hmask

theorem drop_maskComments {i : Nat} (hi : i ≤ s.inner.length) :
    (maskComments s.text).drop (s.front.length + i) = (maskComments s.inner).drop i ++ y := by
  rw [hmask, List.drop_append, List.drop_of_length_le (Nat.le_add_right _ _),
    Nat.add_sub_cancel_left, List.nil_append,
    List.drop_append_of_le_length (by rwa [length_maskComments])]

include hy

/-- Where no statement begins between the blanks, none begins in the whole text. -/
theorem at?_eq_none {i : Nat} (hi : i ≤ s.inner.length)
    (hat : Statement.at? s.inner ((maskComments s.inner).drop i) = none) :
    Statement.at? s.text ((maskComments s.text).drop (s.front.length + i)) = none := by
  rw [Statement.at?_eq_none_iff] at hat ⊢
  rw [s.drop_maskComments hmask hi, StatementHead.read?_append_blanks hy, hat, Option.map_none]

/-- A head stands further behind in the whole text, with the blanks at its end. -/
theorem head_text {i n o : Nat} {h : StatementHead} (hi : i ≤ s.inner.length)
    (hn : n ≤ s.inner.length) (ho : o ≤ s.inner.length)
    (hread : StatementHead.read? ((maskComments s.inner).drop i) = some h)
    (hname : h.name.start = (maskComments s.inner).drop n)
    (hopening : h.opening = (maskComments s.inner).drop o) :
    StatementHead.read? ((maskComments s.text).drop (s.front.length + i)) = some (h.append y) ∧
      (h.append y).name.start = (maskComments s.text).drop (s.front.length + n) ∧
      (h.append y).opening = (maskComments s.text).drop (s.front.length + o) ∧
      strip (h.append y).name.name = strip h.name.name := by
  obtain ⟨_, _, _, _, hspells, -⟩ := StatementHead.read?_eq_some_iff.mp hread
  rw [s.drop_maskComments hmask hi, s.drop_maskComments hmask hn, s.drop_maskComments hmask ho,
    StatementHead.read?_append_blanks hy, hread, ← hname, ← hopening]
  exact ⟨rfl, rfl, rfl, congrArg strip (hspells.name_append y)⟩

/-- **A statement is read between blanks as it is without them**, further down. -/
theorem at?_eq_some {i j : Nat} {a : Except ParseError Statement} (hj : j ≤ s.inner.length)
    (hat : Statement.at? s.inner ((maskComments s.inner).drop i) =
      some (a, (maskComments s.inner).drop j)) :
    ∃ a' k, Statement.at? s.text ((maskComments s.text).drop (s.front.length + i)) =
        some (a', (maskComments s.text).drop (s.front.length + k)) ∧
      ReadsBelow (newlines s.front) (Statement.IsBelow (newlines s.front)) a a' ∧
      j ≤ k ∧ s.front.length + k ≤ s.text.length ∧ (k = j ∨ j = s.inner.length) := by
  have hlength := s.length_text
  obtain ⟨h, hread, -⟩ := Option.map_eq_some_iff.mp hat
  obtain ⟨n, o, hin, hno, ho, hname, hopening⟩ := PlacedStatement.exists_positions hread
  obtain ⟨hread', hname', hopening', hstrip⟩ :=
    s.head_text hy hmask (by omega) (by omega) (by omega) hread hname hopening
  have hclosing : closing? ((maskComments s.text).drop (s.front.length + o)) =
      closing? ((maskComments s.inner).drop o) := by
    rw [s.drop_maskComments hmask (by omega), closing?_append_blanks hy]
  rw [Statement.at?_of_head hread hname hopening hin hno ho] at hat
  rw [Statement.at?_of_head hread' hname' hopening' (by omega) (by omega) (by omega), hclosing,
    hstrip, s.newlines_take (by omega), Nat.add_right_comm (newlines (s.inner.take n))]
  cases hclose : closing? ((maskComments s.inner).drop o) with
  | none =>
    rw [hclose] at hat
    obtain ⟨rfl, hrest⟩ := Prod.mk.inj (Option.some.inj hat)
    obtain rfl := eq_of_drop_maskComments (by omega) hj hrest
    exact ⟨_, o, rfl, .error _, by omega, by omega, Or.inl rfl⟩
  | some width =>
    obtain ⟨hpos, hwidth⟩ := PlacedStatement.lt_of_closing? hclose
    obtain ⟨k, hk, hoptions, hjk, hkt, hor⟩ := s.exists_options (j := o + (width + 1)) (by omega)
    rw [← Nat.add_assoc] at hk hoptions
    rw [hclose] at hat
    simp only [s.slice_body hwidth hpos, hk, hoptions] at hat ⊢
    split at hat
    · rename_i hempty
      obtain ⟨rfl, hrest⟩ := Prod.mk.inj (Option.some.inj hat)
      obtain rfl := eq_of_drop_maskComments (by omega) hj hrest
      rw [if_pos hempty]
      exact ⟨_, o, rfl, .error _, by omega, by omega, Or.inl rfl⟩
    · rename_i hsolid
      obtain ⟨rfl, hrest⟩ := Prod.mk.inj (Option.some.inj hat)
      obtain rfl := eq_of_drop_maskComments (Nat.sub_le _ _) hj hrest
      rw [if_neg hsolid]
      exact ⟨_, k, rfl, .ok rfl, hjk, hkt, hor⟩

/-- No statement begins at the blanks in front of the inner text or behind it. -/
theorem at?_blank {k : Nat} (hk : k < s.front.length ∨ s.front.length + s.inner.length ≤ k) :
    Statement.at? s.text ((maskComments s.text).drop k) = none := by
  apply Statement.at?_eq_none_of_blank
  intro c hc
  rw [List.head?_drop, hmask] at hc
  rcases hk with hk | hk
  · rw [List.getElem?_append_left hk] at hc
    exact s.front_blank c (List.mem_of_getElem? hc)
  · rw [List.getElem?_append_right (by omega),
      List.getElem?_append_right (by rw [length_maskComments]; omega)] at hc
    exact hy c (List.mem_of_getElem? hc)

theorem found_back {k : Nat} (hk : s.front.length + s.inner.length ≤ k) :
    Found (Statement.at? s.text) (maskComments s.text) k [] := by
  by_cases hend : s.text.length ≤ k
  · exact .done (by rwa [length_maskComments])
  · refine Found.of_none (j := s.text.length) (by omega) (by rw [length_maskComments]) ?_
      (.done (by rw [length_maskComments]))
    exact fun l hl _ => s.at?_blank hy hmask (Or.inr (by omega))

/-- A run of the search in the inner text is one in the whole text. -/
theorem found_text {i : Nat} {as : List (Except ParseError Statement)}
    (h : Found (Statement.at? s.inner) (maskComments s.inner) i as) :
    ∃ as', Found (Statement.at? s.text) (maskComments s.text) (s.front.length + i) as' ∧
      List.Forall₂ (ReadsBelow (newlines s.front) (Statement.IsBelow (newlines s.front))) as as' := by
  have hlength := s.length_text
  induction h with
  | done hi =>
    rw [length_maskComments] at hi
    exact ⟨[], s.found_back hy hmask (by omega), .nil⟩
  | @pass i as hi hat _ ih =>
    rw [length_maskComments] at hi
    obtain ⟨as', hrest, has⟩ := ih
    refine ⟨as', .pass ?_ (s.at?_eq_none hy hmask (by omega) hat) hrest, has⟩
    rw [length_maskComments]
    omega
  | @hit i j a as hij hj hat hrun ih =>
    rw [length_maskComments] at hj
    obtain ⟨a', k, hat', ha, hjk, hk, hor⟩ := s.at?_eq_some hy hmask hj hat
    obtain ⟨as', hrest, has⟩ : ∃ as', Found (Statement.at? s.text) (maskComments s.text)
        (s.front.length + k) as' ∧ List.Forall₂ _ as as' := by
      rcases hor with rfl | rfl
      · exact ih
      · -- A statement that takes the blanks behind it along is the last one.
        obtain rfl := hrun.eq_nil (by rw [length_maskComments])
        exact ⟨[], s.found_back hy hmask (by omega), .nil⟩
    exact ⟨a' :: as', .hit (by omega) (by rw [length_maskComments]; omega) hat' hrest, .cons ha has⟩

end Text.Inset

/-! ### All statements -/

/-- **The statements of a text are those between the blanks around it**, further down. -/
theorem Statement.readAll_text (s : Inset) :
    ReadsBelow (newlines s.front) (List.Forall₂ (Statement.IsBelow (newlines s.front)))
      (Statement.readAll s.inner) (Statement.readAll s.text) := by
  obtain ⟨y, hy, hmask⟩ := s.maskComments_text
  have hrun := found_findAll (Statement.consumes_at? s.inner) (maskComments s.inner)
  obtain ⟨as', hrun', has⟩ := s.found_text hy hmask hrun
  have hwhole : Found (Statement.at? s.text) (maskComments s.text) 0 as' := by
    refine Found.of_none (Nat.zero_le _) ?_ (fun k _ hk => s.at?_blank hy hmask (Or.inl hk)) hrun'
    rw [length_maskComments, s.length_text]
    omega
  have heq : findAll (fun _ => Statement.at? s.text) (maskComments s.text) = as' :=
    hwhole.findAllFrom_eq none
  rw [Statement.readAll, Statement.readAll, heq]
  exact ReadsBelow.mapM has

/-- The same of a source: what is parsed of the whole text is what is parsed of the stripped one. -/
theorem Statement.parse_inset (s : Inset) (hclean : isClean s.text = true)
    (hsolid : s.inner.isAllBlank = false) :
    ReadsBelow (newlines s.front) (List.Forall₂ (Statement.IsBelow (newlines s.front)))
      (Statement.parse (.text s.inner)) (Statement.parse (.text s.text)) := by
  have hinner : isClean s.inner = true :=
    List.all_eq_true.mpr fun c hc => List.all_eq_true.mp hclean c (s.inner_subset hc)
  rw [Statement.parse, Statement.parse, s.isAllBlank_text, hsolid, cleaned_eq_self hinner,
    cleaned_eq_self hclean]
  have hread := Statement.readAll_text s
  generalize Statement.readAll s.inner = r at hread ⊢
  generalize Statement.readAll s.text = r' at hread ⊢
  cases hread with
  | error e => exact .error e
  | ok h =>
    cases h with
    | nil => exact .error ParseCause.noStatements.error
    | cons hs hrest => exact .ok (.cons hs hrest)

end TableTypes
