import TableTypes.Proofs.Text.Cutting
import TableTypes.Proofs.Text.Reader
import TableTypes.Proofs.Text.Search

/-!
# Replacing piece by piece

A text can be rewritten in two pieces if no match reaches from the first into the second: in front
of the second piece the matcher has to find in the first what it finds there without it (`Parts`).
Then `replaceAll` of the whole is `replaceAll` of the pieces (`replaceAll_append`).

What is written for a text follows from what is written for a character that is kept and for a piece
that is replaced (`replaceAll_induction`).
-/

namespace TableTypes.Text

variable {m : Text → Option Text} {new : Text}

/-- No match of `m` that begins in `x` has anything to do with what follows it, `y`. -/
def Parts (m : Text → Option Text) (x y : Text) : Prop :=
  ∀ u, u ≠ [] → u <:+ x → m (u ++ y) = (m u).map (· ++ y)

/-- Matches that are told by what they take off the front of the text, a piece in `P`, and leave
over, a rest in `R`. -/
theorem Parts.of_iff {P R : Text → Prop} {x y : Text}
    (hm : ∀ t r, m t = some r ↔ ∃ b, t = b ++ r ∧ P b ∧ R r)
    (hreach : ∀ u v, u <:+ x → v <+: y → v ≠ [] → P (u ++ v) → u = [])
    (hrest : ∀ r, r <:+ x → (R (r ++ y) ↔ R r)) : Parts m x y := by
  intro u hne hu
  ext s
  rw [hm, Option.map_eq_some_iff]
  constructor
  · rintro ⟨b, hsplit, hb, hs⟩
    rcases List.append_eq_append_iff.mp hsplit with ⟨v, rfl, rfl⟩ | ⟨r, rfl, rfl⟩
    · -- The match takes `v` off the second piece, so there is nothing in `v`.
      have hv : v = [] := by
        by_contra hv
        exact hne (hreach u v hu (List.prefix_append v s) hv hb)
      subst hv
      refine ⟨[], (hm u []).mpr ⟨u, (List.append_nil u).symm, ?_, ?_⟩, rfl⟩
      · rwa [List.append_nil] at hb
      · exact (hrest [] (List.nil_suffix)).mp hs
    · have hr : r <:+ x := (List.suffix_append b r).trans hu
      exact ⟨r, (hm _ r).mpr ⟨b, rfl, hb, (hrest r hr).mp hs⟩, rfl⟩
  · rintro ⟨r, hr, rfl⟩
    obtain ⟨b, rfl, hb, hrr⟩ := (hm u r).mp hr
    have hr : r <:+ x := (List.suffix_append b r).trans hu
    exact ⟨b, List.append_assoc b r y, hb, (hrest r hr).mpr hrr⟩

theorem replaceFrom_append {x y : Text} (h : Parts m x y) :
    ∀ skip ≤ x.length, replaceFrom m new skip (x ++ y) =
      replaceFrom m new skip x ++ replaceAll m new y := by
  induction x with
  | nil =>
    intro skip hskip
    obtain rfl := Nat.le_zero.mp hskip
    rfl
  | cons c x ih =>
    have hx : Parts m x y := fun u hne hu => h u hne (hu.trans (List.suffix_cons c x))
    intro skip hskip
    cases skip with
    | succ skip => exact ih hx skip (Nat.le_of_succ_le_succ hskip)
    | zero =>
      have hc := h (c :: x) (List.cons_ne_nil c x) List.suffix_rfl
      rw [List.cons_append] at hc ⊢
      rw [replaceFrom, replaceFrom, hc]
      cases m (c :: x) with
      | none => exact congrArg (c :: ·) (ih hx 0 (Nat.zero_le _))
      | some r =>
        dsimp only [Option.map_some]
        rw [List.length_append, List.length_append, Nat.add_sub_add_right, ih hx _ (Nat.sub_le _ _),
          List.append_assoc]

/-- **Two pieces that no match joins are rewritten one by one.** -/
theorem replaceAll_append {x y : Text} (h : Parts m x y) :
    replaceAll m new (x ++ y) = replaceAll m new x ++ replaceAll m new y :=
  replaceFrom_append h 0 (Nat.zero_le _)

theorem replaceAll_cons {c : Char} {t : Text} (h : m (c :: t) = none) :
    replaceAll m new (c :: t) = c :: replaceAll m new t := by
  rw [replaceAll, replaceFrom, h]
  rfl

/-- Where there is no match, nothing is replaced. -/
theorem Absent.replaceAll_eq {t : Text} (h : Absent m t) : replaceAll m new t = t := by
  induction t with
  | nil => rfl
  | cons c t ih =>
    obtain ⟨hfront, hrest⟩ := absent_cons.mp h
    rw [replaceAll_cons hfront, ih hrest]

/-- Matches that are told by the piece that they take off the text. -/
theorem absent_iff {P : Text → Prop} (hm : ∀ t r, m t = some r ↔ ∃ b, t = b ++ r ∧ P b)
    (hP : ¬P []) {t : Text} : Absent m t ↔ ∀ b, P b → ¬b <:+: t := by
  constructor
  · rintro h b hb ⟨x, r, rfl⟩
    have hne : b ++ r ≠ [] := by
      intro hnil
      rw [(List.append_eq_nil_iff.mp hnil).1] at hb
      exact hP hb
    have hnone := h (b ++ r) hne ⟨x, by rw [List.append_assoc]⟩
    rw [(hm _ r).mpr ⟨b, rfl, hb⟩] at hnone
    cases hnone
  · rintro h u - ⟨x, rfl⟩
    refine Option.eq_none_iff_forall_ne_some.mpr fun r hr => ?_
    obtain ⟨b, rfl, hb⟩ := (hm _ r).mp hr
    exact h b hb ⟨x, r, by rw [List.append_assoc]⟩

theorem replaceFrom_skip (u r : Text) :
    replaceFrom m new u.length (u ++ r) = replaceAll m new r := by
  induction u with
  | nil => rfl
  | cons c u ih => exact ih

theorem replaceAll_match {c : Char} {u r : Text} (h : m (c :: (u ++ r)) = some r) :
    replaceAll m new (c :: (u ++ r)) = new ++ replaceAll m new r := by
  rw [replaceAll, replaceFrom, h]
  show new ++ replaceFrom m new ((u ++ r).length - r.length) (u ++ r) = _
  rw [List.length_append, Nat.add_sub_cancel, replaceFrom_skip]

theorem replace_cons {old : Text} {c : Char} {t : Text} (h : after? old (c :: t) = none) :
    replace old new (c :: t) = c :: replace old new t :=
  replaceAll_cons h

/-- Where two characters stand next to each other, one character after the other. -/
theorem pair_infix_cons {x y a b : Char} {t : Text} :
    [x, y] <:+: a :: b :: t ↔ (a = x ∧ b = y) ∨ [x, y] <:+: b :: t := by
  rw [List.infix_cons_iff, List.cons_prefix_cons, List.cons_prefix_cons]
  simp only [List.nil_prefix, and_true, eq_comm]

theorem not_pair_infix_singleton (x y a : Char) : ¬ [x, y] <:+: [a] := by
  intro h
  have hlength := h.length_le
  simp at hlength

/-- A literal that occurs nowhere in the text is not replaced. -/
theorem replace_of_not_infix {old t : Text} (h : ¬ old <:+: t) : replace old new t = t := by
  rw [replace]
  induction t with
  | nil => rfl
  | cons c t ih =>
    have hafter : after? old (c :: t) = none :=
      after?_eq_none fun r hr => h ⟨[], r, hr.symm⟩
    rw [replaceAll_cons hafter, ih fun ht => h (ht.trans (List.suffix_cons c t).isInfix)]

theorem replace_eq_self {x : Char} {old t : Text} (hx : x ∉ t) : replace (x :: old) new t = t :=
  replace_of_not_infix fun h => hx (h.subset List.mem_cons_self)

/-- A match takes at least one character off the text. -/
def TakesPiece (m : Text → Option Text) : Prop :=
  ∀ {t r : Text}, m t = some r → ∃ b, b ≠ [] ∧ t = b ++ r

theorem takesPiece_after? {w : Text} (hw : w ≠ []) : TakesPiece (after? w) :=
  fun h => ⟨w, hw, after?_eq_some_iff.mp h⟩

/-- **The text is rewritten character by character and match by match.** -/
theorem replaceAll_induction (hm : TakesPiece m) {motive : Text → Text → Prop}
    (nil : motive [] [])
    (keep : ∀ (c : Char) (t t' : Text), m (c :: t) = none → motive t t' →
      motive (c :: t) (c :: t'))
    (hit : ∀ b r r' : Text, m (b ++ r) = some r → motive r r' → motive (b ++ r) (new ++ r'))
    (t : Text) : motive t (replaceAll m new t) := by
  induction hn : t.length using Nat.strong_induction_on generalizing t with
  | _ n ih =>
    subst hn
    cases t with
    | nil => exact nil
    | cons c t =>
      cases h : m (c :: t) with
      | none =>
        rw [replaceAll_cons h]
        exact keep c t _ h (ih t.length (Nat.lt_succ_self _) t rfl)
      | some r =>
        obtain ⟨b, hb, hsplit⟩ := hm h
        obtain ⟨d, u, rfl⟩ := List.exists_cons_of_ne_nil hb
        rw [List.cons_append] at hsplit
        obtain ⟨rfl, rfl⟩ := List.cons.inj hsplit
        have hlt : r.length < (c :: (u ++ r)).length := by
          rw [List.length_cons, List.length_append]
          omega
        rw [replaceAll_match h]
        exact hit (c :: u) r _ h (ih r.length hlt r rfl)

/-- Every character that is written was there or is new. -/
theorem mem_replaceAll (hm : TakesPiece m) {x : Char} {t : Text} (h : x ∈ replaceAll m new t) :
    x ∈ new ∨ x ∈ t := by
  revert h
  refine replaceAll_induction (motive := fun t t' => x ∈ t' → x ∈ new ∨ x ∈ t) hm ?_ ?_ ?_ t
  · exact fun h => Or.inr h
  · intro c t t' _ ih h
    rcases List.mem_cons.mp h with rfl | h
    · exact Or.inr List.mem_cons_self
    · exact (ih h).imp_right (List.mem_cons_of_mem c)
  · intro b r r' _ ih h
    rcases List.mem_append.mp h with h | h
    · exact Or.inl h
    · exact (ih h).imp_right (List.mem_append_right b)

theorem eq_nil_of_replaceAll (hne : new ≠ []) {t : Text} (h : replaceAll m new t = []) :
    t = [] := by
  cases t with
  | nil => rfl
  | cons c t =>
    rw [replaceAll, replaceFrom] at h
    split at h
    · exact absurd (List.append_eq_nil_iff.mp h).1 hne
    · cases h

/-- What the text ends with, it ends with when it is rewritten, or with the end of the new text. -/
theorem getLast?_replaceAll {p : Char → Prop} (hne : new ≠ []) (hnew : ∀ c ∈ new.getLast?, p c)
    {t : Text} (ht : ∀ c ∈ t.getLast?, p c) : ∀ c ∈ (replaceAll m new t).getLast?, p c := by
  -- Behind a match the rewriting goes on with characters to skip, so the induction is for any number.
  suffices h : ∀ skip, ∀ c ∈ (replaceFrom m new skip t).getLast?, p c from h 0
  induction t with
  | nil =>
    intro skip c hc
    cases skip <;> cases hc
  | cons d t ih =>
    have htail : ∀ c ∈ t.getLast?, p c := by
      intro c hc
      refine ht c ?_
      rw [List.getLast?_cons, Option.mem_def.mp hc]
      rfl
    intro skip c hc
    cases skip with
    | succ skip => exact ih htail skip c hc
    | zero =>
      rw [replaceFrom] at hc
      split at hc
      · rename_i r _
        rw [List.getLast?_append] at hc
        rcases Option.or_eq_some_iff.mp hc with hc | ⟨-, hc⟩
        · exact ih htail _ c hc
        · exact hnew c hc
      · rw [List.getLast?_cons] at hc
        cases hlast : (replaceFrom m new 0 t).getLast? with
        | some e =>
          rw [hlast] at hc
          obtain rfl : e = c := Option.some.inj hc
          exact ih htail 0 e hlast
        | none =>
          -- Nothing is written for the rest, so there is none and the text ends with `d`.
          obtain rfl := eq_nil_of_replaceAll hne (List.getLast?_eq_none_iff.mp hlast)
          rw [hlast] at hc
          exact ht c hc

end TableTypes.Text
