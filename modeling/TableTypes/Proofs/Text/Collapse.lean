import TableTypes.Proofs.Text.Cutting
import Mathlib.Data.List.Induction

/-!
# Runs of blanks

When runs of blanks are written as single spaces, a character that is no blank stays where it is, so
the text can be rewritten in pieces on either side of it (`collapseBlanks_append_cons`).  A blank in
front of a text adds a space unless there is one already (`collapseBlanks_blank`).
-/

namespace TableTypes.Text

variable {c : Char} {t x y : Text}

/-! ### Character by character -/

theorem collapseBlanks_cons (hc : isBlank c = false) (t : Text) :
    collapseBlanks (c :: t) = c :: collapseBlanks t := by
  have hnot : ¬isBlank c = true := Bool.eq_false_iff.mp hc
  cases t with
  | nil => rw [collapseBlanks, collapseBlanks, if_neg hnot]
  | cons d t => rw [collapseBlanks, if_neg hnot]

/-- The text with a space in front of it, unless there is a blank already. -/
def spaced (t : Text) : Text :=
  if t.head?.any isBlank then t else ' ' :: t

theorem any_head?_collapseBlanks (t : Text) :
    (collapseBlanks t).head?.any isBlank = t.head?.any isBlank := by
  fun_induction collapseBlanks t with
  | case1 => rfl
  | case2 c hc => exact hc.symm
  | case3 c hc => rfl
  | case4 c d t hc hd ih =>
    rw [ih]
    exact hd.trans hc.symm
  | case5 c d t hc hd ih => exact hc.symm
  | case6 c d t hc ih => rfl

theorem collapseBlanks_blank (hc : isBlank c = true) (t : Text) :
    collapseBlanks (c :: t) = spaced (collapseBlanks t) := by
  rw [spaced, any_head?_collapseBlanks]
  cases t with
  | nil => rw [collapseBlanks, collapseBlanks, if_pos hc]; rfl
  | cons d t =>
    rw [collapseBlanks, if_pos hc]
    rfl

/-! ### In pieces -/

theorem collapseBlanks_append_cons (hc : isBlank c = false) (x y : Text) :
    collapseBlanks (x ++ c :: y) = collapseBlanks x ++ c :: collapseBlanks y := by
  induction x with
  | nil => exact collapseBlanks_cons hc y
  | cons b x ih =>
    cases hb : isBlank b with
    | false =>
      rw [List.cons_append, collapseBlanks_cons hb, collapseBlanks_cons hb, ih, List.cons_append]
    | true =>
      rw [List.cons_append, collapseBlanks_blank hb, collapseBlanks_blank hb, ih, spaced, spaced]
      have hhead : (collapseBlanks x ++ c :: collapseBlanks y).head?.any isBlank =
          (collapseBlanks x).head?.any isBlank := by
        cases collapseBlanks x with
        | nil => exact hc
        | cons d u => rfl
      rw [hhead]
      split
      · rfl
      · rw [List.cons_append]

/-- A text is rewritten by itself if it does not end with a blank. -/
theorem collapseBlanks_append (hx : ∀ c ∈ x.getLast?, isBlank c = false) (y : Text) :
    collapseBlanks (x ++ y) = collapseBlanks x ++ collapseBlanks y := by
  cases x using List.reverseRecOn with
  | nil => rfl
  | append_singleton x c =>
    have hc : isBlank c = false := hx c List.getLast?_concat
    rw [List.append_assoc, List.singleton_append, collapseBlanks_append_cons hc,
      collapseBlanks_append_cons hc, List.append_assoc]
    rfl

theorem mem_of_mem_collapseBlanks {x : Char} (h : x ∈ collapseBlanks t) : x ∈ t ∨ x = ' ' := by
  induction t with
  | nil => exact Or.inl h
  | cons c t ih =>
    cases hc : isBlank c with
    | false =>
      rw [collapseBlanks_cons hc, List.mem_cons] at h
      rcases h with rfl | h
      · exact Or.inl List.mem_cons_self
      · exact (ih h).imp_left (List.mem_cons_of_mem c)
    | true =>
      rw [collapseBlanks_blank hc, spaced] at h
      have hrest : x ∈ collapseBlanks t ∨ x = ' ' := by
        split_ifs at h
        · exact Or.inl h
        · exact (List.mem_cons.mp h).symm
      obtain h | rfl := hrest
      · exact (ih h).imp_left (List.mem_cons_of_mem c)
      · exact Or.inr rfl

/-- Blanks are written as blanks. -/
theorem forall_isBlank_collapseBlanks (h : ∀ c ∈ t, isBlank c = true) :
    ∀ c ∈ collapseBlanks t, isBlank c = true := by
  intro c hc
  obtain hc | rfl := mem_of_mem_collapseBlanks hc
  · exact h c hc
  · decide

theorem collapseBlanks_of_forall (h : ∀ c ∈ t, isBlank c = false) : collapseBlanks t = t := by
  induction t with
  | nil => rfl
  | cons c t ih =>
    rw [collapseBlanks_cons (h c List.mem_cons_self), ih fun c hc => h c (List.mem_cons_of_mem _ hc)]

/-! ### Single spaces -/

theorem spaced_cases (t : Text) :
    spaced t = t ∨ (spaced t = ' ' :: t ∧ t.head?.any isBlank = false) := by
  rw [spaced]
  split_ifs with h
  · exact Or.inl rfl
  · exact Or.inr ⟨rfl, Bool.eq_false_iff.mpr h⟩

/-- The only blank that is written is the space. -/
theorem eq_space_of_mem_collapseBlanks (h : c ∈ collapseBlanks t) (hc : isBlank c = true) :
    c = ' ' := by
  induction t with
  | nil => cases h
  | cons d t ih =>
    cases hd : isBlank d with
    | false =>
      rw [collapseBlanks_cons hd, List.mem_cons] at h
      refine h.elim (fun hcd => ?_) ih
      rw [hcd, hd] at hc
      cases hc
    | true =>
      rw [collapseBlanks_blank hd] at h
      obtain hspaced | ⟨hspaced, -⟩ := spaced_cases (collapseBlanks t)
      · exact ih (hspaced ▸ h)
      · rw [hspaced, List.mem_cons] at h
        exact h.elim id ih

/-- No two spaces stand next to each other. -/
theorem not_infix_collapseBlanks (t : Text) : ¬[' ', ' '] <:+: collapseBlanks t := by
  induction t with
  | nil => simp [collapseBlanks]
  | cons c t ih =>
    -- What a pair of spaces in front of the text would leave is a space in front of the rest.
    have hcons : ∀ d : Char, (d = ' ' → (collapseBlanks t).head?.any isBlank = false) →
        ¬[' ', ' '] <:+: d :: collapseBlanks t := by
      intro d hd hpair
      rcases List.infix_cons_iff.mp hpair with hhead | hpair
      · obtain ⟨rfl, r, hr⟩ := List.cons_prefix_cons.mp hhead
        have hblank := hd rfl
        rw [← hr] at hblank
        cases hblank
      · exact ih hpair
    cases hc : isBlank c with
    | false =>
      rw [collapseBlanks_cons hc]
      refine hcons c fun hspace => ?_
      rw [hspace] at hc
      cases hc
    | true =>
      rw [collapseBlanks_blank hc]
      obtain hspaced | ⟨hspaced, hhead⟩ := spaced_cases (collapseBlanks t)
      · rw [hspaced]
        exact ih
      · rw [hspaced]
        exact hcons ' ' fun _ => hhead

/-- A text whose blanks are single spaces stays as it is. -/
theorem collapseBlanks_eq_self (hspace : ∀ c ∈ t, isBlank c = true → c = ' ')
    (hsingle : ¬[' ', ' '] <:+: t) : collapseBlanks t = t := by
  induction t with
  | nil => rfl
  | cons c t ih =>
    have hrest : collapseBlanks t = t := ih (fun d hd => hspace d (List.mem_cons_of_mem c hd))
      fun hpair => hsingle (hpair.trans (List.suffix_cons c t).isInfix)
    cases hc : isBlank c with
    | false => rw [collapseBlanks_cons hc, hrest]
    | true =>
      obtain rfl := hspace c List.mem_cons_self hc
      rw [collapseBlanks_blank hc, hrest, spaced, if_neg]
      intro hhead
      cases t with
      | nil => cases hhead
      | cons d t =>
        obtain rfl := hspace d (List.mem_cons_of_mem _ List.mem_cons_self) hhead
        exact hsingle (List.prefix_append [' ', ' '] t).isInfix

/-- What is no blank is kept. -/
theorem filter_collapseBlanks (t : Text) :
    (collapseBlanks t).filter (!isBlank ·) = t.filter (!isBlank ·) := by
  induction t with
  | nil => rfl
  | cons c t ih =>
    cases hc : isBlank c with
    | false => simp [collapseBlanks_cons hc, hc, ih]
    | true =>
      rw [collapseBlanks_blank hc, spaced]
      have hspace : isBlank ' ' = true := by decide
      split_ifs
      · simp [hc, ih]
      · simp [hc, hspace, ih]

/-! ### At the ends -/

/-- What a text begins with is kept, if it is no blank. -/
theorem head?_collapseBlanks (ht : ∀ c ∈ t.head?, isBlank c = false) :
    (collapseBlanks t).head? = t.head? := by
  cases t with
  | nil => rfl
  | cons c t => rw [collapseBlanks_cons (ht c rfl)]; rfl

/-- What a text ends with is kept, if it is no blank. -/
theorem getLast?_collapseBlanks (ht : ∀ c ∈ t.getLast?, isBlank c = false) :
    (collapseBlanks t).getLast? = t.getLast? := by
  cases t using List.reverseRecOn with
  | nil => rfl
  | append_singleton t c =>
    rw [collapseBlanks_append_cons (ht c List.getLast?_concat), List.getLast?_concat]
    exact List.getLast?_concat

end TableTypes.Text
