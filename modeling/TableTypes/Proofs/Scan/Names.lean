import TableTypes.Proofs.Identifier
import TableTypes.Proofs.Scan.Visible
import TableTypes.Proofs.Statement.Head

/-!
# Names and lists in masked texts

What is left of a masked text that closes what it opens holds all of a name or a list in parentheses
that begins in it.  So a name is read as well when `z` follows the text (`NameSpan.read?_append`),
and so is a list (`parenthesized?_append`), if neither could begin at `z`.
-/

namespace TableTypes

open Text

variable {z : Text}

/-! ### Words -/

/-- A word character takes no part in quotes. -/
theorem not_quote_of_isWord {c : Char} (hc : isWord c = true) :
    Quote.ofChar? c = none ∧ c ≠ '\\' := by
  have hne : ∀ d : Char, isWord d = false → c ≠ d := by
    rintro d hd rfl
    rw [hc] at hd
    cases hd
  refine ⟨?_, hne '\\' (by decide)⟩
  simp [Quote.ofChar?, hne '\'' (by decide), hne '"' (by decide), hne '\x60' (by decide)]

theorem InCode.word {w r : Text} (hw : ∀ c ∈ w, isWord c = true) (h : InCode (w ++ r)) :
    InCode r := by
  induction w with
  | nil => exact h
  | cons c w ih =>
    obtain ⟨hquote, hescape⟩ := not_quote_of_isWord (hw c List.mem_cons_self)
    exact ih (fun d hd => hw d (List.mem_cons_of_mem c hd)) (h.tail hquote hescape)

/-- Inside quotes neither a word nor a parenthesis is shown. -/
theorem InQuotes.exists_head {q : Quote} {v : Text} (h : InQuotes q v) :
    ∃ c r, v = c :: r ∧ (c = ' ' ∨ c = q.char) := by
  obtain ⟨b, r, rfl, hb, -⟩ := h.exists_quote
  cases b with
  | nil => exact ⟨q.char, r, rfl, Or.inr rfl⟩
  | cons c b => exact ⟨c, b ++ q.char :: r, rfl, Or.inl (hb c List.mem_cons_self)⟩

theorem isWord_of_space_or_quote {q : Quote} {c : Char} (h : c = ' ' ∨ c = q.char) :
    isWord c = false := by
  rcases h with rfl | rfl
  · decide
  · cases q <;> decide

/-- Behind a word character that is shown there is code. -/
theorem IsShown.tail_word {c : Char} {v : Text} (h : IsShown (c :: v)) (hc : isWord c = true) :
    InCode v := by
  obtain ⟨s, t, hruns, hv⟩ := h
  rcases hruns.place with hplace | ⟨q, hplace⟩
  · obtain ⟨hquote, hescape⟩ := not_quote_of_isWord hc
    obtain ⟨u, rfl, hrest⟩ := hruns.exists_behind hplace hv
    exact hrest.inCode (Spot.place_move_code hplace hquote) fun h => hescape (Option.some.inj h)
  · have hinside : InQuotes q (c :: v) := ⟨s, t, hruns, hplace, hv⟩
    obtain ⟨d, r, heq, hd⟩ := hinside.exists_head
    obtain ⟨rfl, -⟩ := List.cons.inj heq
    rw [isWord_of_space_or_quote hd] at hc
    cases hc

section

variable {k : Text} (hk : isKeyword k = true) (hne : k ≠ [])

include hk hne

theorem keyword?_of_not_isWord {c : Char} (hc : isWord c = false) (t : Text) :
    keyword? k (c :: t) = none := by
  cases h : keyword? k (c :: t) with
  | none => rfl
  | some r =>
    obtain ⟨u, hu, hmatch⟩ := keyword?_eq_some_iff.mp h
    cases hmatch with
    | nil => exact absurd rfl hne
    | cons hd _ =>
      obtain ⟨rfl, -⟩ := List.cons.inj hu
      rw [isWord_of_matchesLetter (isKeyword_cons.mp hk).1.1 hd] at hc
      cases hc

/-- Behind a keyword that is shown there is code. -/
theorem IsShown.keyword {v r : Text} (h : IsShown v) (hr : keyword? k v = some r) : InCode r := by
  obtain ⟨x, k, rfl⟩ := List.exists_cons_of_ne_nil hne
  rw [isKeyword_cons] at hk
  cases v with
  | nil => cases hr
  | cons c v =>
    rw [keyword?] at hr
    split at hr
    · rename_i hmatch
      obtain ⟨u, rfl, hu⟩ := exists_of_keyword? hk.2 hr
      exact (h.tail_word (isWord_of_matchesLetter hk.1.1 hmatch)).word hu
    · cases hr

end

/-! ### Names -/

namespace NameSpan

/-- No name begins at the text, and none goes on in it. -/
def NoneAt (z : Text) : Prop :=
  ∀ c ∈ z.head?, isWord c = false ∧ Quote.ofChar? c = none

theorem NoneAt.atWordEnd (hz : NoneAt z) : atWordEnd z = true := by
  rw [Text.atWordEnd, Option.all_eq_true]
  intro c hc
  rw [(hz c hc).1]
  rfl

theorem exists_quote {c : Char} (hc : c = '\x60' ∨ c = '"') : ∃ q : Quote, c = q.char := by
  rcases hc with rfl | rfl
  · exact ⟨.backtick, rfl⟩
  · exact ⟨.double, rfl⟩

/-- Whatever a name is quoted with, it is found in code, and behind it one is in code or still
inside quotes. -/
theorem Spells.append_code {v : Text} {n : NameSpan} (h : Spells v n) (hv : InCode v)
    (hz : Text.atWordEnd z = true) : Spells (v ++ z) (n.append z) ∧ IsOpen n.rest := by
  cases h with
  | @bare w r hne hw hr =>
    have hend : Text.atWordEnd (r ++ z) = true := by
      cases r with
      | nil => exact hz
      | cons c r => exact hr
    rw [List.append_assoc, NameSpan.append, List.append_assoc]
    exact ⟨.bare hne hw hend, Or.inl (hv.word hw)⟩
  | @quoted c w r hc hne hw =>
    refine ⟨?_, ?_⟩
    · have h := Spells.quoted (r := r ++ z) hc hne hw
      simpa only [NameSpan.append, List.append_assoc, List.cons_append] using h
    · obtain ⟨q, rfl⟩ := exists_quote hc
      obtain ⟨b, s, hs, hb, hopen⟩ := hv.tail_quote.exists_quote
      -- The name is all that is inside up to the next quote, so this is the quote behind it.
      have hb' : q.char ∉ b := fun hmem => absurd (hb _ hmem) (by cases q <;> decide)
      have hdrop := congrArg (List.dropWhile (· ≠ q.char)) hs
      rw [dropWhile_ne hw, dropWhile_ne hb'] at hdrop
      rwa [(List.cons.inj hdrop).2]

theorem Spells.exists_head {t : Text} {n : NameSpan} (h : Spells t n) :
    ∃ c r, t = c :: r ∧ (isWord c = true ∨ ∃ q : Quote, c = q.char) := by
  cases h with
  | @bare w r hne hw =>
    obtain ⟨c, w, rfl⟩ := List.exists_cons_of_ne_nil hne
    exact ⟨c, w ++ r, rfl, Or.inl (hw c List.mem_cons_self)⟩
  | @quoted c w r hc => exact ⟨c, w ++ c :: r, rfl, Or.inr (exists_quote hc)⟩

/-- A word character begins a name. -/
theorem exists_spells_of_isWord {c : Char} (hc : isWord c = true) (t : Text) :
    ∃ n, Spells (c :: t) n := by
  have hne : (c :: t).takeWhile isWord ≠ [] := by
    rw [List.takeWhile_cons_of_pos hc]
    exact List.cons_ne_nil _ _
  have h := Spells.bare hne (fun d hd => List.all_eq_true.mp List.all_takeWhile d hd)
    (atWordEnd_dropWhile (c :: t))
  rw [List.takeWhile_append_dropWhile] at h
  exact ⟨_, h⟩

/-- A name does not reach over the end of the text. -/
theorem Spells.exists_of_append {v : Text} {n : NameSpan} (h : Spells (v ++ z) n) (hv : InCode v)
    (hz : NoneAt z) : ∃ m, Spells v m := by
  cases v with
  | nil =>
    obtain ⟨c, r, rfl, hc⟩ := h.exists_head
    obtain ⟨hword, hquote⟩ := hz c rfl
    rcases hc with hc | ⟨q, rfl⟩
    · rw [hword] at hc
      cases hc
    · exact absurd hquote (by cases q <;> decide)
  | cons c v =>
    generalize hu : c :: v ++ z = u at h
    cases h with
    | @bare w r hne hw =>
      obtain ⟨d, w, rfl⟩ := List.exists_cons_of_ne_nil hne
      obtain ⟨rfl, -⟩ := List.cons.inj hu
      exact exists_spells_of_isWord (hw c List.mem_cons_self) v
    | @quoted d w r hd hne hw =>
      obtain ⟨rfl, hvz⟩ := List.cons.inj hu
      obtain ⟨q, rfl⟩ := exists_quote hd
      obtain ⟨b, s, rfl, hb, -⟩ := hv.tail_quote.exists_quote
      have hb' : q.char ∉ b := fun hmem => absurd (hb _ hmem) (by cases q <;> decide)
      have hbne : b ≠ [] := by
        rintro rfl
        obtain ⟨x, w, rfl⟩ := List.exists_cons_of_ne_nil hne
        exact hw ((List.cons.inj hvz).1 ▸ List.mem_cons_self)
      exact ⟨_, .quoted hd hbne hb'⟩

/-- **A name in code is read as well when more text follows**, and one is where it can be told. -/
theorem read?_append {v : Text} (hv : InCode v) (hz : NoneAt z) :
    read? (v ++ z) = (read? v).map (·.append z) := by
  cases h : read? v with
  | some n =>
    exact read?_eq_some_iff.mpr ((read?_eq_some_iff.mp h).append_code hv hz.atWordEnd).1
  | none =>
    cases hlong : read? (v ++ z) with
    | none => rfl
    | some n =>
      obtain ⟨m, hm⟩ := (read?_eq_some_iff.mp hlong).exists_of_append hv hz
      rw [read?_eq_some_iff.mpr hm] at h
      cases h

/-- Behind a name in code one is in code or still inside quotes. -/
theorem isOpen_rest {v : Text} {n : NameSpan} (hv : InCode v) (h : read? v = some n) :
    IsOpen n.rest :=
  ((read?_eq_some_iff.mp h).append_code hv (z := []) rfl).2

end NameSpan

/-! ### Lists in parentheses -/

/-- A parenthesis that is shown is one in code, so it is closed within the text. -/
theorem IsOpen.exists_paren {v : Text} (h : IsOpen ('(' :: v)) :
    ∃ x r, v = x ++ ')' :: r ∧ ')' ∉ x ∧ InCode r := by
  rcases h with h | ⟨q, h⟩
  · exact h.exists_paren
  · obtain ⟨c, r, heq, hc⟩ := h.exists_head
    obtain ⟨rfl, -⟩ := List.cons.inj heq
    exact absurd hc (by cases q <;> decide)

/-- **A list in parentheses is read as well when more text follows.** -/
theorem parenthesized?_append {v : Text} (hv : IsOpen v) (hz : z.head? ≠ some '(') :
    parenthesized? (v ++ z) =
      (parenthesized? v).map fun p => (p.1 ++ z, p.2.1 ++ z, p.2.2 ++ z) := by
  cases v with
  | nil =>
    cases z with
    | nil => rfl
    | cons c z => exact parenthesized?_of_ne (fun h => hz (congrArg some h)) z
  | cons c v =>
    by_cases hc : c = '('
    · subst hc
      obtain ⟨x, r, rfl, hx, -⟩ := hv.exists_paren
      rw [List.cons_append, List.append_assoc, List.cons_append, parenthesized?_paren hx,
        parenthesized?_paren hx]
      split
      · rfl
      · rw [Option.map_some, List.append_assoc]
        rfl
    · rw [List.cons_append, parenthesized?_of_ne hc, parenthesized?_of_ne hc]
      rfl

end TableTypes
