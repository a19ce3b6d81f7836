import TableTypes.Proofs.Scan.Piece
import TableTypes.Proofs.Statement.Options
import TableTypes.Proofs.Text.Replace

/-!
# The two ways to escape a quote

A quote inside a literal is doubled or stands behind a backslash.  A text without backslashes that
is written in one of the two ways is read up to its closing quote by both readers of literals
(`Escaping.columnLiteral?_write`, `Escaping.optionLiteral?_write`), and `unescape` gives the text
back (`Escaping.unescape_write`): of the three replacements that it makes, one takes off what was
written in front of each quote, and the other two find nothing.
-/

namespace TableTypes

open Text

/-- A way to write a quote inside a literal. -/
inductive Escaping where
  | doubled
  | backslash
  deriving DecidableEq, Repr

namespace Escaping

/-- The character that stands in front of a quote inside a literal. -/
def lead (q : Quote) : Escaping → Char
  | doubled => q.char
  | backslash => '\\'

/-- A text as it is written between quotes. -/
def write (e : Escaping) (q : Quote) (t : Text) : Text :=
  t.flatMap fun c => if c = q.char then [e.lead q, c] else [c]

/-- The literal of a text. -/
def literal (e : Escaping) (q : Quote) (t : Text) : Text :=
  q.enclose (e.write q t)

variable {e : Escaping} {q : Quote} {c : Char} {t s : Text}

theorem write_quote (e : Escaping) (q : Quote) (t : Text) :
    e.write q (q.char :: t) = e.lead q :: q.char :: e.write q t := by
  rw [write, List.flatMap_cons, if_pos rfl]
  rfl

theorem write_of_ne (e : Escaping) (hc : c ≠ q.char) (t : Text) :
    e.write q (c :: t) = c :: e.write q t := by
  rw [write, List.flatMap_cons, if_neg hc]
  rfl

theorem write_ne_nil (ht : t ≠ []) : e.write q t ≠ [] := by
  obtain ⟨c, t, rfl⟩ := List.exists_cons_of_ne_nil ht
  by_cases hc : c = q.char
  · rw [hc, write_quote]
    exact List.cons_ne_nil _ _
  · rw [write_of_ne e hc]
    exact List.cons_ne_nil _ _

theorem literal_append (e : Escaping) (q : Quote) (t s : Text) :
    e.literal q t ++ s = q.char :: (e.write q t ++ q.char :: s) := by
  rw [literal, Quote.enclose, List.cons_append, List.append_assoc]
  rfl

/-- A text is written with its own characters and what stands in front of a quote. -/
theorem mem_write (h : c ∈ e.write q t) : c ∈ t ∨ c = q.char ∨ c = '\\' := by
  obtain ⟨d, hd, hc⟩ := List.mem_flatMap.mp h
  split at hc
  · rename_i hquote
    rcases List.mem_cons.mp hc with rfl | hc
    · cases e
      · exact Or.inr (Or.inl rfl)
      · exact Or.inr (Or.inr rfl)
    · exact Or.inl (List.mem_singleton.mp hc ▸ hd)
  · exact Or.inl (List.mem_singleton.mp hc ▸ hd)

theorem char_ne_backslash (q : Quote) : q.char ≠ '\\' := by
  cases q <;> decide

/-! ### Reading a literal -/

/-- The reader of a column takes all that is written for a text. -/
theorem columnLiteral?_write (e : Escaping) (ht : '\\' ∉ t) (hs : s.head? ≠ some q.char) :
    columnLiteral? q.char (e.write q t ++ q.char :: s) = some (e.write q t) := by
  have hcloses : ∀ u : Text, (u ++ q.char :: s).contains q.char = true := by
    intro u
    rw [List.contains_iff_mem]
    exact List.mem_append_right u List.mem_cons_self
  induction t with
  | nil =>
    cases s with
    | nil =>
      show columnLiteral? q.char [q.char] = some []
      rw [columnLiteral?, if_pos rfl]
    | cons d s =>
      have hd : d ≠ q.char := fun h => hs (congrArg some h)
      show columnLiteral? q.char (q.char :: d :: s) = some []
      rw [columnLiteral?, if_pos rfl, decide_eq_false hd]
      rfl
  | cons c t ih =>
    have hrest := ih fun h => ht (List.mem_cons_of_mem c h)
    by_cases hc : c = q.char
    · subst hc
      rw [write_quote, List.cons_append, List.cons_append, columnLiteral?, hcloses, hrest]
      cases e with
      | doubled =>
        rw [lead, if_pos rfl, decide_eq_true rfl]
        rfl
      | backslash =>
        rw [lead, if_neg (char_ne_backslash q).symm]
        rfl
    · have hslash : c ≠ '\\' := fun h => ht (h ▸ List.mem_cons_self)
      obtain ⟨d, u, hu⟩ : ∃ d u, e.write q t ++ q.char :: s = d :: u :=
        List.exists_cons_of_ne_nil (by simp)
      rw [hu] at hrest
      rw [write_of_ne e hc, List.cons_append, hu, columnLiteral?, if_neg hc,
        decide_eq_false hslash, hrest]
      rfl

/-- The reader of table options takes all that is written for a text. -/
theorem optionLiteral?_write (e : Escaping) (ht : '\\' ∉ t) (hs : s.head? ≠ some '\'') :
    optionLiteral? (e.write .single t ++ '\'' :: s) = some (e.write .single t, s) := by
  induction t with
  | nil => exact optionLiteral?_close hs
  | cons c t ih =>
    have hrest := ih fun h => ht (List.mem_cons_of_mem c h)
    by_cases hc : c = '\''
    · subst hc
      have hwrite : e.write .single ('\'' :: t) = e.lead .single :: '\'' :: e.write .single t :=
        write_quote e .single t
      rw [hwrite, List.cons_append, List.cons_append]
      cases e with
      | doubled =>
        show optionLiteral? ('\'' :: '\'' :: _) = _
        rw [optionLiteral?, hrest]
        rfl
      | backslash =>
        show optionLiteral? ('\\' :: '\'' :: _) = _
        rw [optionLiteral?, hrest]
        rfl
    · have hslash : c ≠ '\\' := fun h => ht (h ▸ List.mem_cons_self)
      have hwrite : e.write .single (c :: t) = c :: e.write .single t := write_of_ne e hc t
      rw [hwrite, List.cons_append, optionLiteral?_ordinary _ hc hslash, hrest]
      rfl

/-! ### What was written -/

/-- What stands in front of each quote is taken off again. -/
theorem replace_write (e : Escaping) (q : Quote) (ht : '\\' ∉ t) :
    replace [e.lead q, q.char] [q.char] (e.write q t) = t := by
  rw [replace]
  induction t with
  | nil => rfl
  | cons c t ih =>
    have hrest := ih fun h => ht (List.mem_cons_of_mem c h)
    by_cases hc : c = q.char
    · subst hc
      have hafter : after? [e.lead q, q.char] (e.lead q :: ([q.char] ++ e.write q t)) =
          some (e.write q t) := after?_eq_some_iff.mpr rfl
      rw [write_quote]
      exact (replaceAll_match hafter).trans (congrArg ([q.char] ++ ·) hrest)
    · have hlead : c ≠ e.lead q := by
        cases e with
        | doubled => exact hc
        | backslash => exact fun h => ht (h ▸ List.mem_cons_self)
      have hafter : after? [e.lead q, q.char] (c :: e.write q t) = none :=
        after?_eq_none fun r hr => hlead (List.cons.inj hr).1
      rw [write_of_ne e hc, replaceAll_cons hafter, hrest]

/-- Written with backslashes, a text has a backslash exactly in front of each quote. -/
theorem pair_backslash (ht : '\\' ∉ t) {b : Char} : ∀ a, a ≠ '\\' →
    [b, c] <:+: a :: backslash.write q t → (b = '\\' ↔ c = q.char) := by
  induction t with
  | nil => exact fun a _ h => absurd h (not_pair_infix_singleton b c a)
  | cons d t ih =>
    have hrest := ih fun h => ht (List.mem_cons_of_mem d h)
    intro a ha h
    by_cases hd : d = q.char
    · subst hd
      have hslash : q.char ≠ '\\' := char_ne_backslash q
      rw [write_quote, lead, pair_infix_cons, pair_infix_cons] at h
      rcases h with ⟨rfl, rfl⟩ | ⟨rfl, rfl⟩ | h
      · exact iff_of_false ha hslash.symm
      · exact iff_of_true rfl rfl
      · exact hrest q.char hslash h
    · have hslash : d ≠ '\\' := fun h => ht (h ▸ List.mem_cons_self)
      rw [write_of_ne _ hd, pair_infix_cons] at h
      rcases h with ⟨rfl, rfl⟩ | h
      · exact iff_of_false ha hd
      · exact hrest d hslash h

/-- What is written is left alone by a replacement of another pair. -/
theorem replace_backslash (ht : '\\' ∉ t) {b d : Char} (hpair : ¬ (b = '\\' ↔ d = q.char)) :
    replace [b, d] [d] (backslash.write q t) = backslash.write q t :=
  replace_of_not_infix fun h => hpair (pair_backslash ht 'a' (by decide)
    (h.trans (List.suffix_cons 'a' _).isInfix))

/-- **What is written for a text is read as the text.** -/
theorem unescape_write (e : Escaping) (hq : q ≠ .backtick) (ht : '\\' ∉ t) :
    unescape q.char (e.write q t) = t := by
  have hplain : ∀ d : Char, replace ['\\', d] [d] t = t := fun d => replace_eq_self ht
  show replace ['\\', '"'] ['"'] (replace ['\\', '\''] ['\'']
    (replace [q.char, q.char] [q.char] (e.write q t))) = t
  cases e with
  | doubled =>
    have hundo : replace [q.char, q.char] [q.char] (doubled.write q t) = t :=
      replace_write doubled q ht
    rw [hundo, hplain, hplain]
  | backslash =>
    rw [replace_backslash ht fun h => char_ne_backslash q (h.mpr rfl)]
    cases q with
    | single =>
      have hundo : replace ['\\', '\''] ['\''] (backslash.write .single t) = t :=
        replace_write backslash .single ht
      rw [hundo, hplain]
    | double =>
      have hundo : replace ['\\', '"'] ['"'] (backslash.write .double t) = t :=
        replace_write backslash .double ht
      rw [replace_backslash ht (by decide), hundo]
    | backtick => exact absurd rfl hq

end Escaping

end TableTypes
