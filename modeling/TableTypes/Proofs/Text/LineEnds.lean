import TableTypes.Proofs.Text.Blank
import TableTypes.Proofs.Text.Clean

/-!
# Line ends written in another way

`Relined` relates a text to the text with its line ends written as newlines, up to what is left out
at its end.  With the blanks at the front left out as well, a stripped text is related to the text
it comes from (`Relined.strip`).

The readers find the same in both texts, and leave over texts that are related again: a line end is
a blank however it is written, so no word or sign is made or broken.  Where a reader may fail, the
two fail together; this is stated with `Option.Rel`.
-/

namespace TableTypes.Text

/-! ### Related results -/

section

variable {α β : Type} {R : α → α → Prop} {S : β → β → Prop} {a b : Option α}

theorem rel_bind {f g : α → Option β} (h : Option.Rel R a b)
    (hf : ∀ {x y : α}, R x y → Option.Rel S (f x) (g y)) :
    Option.Rel S (a.bind f) (b.bind g) := by
  cases h with
  | some h => exact hf h
  | none => exact .none

theorem rel_map {f g : α → β} (h : Option.Rel R a b) (hf : ∀ {x y : α}, R x y → S (f x) (g y)) :
    Option.Rel S (a.map f) (b.map g) := by
  cases h with
  | some h => exact .some (hf h)
  | none => exact .none

theorem rel_orElse {a' b' : Option α} (h : Option.Rel R a b) (h' : Option.Rel R a' b') :
    Option.Rel R (a <|> a') (b <|> b') := by
  cases h with
  | some h => exact .some h
  | none => exact h'

theorem rel_findSome? {ι : Type} {l : List ι} {f g : ι → Option α}
    (h : ∀ i ∈ l, Option.Rel R (f i) (g i)) : Option.Rel R (l.findSome? f) (l.findSome? g) := by
  induction l with
  | nil => exact .none
  | cons i l ih =>
    rw [List.findSome?_cons, List.findSome?_cons]
    cases hf : f i <;> cases hg : g i <;> have hi := h i List.mem_cons_self <;>
      rw [hf, hg] at hi <;> cases hi
    · exact ih fun j hj => h j (List.mem_cons_of_mem i hj)
    · exact .some ‹_›

theorem rel_getD {x y : α} (h : Option.Rel R a b) (hxy : R x y) : R (a.getD x) (b.getD y) := by
  cases h with
  | some h => exact h
  | none => exact hxy

theorem rel_any {p : α → Bool} (h : Option.Rel R a b) (hp : ∀ {x y : α}, R x y → p x = p y) :
    a.any p = b.any p := by
  cases h with
  | some h => exact hp h
  | none => rfl

theorem any_of_rel {p : α → Bool} (h : Option.Rel R a b)
    (hp : ∀ {x y : α}, R x y → p y = true → p x = true) (hb : b.any p = true) :
    a.any p = true := by
  cases h with
  | some h => exact hp h hb
  | none => exact hb

theorem rel_isSome (h : Option.Rel R a b) : a.isSome = b.isSome := by
  cases h <;> rfl

end

/-! ### Blanks in place of letters -/

theorem matchesLetter_of_isBlank {x c : Char} (hx : isBlank x = false) (hc : isBlank c = true) :
    matchesLetter x c = false := by
  have hlower : c.toLower = c :=
    of_decide_eq_true (of_isBlank (p := fun c => c.toLower = c) (by decide +kernel) hc)
  have hforms : (c = '\u0130' ∨ c = '\u0131') ∨ c = '\u017f' ∨ c = '\u212a' → False := by
    rintro ((rfl | rfl) | rfl | rfl) <;> exact absurd hc (by decide)
  simp only [matchesLetter, hlower, ne_of_isBlank hx hc]
  grind

theorem isAllBlank_of_suffix {u z : Text} (hu : u <:+ z) (hz : isAllBlank z = true) :
    isAllBlank u = true :=
  List.all_eq_true.mpr fun c hc => List.all_eq_true.mp hz c (hu.subset hc)

theorem isAllBlank_dropWhile {p : Char → Bool} (z : Text) :
    isAllBlank z = true → isAllBlank (z.dropWhile p) = true :=
  isAllBlank_of_suffix (List.dropWhile_suffix p)

/-! ### Line ends and blanks at the end -/

/-- `r` is `t` with line ends written as newlines, and without a `rest` at the end of `t`.  A
carriage return is the end of a line by itself if `lone` is set, and else only with a newline behind
it. -/
inductive Relined (lone : Bool) (rest : Text → Bool) : Text → Text → Prop
  | stop {z : Text} (hz : rest z = true) : Relined lone rest z []
  | keep (c : Char) {t r : Text} (h : Relined lone rest t r) : Relined lone rest (c :: t) (c :: r)
  | pair {t r : Text} (h : Relined lone rest t r) :
      Relined lone rest ('\r' :: '\n' :: t) ('\n' :: r)
  | single {t r : Text} (hlone : lone = true) (h : Relined lone rest t r) :
      Relined lone rest ('\r' :: t) ('\n' :: r)

/-- `y` is the content `x` with line ends written as newlines, up to its end. -/
abbrev Respelled : Text → Text → Prop :=
  Relined false List.isEmpty

/-- Whether a carriage return stands in the text without a newline behind it. -/
def hasLoneReturn : Text → Bool
  | [] => false
  | '\r' :: '\n' :: t => hasLoneReturn t
  | c :: t => c = '\r' || hasLoneReturn t

theorem relined_unifyNewlines {lone : Bool} {rest : Text → Bool} (hrest : rest [] = true) {t : Text}
    (h : lone = true ∨ hasLoneReturn t = false) : Relined lone rest t (unifyNewlines t) := by
  fun_induction unifyNewlines t with
  | case1 => exact .stop hrest
  | case2 t ih =>
    rw [hasLoneReturn] at h
    exact .pair (ih h)
  | case3 c t hpair ih =>
    rw [hasLoneReturn.eq_3 c t hpair, Bool.or_eq_false_iff, decide_eq_false_iff_not] at h
    have hrelined := ih (h.imp_right And.right)
    split
    · rename_i hc
      rw [hc] at h ⊢
      exact .single (h.resolve_right fun h => h.1 rfl) hrelined
    · exact .keep c hrelined

namespace Relined

variable {lone : Bool} {rest : Text → Bool} {t r : Text}

/-! ### Parts of related texts -/

theorem exists_of_cons {c : Char} (hc : c ≠ '\n') (h : Relined lone rest t (c :: r)) :
    ∃ u, t = c :: u ∧ Relined lone rest u r := by
  cases h with
  | keep _ h => exact ⟨_, rfl, h⟩
  | pair => exact absurd rfl hc
  | single => exact absurd rfl hc

/-- Both texts begin with a character that is not blank, or none of them does. -/
theorem head_cases {b : Char} (hb : isBlank b = false) (h : Relined lone isAllBlank t r) :
    (∃ u v, t = b :: u ∧ r = b :: v ∧ Relined lone isAllBlank u v) ∨
      (t.head? ≠ some b ∧ r.head? ≠ some b) := by
  have hne : ∀ c, isBlank c = true → some c ≠ some b :=
    fun c hc h => ne_of_isBlank hb hc (Option.some.inj h)
  cases h with
  | @stop z hz =>
    refine .inr ⟨fun hhead => ?_, Option.some_ne_none b ∘ Eq.symm⟩
    have hmem := List.mem_of_mem_head? (Option.mem_def.mpr hhead)
    exact hne b (List.all_eq_true.mp hz b hmem) rfl
  | keep c h =>
    by_cases hc : c = b
    · exact .inl ⟨_, _, hc ▸ rfl, hc ▸ rfl, h⟩
    · exact .inr ⟨fun h => hc (Option.some.inj h), fun h => hc (Option.some.inj h)⟩
  | pair => exact .inr ⟨hne '\r' rfl, hne '\n' rfl⟩
  | single => exact .inr ⟨hne '\r' rfl, hne '\n' rfl⟩

/-- What one text goes on with, the other goes on with. -/
theorem exists_of_suffix {s : Text} (h : Relined lone rest t r) (hs : s <:+ r) :
    ∃ u, u <:+ t ∧ Relined lone rest u s := by
  induction h with
  | stop hz =>
    obtain rfl := List.suffix_nil.mp hs
    exact ⟨_, List.suffix_rfl, .stop hz⟩
  | keep c h ih =>
    rcases List.suffix_cons_iff.mp hs with rfl | hs
    · exact ⟨_, List.suffix_rfl, .keep c h⟩
    · obtain ⟨u, hu, hrelined⟩ := ih hs
      exact ⟨u, hu.trans (List.suffix_cons c _), hrelined⟩
  | pair h ih =>
    rcases List.suffix_cons_iff.mp hs with rfl | hs
    · exact ⟨_, List.suffix_rfl, .pair h⟩
    · obtain ⟨u, hu, hrelined⟩ := ih hs
      exact ⟨u, hu.trans (List.suffix_append ['\r', '\n'] _), hrelined⟩
  | single hlone h ih =>
    rcases List.suffix_cons_iff.mp hs with rfl | hs
    · exact ⟨_, List.suffix_rfl, .single hlone h⟩
    · obtain ⟨u, hu, hrelined⟩ := ih hs
      exact ⟨u, hu.trans (List.suffix_cons '\r' _), hrelined⟩

/-- The front of one text stands at the front of the other up to the line ends, so it is as blank.
-/
theorem exists_of_blanks {l : Text} (hl : ∀ c ∈ l, isBlank c = true)
    (h : Relined lone rest t (l ++ r)) :
    ∃ front u, t = front ++ u ∧ (∀ c ∈ front, isBlank c = true) ∧ Relined lone rest u r := by
  induction l generalizing t with
  | nil => exact ⟨[], t, rfl, fun c hc => absurd hc List.not_mem_nil, h⟩
  | cons c l ih =>
    have hrest : ∀ d ∈ l, isBlank d = true := fun d hd => hl d (List.mem_cons_of_mem c hd)
    -- Whatever the blank comes from is blank.
    obtain ⟨p, v, rfl, hp, h⟩ : ∃ p v, t = p ++ v ∧ (∀ d ∈ p, isBlank d = true) ∧
        Relined lone rest v (l ++ r) := by
      cases h with
      | keep _ h => exact ⟨[c], _, rfl, by simpa using hl c List.mem_cons_self, h⟩
      | pair h => exact ⟨['\r', '\n'], _, rfl, List.all_eq_true.mp rfl, h⟩
      | single _ h => exact ⟨['\r'], _, rfl, List.all_eq_true.mp rfl, h⟩
    obtain ⟨front, u, rfl, hfront, h⟩ := ih hrest h
    refine ⟨p ++ front, u, by rw [List.append_assoc], ?_, h⟩
    intro d hd
    exact (List.mem_append.mp hd).elim (hp d) (hfront d)

theorem isAllBlank_eq (h : Relined lone isAllBlank t r) : t.isAllBlank = r.isAllBlank := by
  unfold isAllBlank
  induction h with
  | stop hz => exact hz
  | keep c _ ih => rw [List.all_cons, List.all_cons, ih]
  | pair _ ih => exact ih
  | single _ _ ih => exact ih

/-- Blanks at the end of what is related may be left out. -/
theorem of_append {z : Text} (hz : ∀ c ∈ z, isBlank c = true) :
    ∀ {t r : Text}, Relined lone isAllBlank t (r ++ z) → Relined lone isAllBlank t r := by
  intro t r h
  induction r generalizing t with
  | nil =>
    apply stop
    rw [h.isAllBlank_eq]
    exact List.all_eq_true.mpr hz
  | cons c r ih =>
    rw [List.cons_append] at h
    cases h with
    | keep _ h => exact .keep c (ih h)
    | pair h => exact .pair (ih h)
    | single hlone h => exact .single hlone (ih h)

theorem append_left (u : Text) (h : Relined lone rest t r) :
    Relined lone rest (u ++ t) (u ++ r) := by
  induction u with
  | nil => exact h
  | cons c u ih => exact .keep c ih

theorem append_right (u : Text) {x y : Text} (h : Respelled x y) : Respelled (x ++ u) (y ++ u) := by
  induction h with
  | stop hz =>
    have hnil : Respelled [] [] := .stop rfl
    simpa [List.isEmpty_iff.mp hz] using hnil.append_left u
  | keep c _ ih => exact .keep c ih
  | pair _ ih => exact .pair ih
  | single hlone => cases hlone

theorem of_blanks {z : Text} (hz : ∀ c ∈ z, isBlank c = true) :
    Relined lone isAllBlank (t ++ z) t := by
  simpa using (stop (List.all_eq_true.mpr hz)).append_left t

/-- **A stripped text is related to what follows the blanks in front.** -/
theorem strip (h : Relined lone isAllBlank t r) :
    ∃ front u, t = front ++ u ∧ (∀ c ∈ front, isBlank c = true) ∧
      Relined lone isAllBlank u r.strip := by
  obtain ⟨l, z, hr, hl, hz⟩ := strip_split r
  rw [hr] at h
  obtain ⟨front, u, ht, hfront, h⟩ := h.exists_of_blanks hl
  exact ⟨front, u, ht, hfront, h.of_append hz⟩

/-! ### Runs of characters -/

section

variable {p : Char → Bool}

theorem head?_any (hp : ∀ c, isBlank c = true → p c = false) (h : Relined lone isAllBlank t r) :
    t.head?.any p = r.head?.any p := by
  cases h with
  | stop hz =>
    cases t with
    | nil => rfl
    | cons c t => exact hp c (List.all_eq_true.mp hz c List.mem_cons_self)
  | keep => rfl
  | pair => exact (hp '\r' rfl).trans (hp '\n' rfl).symm
  | single => exact (hp '\r' rfl).trans (hp '\n' rfl).symm

theorem head?_all (hp : ∀ c, isBlank c = true → p c = true) (h : Relined lone isAllBlank t r) :
    t.head?.all p = r.head?.all p := by
  have hnot : ∀ o : Option Char, o.all p = !o.any (!p ·) := by
    rintro (_ | c) <;> simp
  have hany := h.head?_any (p := (!p ·)) fun c hc => by rw [hp c hc]; rfl
  rw [hnot, hnot, hany]

theorem takeWhile_eq (hp : ∀ c, isBlank c = true → p c = false)
    (h : Relined lone isAllBlank t r) : t.takeWhile p = r.takeWhile p := by
  induction h with
  | @stop z hz =>
    cases z with
    | nil => rfl
    | cons c z =>
      exact List.takeWhile_cons_of_neg
        (Bool.eq_false_iff.mp (hp c (List.all_eq_true.mp hz c List.mem_cons_self)))
  | keep c _ ih => rw [List.takeWhile_cons, List.takeWhile_cons, ih]
  | pair => simp [hp '\r' rfl, hp '\n' rfl]
  | single => simp [hp '\r' rfl, hp '\n' rfl]

/-- A run ends at the same character in both texts, if it takes all line ends or none. -/
theorem dropWhile (hrest : ∀ z, rest z = true → rest (z.dropWhile p) = true) (hp : p '\r' = p '\n')
    (h : Relined lone rest t r) : Relined lone rest (t.dropWhile p) (r.dropWhile p) := by
  induction h with
  | stop hz => exact .stop (hrest _ hz)
  | keep c h ih =>
    rw [List.dropWhile_cons, List.dropWhile_cons]
    split
    · exact ih
    · exact .keep c h
  | pair h ih =>
    rw [List.dropWhile_cons, List.dropWhile_cons, List.dropWhile_cons, hp]
    split
    · exact ih
    · exact .pair h
  | single hlone h ih =>
    rw [List.dropWhile_cons, List.dropWhile_cons, hp]
    split
    · exact ih
    · exact .single hlone h

end

theorem dropBlanks (h : Relined lone isAllBlank t r) :
    Relined lone isAllBlank t.dropBlanks r.dropBlanks :=
  h.dropWhile isAllBlank_dropWhile rfl

/-! ### Readers -/

/-- A first character that is not blank. -/
theorem first? {p : Char → Bool} {f : Text → Option Text} (hp : ∀ c, isBlank c = true → p c = false)
    (hf : ∀ {t r : Text}, Relined lone isAllBlank t r →
      Option.Rel (Relined lone isAllBlank) (f t) (f r))
    (h : Relined lone isAllBlank t r) :
    Option.Rel (Relined lone isAllBlank) (first? p f t) (first? p f r) := by
  have hblank : ∀ {c : Char}, isBlank c = true → ∀ s, Text.first? p f (c :: s) = none :=
    fun hc s => by rw [Text.first?, hp _ hc]; rfl
  cases h with
  | stop hz =>
    cases t with
    | nil => exact .none
    | cons c t =>
      rw [hblank (List.all_eq_true.mp hz c List.mem_cons_self)]
      exact .none
  | keep c h =>
    rw [Text.first?, Text.first?]
    split
    · exact hf h
    · exact .none
  | pair =>
    rw [hblank rfl, hblank rfl]
    exact .none
  | single =>
    rw [hblank rfl, hblank rfl]
    exact .none

theorem after? {w : Text} (hw : w.any isBlank = false) (h : Relined lone isAllBlank t r) :
    Option.Rel (Relined lone isAllBlank) (after? w t) (after? w r) := by
  induction w generalizing t r with
  | nil => exact .some h
  | cons x w ih =>
    rw [List.any_cons, Bool.or_eq_false_iff] at hw
    have hfirst : Text.after? (x :: w) = Text.first? (decide <| x = ·) (Text.after? w) := by
      funext s
      cases s <;> simp [Text.after?, Text.first?]
    rw [hfirst]
    exact h.first? (fun c hc => decide_eq_false (ne_of_isBlank hw.1 hc).symm) (ih hw.2)

theorem keyword? {k : Text} (hk : k.any isBlank = false) (h : Relined lone isAllBlank t r) :
    Option.Rel (Relined lone isAllBlank) (keyword? k t) (keyword? k r) := by
  induction k generalizing t r with
  | nil => exact .some h
  | cons x k ih =>
    rw [List.any_cons, Bool.or_eq_false_iff] at hk
    have hfirst : Text.keyword? (x :: k) = Text.first? (matchesLetter x) (Text.keyword? k) := by
      funext s
      cases s <;> rfl
    rw [hfirst]
    exact h.first? (fun c => matchesLetter_of_isBlank hk.1) (ih hk.2)

/-- Blanks that something stands behind. -/
theorem dropBlanks1?_bind {α : Type} {R : α → α → Prop} {f : Text → Option α} (hnil : f [] = none)
    (hf : ∀ {t r : Text}, Relined lone isAllBlank t r → Option.Rel R (f t) (f r))
    (h : Relined lone isAllBlank t r) :
    Option.Rel R ((dropBlanks1? t).bind f) ((dropBlanks1? r).bind f) := by
  cases h with
  | stop hz =>
    cases t with
    | nil => exact .none
    | cons c t =>
      -- Only here the blanks may be of one text alone, but then nothing is behind them.
      have hc := List.all_eq_true.mp hz c List.mem_cons_self
      have ht : Text.dropBlanks t = [] := List.dropWhile_eq_nil_iff.mpr fun d hd =>
        List.all_eq_true.mp hz d (List.mem_cons_of_mem c hd)
      have hstop : (dropBlanks1? (c :: t)).bind f = none := by
        rw [dropBlanks1?, if_pos hc, ht, Option.bind_some, hnil]
      rw [hstop]
      exact .none
  | keep c h =>
    rw [dropBlanks1?, dropBlanks1?]
    split
    · exact hf h.dropBlanks
    · exact .none
  | pair h => exact hf h.dropBlanks
  | single _ h => exact hf h.dropBlanks

theorem phrase? {ws : List Text} (hws : ∀ w ∈ ws, w ≠ [] ∧ w.any isBlank = false)
    (h : Relined lone isAllBlank t r) :
    Option.Rel (Relined lone isAllBlank) (phrase? ws t) (phrase? ws r) := by
  induction ws generalizing t r with
  | nil => exact .some h
  | cons w ws ih =>
    have hrest := fun v hv => hws v (List.mem_cons_of_mem w hv)
    cases ws with
    | nil => exact h.keyword? (hws w List.mem_cons_self).2
    | cons v ws =>
      rw [phrase?_cons_cons, phrase?_cons_cons]
      refine rel_bind (h.keyword? (hws w List.mem_cons_self).2) fun hs => ?_
      exact hs.dropBlanks1?_bind (phrase?_nil (hrest v List.mem_cons_self).1) (ih hrest)

end Relined

end TableTypes.Text
