import TableTypes.Source
import Mathlib.Data.List.TakeWhile

/-!
# Cutting texts

A position in a text is given by what follows it, so a piece of a text is cut out by two suffixes.
The lemmas here name the piece when the text is written as a product of pieces; the suffixes only
have to be as long as those of the text, since they may come from a masked copy.
-/

namespace TableTypes.Text

/-! ### Pieces between suffixes -/

theorem slice_append (p a b : Text) {start stop : Nat} (hstart : start = p.length)
    (hstop : stop = p.length + a.length) : slice (p ++ a ++ b) start stop = a := by
  rw [slice, hstart, hstop, List.append_assoc, List.drop_left, Nat.add_sub_cancel_left,
    List.take_left]

theorem between_append (p a b : Text) {first last : Text}
    (hfirst : first.length = a.length + b.length) (hlast : last.length = b.length) :
    between (p ++ a ++ b) first last = a := by
  rw [between]
  apply slice_append
  · simp only [List.length_append]; omega
  · simp only [List.length_append]; omega

/-- A piece is cut out by texts that are as long as the piece and what follows it. -/
theorem between_like (p : Text) {a b u v : Text} (hu : u.length = a.length)
    (hv : v.length = b.length) : between (p ++ (a ++ b)) (u ++ v) v = a := by
  rw [← List.append_assoc]
  exact between_append p a b (by rw [List.length_append, hu, hv]) hv

theorem suffixLike_append (p b : Text) {r : Text} (hr : r.length = b.length) :
    suffixLike (p ++ b) r = b := by
  rw [suffixLike, List.length_append, hr, Nat.add_sub_cancel, List.drop_left]

/-- A piece of a text is cut out alike when more stands around the text. -/
theorem between_inside {x t y z first last : Text} (hfirst : first.length ≤ t.length)
    (hlength : y.length = z.length) :
    between (x ++ (t ++ y)) (first ++ z) (last ++ z) = between t first last := by
  have hplace : ∀ w : Text, (x ++ (t ++ y)).length - (w ++ z).length =
      x.length + t.length - w.length := by
    intro w
    simp only [List.length_append]
    omega
  have hdrop : (x ++ (t ++ y)).drop (x.length + t.length - first.length) =
      t.drop (t.length - first.length) ++ y := by
    rw [Nat.add_sub_assoc hfirst, List.drop_append, List.drop_of_length_le (by omega),
      Nat.add_sub_cancel_left, List.nil_append, List.drop_append_of_le_length (by omega)]
  rw [between, between, hplace, hplace, slice, slice, hdrop,
    List.take_append_of_le_length (by rw [List.length_drop]; omega)]
  congr 1
  omega

/-- A suffix is as long as before when more text stands around. -/
theorem suffixLike_inside {x t y r z : Text} (hr : r.length ≤ t.length)
    (hlength : y.length = z.length) : suffixLike (x ++ (t ++ y)) (r ++ z) = suffixLike t r ++ y := by
  have hplace : (x ++ (t ++ y)).length - (r ++ z).length = x.length + (t.length - r.length) := by
    simp only [List.length_append]
    omega
  rw [suffixLike, suffixLike, hplace, List.drop_append, List.drop_of_length_le (by omega),
    Nat.add_sub_cancel_left, List.nil_append, List.drop_append_of_le_length (by omega)]

/-! ### Runs -/

section

variable {p : Char → Bool} {w t : Text}

/-- A run ends where a character does not satisfy `p` any more. -/
theorem takeWhile_run (hw : ∀ c ∈ w, p c = true) (ht : ∀ c ∈ t.head?, p c = false) :
    (w ++ t).takeWhile p = w := by
  rw [List.takeWhile_append_of_pos hw]
  cases t with
  | nil => simp
  | cons c t => rw [List.takeWhile_cons, ht c rfl]; simp

theorem dropWhile_run (hw : ∀ c ∈ w, p c = true) (ht : ∀ c ∈ t.head?, p c = false) :
    (w ++ t).dropWhile p = t := by
  rw [List.dropWhile_append_of_pos hw]
  cases t with
  | nil => rfl
  | cons c t => rw [List.dropWhile_cons, ht c rfl]; rfl

/-- A text is dropped up to the first `c`. -/
theorem dropWhile_ne {c : Char} {w : Text} (hw : c ∉ w) (t : Text) :
    (w ++ c :: t).dropWhile (· ≠ c) = c :: t := by
  refine dropWhile_run (fun d hd => ?_) (fun d hd => ?_)
  · exact decide_eq_true fun h => hw (h ▸ hd)
  · obtain rfl := Option.some.inj hd
    exact decide_eq_false fun h => h rfl

theorem dropEndWhile_cons (p : Char → Bool) (c : Char) (t : Text) :
    dropEndWhile p (c :: t) = if (c :: t).all p then [] else c :: dropEndWhile p t := by
  rw [dropEndWhile, List.reverse_cons, List.dropWhile_append]
  by_cases hc : p c = true <;> split <;> simp_all [dropEndWhile]

/-- What is taken off the end of a text. -/
theorem dropEndWhile_split (p : Char → Bool) (t : Text) :
    ∃ s, t = dropEndWhile p t ++ s ∧ ∀ c ∈ s, p c = true := by
  refine ⟨(t.reverse.takeWhile p).reverse, ?_, ?_⟩
  · rw [dropEndWhile, ← List.reverse_append, List.takeWhile_append_dropWhile, List.reverse_reverse]
  · exact fun c hc => List.all_eq_true.mp List.all_takeWhile c (List.mem_reverse.mp hc)

theorem dropEndWhile_run {s : Text} {c : Char} (hc : p c = false)
    (hs : ∀ d ∈ s, p d = true) (u : Text) : dropEndWhile p (u ++ c :: s) = u ++ [c] := by
  rw [dropEndWhile, List.reverse_append, List.reverse_cons, List.append_assoc,
    dropWhile_run (fun d hd => hs d (List.mem_reverse.mp hd))]
  · simp
  · intro d hd
    exact Option.some.inj hd ▸ hc

end

/-! ### Blanks -/

theorem dropBlanks_of_head {c : Char} (t : Text) (hc : isBlank c = false) :
    dropBlanks (c :: t) = c :: t := by
  rw [dropBlanks, List.dropWhile_cons, hc]
  rfl

theorem dropBlanks_space (t : Text) : dropBlanks (' ' :: t) = dropBlanks t := rfl

theorem dropBlanks1?_of_head {c : Char} (t : Text) (hc : isBlank c = false) :
    dropBlanks1? (c :: t) = none := by
  rw [dropBlanks1?, hc]
  rfl

theorem isBlank_of_head?_dropWhile {t : Text} {c : Char}
    (hc : (t.dropWhile isBlank).head? = some c) : isBlank c = false := by
  have h := List.head?_dropWhile_not isBlank t
  rwa [hc] at h

theorem isAllBlank_iff {t : Text} : isAllBlank t = true ↔ ∀ c ∈ t, isBlank c = true :=
  List.all_eq_true

theorem isAllBlank_append (x y : Text) : isAllBlank (x ++ y) = (isAllBlank x && isAllBlank y) :=
  List.all_append

theorem isAllBlank_of_solid {c : Char} (hc : isBlank c = false) (x y : Text) :
    isAllBlank (x ++ c :: y) = false := by
  rw [isAllBlank, List.all_append, List.all_cons, hc, Bool.false_and, Bool.and_false]

theorem solid?_of_isAllBlank {t : Text} (h : isAllBlank t = false) :
    (Source.text t).solid? = some t := by
  rw [Source.solid?, h]
  rfl

/-- A text is blank or has a first character that is not. -/
theorem isAllBlank_or_split (t : Text) : isAllBlank t = true ∨
    ∃ w c u, t = w ++ c :: u ∧ isAllBlank w = true ∧ isBlank c = false := by
  by_cases h : isAllBlank t = true
  · exact Or.inl h
  · right
    have hrest : t.dropWhile isBlank ≠ [] := fun hnil =>
      h (isAllBlank_iff.mpr (List.dropWhile_eq_nil_iff.mp hnil))
    obtain ⟨c, u, hcu⟩ := List.exists_cons_of_ne_nil hrest
    refine ⟨t.takeWhile isBlank, c, u, ?_, List.all_takeWhile, ?_⟩
    · rw [← hcu, List.takeWhile_append_dropWhile]
    · exact isBlank_of_head?_dropWhile (t := t) (by rw [hcu, List.head?_cons])

theorem dropBlanks_of_isAllBlank {w : Text} (hw : isAllBlank w = true) (t : Text) :
    dropBlanks (w ++ t) = dropBlanks t :=
  List.dropWhile_append_of_pos (isAllBlank_iff.mp hw)

theorem dropBlanks_append_cons {c : Char} (hc : isBlank c = false) (x y : Text) :
    dropBlanks (x ++ c :: y) = dropBlanks x ++ c :: y := by
  rw [dropBlanks, dropBlanks, List.dropWhile_append]
  split_ifs with h
  · rw [List.isEmpty_iff.mp h]
    exact dropBlanks_of_head y hc
  · rfl

/-- A text that is not trimmed at either end stays as it is. -/
theorem trim_eq_self {p : Char → Bool} {t : Text} (hhead : ∀ c ∈ t.head?, p c = false)
    (hlast : ∀ c ∈ t.getLast?, p c = false) : trim p t = t := by
  have hdrop : ∀ {u : Text}, (∀ c ∈ u.head?, p c = false) → u.dropWhile p = u := by
    intro u hu
    cases u with
    | nil => rfl
    | cons c u => rw [List.dropWhile_cons, hu c rfl]; rfl
  rw [trim, dropEndWhile, hdrop hhead, hdrop, List.reverse_reverse]
  intro c hc
  rw [List.head?_reverse] at hc
  exact hlast c hc

/-- A text without a blank at either end has nothing to strip. -/
theorem strip_eq_self {t : Text} (hhead : ∀ c ∈ t.head?, isBlank c = false)
    (hlast : ∀ c ∈ t.getLast?, isBlank c = false) : strip t = t :=
  trim_eq_self hhead hlast

theorem strip_append_of_blank {w : Text} (hw : ∀ c ∈ w, isBlank c = true) (t : Text) :
    strip (w ++ t) = strip t := by
  rw [strip, trim, strip, trim, List.dropWhile_append_of_pos hw]

/-- Stripping takes blanks off either end. -/
theorem strip_split (t : Text) : ∃ l r, t = l ++ (strip t ++ r) ∧ (∀ c ∈ l, isBlank c = true) ∧
    ∀ c ∈ r, isBlank c = true := by
  obtain ⟨r, hend, hr⟩ := dropEndWhile_split isBlank (t.dropWhile isBlank)
  refine ⟨t.takeWhile isBlank, r, ?_, isAllBlank_iff.mp List.all_takeWhile, hr⟩
  rw [strip, trim, ← hend, List.takeWhile_append_dropWhile]

theorem isBlank_of_getLast?_strip {t : Text} : ∀ c ∈ (strip t).getLast?, isBlank c = false := by
  intro c hc
  rw [strip, trim, dropEndWhile, List.getLast?_reverse] at hc
  exact isBlank_of_head?_dropWhile hc

theorem isBlank_of_head?_strip {t : Text} : ∀ c ∈ (strip t).head?, isBlank c = false := by
  intro c hc
  obtain ⟨r, hr, -⟩ := dropEndWhile_split isBlank (t.dropWhile isBlank)
  apply isBlank_of_head?_dropWhile (t := t)
  rw [hr, List.head?_append, ← trim, ← strip, Option.mem_def.mp hc]
  rfl

/-- What is stripped has nothing to strip any more. -/
theorem strip_strip (t : Text) : strip (strip t) = strip t :=
  strip_eq_self isBlank_of_head?_strip isBlank_of_getLast?_strip

/-- Nothing is left of a text only if it is all blank. -/
theorem strip_eq_nil_iff {t : Text} : strip t = [] ↔ ∀ c ∈ t, isBlank c = true := by
  constructor
  · intro h c hc
    obtain ⟨l, r, ht, hl, hr⟩ := strip_split t
    rw [h, List.nil_append] at ht
    rw [ht] at hc
    rcases List.mem_append.mp hc with hc | hc
    · exact hl c hc
    · exact hr c hc
  · intro h
    rw [strip, trim, dropEndWhile, List.dropWhile_eq_nil_iff.mpr h]
    rfl

/-- Stripping takes nothing from a piece in front that has no blank at its ends. -/
theorem exists_strip_append {a : Text} (hne : a ≠ []) (hhead : ∀ c ∈ a.head?, isBlank c = false)
    (hlast : ∀ c ∈ a.getLast?, isBlank c = false) (s : Text) : ∃ r, strip (a ++ s) = a ++ r := by
  obtain ⟨c, u, rfl⟩ := List.exists_cons_of_ne_nil hne
  have hfront : (c :: u ++ s).dropWhile isBlank = c :: u ++ s := by
    rw [List.cons_append, List.dropWhile_cons, hhead c rfl]
    rfl
  have hback : (c :: u).reverse.dropWhile isBlank = (c :: u).reverse := by
    have h : ∀ d ∈ (c :: u).reverse.head?, isBlank d = false := by
      rwa [List.head?_reverse]
    generalize (c :: u).reverse = v at h
    cases v with
    | nil => rfl
    | cons d v => rw [List.dropWhile_cons, h d rfl]; rfl
  rw [strip, trim, dropEndWhile, hfront, List.reverse_append, List.dropWhile_append]
  split
  · rw [hback, List.reverse_reverse]
    exact ⟨[], (List.append_nil _).symm⟩
  · rw [List.reverse_append, List.reverse_reverse]
    exact ⟨_, rfl⟩

/-- Stripping takes nothing from a piece behind that has no blanks. -/
theorem suffix_strip {s : Text} (hs : ∀ c ∈ s, isBlank c = false) (x : Text) :
    s <:+ strip (x ++ s) := by
  have hdrop : s.dropWhile isBlank = s := by
    cases s with
    | nil => rfl
    | cons c s => exact dropBlanks_of_head s (hs c List.mem_cons_self)
  have hfront : s <:+ (x ++ s).dropWhile isBlank := by
    rw [List.dropWhile_append, hdrop]
    split_ifs
    · exact List.suffix_rfl
    · exact List.suffix_append _ s
  obtain ⟨y, hy⟩ := hfront
  rw [strip, trim, ← hy]
  rcases List.eq_nil_or_concat s with rfl | ⟨u, d, rfl⟩
  · exact List.nil_suffix
  · rw [List.concat_eq_append] at hs ⊢
    rw [← List.append_assoc, dropEndWhile_run (hs d (by simp)) (by simp), List.append_assoc]
    exact List.suffix_append y _

theorem strip_isEmpty {t : Text} (ht : isAllBlank t = false) : (strip t).isEmpty = false := by
  rw [← Bool.not_eq_true, List.isEmpty_iff, strip_eq_nil_iff, ← isAllBlank_iff, ht]
  decide

/-- A text without blanks has nothing to strip. -/
theorem strip_of_forall {t : Text} (h : ∀ c ∈ t, isBlank c = false) : strip t = t :=
  strip_eq_self (fun c hc => h c (List.mem_of_mem_head? hc))
    fun c hc => h c (List.mem_of_mem_getLast? hc)

/-! ### Joining and splitting -/

theorem join_cons (separator x : Text) (xs : List Text) :
    join separator (x :: xs) = x ++ xs.flatMap (separator ++ ·) := by
  induction xs generalizing x with
  | nil => simp [join, List.intercalate]
  | cons y ys ih =>
    rw [List.flatMap_cons, List.append_assoc, ← ih y]
    simp [join, List.intercalate, List.intersperse]

theorem join_cons_cons (separator x y : Text) (xs : List Text) :
    join separator (x :: y :: xs) = x ++ (separator ++ join separator (y :: xs)) := by
  rw [join_cons, join_cons, List.flatMap_cons, List.append_assoc]

theorem mem_of_mem_join {x : Char} {separator : Text} {parts : List Text}
    (h : x ∈ join separator parts) :
    x ∈ separator ∨ ∃ p ∈ parts, x ∈ p := by
  cases parts with
  | nil => cases h
  | cons p parts =>
    rw [join_cons, List.mem_append, List.mem_flatMap] at h
    rcases h with h | ⟨q, hq, h⟩
    · exact Or.inr ⟨p, List.mem_cons_self, h⟩
    · rcases List.mem_append.mp h with h | h
      · exact Or.inl h
      · exact Or.inr ⟨q, List.mem_cons_of_mem p hq, h⟩

theorem splitOnChar_ne_nil (separator : Char) (t : Text) : splitOnChar separator t ≠ [] := by
  cases t with
  | nil => exact List.cons_ne_nil _ _
  | cons c t =>
    rw [splitOnChar]
    split
    · exact List.cons_ne_nil _ _
    · split <;> exact List.cons_ne_nil _ _

theorem not_mem_of_splitOnChar {separator : Char} {t p : Text} (hp : p ∈ splitOnChar separator t) :
    separator ∉ p := by
  fun_induction splitOnChar separator t generalizing p with
  | case1 =>
    obtain rfl := List.mem_singleton.mp hp
    exact List.not_mem_nil
  | case2 t ih =>
    rcases List.mem_cons.mp hp with rfl | hp
    · exact List.not_mem_nil
    · exact ih hp
  | case3 c t hc hnil => exact absurd hnil (splitOnChar_ne_nil separator t)
  | case4 c t hc q qs hqs ih =>
    rw [hqs] at ih
    rcases List.mem_cons.mp hp with rfl | hp
    · rw [List.mem_cons, not_or]
      exact ⟨fun h => hc h.symm, ih List.mem_cons_self⟩
    · exact ih (List.mem_cons_of_mem q hp)

theorem splitOnChar_append (separator : Char) (x y : Text) :
    splitOnChar separator (x ++ separator :: y) =
      splitOnChar separator x ++ splitOnChar separator y := by
  induction x with
  | nil =>
    show splitOnChar separator (separator :: y) = [] :: splitOnChar separator y
    rw [splitOnChar, if_pos rfl]
  | cons c x ih =>
    rw [List.cons_append, splitOnChar, splitOnChar, ih]
    split_ifs
    · rfl
    · obtain ⟨p, ps, hps⟩ := List.exists_cons_of_ne_nil (splitOnChar_ne_nil separator x)
      rw [hps]
      rfl

theorem splitOnChar_of_not_mem {separator : Char} {w : Text} (hw : separator ∉ w) :
    splitOnChar separator w = [w] := by
  induction w with
  | nil => rfl
  | cons c w ih =>
    have hc : c ≠ separator := fun h => hw (h ▸ List.mem_cons_self)
    rw [splitOnChar, if_neg hc, ih fun h => hw (List.mem_cons_of_mem c h)]

/-- The parts of a joined text are those it was joined from, if none has the separator in it. -/
theorem splitOnChar_join {separator : Char} {parts : List Text} (hne : parts ≠ [])
    (hparts : ∀ p ∈ parts, separator ∉ p) : splitOnChar separator (join [separator] parts) = parts := by
  induction parts with
  | nil => exact absurd rfl hne
  | cons p parts ih =>
    rw [List.forall_mem_cons] at hparts
    cases parts with
    | nil => rw [join_cons, List.flatMap_nil, List.append_nil, splitOnChar_of_not_mem hparts.1]
    | cons q parts =>
      rw [join_cons_cons, List.singleton_append, splitOnChar_append,
        splitOnChar_of_not_mem hparts.1, ih (List.cons_ne_nil q parts) hparts.2]
      rfl

end TableTypes.Text
