import TableTypes.Proofs.Text.Search
import TableTypes.Proofs.Text.Word

/-!
# Finding a phrase among words

`findWord` looks for what a reader accepts at the beginning of a word.  A reader that only accepts
what begins with one of some keywords (`Opens`) accepts nothing at characters that belong to no word
and nothing at other words, so a search passes over both (`findWord_nonword`, `findWord_word`).
-/

namespace TableTypes.Text

variable {α : Type}

/-- What `f` reads where it first succeeds at the beginning of a word, behind the character
`before`. -/
def findWordFrom (f : Text → Option α) (before : Option Char) (t : Text) : Option α :=
  (suffixes before t).findSome? fun s => if atWordStart s.1 then f s.2 else none

/-- What `f` reads where it first succeeds at the beginning of a word. -/
def findWord (f : Text → Option α) (t : Text) : Option α :=
  findWordFrom f none t

theorem find?_eq_findWord (f : Text → Option α) (t : Text) :
    find? (fun before s => if atWordStart before then f s else none) t = findWord f t := rfl

theorem hasPhrase_eq_findWord (ws : List Text) (t : Text) :
    hasPhrase ws t = (findWord (wholePhrase? ws) t).isSome := rfl

/-- The reader `f` succeeds at no word but the keywords `ks`, and nowhere outside words.  A keyword
is no numeral. -/
structure Opens (ks : List Text) (f : Text → Option α) : Prop where
  initial : ks.all (fun k => k.head?.any (!isAsciiDigit ·)) = true
  at_word : ∀ w s : Text, (∀ c ∈ w, isAsciiWord c = true) → atWordEnd s = true →
    w.map Char.toLower ∉ ks → f (w ++ s) = none

variable {f : Text → Option α}

theorem findWordFrom_nil (before : Option Char) :
    findWordFrom f before [] = if atWordStart before then f [] else none := by
  rw [findWordFrom, suffixes, List.findSome?_cons]
  cases (if atWordStart before then f [] else none) <;> rfl

theorem findWordFrom_cons (before : Option Char) (c : Char) (t : Text) :
    findWordFrom f before (c :: t) =
      ((if atWordStart before then f (c :: t) else none).or (findWordFrom f (some c) t)) := by
  rw [findWordFrom, suffixes, List.findSome?_cons]
  cases (if atWordStart before then f (c :: t) else none) <;> rfl

/-- At every beginning of a word the search is the same. -/
theorem findWordFrom_eq {before : Option Char} (h : atWordStart before = true) (t : Text) :
    findWordFrom f before t = findWord f t := by
  cases t with
  | nil => rw [findWord, findWordFrom_nil, findWordFrom_nil, if_pos h]; rfl
  | cons c t => rw [findWord, findWordFrom_cons, findWordFrom_cons, if_pos h]; rfl

/-- Where the reader succeeds at once there is nothing to search. -/
theorem findWord_of_eq_some {a : α} {t : Text} (h : f t = some a) : findWord f t = some a := by
  cases t with
  | nil => rw [findWord, findWordFrom_nil, h]; rfl
  | cons c t => rw [findWord, findWordFrom_cons, h]; rfl

/-- Behind `u` the reader `f` finds `a`, and at no beginning of a word in `u`; `before` is the
character in front of `u`. -/
structure FirstBehind (f : Text → Option α) (before : Option Char) (u s : Text) (a : α) : Prop where
  start : atWordStart (u.getLast?.or before) = true
  reads : f s = some a
  first : ∀ x y, u = x ++ y → y ≠ [] → atWordStart (x.getLast?.or before) = true →
    f (y ++ s) = none

namespace FirstBehind

variable {before : Option Char} {c : Char} {u s : Text} {a : α}

theorem nil (hstart : atWordStart before = true) (h : f s = some a) :
    FirstBehind f before [] s a :=
  ⟨hstart, h, fun _ _ hu hy => absurd (List.append_eq_nil_iff.mp hu.symm).2 hy⟩

theorem cons_iff : FirstBehind f before (c :: u) s a ↔
    (if atWordStart before then f (c :: (u ++ s)) else none) = none ∧
      FirstBehind f (some c) u s a := by
  constructor
  · intro h
    refine ⟨?_, getLast?_cons_or _ u _ ▸ h.start, h.reads, fun x y hu hy hstart => ?_⟩
    · split
      · rename_i hstart
        exact h.first [] (c :: u) rfl (List.cons_ne_nil c u) hstart
      · rfl
    · exact h.first (c :: x) y (congrArg (c :: ·) hu) hy ((getLast?_cons_or _ x _).symm ▸ hstart)
  · rintro ⟨hnone, h⟩
    refine ⟨(getLast?_cons_or _ u _).symm ▸ h.start, h.reads, fun x y hxy hy hstart => ?_⟩
    cases x with
    | nil =>
      rw [← show c :: u = y from hxy]
      exact (if_pos hstart).symm.trans hnone
    | cons d x =>
      obtain ⟨rfl, rfl⟩ := List.cons.inj hxy
      exact h.first x y rfl hy (getLast?_cons_or _ x _ ▸ hstart)

end FirstBehind

theorem findWordFrom_eq_some_iff {a : α} {t : Text} : ∀ {before : Option Char},
    findWordFrom f before t = some a ↔ ∃ u s, t = u ++ s ∧ FirstBehind f before u s a := by
  induction t with
  | nil =>
    intro before
    rw [findWordFrom_nil, Option.ite_none_right_eq_some]
    constructor
    · rintro ⟨hstart, h⟩
      exact ⟨[], [], rfl, .nil hstart h⟩
    · rintro ⟨u, s, ht, h⟩
      obtain ⟨rfl, rfl⟩ := List.append_eq_nil_iff.mp ht.symm
      exact ⟨h.start, h.reads⟩
  | cons c t ih =>
    intro before
    rw [findWordFrom_cons, Option.or_eq_some_iff, ih]
    constructor
    · rintro (h | ⟨hnone, u, s, rfl, hu⟩)
      · obtain ⟨hstart, h⟩ := Option.ite_none_right_eq_some.mp h
        exact ⟨[], c :: t, rfl, .nil hstart h⟩
      · exact ⟨c :: u, s, rfl, FirstBehind.cons_iff.mpr ⟨hnone, hu⟩⟩
    · rintro ⟨u, s, ht, hu⟩
      cases u with
      | nil =>
        obtain rfl := ht
        exact Or.inl ((if_pos hu.start).trans hu.reads)
      | cons d u =>
        obtain ⟨rfl, rfl⟩ := List.cons.inj ht
        exact Or.inr (And.imp_right (fun h => ⟨u, s, rfl, h⟩) (FirstBehind.cons_iff.mp hu))

/-- **What is found is read at the beginning of a word**, and nothing is read before that. -/
theorem findWord_eq_some_iff {a : α} {t : Text} :
    findWord f t = some a ↔ ∃ u s, t = u ++ s ∧ FirstBehind f none u s a :=
  findWordFrom_eq_some_iff

theorem isSome_findWordFrom {u s : Text} (hs : (f s).isSome = true) : ∀ {before : Option Char},
    atWordStart (u.getLast?.or before) = true → (findWordFrom f before (u ++ s)).isSome = true := by
  induction u with
  | nil =>
    intro before hstart
    obtain ⟨a, ha⟩ := Option.isSome_iff_exists.mp hs
    have hbefore : atWordStart before = true := hstart
    rw [List.nil_append, findWordFrom_eq hbefore, findWord_of_eq_some ha]
    rfl
  | cons c u ih =>
    intro before hstart
    rw [getLast?_cons_or] at hstart
    rw [List.cons_append, findWordFrom_cons, Option.isSome_or, ih hstart, Bool.or_true]

/-- Something is found if the reader succeeds at the beginning of a word. -/
theorem isSome_findWord_iff {t : Text} : (findWord f t).isSome = true ↔
    ∃ u s, t = u ++ s ∧ atWordStart u.getLast? = true ∧ (f s).isSome = true := by
  constructor
  · intro h
    obtain ⟨a, ha⟩ := Option.isSome_iff_exists.mp h
    obtain ⟨u, s, rfl, hfound⟩ := findWord_eq_some_iff.mp ha
    have hstart := hfound.start
    rw [Option.or_none] at hstart
    exact ⟨u, s, rfl, hstart, Option.isSome_iff_exists.mpr ⟨a, hfound.reads⟩⟩
  · rintro ⟨u, s, rfl, hstart, hs⟩
    exact isSome_findWordFrom hs (by rwa [Option.or_none])

/-- What is found first is so for a reader that goes on from there. -/
theorem FirstBehind.bind {β : Type} {g : α → Option β} {before : Option Char} {u s : Text} {a : α}
    {b : β} (h : FirstBehind f before u s a) (hb : g a = some b) :
    FirstBehind (fun t => (f t).bind g) before u s b where
  start := h.start
  reads := Option.bind_eq_some_iff.mpr ⟨a, h.reads, hb⟩
  first := fun x y hu hy hstart => Option.bind_eq_none_iff.mpr fun c hc => by
    rw [h.first x y hu hy hstart] at hc
    cases hc

/-- A reader that goes on from where another one succeeds finds nothing where that does not. -/
theorem findWord_bind_eq_none {β : Type} (g : α → Option β) {t : Text} (h : findWord f t = none) :
    findWord (fun s => (f s).bind g) t = none := by
  rw [← Option.not_isSome_iff_eq_none, isSome_findWord_iff]
  rintro ⟨u, s, rfl, hstart, hs⟩
  have hf : (f s).isSome = true := Option.isSome_of_isSome_bind hs
  rw [← Option.not_isSome_iff_eq_none] at h
  exact h (isSome_findWord_iff.mpr ⟨u, s, rfl, hstart, hf⟩)

/-- A piece is passed over if the reader fails at each of its characters. -/
theorem findWordFrom_pass (u t : Text) (h : ∀ c v, c :: v <:+ u → f (c :: v ++ t) = none) :
    ∀ before : Option Char,
      findWordFrom f before (u ++ t) = findWordFrom f (u.getLast?.or before) t := by
  induction u with
  | nil => intro before; rfl
  | cons c u ih =>
    intro before
    have hc : f (c :: (u ++ t)) = none := h c u List.suffix_rfl
    rw [List.cons_append, findWordFrom_cons, hc, ite_self, Option.none_or,
      ih fun d v hv => h d v (hv.trans (List.suffix_cons c u)), getLast?_cons_or]

/-- Inside a word the search is not asked. -/
theorem findWordFrom_inside (w s : Text) (hw : ∀ c ∈ w, isWord c = true) : ∀ x : Char,
    isWord x = true → ∃ y : Char, isWord y = true ∧
      findWordFrom f (some x) (w ++ s) = findWordFrom f (some y) s := by
  induction w with
  | nil => intro x hx; exact ⟨x, hx, rfl⟩
  | cons c w ih =>
    intro x hx
    have hstart : atWordStart (some x) = false := by rw [atWordStart, Option.all_some, hx]; rfl
    obtain ⟨y, hy, hrest⟩ := ih (fun d hd => hw d (List.mem_cons_of_mem c hd)) c
      (hw c List.mem_cons_self)
    refine ⟨y, hy, ?_⟩
    rw [List.cons_append, findWordFrom_cons, hstart, ← hrest]
    rfl

namespace Opens

variable {ks : List Text} (hf : Opens ks f)

include hf

theorem nil_not_mem : [] ∉ ks :=
  fun h => absurd (List.all_eq_true.mp hf.initial [] h) (by decide)

theorem nonword {c : Char} (hc : isWord c = false) (t : Text) : f (c :: t) = none :=
  hf.at_word [] (c :: t) (fun _ h => absurd h List.not_mem_nil) (atWordEnd_cons hc t) hf.nil_not_mem

theorem nil : f [] = none :=
  hf.at_word [] [] (fun _ h => absurd h List.not_mem_nil) rfl hf.nil_not_mem

theorem findWord_nil : findWord f [] = none := by
  rw [findWord, findWordFrom_nil, hf.nil, ite_self]

/-- The search goes on behind a character outside words. -/
theorem findWordFrom_nonword {c : Char} (hc : isWord c = false) (before : Option Char) (t : Text) :
    findWordFrom f before (c :: t) = findWord f t := by
  have hstart : atWordStart (some c) = true := by rw [atWordStart, Option.all_some, hc]; rfl
  rw [findWordFrom_cons, hf.nonword hc, ite_self, Option.none_or, findWordFrom_eq hstart]

theorem findWord_nonword {c : Char} (hc : isWord c = false) (t : Text) :
    findWord f (c :: t) = findWord f t :=
  hf.findWordFrom_nonword hc none t

theorem findWord_nonwords {u : Text} (hu : ∀ c ∈ u, isWord c = false) (t : Text) :
    findWord f (u ++ t) = findWord f t := by
  induction u with
  | nil => rfl
  | cons c u ih =>
    rw [List.cons_append, hf.findWord_nonword (hu c List.mem_cons_self),
      ih fun d hd => hu d (List.mem_cons_of_mem c hd)]

/-- At a word the reader is asked once, and then the search goes on behind the word. -/
theorem findWord_or {w s : Text} (hne : w ≠ []) (hw : ∀ c ∈ w, isAsciiWord c = true)
    (hs : atWordEnd s = true) : findWord f (w ++ s) = (f (w ++ s)).or (findWord f s) := by
  obtain ⟨c, w, rfl⟩ := List.exists_cons_of_ne_nil hne
  have hword : ∀ d ∈ c :: w, isWord d = true := fun d hd => isWord_of_isAsciiWord (hw d hd)
  obtain ⟨y, hy, hinside⟩ := findWordFrom_inside (f := f) w s
    (fun d hd => hword d (List.mem_cons_of_mem c hd)) c (hword c List.mem_cons_self)
  have hrest : findWordFrom f (some y) s = findWord f s := by
    cases s with
    | nil =>
      rw [hf.findWord_nil, findWordFrom_nil, hf.nil, ite_self]
    | cons d s =>
      have hd : isWord d = false := by
        rwa [atWordEnd, List.head?_cons, Option.all_some, Bool.not_eq_true'] at hs
      rw [hf.findWordFrom_nonword hd, hf.findWord_nonword hd]
  rw [List.cons_append, findWord, findWordFrom_cons, hinside, hrest]
  rfl

/-- A word at which the reader fails is passed over with the character behind it. -/
theorem findWord_fails {w t : Text} {c : Char} (hne : w ≠ []) (hw : ∀ c ∈ w, isAsciiWord c = true)
    (hc : isWord c = false) (h : f (w ++ c :: t) = none) :
    findWord f (w ++ c :: t) = findWord f t := by
  rw [hf.findWord_or hne hw (atWordEnd_cons hc t), h, Option.none_or, hf.findWord_nonword hc]

/-- A word that spells none of the keywords is passed over. -/
theorem findWord_word {w s : Text} (hw : ∀ c ∈ w, isAsciiWord c = true) (hs : atWordEnd s = true)
    (hne : w.map Char.toLower ∉ ks) : findWord f (w ++ s) = findWord f s := by
  cases w with
  | nil => rfl
  | cons c w =>
    rw [hf.findWord_or (List.cons_ne_nil c w) hw hs, hf.at_word _ s hw hs hne, Option.none_or]

/-- A keyword in upper case is passed over unless it is looked for. -/
theorem findWord_upper {w s : Text} (hw : w.all isAsciiWord = true) (hne : w.map Char.toLower ∉ ks)
    (hs : atWordEnd s = true) : findWord f (w ++ s) = findWord f s :=
  hf.findWord_word (List.all_eq_true.mp hw) hs hne

end Opens

/-- A numeral is no keyword. -/
theorem Opens.digits_not_mem {ks : List Text} (hf : Opens ks f) {w : Text} (hne : w ≠ [])
    (hw : ∀ c ∈ w, isAsciiDigit c = true) : w.map Char.toLower ∉ ks := by
  intro h
  obtain ⟨c, v, rfl⟩ := List.exists_cons_of_ne_nil hne
  have hc : isAsciiDigit c = true := hw c List.mem_cons_self
  have hinitial := List.all_eq_true.mp hf.initial _ h
  rw [List.map_cons, List.head?_cons, Option.any_some, toLower_of_isAsciiDigit hc, hc] at hinitial
  cases hinitial

/-! ### Readers that open with a keyword -/

theorem opens_wholePhrase? {k : Text} {ks : List Text}
    (hinitial : k.head?.any (!isAsciiDigit ·) = true) (hk : isKeyword k = true) :
    Opens [k] (wholePhrase? (k :: ks)) where
  initial := by rw [List.all_cons, hinitial]; rfl
  at_word := by
    intro _ _ hw hs h
    exact wholePhrase?_eq_none hk hw hs fun h' => h (List.mem_singleton.mpr h')

/-- A reader that wants a blank behind its keyword. -/
theorem opens_of_bind {k : Text} (hinitial : k.head?.any (!isAsciiDigit ·) = true)
    (hk : isKeyword k = true) (h : ∀ t, (keyword? k t).bind dropBlanks1? = none → f t = none) :
    Opens [k] f where
  initial := by rw [List.all_cons, hinitial]; rfl
  at_word := fun _ _ hw hs hword =>
    h _ (keyword?_bind_dropBlanks1? hk hw hs fun h' => hword (List.mem_singleton.mpr h'))

end TableTypes.Text
