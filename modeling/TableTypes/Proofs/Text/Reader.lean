import TableTypes.Proofs.Text.Word

/-!
# Readers on shorter and on longer texts

A reader takes a piece off the front of a text and returns what is left.  It takes the same piece
when the text is cut off behind it (`IsReader`, and `IsParser` for readers that also return a
value), so a piece of text can be read by itself.  Readers put together from such readers are such
readers, but where one reader is only asked when another has failed, the other must not succeed on
the shorter text either; that is what `Grows` is for.  `Extends` goes the other way: what a reader
leaves over, it leaves over with more text behind it.
-/

namespace TableTypes.Text

variable {α β : Type} {f g : Text → Option Text}

/-- The reader takes a piece off the front of the text, and takes it as well when the text is cut
off behind it. -/
structure IsReader (f : Text → Option Text) : Prop where
  suffix : ∀ {t r : Text}, f t = some r → r <:+ t
  cut : ∀ {t r z : Text}, f (t ++ z) = some (r ++ z) → f t = some r

/-- A reader that returns a value with what is left. -/
structure IsParser (f : Text → Option (α × Text)) : Prop where
  suffix : ∀ {t r : Text} {a : α}, f t = some (a, r) → r <:+ t
  cut : ∀ {t r z : Text} {a : α}, f (t ++ z) = some (a, r ++ z) → f t = some (a, r)

/-- Where the reader succeeds it succeeds with more text behind, too. -/
def Grows (f : Text → Option α) : Prop :=
  ∀ (t z : Text) (a : α), f t = some a → ∃ b, f (t ++ z) = some b

/-- What the reader leaves over, it leaves over with more text behind. -/
def Extends (f : Text → Option Text) : Prop :=
  ∀ t r z : Text, f t = some r → r ≠ [] → f (t ++ z) = some (r ++ z)

/-! ### Putting readers together -/

/-- What is left between two readers on a longer text ends in what that text is longer by. -/
theorem exists_eq_append_of_suffix {s t r z : Text} (hs : s <:+ t ++ z) (hr : r ++ z <:+ s) :
    ∃ u, s = u ++ z ∧ u <:+ t := by
  obtain ⟨v, rfl⟩ := hr
  rw [← List.append_assoc] at hs ⊢
  exact ⟨v ++ r, rfl, List.suffix_append_self_iff.mp hs⟩

theorem IsReader.bind (hf : IsReader f) (hg : IsReader g) :
    IsReader fun t => (f t).bind g where
  suffix := by
    intro t r h
    obtain ⟨s, hs, hr⟩ := Option.bind_eq_some_iff.mp h
    exact (hg.suffix hr).trans (hf.suffix hs)
  cut := by
    intro t r z h
    obtain ⟨s, hs, hr⟩ := Option.bind_eq_some_iff.mp h
    -- What lies between the two readers still ends in `z`, so the first one can be cut, too.
    obtain ⟨u, rfl, -⟩ := exists_eq_append_of_suffix (hf.suffix hs) (hg.suffix hr)
    exact Option.bind_eq_some_iff.mpr ⟨u, hf.cut hs, hg.cut hr⟩

theorem IsReader.bindParser {g : Text → Option (α × Text)} (hf : IsReader f) (hg : IsParser g) :
    IsParser fun t => (f t).bind g where
  suffix := by
    intro t r a h
    obtain ⟨s, hs, hr⟩ := Option.bind_eq_some_iff.mp h
    exact (hg.suffix hr).trans (hf.suffix hs)
  cut := by
    intro t r z a h
    obtain ⟨s, hs, hr⟩ := Option.bind_eq_some_iff.mp h
    obtain ⟨u, rfl, -⟩ := exists_eq_append_of_suffix (hf.suffix hs) (hg.suffix hr)
    exact Option.bind_eq_some_iff.mpr ⟨u, hf.cut hs, hg.cut hr⟩

/-- Where the longer text refuses the first of two readers, the shorter one refuses it, too. -/
theorem Grows.eq_none {f : Text → Option α} (hf : Grows f) {t z : Text} (h : f (t ++ z) = none) :
    f t = none := by
  cases hft : f t with
  | none => rfl
  | some a =>
    obtain ⟨b, hb⟩ := hf t z a hft
    rw [h] at hb
    cases hb

theorem IsReader.orElse (hf : IsReader f) (hg : IsReader g) (hgrow : Grows f) :
    IsReader fun t => f t <|> g t where
  suffix := by
    intro t r h
    cases hft : f t with
    | some s => rw [hft] at h; exact hf.suffix (hft.trans h)
    | none => rw [hft] at h; exact hg.suffix h
  cut := by
    intro t r z h
    cases hft : f (t ++ z) with
    | some s => rw [hft] at h; rw [hf.cut (hft.trans h)]; rfl
    | none => rw [hft] at h; rw [hgrow.eq_none hft]; exact hg.cut h

theorem IsParser.orElse {f g : Text → Option (α × Text)} (hf : IsParser f) (hg : IsParser g)
    (hgrow : Grows f) : IsParser fun t => f t <|> g t where
  suffix := by
    intro t r a h
    cases hft : f t with
    | some s => rw [hft] at h; exact hf.suffix (hft.trans h)
    | none => rw [hft] at h; exact hg.suffix h
  cut := by
    intro t r z a h
    cases hft : f (t ++ z) with
    | some s => rw [hft] at h; rw [hf.cut (hft.trans h)]; rfl
    | none => rw [hft] at h; rw [hgrow.eq_none hft]; exact hg.cut h

/-- A reader that may be left out. -/
theorem IsReader.getD (hf : IsReader f) (hgrow : Grows f) : IsReader fun t => some ((f t).getD t)
    where
  suffix := by
    intro t r h
    obtain rfl := Option.some.inj h
    cases hft : f t with
    | some s => exact hf.suffix hft
    | none => exact List.suffix_rfl
  cut := by
    intro t r z h
    cases hft : f (t ++ z) with
    | some s =>
      rw [hft] at h
      rw [hf.cut (hft.trans h)]
      rfl
    | none =>
      rw [hft] at h
      rw [hgrow.eq_none hft, ← List.append_cancel_right (Option.some.inj h)]
      rfl

theorem IsReader.value (hf : IsReader f) (a : α) : IsParser fun t => (f t).map fun r => (a, r) where
  suffix := by
    intro t r b h
    obtain ⟨s, hs, hr⟩ := Option.map_eq_some_iff.mp h
    obtain ⟨-, rfl⟩ := Prod.mk.inj hr
    exact hf.suffix hs
  cut := by
    intro t r z b h
    obtain ⟨s, hs, hr⟩ := Option.map_eq_some_iff.mp h
    obtain ⟨rfl, rfl⟩ := Prod.mk.inj hr
    rw [hf.cut hs]
    rfl

theorem IsParser.mapValue {f : Text → Option (α × Text)} (hf : IsParser f) (v : α → β) :
    IsParser fun t => (f t).map fun p => (v p.1, p.2) where
  suffix := by
    intro t r b h
    obtain ⟨⟨a, s⟩, hs, hr⟩ := Option.map_eq_some_iff.mp h
    obtain ⟨-, rfl⟩ := Prod.mk.inj hr
    exact hf.suffix hs
  cut := by
    intro t r z b h
    obtain ⟨⟨a, s⟩, hs, hr⟩ := Option.map_eq_some_iff.mp h
    obtain ⟨rfl, rfl⟩ := Prod.mk.inj hr
    rw [hf.cut hs]
    rfl

theorem Grows.orElse {f g : Text → Option α} (hf : Grows f) (hg : Grows g) :
    Grows fun t => f t <|> g t := by
  intro t z a h
  cases hfz : f (t ++ z) with
  | some s => exact ⟨s, by show (f (t ++ z) <|> g (t ++ z)) = _; rw [hfz]; rfl⟩
  | none =>
    have hgt : g t = some a := by
      have hor : (f t <|> g t) = some a := h
      rwa [hf.eq_none hfz] at hor
    obtain ⟨b, hb⟩ := hg t z a hgt
    exact ⟨b, by show (f (t ++ z) <|> g (t ++ z)) = _; rw [hfz, hb]; rfl⟩

theorem Grows.map {f : Text → Option α} (hf : Grows f) (v : α → β) :
    Grows fun t => (f t).map v := by
  intro t z b h
  obtain ⟨a, ha, -⟩ := Option.map_eq_some_iff.mp h
  obtain ⟨a', ha'⟩ := hf t z a ha
  exact ⟨v a', Option.map_eq_some_iff.mpr ⟨a', ha', rfl⟩⟩

/-- Behind a reader that leaves something over stands a reader that wants something. -/
theorem Extends.bind_grows (hf : Extends f) {g : Text → Option α} (hg : Grows g)
    (hnil : g [] = none) : Grows fun t => (f t).bind g := by
  intro t z a h
  obtain ⟨s, hs, hr⟩ := Option.bind_eq_some_iff.mp h
  have hne : s ≠ [] := by rintro rfl; rw [hnil] at hr; cases hr
  obtain ⟨b, hb⟩ := hg s z a hr
  exact ⟨b, Option.bind_eq_some_iff.mpr ⟨s ++ z, hf t s z hs hne, hb⟩⟩

theorem Extends.bind (hf : Extends f) (hg : Extends g) (hsuffix : ∀ {t r}, g t = some r → r <:+ t) :
    Extends fun t => (f t).bind g := by
  intro t r z h hne
  obtain ⟨s, hs, hr⟩ := Option.bind_eq_some_iff.mp h
  have hs' : s ≠ [] := by
    rintro rfl
    exact hne (List.suffix_nil.mp (hsuffix hr))
  exact Option.bind_eq_some_iff.mpr ⟨s ++ z, hf t s z hs hs', hg s r z hr hne⟩

/-- A reader that may be left out in front of one that wants a text which the first is not at. -/
theorem Extends.getD_grows (hf : Extends f) {g : Text → Option α} (hg : Grows g)
    (hnil : g [] = none)
    (hnot : ∀ (t z : Text) (a : α), g t = some a → f t = none → f (t ++ z) = none) :
    Grows fun t => g ((f t).getD t) := by
  intro t z a h
  have ha : g ((f t).getD t) = some a := h
  show ∃ b, g ((f (t ++ z)).getD (t ++ z)) = some b
  cases hft : f t with
  | none =>
    rw [hft, Option.getD_none] at ha
    rw [hnot t z a ha hft]
    exact hg t z a ha
  | some s =>
    rw [hft, Option.getD_some] at ha
    have hne : s ≠ [] := by rintro rfl; rw [hnil] at ha; cases ha
    rw [hf t s z hft hne]
    exact hg s z a ha

/-! ### A first character -/

/-- A reader that wants a character to be in front of what another reader takes. -/
def first? (p : Char → Bool) (f : Text → Option Text) : Text → Option Text
  | [] => none
  | c :: t => if p c then f t else none

theorem isReader_first? {p : Char → Bool} (hf : IsReader f) : IsReader (first? p f) where
  suffix := by
    intro t r h
    cases t with
    | nil => cases h
    | cons c t =>
      rw [first?] at h
      split at h
      · exact (hf.suffix h).trans (List.suffix_cons c t)
      · cases h
  cut := by
    intro t r z h
    cases t with
    | nil =>
      -- A character taken off `z` alone would leave less than `z`.
      cases z with
      | nil => cases h
      | cons c z =>
        rw [List.nil_append, first?] at h
        split at h
        · have hlength := (hf.suffix h).length_le
          rw [List.length_append, List.length_cons] at hlength
          omega
        · cases h
    | cons c t =>
      rw [List.cons_append, first?] at h
      rw [first?]
      split at h
      · rename_i hc
        rw [if_pos hc]
        exact hf.cut h
      · cases h

theorem extends_first? {p : Char → Bool} (hf : Extends f) : Extends (first? p f) := by
  intro t r z h hne
  cases t with
  | nil => cases h
  | cons c t =>
    rw [first?] at h
    rw [List.cons_append, first?]
    split at h
    · rename_i hc
      rw [if_pos hc]
      exact hf t r z h hne
    · cases h

theorem grows_first? {p : Char → Bool} (hf : Grows f) : Grows (first? p f) := by
  intro t z r h
  cases t with
  | nil => cases h
  | cons c t =>
    rw [first?] at h
    rw [List.cons_append, first?]
    split at h
    · rename_i hc
      rw [if_pos hc]
      exact hf t z r h
    · cases h

/-- A reader that never fails. -/
theorem grows_some (g : Text → α) : Grows fun t => some (g t) :=
  fun _ _ _ _ => ⟨_, rfl⟩

/-! ### Runs of characters -/

theorem dropWhile_cut {p : Char → Bool} {r z : Text} : ∀ {t : Text},
    (t ++ z).dropWhile p = r ++ z → t.dropWhile p = r := by
  intro t
  induction t with
  | nil =>
    intro h
    have hlength := (List.dropWhile_suffix (l := z) p).length_le
    rw [List.nil_append] at h
    rw [h, List.length_append] at hlength
    exact (List.length_eq_zero_iff.mp (by omega)).symm
  | cons c t ih =>
    intro h
    rw [List.cons_append, List.dropWhile_cons] at h
    rw [List.dropWhile_cons]
    split at h
    · rename_i hc
      rw [if_pos hc]
      exact ih h
    · rename_i hc
      rw [if_neg hc]
      exact List.append_cancel_right h

theorem dropWhile_extend {p : Char → Bool} {t : Text} (z : Text) (h : t.dropWhile p ≠ []) :
    (t ++ z).dropWhile p = t.dropWhile p ++ z := by
  rw [List.dropWhile_append, if_neg (by rw [List.isEmpty_iff]; exact h)]

theorem isReader_dropWhile (p : Char → Bool) : IsReader fun t => some (t.dropWhile p) where
  suffix := fun h => Option.some.inj h ▸ List.dropWhile_suffix p
  cut := fun h => congrArg some (dropWhile_cut (Option.some.inj h))

theorem isReader_dropBlanks : IsReader fun t => some (dropBlanks t) :=
  isReader_dropWhile isBlank

theorem extends_dropBlanks : Extends fun t => some (dropBlanks t) := by
  intro t r z h hne
  obtain rfl := Option.some.inj h
  exact congrArg some (dropWhile_extend z hne)

theorem dropBlanks1?_eq : dropBlanks1? = first? isBlank fun t => some (dropBlanks t) := by
  funext t
  cases t <;> rfl

theorem isReader_dropBlanks1? : IsReader dropBlanks1? :=
  dropBlanks1?_eq ▸ isReader_first? isReader_dropBlanks

theorem extends_dropBlanks1? : Extends dropBlanks1? :=
  dropBlanks1?_eq ▸ extends_first? extends_dropBlanks

theorem grows_dropBlanks1? : Grows dropBlanks1? :=
  dropBlanks1?_eq ▸ grows_first? (grows_some dropBlanks)

/-! ### Literals -/

theorem after?_eq_some_iff {w t r : Text} : after? w t = some r ↔ t = w ++ r := by
  induction w generalizing t with
  | nil => simp [after?]
  | cons x w ih =>
    cases t with
    | nil => simp [after?]
    | cons c t =>
      rw [after?]
      split
      · rename_i hx
        simp [ih, hx]
      · rename_i hx
        simp [Ne.symm hx]

theorem after?_eq_none {w t : Text} (h : ∀ r, t = w ++ r → False) : after? w t = none :=
  Option.eq_none_iff_forall_ne_some.mpr fun r hr => h r (after?_eq_some_iff.mp hr)

theorem occursIn_eq_true_iff {w t : Text} : occursIn w t = true ↔ w <:+: t := by
  induction t with
  | nil => simp [occursIn]
  | cons c t ih =>
    have hfront : (after? w (c :: t)).isSome = true ↔ w <+: c :: t := by
      rw [Option.isSome_iff_exists]
      simp only [after?_eq_some_iff]
      exact exists_congr fun r => eq_comm
    rw [occursIn, Bool.or_eq_true, hfront, ih, List.infix_cons_iff]

theorem suffix_of_after? {w : Text} (hw : w ≠ []) {c : Char} {t r : Text}
    (h : after? w (c :: t) = some r) : r <:+ t := by
  obtain ⟨x, w, rfl⟩ := List.exists_cons_of_ne_nil hw
  have heq := after?_eq_some_iff.mp h
  exact ⟨w, (List.cons.inj heq).2.symm⟩

/-! ### Keywords and phrases -/

theorem isReader_keyword? (k : Text) : IsReader (keyword? k) where
  suffix := by
    intro t r h
    obtain ⟨u, rfl, -⟩ := keyword?_eq_some_iff.mp h
    exact List.suffix_append u r
  cut := by
    intro t r z h
    obtain ⟨u, hu, hmatch⟩ := keyword?_eq_some_iff.mp h
    rw [← List.append_assoc] at hu
    exact keyword?_eq_some_iff.mpr ⟨u, List.append_cancel_right hu, hmatch⟩

/-- A keyword does not look at what stands behind it. -/
theorem keyword?_append_right {k t r : Text} (z : Text) (h : keyword? k t = some r) :
    keyword? k (t ++ z) = some (r ++ z) := by
  obtain ⟨u, rfl, hmatch⟩ := keyword?_eq_some_iff.mp h
  exact keyword?_eq_some_iff.mpr ⟨u, List.append_assoc u r z, hmatch⟩

theorem extends_keyword? (k : Text) : Extends (keyword? k) :=
  fun _ _ z h _ => keyword?_append_right z h

theorem grows_keyword? (k : Text) : Grows (keyword? k) :=
  fun _ z r h => ⟨r ++ z, keyword?_append_right z h⟩

/-- A keyword can be followed by any reader, also at the end of the text. -/
theorem grows_keyword?_bind {k : Text} {g : Text → Option α} (hg : Grows g) :
    Grows fun t => (keyword? k t).bind g := by
  intro t z a h
  obtain ⟨r, hr, hgr⟩ := Option.bind_eq_some_iff.mp h
  obtain ⟨b, hb⟩ := hg r z a hgr
  exact ⟨b, Option.bind_eq_some_iff.mpr ⟨r ++ z, keyword?_append_right z hr, hb⟩⟩

theorem phrase?_cons_cons (w v : Text) (ws : List Text) (t : Text) :
    phrase? (w :: v :: ws) t =
      (keyword? w t).bind fun r => (dropBlanks1? r).bind (phrase? (v :: ws)) := by
  rw [phrase?]
  exact List.cons_ne_nil v ws

theorem isReader_phrase? : ∀ ws : List Text, IsReader (phrase? ws)
  | [] => ⟨fun h => Option.some.inj h ▸ List.suffix_rfl,
      fun h => congrArg some (List.append_cancel_right (Option.some.inj h))⟩
  | [w] => isReader_keyword? w
  | w :: v :: ws => by
    have h := (isReader_keyword? w).bind (isReader_dropBlanks1?.bind (isReader_phrase? (v :: ws)))
    have heq : phrase? (w :: v :: ws) =
        fun t => (keyword? w t).bind fun r => (dropBlanks1? r).bind (phrase? (v :: ws)) :=
      funext (phrase?_cons_cons w v ws)
    rw [heq]
    exact h

theorem phrase?_nil {w : Text} {ws : List Text} (hw : w ≠ []) : phrase? (w :: ws) [] = none := by
  obtain ⟨x, w, rfl⟩ := List.exists_cons_of_ne_nil hw
  cases ws with
  | nil => rfl
  | cons v ws => rw [phrase?_cons_cons, keyword?, Option.bind_none]

/-- A phrase does not look at what stands behind it. -/
theorem phrase?_append_right {ws : List Text} (hws : [] ∉ ws) {t r : Text} (z : Text)
    (h : phrase? ws t = some r) : phrase? ws (t ++ z) = some (r ++ z) := by
  induction ws generalizing t with
  | nil => rw [phrase?, ← Option.some.inj h]
  | cons w ws ih =>
    rw [List.mem_cons, not_or] at hws
    cases ws with
    | nil => exact keyword?_append_right z h
    | cons v ws =>
      -- Only behind the last word may the text end, so the blanks are not at its end.
      rw [phrase?_cons_cons] at h ⊢
      obtain ⟨s, hs, hblank⟩ := Option.bind_eq_some_iff.mp h
      obtain ⟨u, hu, hrest⟩ := Option.bind_eq_some_iff.mp hblank
      have hv : v ≠ [] := fun hv => hws.2 (hv ▸ List.mem_cons_self)
      have hne : u ≠ [] := by
        rintro rfl
        rw [phrase?_nil hv] at hrest
        cases hrest
      rw [keyword?_append_right z hs, Option.bind_some, extends_dropBlanks1? s u z hu hne,
        Option.bind_some, ih hws.2 hrest]

theorem extends_phrase? {ws : List Text} (hws : [] ∉ ws) : Extends (phrase? ws) :=
  fun _ _ z h _ => phrase?_append_right hws z h

theorem grows_phrase? {ws : List Text} (hws : [] ∉ ws) : Grows (phrase? ws) :=
  fun _ z r h => ⟨r ++ z, phrase?_append_right hws z h⟩

/-- The characters that a keyword is read from are word characters. -/
theorem exists_of_keyword? {k t r : Text} (hk : isKeyword k = true) (h : keyword? k t = some r) :
    ∃ u, t = u ++ r ∧ ∀ c ∈ u, isWord c = true := by
  obtain ⟨u, rfl, hu⟩ := keyword?_eq_some_iff.mp h
  refine ⟨u, rfl, ?_⟩
  clear h
  induction hu with
  | nil => exact fun c hc => absurd hc List.not_mem_nil
  | cons hd _ ih =>
    rw [isKeyword_cons] at hk
    intro c hc
    rcases List.mem_cons.mp hc with rfl | hc
    · exact isWord_of_matchesLetter hk.1.1 hd
    · exact ih hk.2 c hc

theorem dropBlanks_cons {c : Char} (hc : isBlank c = true) (t : Text) :
    dropBlanks (c :: t) = dropBlanks t :=
  List.dropWhile_cons_of_pos hc

theorem dropBlanks_append (v z : Text) : dropBlanks (v ++ z) =
    if dropBlanks v = [] then dropBlanks z else dropBlanks v ++ z := by
  rw [dropBlanks, List.dropWhile_append]
  exact if_congr List.isEmpty_iff rfl rfl

theorem eq_dropBlanks_of_dropBlanks1? {t r : Text} (h : dropBlanks1? t = some r) :
    r = dropBlanks t := by
  cases t with
  | nil => cases h
  | cons c t =>
    rw [dropBlanks1?] at h
    split at h
    · rename_i hc
      rw [← Option.some.inj h, dropBlanks_cons hc]
    · cases h

theorem exists_of_dropBlanks1? {t r : Text} (h : dropBlanks1? t = some r) :
    ∃ u, t = u ++ r ∧ ∀ c ∈ u, isBlank c = true := by
  cases t with
  | nil => cases h
  | cons c t =>
    rw [dropBlanks1?] at h
    split at h
    · rename_i hc
      rw [← Option.some.inj h]
      refine ⟨c :: t.takeWhile isBlank, ?_, ?_⟩
      · rw [List.cons_append, dropBlanks, List.takeWhile_append_dropWhile]
      · intro d hd
        rcases List.mem_cons.mp hd with rfl | hd
        · exact hc
        · exact List.all_eq_true.mp List.all_takeWhile d hd
    · cases h

/-- A phrase is made of word characters and blanks. -/
theorem exists_of_phrase? {ws : List Text} (hws : ∀ w ∈ ws, isKeyword w = true) {t r : Text}
    (h : phrase? ws t = some r) :
    ∃ u, t = u ++ r ∧ ∀ c ∈ u, isWord c = true ∨ isBlank c = true := by
  induction ws generalizing t with
  | nil => exact ⟨[], Option.some.inj h, fun c hc => absurd hc List.not_mem_nil⟩
  | cons w ws ih =>
    have hw := hws w List.mem_cons_self
    cases ws with
    | nil =>
      obtain ⟨u, hu, hword⟩ := exists_of_keyword? hw h
      exact ⟨u, hu, fun c hc => Or.inl (hword c hc)⟩
    | cons v ws =>
      rw [phrase?_cons_cons] at h
      obtain ⟨s, hs, hblank⟩ := Option.bind_eq_some_iff.mp h
      obtain ⟨x, hx, hrest⟩ := Option.bind_eq_some_iff.mp hblank
      obtain ⟨u₃, rfl, h₃⟩ := ih (fun y hy => hws y (List.mem_cons_of_mem w hy)) hrest
      obtain ⟨u₂, rfl, h₂⟩ := exists_of_dropBlanks1? hx
      obtain ⟨u₁, rfl, h₁⟩ := exists_of_keyword? hw hs
      refine ⟨u₁ ++ (u₂ ++ u₃), by simp only [List.append_assoc], ?_⟩
      intro c hc
      rcases List.mem_append.mp hc with hc | hc
      · exact Or.inl (h₁ c hc)
      · rcases List.mem_append.mp hc with hc | hc
        · exact Or.inr (h₂ c hc)
        · exact h₃ c hc

/-- What follows the word `DEFAULT` and blanks: the value of a column, or the name of a character
set or a collation. -/
def defaultWord? (t : Text) : Option Text :=
  (keyword? "default".toList t).bind dropBlanks1?

theorem isReader_defaultWord? : IsReader defaultWord? :=
  (isReader_keyword? _).bind isReader_dropBlanks1?

theorem extends_defaultWord? : Extends defaultWord? :=
  (extends_keyword? _).bind extends_dropBlanks1? isReader_dropBlanks1?.suffix

theorem grows_defaultWord? : Grows defaultWord? :=
  grows_keyword?_bind grows_dropBlanks1?

/-! ### Keywords that exclude each other -/

/-- A character is a form of at most one letter of keywords. -/
theorem eq_of_matchesLetter {x y c : Char} (hx : isAsciiWord x = true ∧ x.toLower = x)
    (hy : isAsciiWord y = true ∧ y.toLower = y) (hxc : matchesLetter x c = true)
    (hyc : matchesLetter y c = true) : x = y := by
  by_cases hc : isAsciiWord c = true
  · rw [← (matchesLetter_iff hx.2 hc).mp hxc, (matchesLetter_iff hy.2 hc).mp hyc]
  · -- Outside ASCII the letter is named by the character alone.
    have hform : ∀ z : Char, isAsciiWord z = true → matchesLetter z c = true →
        z = if c = '\u017f' then 's' else if c = '\u212a' then 'k' else 'i' := by
      intro z hz hzc
      have hne : c ≠ z := fun h => hc (h ▸ hz)
      have hlower : c.toLower ≠ z := fun h => hc (isAsciiWord_of_toLower (h ▸ hz))
      simp only [matchesLetter, hne, hlower, Bool.or_eq_true, Bool.and_eq_true, decide_eq_true_eq,
        false_or] at hzc
      rcases hzc with (⟨rfl, rfl | rfl⟩ | ⟨rfl, rfl⟩) | ⟨rfl, rfl⟩ <;> rfl
    rw [hform x hx.1 hxc, hform y hy.1 hyc]

/-- Two keywords at the front of one text begin alike. -/
theorem prefix_or_prefix_of_keyword? {k l t r s : Text} (hk : isKeyword k = true)
    (hl : isKeyword l = true) (hkt : keyword? k t = some r) (hlt : keyword? l t = some s) :
    k <+: l ∨ l <+: k := by
  induction k generalizing l t with
  | nil => exact Or.inl List.nil_prefix
  | cons x k ih =>
    cases l with
    | nil => exact Or.inr List.nil_prefix
    | cons y l =>
      cases t with
      | nil => cases hkt
      | cons c t =>
        rw [isKeyword_cons] at hk hl
        rw [keyword?] at hkt hlt
        split at hkt
        · rename_i hx
          split at hlt
          · rename_i hy
            rw [eq_of_matchesLetter hk.1 hl.1 hx hy, List.prefix_cons_inj, List.prefix_cons_inj]
            exact ih hk.2 hl.2 hkt hlt
          · cases hlt
        · cases hkt

theorem keyword?_eq_none_of_clash {k l t s : Text} (hk : isKeyword k = true)
    (hl : isKeyword l = true) (hclash : ¬ (k <+: l ∨ l <+: k)) (hlt : keyword? l t = some s) :
    keyword? k t = none := by
  cases hkt : keyword? k t with
  | none => rfl
  | some r => exact absurd (prefix_or_prefix_of_keyword? hk hl hkt hlt) hclash

/-! ### Repetition -/

section

variable {m : Text → Option (α × Text)}

theorem manyUpTo_succ {n : Nat} {t r : Text} {a : α} (hmt : m t = some (a, r))
    (hlt : r.length < t.length) :
    manyUpTo m (n + 1) t = (a :: (manyUpTo m n r).1, (manyUpTo m n r).2) := by
  rw [manyUpTo, hmt]
  exact if_pos hlt

/-- Nothing is repeated that takes nothing off the text. -/
theorem manyUpTo_stuck {t : Text} (h : ∀ p, m t = some p → t.length ≤ p.2.length) : ∀ n,
    manyUpTo m n t = ([], t)
  | 0 => rfl
  | n + 1 => by
    rw [manyUpTo]
    cases hmt : m t with
    | none => rfl
    | some p => exact if_neg (Nat.not_lt.mpr (h p hmt))

/-- One repetition for each character is enough. -/
theorem manyUpTo_eq_of_le (n : Nat) : ∀ {k : Nat} {t : Text}, t.length ≤ n → t.length ≤ k →
    manyUpTo m n t = manyUpTo m k t := by
  induction n with
  | zero =>
    intro k t hn _
    obtain rfl := List.length_eq_zero_iff.mp (Nat.le_zero.mp hn)
    exact (manyUpTo_stuck (fun p _ => Nat.zero_le _) k).symm
  | succ n ih =>
    intro k t hn hk
    by_cases hstuck : ∀ p, m t = some p → t.length ≤ p.2.length
    · rw [manyUpTo_stuck hstuck, manyUpTo_stuck hstuck]
    · simp only [not_forall, Nat.not_le] at hstuck
      obtain ⟨⟨a, r⟩, hmt, hlt⟩ := hstuck
      have hlt : r.length < t.length := hlt
      obtain ⟨k, rfl⟩ : ∃ j, k = j + 1 := ⟨k - 1, by omega⟩
      rw [manyUpTo_succ hmt hlt, manyUpTo_succ hmt hlt, ih (k := k) (by omega) (by omega)]

/-- A match is the first of several. -/
theorem many_some {t r : Text} {a : α} (hmt : m t = some (a, r)) (hlt : r.length < t.length) :
    many m t = (a :: (many m r).1, (many m r).2) := by
  obtain ⟨n, hn⟩ : ∃ n, t.length = n + 1 := ⟨t.length - 1, by omega⟩
  rw [many, hn, manyUpTo_succ hmt hlt, many, manyUpTo_eq_of_le n (by omega) le_rfl]

/-- Where nothing is matched, nothing is taken off. -/
theorem many_of_nil {t : Text} (h : (many m t).1 = []) : (many m t).2 = t := by
  rw [many] at h ⊢
  generalize t.length = n at h ⊢
  cases n with
  | zero => rfl
  | succ n =>
    by_cases hstuck : ∀ p, m t = some p → t.length ≤ p.2.length
    · rw [manyUpTo_stuck hstuck]
    · simp only [not_forall, Nat.not_le] at hstuck
      obtain ⟨⟨a, r⟩, hmt, hlt⟩ := hstuck
      rw [manyUpTo_succ hmt hlt] at h
      cases h

theorem manyUpTo_suffix (hm : IsParser m) (n : Nat) : ∀ t : Text, (manyUpTo m n t).2 <:+ t := by
  induction n with
  | zero => exact fun t => List.suffix_rfl
  | succ n ih =>
    intro t
    by_cases hstuck : ∀ p, m t = some p → t.length ≤ p.2.length
    · exact ⟨[], congrArg Prod.snd (manyUpTo_stuck hstuck (n + 1))⟩
    · simp only [not_forall, Nat.not_le] at hstuck
      obtain ⟨⟨a, r⟩, hmt, hlt⟩ := hstuck
      rw [manyUpTo_succ hmt hlt]
      exact (ih r).trans (hm.suffix hmt)

/-- A repetition reads the same when the text is cut off behind it, as long as it may repeat once
for each character. -/
theorem manyUpTo_cut (hm : IsParser m) (hgrow : Grows m) (n : Nat) :
    ∀ {t r z : Text} {as : List α} {k : Nat}, (t ++ z).length ≤ n → t.length ≤ k →
      manyUpTo m n (t ++ z) = (as, r ++ z) → manyUpTo m k t = (as, r) := by
  induction n with
  | zero =>
    intro t r z as k hn hk h
    obtain ⟨rfl, rfl⟩ := List.append_eq_nil_iff.mp (List.length_eq_zero_iff.mp (Nat.le_zero.mp hn))
    obtain ⟨rfl, hr⟩ := Prod.mk.inj h
    rw [manyUpTo_stuck (fun p _ => Nat.zero_le _), List.append_cancel_right hr]
  | succ n ih =>
    intro t r z as k hn hk h
    by_cases hstuck : ∀ p, m (t ++ z) = some p → (t ++ z).length ≤ p.2.length
    · -- Where the longer text is stuck the shorter one must be, though it may succeed in taking
      -- nothing: `hgrow` carries that success over, and `cut` brings it back.
      rw [manyUpTo_stuck hstuck] at h
      obtain ⟨rfl, hr⟩ := Prod.mk.inj h
      rw [← List.append_cancel_right hr]
      refine manyUpTo_stuck ?_ k
      intro p hmt
      obtain ⟨⟨b, s⟩, hs⟩ := hgrow t z p hmt
      have hwhole : s = t ++ z := (hm.suffix hs).eq_of_length_le (hstuck _ hs)
      rw [hwhole] at hs
      have hback : some (b, t) = some p := (hm.cut hs).symm.trans hmt
      obtain rfl := Option.some.inj hback
      exact Nat.le_refl _
    · simp only [not_forall, Nat.not_le] at hstuck
      obtain ⟨⟨a, s⟩, hmt, hlt⟩ := hstuck
      rw [manyUpTo_succ hmt hlt] at h
      obtain ⟨rfl, hr⟩ := Prod.mk.inj h
      -- What the first round leaves over ends in `z`, since all the rounds together leave it over.
      obtain ⟨u, rfl, hu⟩ := exists_eq_append_of_suffix (hm.suffix hmt)
        (hr ▸ manyUpTo_suffix hm n s)
      rw [List.length_append, List.length_append, Nat.add_lt_add_iff_right] at hlt
      obtain ⟨k, rfl⟩ : ∃ j, k = j + 1 := ⟨k - 1, by omega⟩
      have hrest := ih (k := k) (by simp only [List.length_append] at hn ⊢; omega) (by omega)
        (Prod.ext rfl hr)
      rw [manyUpTo_succ (hm.cut hmt) hlt, hrest]

theorem many_cut (hm : IsParser m) (hgrow : Grows m) {t r z : Text} {as : List α}
    (h : many m (t ++ z) = (as, r ++ z)) : many m t = (as, r) :=
  manyUpTo_cut hm hgrow _ (Nat.le_refl _) (Nat.le_refl _) h

end

end TableTypes.Text
