import TableTypes.Proofs.Text.Find
import TableTypes.Proofs.Text.Reader

/-!
# Searching across a barrier

A *barrier* is a character that belongs to no word and is no blank: a quote, a parenthesis, a comma.
The words of a phrase stand side by side with nothing but blanks between them, so no phrase is read
across a barrier (`StopsAt`), and a search of `u ++ x :: t` is a search of `u` and then one of `t`
(`Opens.findWord_append`).  In particular a phrase occurs in `u ++ x :: t` if and only if it occurs
in `u` or in `t` (`hasPhrase_barrier`).
-/

namespace TableTypes.Text

variable {α β : Type} {x : Char}

/-! ### Readers that stop at a character -/

/-- Whatever stands from `x` on, the reader leaves it over and does not look at it. -/
def StopsAt (x : Char) (f : Text → Option Text) : Prop :=
  ∀ u t : Text, f (u ++ x :: t) = (f u).map (· ++ x :: t)

theorem StopsAt.bind {f g : Text → Option Text} (hf : StopsAt x f) (hg : StopsAt x g) :
    StopsAt x fun t => (f t).bind g := by
  intro u t
  show (f (u ++ x :: t)).bind g = ((f u).bind g).map _
  rw [hf u t]
  cases f u with
  | none => rfl
  | some r => exact hg r t

theorem stopsAt_keyword? (hx : isWord x = false) {k : Text} (hk : isKeyword k = true) :
    StopsAt x (keyword? k) := by
  intro u t
  exact keyword?_append (atWordEnd_cons hx t) u hk

theorem stopsAt_dropBlanks1? (hx : isBlank x = false) : StopsAt x dropBlanks1? := by
  intro u t
  cases u with
  | nil => exact dropBlanks1?_of_head t hx
  | cons c u =>
    rw [List.cons_append, dropBlanks1?, dropBlanks1?]
    split
    · exact congrArg some (dropBlanks_append_cons hx u t)
    · rfl

theorem stopsAt_phrase? (hx : isWord x = false) (hblank : isBlank x = false) :
    ∀ {ws : List Text}, (∀ w ∈ ws, isKeyword w = true) → StopsAt x (phrase? ws)
  | [], _ => fun _ _ => rfl
  | [_], hws => stopsAt_keyword? hx (hws _ List.mem_cons_self)
  | w :: v :: ws, hws => by
    have hrest : StopsAt x (phrase? (v :: ws)) :=
      stopsAt_phrase? hx hblank fun u hu => hws u (List.mem_cons_of_mem w hu)
    intro u t
    rw [phrase?_cons_cons, phrase?_cons_cons]
    exact (stopsAt_keyword? hx (hws w List.mem_cons_self)).bind
      ((stopsAt_dropBlanks1? hblank).bind hrest) u t

/-- A barrier ends a word as the end of the text does. -/
theorem stopsAt_wholePhrase? (hx : isWord x = false) (hblank : isBlank x = false) {ws : List Text}
    (hws : ∀ w ∈ ws, isKeyword w = true) : StopsAt x (wholePhrase? ws) := by
  intro u t
  rw [wholePhrase?, wholePhrase?, stopsAt_phrase? hx hblank hws u t]
  cases phrase? ws u with
  | none => rfl
  | some r =>
    have hend : atWordEnd (r ++ x :: t) = atWordEnd r := by
      cases r with
      | nil =>
        rw [List.nil_append, atWordEnd, List.head?_cons, Option.all_some, hx]
        rfl
      | cons c r => rfl
    rw [Option.map_some, Option.filter_some, Option.filter_some, hend]
    split <;> rfl

/-! ### Searches -/

/-- A search for values that are made of those of another reader. -/
theorem findWord_map (f : Text → Option α) (g : α → β) (t : Text) :
    findWord (fun s => (f s).map g) t = (findWord f t).map g := by
  have hfrom : ∀ before : Option Char,
      findWordFrom (fun s => (f s).map g) before t = (findWordFrom f before t).map g := by
    induction t with
    | nil =>
      intro before
      rw [findWordFrom_nil, findWordFrom_nil]
      split <;> rfl
    | cons c t ih =>
      intro before
      rw [findWordFrom_cons, findWordFrom_cons, ih, Option.map_or]
      split <;> rfl
  exact hfrom none

namespace Opens

variable {ks : List Text} {f : Text → Option α} (hf : Opens ks f)

include hf

/-- **A search goes on behind a barrier.**  The reader `g` finds on a rest of `u` what `f` finds
there with `x :: t` behind it. -/
theorem findWord_barrier (hx : isWord x = false) {g : Text → Option α} {u t : Text}
    (h : ∀ s, s <:+ u → f (s ++ x :: t) = g s) :
    findWord f (u ++ x :: t) = (findWord g u).or (findWord f t) := by
  have hfrom : ∀ before : Option Char, findWordFrom f before (u ++ x :: t) =
      (findWordFrom g before u).or (findWord f t) := by
    induction u with
    | nil =>
      intro before
      have hnil : g [] = none := (h [] List.suffix_rfl).symm.trans (hf.nonword hx t)
      rw [List.nil_append, hf.findWordFrom_nonword hx, findWordFrom_nil, hnil, ite_self]
      rfl
    | cons c u ih =>
      intro before
      have hc : f (c :: (u ++ x :: t)) = g (c :: u) := h (c :: u) List.suffix_rfl
      rw [List.cons_append, findWordFrom_cons, findWordFrom_cons, hc,
        ih fun s hs => h s (hs.trans (List.suffix_cons c u)), Option.or_assoc]
  exact hfrom none

theorem findWord_append (hx : isWord x = false) {ext : α → α} {u t : Text}
    (h : ∀ s, s <:+ u → f (s ++ x :: t) = (f s).map ext) :
    findWord f (u ++ x :: t) = ((findWord f u).map ext).or (findWord f t) := by
  rw [hf.findWord_barrier hx h, findWord_map]

end Opens

/-- A search for what does not go beyond a barrier looks at both sides of it. -/
theorem Opens.isSome_findWord_barrier {ks : List Text} {f : Text → Option Text} (hf : Opens ks f)
    (hx : isWord x = false) (hstop : StopsAt x f) (u t : Text) :
    (findWord f (u ++ x :: t)).isSome = ((findWord f u).isSome || (findWord f t).isSome) := by
  rw [hf.findWord_append hx fun s _ => hstop s t, Option.isSome_or, Option.isSome_map]

/-- **A phrase stands on one side of a barrier or on the other.** -/
theorem hasPhrase_barrier (hx : isWord x = false) (hblank : isBlank x = false) {k : Text}
    {ks : List Text} (hinitial : k.head?.any (!isAsciiDigit ·) = true)
    (hks : ∀ w ∈ k :: ks, isKeyword w = true) (u t : Text) :
    hasPhrase (k :: ks) (u ++ x :: t) = (hasPhrase (k :: ks) u || hasPhrase (k :: ks) t) :=
  (opens_wholePhrase? hinitial (hks k List.mem_cons_self)).isSome_findWord_barrier hx
    (stopsAt_wholePhrase? hx hblank hks) u t

end TableTypes.Text
