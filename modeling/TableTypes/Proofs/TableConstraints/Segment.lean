import TableTypes.Proofs.Scan.Names
import TableTypes.Proofs.TableConstraints.Passing
import TableTypes.Proofs.TableConstraints.Span

/-!
# Reading within a segment

A reader of constraints that begins within a segment of the list does not look beyond it: behind the
segment stands nothing or a comma, a name between quotes ends with its quote, and a column list
with its parenthesis.  So it finds in a segment what it finds there when the list goes on.

`Reads` says this of one reader: of a keyword (`reads_keyword?`), a name (`reads_constraintName?`)
and a list of columns behind its name (`reads_namedList?`).  Readers that follow each other are put
together by `Reads.bind`, where the second one may use what the first one has found; `Reads.blanks`
and `Reads.orElse` are for the blanks between words and for alternatives.
-/

namespace TableTypes

open Text

variable {α β : Type} {z : Text}

/-! ### The end of a segment -/

theorem isBlank_or_eq_of_ends (hz : Ends (dropBlanks z)) :
    ∀ c ∈ z.head?, isBlank c = true ∨ c = ',' := by
  intro c hc
  obtain ⟨z, rfl⟩ := List.head?_eq_some_iff.mp hc
  by_cases hblank : isBlank c = true
  · exact Or.inl hblank
  · rw [dropBlanks_of_head z (Bool.eq_false_iff.mpr hblank)] at hz
    exact Or.inr (hz c rfl)

/-- No name begins behind a segment. -/
theorem noneAt_of_ends (hz : Ends (dropBlanks z)) : NameSpan.NoneAt z := by
  intro c hc
  rcases isBlank_or_eq_of_ends hz c hc with hc | rfl
  · exact ⟨isWord_of_isBlank hc, ofChar?_of_isBlank hc⟩
  · exact ⟨by decide, rfl⟩

/-- No word goes on behind a segment. -/
theorem atWordEnd_of_ends (hz : Ends (dropBlanks z)) : atWordEnd z = true :=
  (noneAt_of_ends hz).atWordEnd

theorem Ends.nil : Ends [] :=
  fun _ hc => nomatch hc

/-- Either nothing is left at the end of a segment or a comma. -/
theorem Ends.cases {s : Text} (hs : Ends s) : s = [] ∨ ∃ r, s = ',' :: r := by
  cases s with
  | nil => exact Or.inl rfl
  | cons c s => exact Or.inr ⟨s, by rw [hs c rfl]⟩

theorem Ends.dropBlanks {s : Text} (hs : Ends s) : dropBlanks s = s := by
  rcases hs.cases with rfl | ⟨r, rfl⟩ <;> rfl

/-! ### Readers -/

/-- On a text of `A` the reader `f` finds something with the property `P`, or nothing, and `f'`
finds the same when `z` stands behind the text; `ext` is how the finding is changed by that.  At
the end of a segment both find nothing. -/
structure Reads (z : Text) (A : Text → Prop) (P : α → Prop) (ext : α → α)
    (f f' : Text → Option α) : Prop where
  append : ∀ v, A v → f' (v ++ z) = (f v).map ext
  rest : ∀ v a, A v → f v = some a → P a
  idle : ∀ s, Ends s → f s = none ∧ f' s = none

namespace Reads

variable {A : Text → Prop} {P : α → Prop} {Q : β → Prop} {ext : α → α} {e : β → β}
  {f f' g g' : Text → Option α}

/-- Two readers one behind the other. -/
theorem bind {g g' : α → Option β} (hf : Reads z A P ext f f)
    (hg : ∀ a, P a → g' (ext a) = (g a).map e ∧ ∀ b, g a = some b → Q b) :
    Reads z A Q e (fun t => (f t).bind g) (fun t => (f t).bind g') where
  append := by
    intro v hv
    show (f (v ++ z)).bind g' = ((f v).bind g).map e
    rw [hf.append v hv]
    cases h : f v with
    | none => rfl
    | some a => exact (hg a (hf.rest v a hv h)).1
  rest := by
    intro v b hv h
    obtain ⟨a, ha, hb⟩ := Option.bind_eq_some_iff.mp h
    exact (hg a (hf.rest v a hv ha)).2 b hb
  idle := by
    intro s hs
    rw [(hf.idle s hs).1]
    exact ⟨rfl, rfl⟩

theorem map {k k' : α → β} (hf : Reads z A P ext f f')
    (h : ∀ a, P a → k' (ext a) = e (k a) ∧ Q (k a)) :
    Reads z A Q e (fun t => (f t).map k) (fun t => (f' t).map k') where
  append := by
    intro v hv
    show (f' (v ++ z)).map k' = ((f v).map k).map e
    rw [hf.append v hv]
    cases hfv : f v with
    | none => rfl
    | some a => exact congrArg some (h a (hf.rest v a hv hfv)).1
  rest := by
    intro v b hv hb
    obtain ⟨a, ha, rfl⟩ := Option.map_eq_some_iff.mp hb
    exact (h a (hf.rest v a hv ha)).2
  idle := by
    intro s hs
    rw [(hf.idle s hs).1, (hf.idle s hs).2]
    exact ⟨rfl, rfl⟩

/-- What a reader does behind another one. -/
theorem behind (h : Reads z A P ext f f') (v : Text) (hv : A v) :
    f' (v ++ z) = (f v).map ext ∧ ∀ a, f v = some a → P a :=
  ⟨h.append v hv, fun a => h.rest v a hv⟩

theorem mono {B : Text → Prop} (h : Reads z A P ext f f') (hB : ∀ v, B v → A v) :
    Reads z B P ext f f' :=
  ⟨fun v hv => h.append v (hB v hv), fun v a hv => h.rest v a (hB v hv), h.idle⟩

theorem orElse (hf : Reads z A P ext f f') (hg : Reads z A P ext g g') :
    Reads z A P ext (fun t => f t <|> g t) (fun t => f' t <|> g' t) where
  append := by
    intro v hv
    show (f' (v ++ z) <|> g' (v ++ z)) = (f v <|> g v).map ext
    rw [hf.append v hv, hg.append v hv]
    cases f v <;> rfl
  rest := by
    intro v a hv h
    rcases eq_some_of_orElse h with h | h
    · exact hf.rest v a hv h
    · exact hg.rest v a hv h
  idle := by
    intro s hs
    rw [(hf.idle s hs).1, (hf.idle s hs).2]
    exact hg.idle s hs

/-- The first of several readers that finds something. -/
theorem findSome? {γ : Type} {f : γ → Text → Option α} {ks : List γ}
    (h : ∀ k ∈ ks, Reads z A P ext (f k) (f k)) :
    Reads z A P ext (fun t => ks.findSome? (f · t)) (fun t => ks.findSome? (f · t)) where
  append := by
    intro v hv
    induction ks with
    | nil => rfl
    | cons k ks ih =>
      have hk := (h k List.mem_cons_self).append v hv
      have hks := ih fun l hl => h l (List.mem_cons_of_mem k hl)
      show List.findSome? (f · (v ++ z)) (k :: ks) = _
      rw [List.findSome?_cons, List.findSome?_cons, hk]
      cases f k v with
      | none => exact hks
      | some a => rfl
  rest := by
    intro v a hv ha
    obtain ⟨k, hk, hfk⟩ := List.exists_of_findSome?_eq_some ha
    exact (h k hk).rest v a hv hfk
  idle := by
    intro s hs
    have hnone : ks.findSome? (f · s) = none :=
      List.findSome?_eq_none_iff.mpr fun k hk => ((h k hk).idle s hs).1
    exact ⟨hnone, hnone⟩

variable (hz : Ends (Text.dropBlanks z))

include hz

/-- Where only blanks are left of the segment, the reader finds nothing behind them. -/
theorem dropBlanks_append (h : Reads z A P ext f f') {v : Text} (hv : A (dropBlanks v)) :
    f' (dropBlanks (v ++ z)) = (f (dropBlanks v)).map ext := by
  rw [Text.dropBlanks_append]
  split
  · rename_i hnil
    rw [hnil, (h.idle [] Ends.nil).1, (h.idle _ hz).2]
    rfl
  · exact h.append _ hv

theorem blanks (h : Reads z A P ext f f') (hA : ∀ v, A v → A (dropBlanks v)) :
    Reads z A P ext (fun t => f (dropBlanks t)) (fun t => f' (dropBlanks t)) where
  append v hv := h.dropBlanks_append hz (hA v hv)
  rest v a hv := h.rest _ a (hA v hv)
  idle := by
    intro s hs
    rw [hs.dropBlanks]
    exact h.idle s hs

/-- A reader behind at least one blank. -/
theorem blanks1 (h : Reads z A P ext f f') (hA : ∀ v, A v → A (dropBlanks v)) :
    Reads z A P ext (fun t => (dropBlanks1? t).bind f) (fun t => (dropBlanks1? t).bind f') where
  append := by
    intro v hv
    cases v with
    | nil =>
      cases z with
      | nil => rfl
      | cons c z =>
        show (dropBlanks1? (c :: z)).bind f' = none
        rw [dropBlanks1?]
        split
        · rename_i hc
          rw [dropBlanks_cons hc] at hz
          exact (h.idle _ hz).2
        · rfl
    | cons c v =>
      rw [List.cons_append, dropBlanks1?, dropBlanks1?]
      split
      · rename_i hc
        exact h.dropBlanks_append hz (dropBlanks_cons hc v ▸ hA _ hv)
      · rfl
  rest := by
    intro v a hv ha
    obtain ⟨r, hr, ha⟩ := Option.bind_eq_some_iff.mp ha
    exact h.rest r a (eq_dropBlanks_of_dropBlanks1? hr ▸ hA v hv) ha
  idle := by
    intro s hs
    rcases hs.cases with rfl | ⟨r, rfl⟩ <;> exact ⟨rfl, rfl⟩

end Reads

/-! ### Words -/

section

variable {k : Text} (hk : isKeyword k = true) (hne : k ≠ [])

include hk hne

/-- A keyword is read in code, and behind it there is code. -/
theorem reads_keyword? (hz : Ends (dropBlanks z)) :
    Reads z IsOpen InCode (· ++ z) (keyword? k) (keyword? k) where
  append v _ := keyword?_append (atWordEnd_of_ends hz) v hk
  rest := by
    intro v r hv h
    rcases hv with hv | ⟨q, hv⟩
    · obtain ⟨u, rfl, hu⟩ := exists_of_keyword? hk h
      exact hv.word hu
    · obtain ⟨c, r', rfl, hc⟩ := hv.exists_head
      rw [keyword?_of_not_isWord hk hne (isWord_of_space_or_quote hc)] at h
      cases h
  idle := by
    intro s hs
    have hnone : keyword? k s = none := by
      rcases hs.cases with rfl | ⟨r, rfl⟩
      · obtain ⟨x, k, rfl⟩ := List.exists_cons_of_ne_nil hne
        rfl
      · exact keyword?_of_not_isWord hk hne (by decide) r
    exact ⟨hnone, hnone⟩

end

/-! ### Names -/

/-- The places with more text behind them. -/
def ListSpan.append (p : ListSpan) (z : Text) : ListSpan :=
  (p.1 ++ z, p.2 ++ z)

theorem reads_quotedName? (hz : Ends (dropBlanks z)) :
    Reads z InCode (fun p => IsOpen p.2) (fun p => (p.1.append z, p.2 ++ z)) quotedName?
      quotedName? where
  append := by
    intro v hv
    rw [quotedName?, quotedName?, NameSpan.read?_append hv (noneAt_of_ends hz), Option.map_map,
      Option.map_map]
    rfl
  rest := by
    intro v p hv h
    obtain ⟨n, hn, rfl⟩ := Option.map_eq_some_iff.mp h
    exact NameSpan.isOpen_rest hv hn
  idle := by
    intro s hs
    rcases hs.cases with rfl | ⟨r, rfl⟩ <;> exact ⟨rfl, rfl⟩

/-- Whether a word is reserved does not depend on what stands behind the segment. -/
theorem anyPhrase?_reserved_append (v : Text) (hz : Ends (dropBlanks z)) :
    (anyPhrase? reservedNames (v ++ z)).isSome = (anyPhrase? reservedNames v).isSome := by
  have hword : ∀ ws ∈ reservedNames, ∃ k, ws = [k] ∧ isKeyword k = true := by
    intro ws hws
    have hall : reservedNames.all (fun ws => ws.length = 1 && ws.all isKeyword) = true := by decide
    have h := List.all_eq_true.mp hall ws hws
    simp only [Bool.and_eq_true, decide_eq_true_eq] at h
    obtain ⟨k, rfl⟩ := List.length_eq_one_iff.mp h.1
    exact ⟨k, rfl, List.all_eq_true.mp h.2 k List.mem_cons_self⟩
  rw [anyPhrase?, anyPhrase?, Bool.eq_iff_iff, List.findSome?_isSome_iff, List.findSome?_isSome_iff]
  refine exists_congr fun ws => and_congr_right fun hws => ?_
  obtain ⟨k, rfl, hk⟩ := hword ws hws
  rw [wholePhrase?, wholePhrase?, phrase?, phrase?, keyword?_append (atWordEnd_of_ends hz) v hk]
  cases keyword? k v with
  | none => rfl
  | some r =>
    have hend : atWordEnd (r ++ z) = atWordEnd r := by
      cases r with
      | nil => exact atWordEnd_of_ends hz
      | cons c r => rfl
    rw [Option.map_some, Option.filter_some, Option.filter_some, hend]
    split <;> rfl

theorem reads_constraintName? (hz : Ends (dropBlanks z)) :
    Reads z InCode (fun p => IsOpen p.2) (fun p => (p.1.append z, p.2 ++ z)) constraintName?
      constraintName? where
  append := by
    intro v hv
    rw [constraintName?, constraintName?, anyPhrase?_reserved_append v hz]
    split
    · rfl
    · exact (reads_quotedName? hz).append v hv
  rest := by
    intro v p hv h
    rw [constraintName?] at h
    split at h
    · cases h
    · exact (reads_quotedName? hz).rest v p hv h
  idle := by
    intro s hs
    rcases hs.cases with rfl | ⟨r, rfl⟩ <;> exact ⟨rfl, rfl⟩

/-! ### Column lists -/

theorem reads_parenthesized? (hz : Ends (dropBlanks z)) : Reads z IsOpen (fun p => InCode p.2.2)
    (fun p => (p.1 ++ z, p.2.1 ++ z, p.2.2 ++ z)) parenthesized? parenthesized? where
  append v hv := by
    refine parenthesized?_append hv fun h => ?_
    rcases isBlank_or_eq_of_ends hz '(' h with h | h <;> exact absurd h (by decide)
  rest := by
    intro v p hv h
    cases v with
    | nil => cases h
    | cons c v =>
      by_cases hc : c = '('
      · subst hc
        obtain ⟨x, r, rfl, hx, hr⟩ := hv.exists_paren
        rw [parenthesized?_paren hx] at h
        split at h
        · cases h
        · rwa [← Option.some.inj h]
      · rw [parenthesized?_of_ne hc] at h
        cases h
  idle := by
    intro s hs
    rcases hs.cases with rfl | ⟨r, rfl⟩ <;> exact ⟨rfl, rfl⟩

theorem reads_columnList? (hz : Ends (dropBlanks z)) :
    Reads z IsOpen (fun p => InCode p.2) (fun p => (p.1.append z, p.2 ++ z)) columnList?
      columnList? :=
  ((reads_parenthesized? hz).blanks hz fun _ hv => hv.dropBlanks).map fun _ hp => ⟨rfl, hp⟩

/-! ### Named lists -/

theorem reads_namedList? (named : Bool) (hz : Ends (dropBlanks z)) :
    Reads z InCode (fun p => InCode p.2.2)
      (fun p => (p.1.map (·.append z), p.2.1.append z, p.2.2 ++ z)) (namedList? named)
      (namedList? named) := by
  cases named with
  | true =>
    have heq : namedList? true = fun t => (dropBlanks1? t).bind fun r =>
        (constraintName? r).bind fun p => (columnList? p.2).bind fun q =>
          some (some p.1, q.1, q.2) := by
      funext t
      show ((dropBlanks1? t).bind constraintName?).bind _ = _
      rw [Option.bind_assoc]
      rfl
    rw [heq]
    refine Reads.blanks1 hz ((reads_constraintName? hz).bind fun p hp => ?_) fun _ hv =>
      hv.dropBlanks
    exact ((reads_columnList? hz).bind fun q hq => ⟨rfl, fun b hb =>
      Option.some.inj hb ▸ hq⟩).behind p.2 hp
  | false =>
    exact ((reads_columnList? hz).mono fun _ hv => Or.inl hv).map fun _ hp => ⟨rfl, hp⟩

end TableTypes
