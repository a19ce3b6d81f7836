import TableTypes.Gate
import TableTypes.Proofs.Report
import TableTypes.Proofs.Text.LineEnds
import TableTypes.Proofs.Text.Search

/-!
# Places with `CREATE TABLE`

The gate estimates the number of tables by the places where `CREATE TABLE` stands, in whatever
context.  No such place lies inside another, so none is missed (`countCreateTable_eq`).

In the cleaned text each of these places has a position of its own (`pairwise_cleanedMentions`);
without control characters these are the places where `CREATE TABLE` stands in the cleaned text
(`mem_cleanedMentions_iff`).
-/

namespace TableTypes

open Text

/-- The words that a statement begins with. -/
def createTable : List Text :=
  ["create".toList, "table".toList]

/-! ### The words -/

/-- A text that spells a keyword without the letter `x` holds no form of `x`. -/
theorem matchesLetter_eq_false_of_spelled {x : Char} (hx : isAsciiWord x = true ∧ x.toLower = x)
    {k u : Text} (hk : isKeyword k = true) (hnot : x ∉ k)
    (h : List.Forall₂ (fun y d => matchesLetter y d = true) k u) :
    ∀ d ∈ u, matchesLetter x d = false := by
  intro d hd
  obtain ⟨y, hy, hyd⟩ := Report.exists_of_forall₂ h hd
  rw [← Bool.not_eq_true]
  intro hxd
  have hyword := List.all_eq_true.mp hk y hy
  simp only [Bool.and_eq_true, decide_eq_true_eq] at hyword
  exact hnot (eq_of_matchesLetter hx hyword hxd hyd ▸ hy)

/-- The letter that the words begin with does not come again in them. -/
theorem exists_of_createTable {t r : Text} (h : phrase? createTable t = some r) :
    ∃ c v, t = c :: (v ++ r) ∧ matchesLetter 'c' c = true ∧ ∀ d ∈ v, matchesLetter 'c' d = false := by
  obtain ⟨s, hs, hrest⟩ := Option.bind_eq_some_iff.mp h
  obtain ⟨x, hx, hr⟩ := Option.bind_eq_some_iff.mp hrest
  have hr : keyword? "table".toList x = some r := hr
  obtain ⟨u, rfl, hcreate⟩ := keyword?_eq_some_iff.mp hs
  obtain ⟨b, rfl, hblank⟩ := exists_of_dropBlanks1? hx
  obtain ⟨w, rfl, htable⟩ := keyword?_eq_some_iff.mp hr
  obtain ⟨c, v, hc, hv, rfl⟩ := List.forall₂_cons_left_iff.mp hcreate
  refine ⟨c, v ++ (b ++ w), by simp only [List.cons_append, List.append_assoc], hc, ?_⟩
  intro d hd
  rcases List.mem_append.mp hd with hd | hd
  · exact matchesLetter_eq_false_of_spelled (by decide) (by decide) (by decide) hv d hd
  · rcases List.mem_append.mp hd with hd | hd
    · exact matchesLetter_of_isBlank (by decide) (hblank d hd)
    · exact matchesLetter_eq_false_of_spelled (by decide) (by decide) (by decide) htable d hd

theorem createTable_eq_none {d : Char} (hd : matchesLetter 'c' d = false) (t : Text) :
    phrase? createTable (d :: t) = none := by
  rw [createTable, phrase?_cons_cons]
  show (keyword? ('c' :: _) (d :: t)).bind _ = none
  rw [keyword?, hd]
  rfl

/-- Between the first letter and the end of the words there is no other place. -/
theorem createTable_eq_none_inside {t v r : Text} {c : Char} {i : Nat}
    (hdrop : t.drop i = c :: (v ++ r)) (hv : ∀ d ∈ v, matchesLetter 'c' d = false) {k : Nat}
    (hk : k ∈ List.range' (i + 1) v.length) : phrase? createTable (t.drop k) = none := by
  obtain ⟨m, hm, rfl⟩ := List.mem_range'.mp hk
  have htail : t.drop (i + 1 + 1 * m) = v.drop m ++ r := by
    rw [Nat.one_mul, Nat.add_assoc, ← List.drop_drop, hdrop, Nat.add_comm 1 m,
      List.drop_succ_cons, List.drop_append_of_le_length (Nat.le_of_lt hm)]
  rw [htail, List.drop_eq_getElem_cons hm, List.cons_append]
  exact createTable_eq_none (hv _ (List.getElem_mem hm)) _

/-! ### The number of places -/

/-- The positions of a text where `CREATE TABLE` stands. -/
def mentions (t : Text) : List Nat :=
  (List.range t.length).filter fun i => (phrase? createTable (t.drop i)).isSome

theorem consumes_createTable : Consumes fun s => (phrase? createTable s).map ((), ·) := by
  intro t r a h
  obtain ⟨s, hs, hr⟩ := Option.map_eq_some_iff.mp h
  obtain rfl := (Prod.mk.inj hr).2
  obtain ⟨c, v, rfl, -⟩ := exists_of_createTable hs
  exact ⟨⟨c :: v, rfl⟩, by rw [List.length_cons, List.length_append]; omega⟩

/-- What a search has found from a position on are the places there. -/
theorem length_of_found {t : Text} {i : Nat} {as : List Unit}
    (h : Found (fun s => (phrase? createTable s).map ((), ·)) t i as) :
    as.length = ((List.range' i (t.length - i)).filter fun k =>
      (phrase? createTable (t.drop k)).isSome).length := by
  induction h with
  | done hi => rw [Nat.sub_eq_zero_of_le hi]; rfl
  | @pass i as hi hnone _ ih =>
    have hlength : t.length - i = t.length - (i + 1) + 1 := by omega
    rw [hlength, List.range'_succ, List.filter_cons, Option.map_eq_none_iff.mp hnone, ih]
    rfl
  | @hit i j a as hij hj hat _ ih =>
    obtain ⟨s, hs, hr⟩ := Option.map_eq_some_iff.mp hat
    obtain rfl := (Prod.mk.inj hr).2
    obtain ⟨c, v, hdrop, -, hv⟩ := exists_of_createTable hs
    have hj' : j = i + 1 + v.length := by
      have h := congrArg List.length hdrop
      rw [List.length_cons, List.length_append, List.length_drop, List.length_drop] at h
      omega
    have hlength : t.length - i = v.length + (t.length - j) + 1 := by omega
    have hinside : ∀ k ∈ List.range' (i + 1) v.length,
        ¬ (phrase? createTable (t.drop k)).isSome = true := by
      intro k hk
      rw [createTable_eq_none_inside hdrop hv hk]
      exact Bool.false_ne_true
    -- The place itself, nothing up to the end of its words, and what is found from there on.
    rw [hlength, List.range'_succ, List.filter_cons, hs, ← List.range'_append_1,
      List.filter_append, List.filter_eq_nil_iff.mpr hinside, ← hj', List.nil_append,
      List.length_cons, ih]
    rfl

/-- **Every place with `CREATE TABLE` is counted.** -/
theorem countCreateTable_eq (t : Text) : countCreateTable t = (mentions t).length := by
  rw [mentions, List.range_eq_range']
  exact length_of_found (found_findAll consumes_createTable t)

/-! ### Places in the cleaned text -/

/-- The positions in the cleaned text of the places where `CREATE TABLE` stands in a text. -/
def cleanedMentions (t : Text) : List Nat :=
  (mentions t).map fun i => (cleaned (t.take i)).length

theorem length_cleanedMentions (t : Text) : (cleanedMentions t).length = countCreateTable t := by
  rw [cleanedMentions, List.length_map, countCreateTable_eq]

/-- A place is a position, with a letter there that cleaning leaves as it is. -/
theorem exists_of_mention {t : Text} {i : Nat}
    (hi : (phrase? createTable (t.drop i)).isSome = true) :
    ∃ c s, t.drop i = c :: s ∧ isClean [c] = true ∧ c ≠ '\n' := by
  obtain ⟨r, hr⟩ := Option.isSome_iff_exists.mp hi
  obtain ⟨c, v, hdrop, hc, -⟩ := exists_of_createTable hr
  have hword : isAsciiWord c = true := by
    simp only [matchesLetter, Bool.or_eq_true, Bool.and_eq_true, decide_eq_true_eq] at hc
    rcases hc with (((rfl | hlower) | ⟨h, -⟩) | ⟨h, -⟩) | ⟨h, -⟩
    · decide
    · exact isAsciiWord_of_toLower (hlower ▸ by decide)
    all_goals exact absurd h (by decide)
  refine ⟨c, v ++ r, hdrop, isClean_of_isAsciiWord fun d hd => ?_, ?_⟩
  · exact List.mem_singleton.mp hd ▸ hword
  · rintro rfl
    exact absurd hword (by decide)

/-- At a place the text is cleaned in two parts. -/
theorem cleaned_split {t : Text} {i : Nat} (hi : (phrase? createTable (t.drop i)).isSome = true) :
    cleaned t = cleaned (t.take i) ++ cleaned (t.drop i) := by
  obtain ⟨c, s, hdrop, -, hc⟩ := exists_of_mention hi
  have hhead : (t.drop i).head? ≠ some '\n' := by
    rw [hdrop, List.head?_cons]
    exact fun h => hc (Option.some.inj h)
  rw [← cleaned_append (t.take i) hhead, List.take_append_drop]

theorem length_cleaned_take_lt {t : Text} {i j : Nat} (hij : i < j)
    (hi : (phrase? createTable (t.drop i)).isSome = true) :
    (cleaned (t.take i)).length < (cleaned (t.take j)).length := by
  obtain ⟨c, s, hdrop, hclean, hc⟩ := exists_of_mention hi
  obtain ⟨d, rfl⟩ : ∃ d, j = i + (d + 1) := ⟨j - i - 1, by omega⟩
  have htake : t.take (i + (d + 1)) = t.take i ++ c :: s.take d := by
    rw [List.take_add, hdrop, List.take_succ_cons]
  have hhead : (c :: s.take d).head? ≠ some '\n' := fun h => hc (Option.some.inj h)
  rw [htake, cleaned_append _ hhead, cleaned_cons hclean, List.length_append, List.length_cons]
  omega

/-- Different places have different positions, in the same order. -/
theorem pairwise_cleanedMentions (t : Text) : (cleanedMentions t).Pairwise (· < ·) := by
  rw [cleanedMentions, mentions, List.pairwise_map, List.pairwise_filter]
  exact List.pairwise_lt_range.imp fun hlt hi _ => length_cleaned_take_lt hlt hi

/-- Without control characters these are the places of the cleaned text. -/
theorem mem_cleanedMentions_iff {t : Text} (ht : ∀ c ∈ t, isControl c = false) {k : Nat} :
    k ∈ cleanedMentions t ↔ (phrase? createTable ((cleaned t).drop k)).isSome = true := by
  -- A line end is a blank however it is written, so the words stand in both texts or in neither.
  have hsome : ∀ s : Text,
      (phrase? createTable s).isSome = (phrase? createTable (unifyNewlines s)).isSome := fun s =>
    rel_isSome (Relined.phrase? (by decide) (relined_unifyNewlines rfl (Or.inl rfl)))
  have hpart : ∀ {u : Text}, u ⊆ t → cleaned u = unifyNewlines u := fun hu =>
    cleaned_of_isControl fun c hc => ht c (hu hc)
  rw [cleanedMentions, List.mem_map]
  constructor
  · rintro ⟨i, hi, rfl⟩
    have hi := (List.mem_filter.mp hi).2
    rw [cleaned_split hi, List.drop_left, hpart (List.drop_subset i t), ← hsome]
    exact hi
  · intro hk
    obtain ⟨c, s, hdrop, -⟩ := exists_of_mention hk
    have hlength : k < (cleaned t).length := by
      rw [← Nat.sub_pos_iff_lt, ← List.length_drop, hdrop]
      exact Nat.succ_pos _
    have hsplit : unifyNewlines t = (cleaned t).take k ++ (cleaned t).drop k := by
      rw [List.take_append_drop, hpart (List.Subset.refl t)]
    obtain ⟨u, v, rfl, hu, hv⟩ := exists_of_unifyNewlines hsplit
    rw [← hv, ← hsome] at hk
    have hne : v ≠ [] := by
      rintro rfl
      cases hk
    refine ⟨u.length, List.mem_filter.mpr ⟨List.mem_range.mpr ?_, ?_⟩, ?_⟩
    · rw [List.length_append]
      have := List.length_pos_of_ne_nil hne
      omega
    · rw [List.drop_left]
      exact hk
    · rw [List.take_left, hpart (List.subset_append_left u v), hu, List.length_take,
        Nat.min_eq_left (Nat.le_of_lt hlength)]

end TableTypes
