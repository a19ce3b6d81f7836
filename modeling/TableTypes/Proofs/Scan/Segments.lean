import TableTypes.Proofs.Scan.LineEnds
import TableTypes.Proofs.Scan.Split
import TableTypes.Proofs.Scan.Transparent
import TableTypes.Proofs.Scan.Visible

/-!
# The segments of a list

A text that closes what it opens is, once its comments are masked, a list of such texts with commas
between them.  What is put together of what it is for these segments, without the blanks around
them, is put together of what it is for the parts that the text is split into
(`IsBare.flatMap_splitCommas`).
-/

namespace TableTypes

open Text

/-! ### Commas -/

/-- Whether the mark is of a comma that separates segments. -/
def IsBare.isComma (m : Mark) : Bool :=
  decide (m.char = ',') && m.isTopLevel

/-- The scan of a level text that goes on behind a comma. -/
theorem IsLevel.scan_comma {a : Text} (ha : IsLevel true a) (b : Text) :
    scan true (a ++ ',' :: b) = scan true a ++ ⟨',', .code, 0⟩ :: scan true b := by
  have hcomma : IsLevel true [','] := ⟨rfl, rfl⟩
  have hrest : scan true (',' :: b) = ⟨',', .code, 0⟩ :: scan true b :=
    hcomma.scan_append (Seals.of_plain rfl)
  have hjoint : Seals true a (',' :: b) := Seals.of_head ha.place rfl (by decide)
  rw [ha.scan_append hjoint, hrest]

/-- A text has no comma that separates parts, or begins anew behind the first one. -/
theorem exists_scan_comma (t : Text) : (∀ m ∈ scan true t, IsBare.isComma m = false) ∨
    ∃ a b, t = a ++ ',' :: b ∧ IsLevel true a ∧ (∀ m ∈ scan true a, IsBare.isComma m = false) ∧
      scan true t = scan true a ++ ⟨',', .code, 0⟩ :: scan true b := by
  cases hfind : (scan true t).findIdx? IsBare.isComma with
  | none => exact .inl (List.findIdx?_eq_none_iff.mp hfind)
  | some k =>
    obtain ⟨u, m, v, hscan, -, hm, hu⟩ := exists_of_findIdx? hfind
    simp only [IsBare.isComma, Mark.isTopLevel, Bool.and_eq_true, decide_eq_true_eq] at hm
    obtain ⟨hchar, hregion, hdepth⟩ := hm
    obtain ⟨a, b, rfl, rfl, hplace, hlevel⟩ := exists_of_scan hscan hregion
      (by rw [hchar]; decide) (by rw [hchar]; decide)
    rw [hchar] at hlevel ⊢
    have hzero : (spotBehind true a).depth = 0 := by
      have hcomma : m.depth = (spotBehind true a).depth + 0 := hlevel
      omega
    have ha : IsLevel true a := ⟨hplace, hzero⟩
    exact .inr ⟨a, b, rfl, ha, hu, ha.scan_comma b⟩

/-! ### Bare texts -/

/-- Where comments are not looked for, the scan ends in code or inside quotes. -/
theorem Spot.place_behind (next : Option Char) (t : Text) : ∀ {s : Spot},
    (s.place = .code ∨ ∃ q, s.place = .quoted q) →
      (s.behind false next t).place = .code ∨ ∃ q, (s.behind false next t).place = .quoted q := by
  induction t with
  | nil => exact fun h => h
  | cons c t ih => exact fun h => ih (place_move h c _)

theorem isBare_iff {t : Text} : IsBare t ↔
    (∀ m ∈ scan true t, m.region ≠ .comment) ∧ hasUnmatchedDelimiters t = false := by
  rw [hasUnmatchedDelimiters_eq_false_iff_spotBehind]
  constructor
  · intro h
    refine ⟨h.comment, h.enclosed.nonneg, h.enclosed.level.depth, fun q => ?_⟩
    rw [h.enclosed.level.place]
    exact Place.noConfusion
  · rintro ⟨hcomment, hnonneg, hdepth, hquoted⟩
    rw [scan_eq_marks] at hcomment
    have hbehind := (Spot.marks_behind_of_not_comment t Spot.start (Or.inl rfl) hcomment).2
    have hplace : (spotBehind true t).place = .code := by
      rcases Spot.place_behind none t (s := Spot.start) (Or.inl rfl) with h | ⟨q, h⟩
      · rwa [hbehind] at h
      · rw [hbehind] at h
        exact absurd h (hquoted q)
    rw [← scan_eq_marks] at hcomment
    exact ⟨⟨hnonneg, hplace, hdepth⟩, hcomment⟩

/-- A text that closes what it opens is bare when its comments are masked. -/
theorem isBare_maskComments {t : Text} (h : hasUnmatchedDelimiters t = false) :
    IsBare (maskComments t) := by
  have hregion : ∀ m : Mark, m.blanked.region ≠ .comment := by
    intro m
    rw [Mark.region_blanked]
    cases m.region <;> exact fun h => Region.noConfusion h
  have hleaves : ∀ m : Mark, m.blanked.leavesQuote = m.leavesQuote := by
    intro m
    rw [Mark.leavesQuote, Mark.leavesQuote, Mark.region_blanked]
    cases m.region <;> rfl
  rw [hasUnmatchedDelimiters_eq_false_iff] at h
  rw [isBare_iff, hasUnmatchedDelimiters_eq_false_iff, scan_maskComments, List.getLast?_map]
  refine ⟨fun m hm => ?_, fun m hm => ?_, fun m hm => ?_⟩
  · obtain ⟨n, -, rfl⟩ := List.mem_map.mp hm
    exact hregion n
  · obtain ⟨n, hn, rfl⟩ := List.mem_map.mp hm
    rw [Mark.depth_blanked]
    exact h.1 n hn
  · obtain ⟨n, hn, rfl⟩ := Option.map_eq_some_iff.mp hm
    rw [Mark.depth_blanked, hleaves]
    exact h.2 n hn

namespace IsBare

variable {a b t : Text}

theorem nil : IsBare [] :=
  isBare_iff.mpr ⟨fun _ hm => absurd hm List.not_mem_nil, rfl⟩

/-- The scan of a bare text that blanks stand around. -/
theorem scan_inset {l r : Text} (hl : ∀ c ∈ l, isBlank c = true) (hr : ∀ c ∈ r, isBlank c = true)
    (a : Text) : scan true a ⊆ scan true (l ++ (a ++ r)) := by
  have hplain : l.all isPlain = true := all_isPlain_of_blanks hl
  have hlevel : IsLevel true l := IsLevel.of_plain hplain fun c hc => weight_of_isBlank _ (hl c hc)
  rw [hlevel.scan_append (Seals.of_plain hplain), (scan_append_blanks hr a).1]
  exact List.subset_append_of_subset_right _ (List.subset_append_left _ _)

theorem strip (h : IsBare t) : IsBare (strip t) := by
  rw [isBare_iff]
  refine ⟨fun m hm => h.comment m ?_, h.enclosed.hasUnmatchedDelimiters_strip⟩
  obtain ⟨l, r, ht, hl, hr⟩ := strip_split t
  rw [ht]
  exact scan_inset hl hr _ hm

/-! ### The first segment -/

/-- The scan of a bare text that goes on behind a comma. -/
theorem scan_comma (ha : IsBare a) (b : Text) :
    scan true (a ++ ',' :: b) = scan true a ++ ⟨',', .code, 0⟩ :: scan true b :=
  ha.enclosed.level.scan_comma b

/-- What stands behind a comma in a bare text is bare. -/
theorem of_comma (ha : IsBare a) (h : IsBare (a ++ ',' :: b)) : IsBare b := by
  have hsub : scan true b ⊆ scan true a ++ ⟨',', .code, 0⟩ :: scan true b :=
    List.subset_append_of_subset_right _ (List.subset_cons_self _ _)
  rw [isBare_iff, hasUnmatchedDelimiters_eq_false_iff, ha.scan_comma] at h
  rw [isBare_iff, hasUnmatchedDelimiters_eq_false_iff]
  obtain ⟨hcomment, hnonneg, hlast⟩ := h
  refine ⟨fun m hm => hcomment m (hsub hm), fun m hm => hnonneg m (hsub hm), fun m hm => ?_⟩
  refine hlast m ?_
  rw [List.getLast?_append, List.getLast?_cons, Option.mem_def.mp hm]
  rfl

/-- A bare text has no comma that separates segments, or is two bare texts with one between
them, the first of which has none. -/
theorem exists_comma (h : IsBare t) : (∀ m ∈ scan true t, isComma m = false) ∨
    ∃ a b, t = a ++ ',' :: b ∧ IsBare a ∧ IsBare b ∧ ∀ m ∈ scan true a, isComma m = false := by
  rcases exists_scan_comma t with hnone | ⟨a, b, rfl, hlevel, hcomma, hscan⟩
  · exact Or.inl hnone
  · have hfront : scan true a ⊆ scan true (a ++ ',' :: b) := by
      rw [hscan]
      exact List.subset_append_left _ _
    have ha : IsBare a := ⟨⟨fun n hn => h.enclosed.nonneg n (hfront hn), hlevel⟩,
      fun n hn => h.comment n (hfront hn)⟩
    exact Or.inr ⟨a, b, rfl, ha, ha.of_comma h, hcomma⟩

/-! ### Masks of segments -/

theorem place_false (h : IsBare t) : (spotBehind false t).place = .code := by
  rw [h.scan_false.2]
  exact h.enclosed.level.place

theorem maskQuoted_comma (ha : IsBare a) (b : Text) :
    maskQuoted (a ++ ',' :: b) = maskQuoted a ++ ',' :: maskQuoted b := by
  have hrest : maskQuoted (',' :: b) = ',' :: maskQuoted b :=
    maskQuoted_plain_append (a := [',']) b rfl
  rw [maskQuoted_append (Seals.of_head ha.place_false rfl (by decide)), hrest]

/-- Blanks around a text stay where they are. -/
theorem maskQuoted_inset {l r : Text} (hl : ∀ c ∈ l, isBlank c = true)
    (hr : ∀ c ∈ r, isBlank c = true) (ha : IsBare a) :
    maskQuoted (l ++ (a ++ r)) = l ++ (maskQuoted a ++ r) := by
  have hback : maskQuoted (a ++ r) = maskQuoted a ++ r := by
    cases r with
    | nil => rw [List.append_nil, List.append_nil]
    | cons c r =>
      have hc := hr c List.mem_cons_self
      have hseals : Seals false a (c :: r) := Seals.of_head ha.place_false rfl
        ⟨ofChar?_of_isBlank hc, ne_of_isBlank (by decide) hc, ne_of_isBlank (by decide) hc⟩
      rw [maskQuoted_append hseals, maskQuoted_plain (all_isPlain_of_blanks hr)]
  rw [maskQuoted_plain_append _ (all_isPlain_of_blanks hl), hback]

/-! ### All segments -/

theorem uncomment_scan (h : IsBare t) : uncomment (scan true t) = t := by
  rw [uncomment_of_forall h.comment, map_char_scan]

end IsBare

/-- A text is the list of these segments with commas between them. -/
inductive Segments : Text → List Text → Prop
  | last {a : Text} (ha : IsBare a) : Segments a [a]
  | cons {a b : Text} {ps : List Text} (ha : IsBare a) (hb : IsBare b) (hps : Segments b ps) :
    Segments (a ++ ',' :: b) (a :: ps)

theorem Segments.isBare {t : Text} {ps : List Text} (h : Segments t ps) : ∀ p ∈ ps, IsBare p := by
  induction h with
  | last ha => exact List.forall_mem_singleton.mpr ha
  | cons ha _ _ ih => exact List.forall_mem_cons.mpr ⟨ha, ih⟩

theorem subset_dropEmptyLast (ps : List Text) : dropEmptyLast ps ⊆ ps := by
  fun_induction dropEmptyLast ps with
  | case1 => exact List.Subset.refl _
  | case2 p hp => exact List.nil_subset _
  | case3 p hp => exact List.Subset.refl _
  | case4 p q ps ih => exact List.cons_subset_cons p ih

theorem flatMap_dropEmptyLast {β : Type} {F : Text → List β} (hnil : F [] = []) (ps : List Text) :
    (dropEmptyLast ps).flatMap F = ps.flatMap F := by
  fun_induction dropEmptyLast ps with
  | case1 => rfl
  | case2 p hp => rw [List.isEmpty_iff.mp hp, List.flatMap_cons, hnil]; rfl
  | case3 p hp => rfl
  | case4 p q ps ih => rw [List.flatMap_cons, List.flatMap_cons, ih]

namespace IsBare

variable {t : Text}

/-- The parts of a bare text are its segments without the blanks around them. -/
theorem exists_segments (h : IsBare t) :
    ∃ ps, Segments t ps ∧ splitCommas t = dropEmptyLast (ps.map Text.strip) := by
  suffices hcut : ∃ ps, Segments t ps ∧
      (cutMarks isComma (scan true t)).map uncomment = ps by
    obtain ⟨ps, hps, rfl⟩ := hcut
    refine ⟨_, hps, ?_⟩
    rw [List.map_map]
    rfl
  induction hn : t.length using Nat.strong_induction_on generalizing t with
  | _ n ih =>
    rcases h.exists_comma with hnone | ⟨a, b, rfl, ha, hb, hnone⟩
    · refine ⟨_, .last h, ?_⟩
      rw [cutMarks_of_forall hnone, List.map_singleton, h.uncomment_scan]
    · have hlength : b.length < n := by
        rw [← hn, List.length_append, List.length_cons]
        omega
      obtain ⟨ps, hps, hcut⟩ := ih b.length hlength hb rfl
      refine ⟨_, .cons ha hb hps, ?_⟩
      rw [ha.scan_comma, cutMarks_append hnone rfl, List.map_cons, ha.uncomment_scan, hcut]

theorem of_mem_splitCommas (h : IsBare t) {p : Text} (hp : p ∈ splitCommas t) : IsBare p := by
  obtain ⟨ps, hps, hsplit⟩ := h.exists_segments
  rw [hsplit] at hp
  obtain ⟨a, ha, rfl⟩ := List.mem_map.mp (subset_dropEmptyLast _ hp)
  exact (hps.isBare a ha).strip

/-- **What is true of a segment without the blanks around it, and of the segments one behind the
other, is true of the parts of the text.** -/
theorem flatMap_splitCommas {β : Type} {F : Text → List β} (hnil : F [] = [])
    (hstrip : ∀ a, IsBare a → F a = F (Text.strip a))
    (hcomma : ∀ a b, IsBare a → IsBare b → F (a ++ ',' :: b) = F (Text.strip a) ++ F b)
    (h : IsBare t) : (splitCommas t).flatMap F = F t := by
  obtain ⟨ps, hps, hsplit⟩ := h.exists_segments
  rw [hsplit, flatMap_dropEmptyLast hnil]
  clear hsplit h
  induction hps with
  | last ha => rw [hstrip _ ha, List.map_singleton, List.flatMap_singleton]
  | cons ha hb _ ih => rw [List.map_cons, List.flatMap_cons, ih, hcomma _ _ ha hb]

end IsBare

end TableTypes
