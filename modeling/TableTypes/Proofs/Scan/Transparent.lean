import TableTypes.Proofs.Scan.Restart

/-!
# Masked comments do not show

Masking the comments of a text changes nothing that the scan says of it, but that comments are now
code (`maskComments_transparent`).  Everything is read off the marks of the text: masking replaces
each mark by its `blanked` one, which keeps the depth, keeps every region but that of comments, and
is a newline where the mark itself is one.
-/

namespace TableTypes

/-! ### Marks when comments are masked -/

/-- The region of a character when comments are masked. -/
def Region.uncommented : Region → Region
  | .comment => .code
  | r => r

theorem Region.uncommented_of_ne {r : Region} (h : r ≠ .comment) : r.uncommented = r := by
  cases r with
  | comment => exact absurd rfl h
  | code => rfl
  | quoted q => rfl

namespace Mark

theorem region_blanked (m : Mark) : m.blanked.region = m.region.uncommented := by
  by_cases hm : m.region = .comment
  · rw [(blanked_of_comment hm).1, hm]
    rfl
  · rw [blanked_of_not_comment hm, Region.uncommented_of_ne hm]

theorem depth_blanked (m : Mark) : m.blanked.depth = m.depth := by
  by_cases hm : m.region = .comment
  · exact (blanked_of_comment hm).2.1
  · rw [blanked_of_not_comment hm]

/-- Masking neither takes a newline away nor adds one. -/
theorem blanked_newline (m : Mark) : m.blanked.char = '\n' ↔ m.char = '\n' := by
  unfold blanked
  split
  · by_cases hn : m.char = '\n' <;> simp [hn]
  · exact Iff.rfl

theorem blanked_blanked (m : Mark) : m.blanked.blanked = m.blanked := by
  by_cases hm : m.region = .comment
  · apply blanked_of_not_comment
    rw [(blanked_of_comment hm).1]
    decide
  · rw [blanked_of_not_comment hm, blanked_of_not_comment hm]

/-- What is code is written out when comments and quoted text are both masked. -/
theorem unquotedChar_blanked {m : Mark} (h : m.region = .code) :
    m.blanked.unquotedChar = m.char := by
  rw [blanked_of_not_comment (by rw [h]; decide), unquotedChar, isQuotedContent, h]
  rfl

end Mark

/-! ### Masked twice -/

/-- A masked text has no comments left. -/
theorem maskComments_maskComments (t : Text) : maskComments (maskComments t) = maskComments t := by
  rw [maskComments_eq_map, scan_maskComments, List.map_map, maskComments_eq_map]
  apply List.map_congr_left
  intro m _
  rw [Function.comp_apply, Mark.blanked_blanked]

theorem maskQuoted_maskComments (t : Text) :
    maskQuoted (maskComments t) = (scan true t).map fun m => m.blanked.unquotedChar := by
  rw [maskQuoted_eq_map, scan_maskComments, List.map_map]
  rfl

/-! ### The characters of the masked text -/

variable {t : Text} {i : Nat} {m : Mark}

theorem getElem?_maskComments (t : Text) (i : Nat) :
    (maskComments t)[i]? = (scan true t)[i]?.map fun m => m.blanked.char := by
  rw [maskComments_eq_map, List.getElem?_map]

theorem getElem?_of_scan (h : (scan true t)[i]? = some m) : t[i]? = some m.char := by
  rw [← map_char_scan true t, List.getElem?_map, h, Option.map_some]

theorem getElem?_eq_none_of_scan (h : (scan true t)[i]? = none) : t[i]? = none := by
  rwa [← map_char_scan true t, List.getElem?_map, Option.map_eq_none_iff]

theorem newline_maskComments (t : Text) (i : Nat) :
    (maskComments t)[i]? = some '\n' ↔ t[i]? = some '\n' := by
  rw [getElem?_maskComments]
  cases h : (scan true t)[i]? with
  | none => rw [getElem?_eq_none_of_scan h, Option.map_none]
  | some m =>
    rw [getElem?_of_scan h, Option.map_some, Option.some.injEq, Option.some.injEq]
    exact m.blanked_newline

theorem getElem?_maskComments_of_ne (h : regionAt t i ≠ some .comment) :
    (maskComments t)[i]? = t[i]? := by
  rw [getElem?_maskComments]
  cases hm : (scan true t)[i]? with
  | none => rw [getElem?_eq_none_of_scan hm, Option.map_none]
  | some m =>
    have hregion : m.region ≠ .comment := by
      intro hcomment
      rw [regionAt, hm, Option.map_some, hcomment] at h
      exact h rfl
    rw [getElem?_of_scan hm, Option.map_some, blanked_of_not_comment hregion]

theorem getElem?_maskQuoted_maskComments (h : regionAt t i = some .code) :
    (maskQuoted (maskComments t))[i]? = t[i]? := by
  rw [regionAt] at h
  obtain ⟨m, hm, hregion⟩ := Option.map_eq_some_iff.mp h
  rw [maskQuoted_maskComments, List.getElem?_map, hm, Option.map_some, getElem?_of_scan hm,
    Mark.unquotedChar_blanked hregion]

/-- **Masking comments is transparent to the scan.**  The masked text is as long as the text, has
the same newlines and the same characters outside comments.  Whether or not it is searched for
comments again, the scan gives every character the depth it has in the text, and its region, which
is code for what was a comment.  So masking again changes nothing, and masking quoted text behind it
leaves all code of the text as it is. -/
theorem maskComments_transparent (t : Text) :
    (maskComments t).length = t.length ∧
      (∀ i : Nat, (maskComments t)[i]? = some '\n' ↔ t[i]? = some '\n') ∧
      (∀ i : Nat, regionAt t i ≠ some .comment → (maskComments t)[i]? = t[i]?) ∧
      (∀ (comments : Bool) (i : Nat),
        (scan comments (maskComments t))[i]?.map Mark.depth = (scan true t)[i]?.map Mark.depth ∧
        (scan comments (maskComments t))[i]?.map Mark.region =
          (regionAt t i).map Region.uncommented) ∧
      maskComments (maskComments t) = maskComments t ∧
      ∀ i : Nat, regionAt t i = some .code → (maskQuoted (maskComments t))[i]? = t[i]? := by
  refine ⟨length_maskComments t, newline_maskComments t, fun i => getElem?_maskComments_of_ne, ?_,
    maskComments_maskComments t, fun i => getElem?_maskQuoted_maskComments⟩
  intro comments i
  have hmark : (scan comments (maskComments t))[i]? = (scan true t)[i]?.map Mark.blanked := by
    rw [scan_maskComments, List.getElem?_map]
  have hdepth : Mark.depth ∘ Mark.blanked = Mark.depth := funext Mark.depth_blanked
  have hregion : Mark.region ∘ Mark.blanked = Region.uncommented ∘ Mark.region :=
    funext Mark.region_blanked
  constructor
  · rw [hmark, Option.map_map, hdepth]
  · rw [hmark, Option.map_map, hregion, regionAt, Option.map_map]

end TableTypes
