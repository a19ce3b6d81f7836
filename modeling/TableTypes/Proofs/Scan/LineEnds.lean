import TableTypes.Proofs.Scan.Enclosed
import TableTypes.Proofs.Text.LineEnds

/-!
# Matching delimiters and line ends

A text that closes what it opens still does so when it is stripped, and when each carriage return
with a newline behind it is left out (`Relined.hasUnmatchedDelimiters`): the scan of both texts goes
through the same spots.  A carriage return by itself cannot be written as a newline, since it does
not end a line comment.
-/

namespace TableTypes

open Text

/-! ### The same run -/

/-- Blanks do not move the depth and close no quote. -/
theorem Spot.behind_blanks {r : Text} (hr : ∀ c ∈ r, isBlank c = true) : ∀ s : Spot,
    (s.behind true none r).depth = s.depth ∧
      ∀ q, s.place = .quoted q → (s.behind true none r).place = .quoted q := by
  induction r with
  | nil => exact fun s => ⟨rfl, fun q hq => hq⟩
  | cons c r ih =>
    intro s
    have hc := hr c List.mem_cons_self
    obtain ⟨hdepth, hplace⟩ := ih (fun d hd => hr d (List.mem_cons_of_mem c hd))
      (s.move true c (r.head?.or none))
    rw [behind, hdepth]
    refine ⟨?_, fun q hq => hplace q ?_⟩
    · rw [move, weight_of_isBlank _ hc, Int.add_zero]
    · have hsolid : isBlank q.char = false := by cases q <;> rfl
      rw [move, hq, step_quoted (ne_of_isBlank hsolid hc)]

namespace Text.Relined

variable {t r : Text}

/-- What follows a character is different in the two texts only if it is of no interest. -/
theorem step_next (h : Relined false isAllBlank t r) (place : Place) (before : Option Char)
    (c : Char) : place.step true before c t.head? = place.step true before c r.head? := by
  have hblank : ∀ d, isBlank d = true → d ≠ '-' ∧ d ≠ '*' ∧ d ≠ '/' :=
    fun d hd => ⟨ne_of_isBlank rfl hd, ne_of_isBlank rfl hd, ne_of_isBlank rfl hd⟩
  have hnext : ∀ next : Option Char, (∀ d ∈ next, isBlank d = true) →
      place.step true before c next = place.step true before c none :=
    fun next hnext => step_of_next_char fun d hd => hblank d (hnext d hd)
  cases h with
  | stop hz => exact hnext _ fun d hd => List.all_eq_true.mp hz d (List.mem_of_mem_head? hd)
  | keep => rfl
  | pair =>
    have hreturn := hnext (some '\r') fun d hd => Option.some.inj hd ▸ rfl
    have hnewline := hnext (some '\n') fun d hd => Option.some.inj hd ▸ rfl
    exact hreturn.trans hnewline.symm
  | single hlone => cases hlone

/-- A line end moves the scan alike with and without a carriage return. -/
theorem move_pair (s : Spot) (next next' : Option Char) :
    (s.move true '\r' (some '\n')).move true '\n' next = s.move true '\n' next' ∧
      ((s.move true '\r' (some '\n')).mark true '\n' next).depth =
        (s.mark true '\n' next').depth := by
  obtain ⟨before, place, depth⟩ := s
  rcases place with _ | (_ | _ | _) | _ | _ | _ | _ <;>
    simp [Spot.move, Spot.mark, Place.step, Place.enter, Region.weight, Quote.ofChar?, Quote.char]

/-- The depths of the shorter text are depths of the longer one, and behind both the scan stands at
the same depth and in the same quotes. -/
theorem marks_behind (h : Relined false isAllBlank t r) : ∀ s : Spot,
    (s.marks true none r).map Mark.depth ⊆ (s.marks true none t).map Mark.depth ∧
      (s.behind true none t).depth = (s.behind true none r).depth ∧
      ∀ q, (s.behind true none r).place = .quoted q → (s.behind true none t).place = .quoted q := by
  induction h with
  | stop hz =>
    intro s
    exact ⟨List.nil_subset _, s.behind_blanks (List.all_eq_true.mp hz)⟩
  | @keep c t r h ih =>
    intro s
    have hstep := h.step_next s.place s.before c
    obtain ⟨hmarks, hbehind⟩ := ih (s.move true c r.head?)
    simp only [Spot.marks, Spot.behind, Option.or_none, Spot.mark, Spot.move, hstep,
      List.map_cons] at hmarks hbehind ⊢
    exact ⟨List.cons_subset_cons _ hmarks, hbehind⟩
  | @pair t r h ih =>
    intro s
    -- The carriage return adds a mark to those of the longer text, which the shorter one lacks.
    obtain ⟨hmove, hdepth⟩ := move_pair s t.head? r.head?
    obtain ⟨hmarks, hbehind⟩ := ih (s.move true '\n' r.head?)
    simp only [Spot.marks, Spot.behind, Option.or_none, List.head?_cons, hmove, hdepth,
      List.map_cons] at hmarks hbehind ⊢
    exact ⟨List.subset_cons_of_subset _ (List.cons_subset_cons _ hmarks), hbehind⟩
  | single hlone => cases hlone

/-- **A text that closes what it opens does so without the blanks around it**, and with its line
ends written as newlines. -/
theorem hasUnmatchedDelimiters {l : Text} (hl : ∀ c ∈ l, isBlank c = true)
    (h : Relined false isAllBlank t r) (ht : hasUnmatchedDelimiters (l ++ t) = false) :
    hasUnmatchedDelimiters r = false := by
  rw [hasUnmatchedDelimiters_eq_false_iff_spotBehind] at ht ⊢
  -- The blanks in front of the text do not change what the scan makes of it.
  have hplain : l.all isPlain = true := all_isPlain_of_blanks hl
  have hlevel : IsLevel true l := IsLevel.of_plain hplain fun c hc => weight_of_isBlank _ (hl c hc)
  have hseals : Seals true l t := Seals.of_plain hplain
  have hspot : (spotBehind true (l ++ t)).depth = (spotBehind true t).depth ∧
      (spotBehind true (l ++ t)).place = (spotBehind true t).place := by
    by_cases hnil : t = []
    · subst hnil
      rw [List.append_nil, hlevel.depth, hlevel.place]
      exact ⟨rfl, rfl⟩
    · rw [spotBehind_append hseals hnil, hlevel.depth]
      exact ⟨Int.add_zero _, rfl⟩
  rw [hlevel.scan_append hseals, hspot.1, hspot.2] at ht
  obtain ⟨hnonneg, hdepth, hplace⟩ := ht
  obtain ⟨hmarks, hsame, hquoted⟩ := h.marks_behind Spot.start
  refine ⟨?_, hsame.symm.trans hdepth, fun q hq => hplace q (hquoted q hq)⟩
  intro m hm
  rw [scan_eq_marks] at hm
  obtain ⟨n, hn, heq⟩ := List.mem_map.mp (hmarks (List.mem_map_of_mem hm))
  rw [← heq]
  exact hnonneg n (List.mem_append_right _ (scan_eq_marks true t ▸ hn))

end Text.Relined

/-- **Without the blanks around it an enclosed text has no delimiter without its partner.** -/
theorem IsEnclosed.hasUnmatchedDelimiters_strip {t : Text} (h : IsEnclosed t) :
    hasUnmatchedDelimiters (strip t) = false := by
  obtain ⟨l, z, ht, hl, hz⟩ := strip_split t
  have hrelined : Relined false isAllBlank (strip t ++ z) (strip t) := Relined.of_blanks hz
  refine hrelined.hasUnmatchedDelimiters hl ?_
  rw [← ht, hasUnmatchedDelimiters_eq_false_iff_spotBehind]
  refine ⟨h.nonneg, h.level.depth, fun q => ?_⟩
  rw [h.level.place]
  exact Place.noConfusion

end TableTypes
