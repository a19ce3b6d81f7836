import TableTypes.Proofs.Scan.Piece
import TableTypes.Proofs.Text.Cutting
import TableTypes.Scan.Split

/-!
# Splitting what was joined

A list of parts with `, ` between them is split into these parts again (`splitCommas_join`), if each
part is level under the scan, shows it no comment and no comma at the top level, and has no blank at
either end.
-/

namespace TableTypes

open Text

/-! ### Runs of marks -/

variable {p : Mark → Bool} {ms : List Mark}

theorem cutMarks_of_forall (h : ∀ m ∈ ms, p m = false) : cutMarks p ms = [ms] := by
  induction ms with
  | nil => rfl
  | cons m ms ih =>
    have hm : ¬ p m = true := by
      rw [h m List.mem_cons_self]
      exact Bool.false_ne_true
    rw [cutMarks, if_neg hm, ih fun n hn => h n (List.mem_cons_of_mem m hn)]

theorem cutMarks_ne_nil (p : Mark → Bool) (ms : List Mark) : cutMarks p ms ≠ [] := by
  cases ms with
  | nil => exact List.cons_ne_nil _ _
  | cons m ms =>
    rw [cutMarks]
    split_ifs
    · exact List.cons_ne_nil _ _
    · split <;> exact List.cons_ne_nil _ _

theorem cutMarks_separator {m : Mark} (hm : p m = true) (ms : List Mark) :
    cutMarks p (m :: ms) = [] :: cutMarks p ms := by
  rw [cutMarks, if_pos hm]

theorem cutMarks_cons {m : Mark} {ms run : List Mark} {runs : List (List Mark)} (hm : p m = false)
    (h : cutMarks p ms = run :: runs) : cutMarks p (m :: ms) = (m :: run) :: runs := by
  rw [cutMarks, if_neg (by rw [hm]; exact Bool.false_ne_true), h]

/-- Marks with a separator between them are cut there. -/
theorem cutMarks_append_cons {m : Mark} (hm : p m = true) (ms ns : List Mark) :
    cutMarks p (ms ++ m :: ns) = cutMarks p ms ++ cutMarks p ns := by
  induction ms with
  | nil => exact cutMarks_separator hm ns
  | cons n ms ih =>
    cases hn : p n with
    | true =>
      rw [List.cons_append, cutMarks_separator hn, cutMarks_separator hn, ih, List.cons_append]
    | false =>
      obtain ⟨run, runs, hruns⟩ := List.exists_cons_of_ne_nil (cutMarks_ne_nil p ms)
      rw [hruns, List.cons_append] at ih
      rw [List.cons_append, cutMarks_cons hn ih, cutMarks_cons hn hruns, List.cons_append]

theorem cutMarks_append (h : ∀ m ∈ ms, p m = false) {m : Mark} (hm : p m = true)
    (rest : List Mark) : cutMarks p (ms ++ m :: rest) = ms :: cutMarks p rest := by
  rw [cutMarks_append_cons hm, cutMarks_of_forall h, List.singleton_append]

theorem uncomment_of_forall (h : ∀ m ∈ ms, m.region ≠ .comment) :
    uncomment ms = ms.map Mark.char := by
  induction ms with
  | nil => rfl
  | cons m ms ih =>
    have hm : ¬ m.isComment = true := by
      rw [Mark.isComment, decide_eq_true_eq]
      exact h m List.mem_cons_self
    rw [uncomment, if_neg hm, ih fun n hn => h n (List.mem_cons_of_mem m hn), List.map_cons]

theorem dropEmptyLast_of_forall {ps : List Text} (h : ∀ p ∈ ps, p ≠ []) :
    dropEmptyLast ps = ps := by
  induction ps with
  | nil => rfl
  | cons p ps ih =>
    cases ps with
    | nil =>
      have hp : p ≠ [] := h p List.mem_cons_self
      rw [dropEmptyLast, if_neg (by rw [List.isEmpty_iff]; exact hp)]
    | cons q ps => rw [dropEmptyLast, ih fun x hx => h x (List.mem_cons_of_mem p hx)]

theorem dropEmptyLast_concat_nil (ps : List Text) : dropEmptyLast (ps ++ [[]]) = ps := by
  induction ps with
  | nil => rfl
  | cons p ps ih =>
    cases ps with
    | nil => rfl
    | cons q ps =>
      rw [List.cons_append, List.cons_append, dropEmptyLast, ← List.cons_append, ih]

theorem dropEmptyLast_concat {y : Text} (hy : y ≠ []) (ps : List Text) :
    dropEmptyLast (ps ++ [y]) = ps ++ [y] := by
  induction ps with
  | nil => exact dropEmptyLast_of_forall (by simpa using hy)
  | cons p ps ih =>
    cases ps with
    | nil => rw [List.singleton_append, dropEmptyLast, ← List.nil_append [y], ih]
    | cons q ps =>
      rw [List.cons_append, List.cons_append, dropEmptyLast, ← List.cons_append, ih]

/-! ### Parts -/

/-- A text that a list is split at commas into: what the scan makes of it has nothing to do with
what stands around it, and nothing in it separates parts or is left out. -/
structure IsPart (t : Text) : Prop where
  level : IsLevel true t
  comment : ∀ m ∈ scan true t, m.region ≠ .comment
  comma : ∀ m ∈ scan true t, (decide (m.char = ',') && m.isTopLevel) = false
  solid : strip t = t
  ne_nil : t ≠ []

/-- What the scan makes of the separator and a part. -/
def separatedMarks (t : Text) : List Mark :=
  ⟨',', .code, 0⟩ :: ⟨' ', .code, 0⟩ :: scan true t

/-- The scan of a level text that parts follow begins anew behind each separator. -/
theorem scan_separated {t : Text} (ht : IsLevel true t) {ps : List Text}
    (hps : ∀ p ∈ ps, IsLevel true p) :
    scan true (t ++ ps.flatMap ([',', ' '] ++ ·)) = scan true t ++ ps.flatMap separatedMarks := by
  induction ps generalizing t with
  | nil => rw [List.flatMap_nil, List.flatMap_nil, List.append_nil, List.append_nil]
  | cons p ps ih =>
    have hseparator : IsLevel true [',', ' '] := ⟨rfl, rfl⟩
    have hplain : Seals true [',', ' '] (p ++ ps.flatMap ([',', ' '] ++ ·)) := Seals.of_plain rfl
    have hjoint : Seals true t ([',', ' '] ++ (p ++ ps.flatMap ([',', ' '] ++ ·))) :=
      Seals.of_head ht.place rfl (by decide)
    have hrest := ih (hps p List.mem_cons_self) fun q hq => hps q (List.mem_cons_of_mem p hq)
    rw [List.flatMap_cons, List.append_assoc, ht.scan_append hjoint,
      hseparator.scan_append hplain, hrest, List.flatMap_cons]
    rfl

theorem IsLevel.join {ps : List Text} (hps : ∀ p ∈ ps, IsLevel true p) :
    IsLevel true (join [',', ' '] ps) := by
  induction ps with
  | nil => exact IsLevel.nil
  | cons p ps ih =>
    have hp := hps p List.mem_cons_self
    have hrest := ih fun q hq => hps q (List.mem_cons_of_mem p hq)
    cases ps with
    | nil => rw [join_cons, List.flatMap_nil, List.append_nil]; exact hp
    | cons q ps =>
      have hsplit : Text.join [',', ' '] (p :: q :: ps) =
          p ++ ([',', ' '] ++ Text.join [',', ' '] (q :: ps)) := by
        rw [join_cons, List.flatMap_cons, List.append_assoc, ← join_cons]
      have hseparator : IsLevel true [',', ' '] := ⟨rfl, rfl⟩
      rw [hsplit]
      exact hp.append (hseparator.append hrest (Seals.of_plain rfl))
        (Seals.of_head hp.place rfl (by decide))

/-- The runs between the separators are the parts, each but the first with a space in front. -/
theorem cutMarks_separated (h : ∀ m ∈ ms, (decide (m.char = ',') && m.isTopLevel) = false)
    {ps : List Text} (hps : ∀ p ∈ ps, IsPart p) :
    cutMarks (fun m => decide (m.char = ',') && m.isTopLevel) (ms ++ ps.flatMap separatedMarks) =
      ms :: ps.map fun p => ⟨' ', .code, 0⟩ :: scan true p := by
  induction ps generalizing ms with
  | nil => rw [List.flatMap_nil, List.append_nil, cutMarks_of_forall h]; rfl
  | cons p ps ih =>
    have hrun : ∀ m ∈ (⟨' ', .code, 0⟩ : Mark) :: scan true p,
        (decide (m.char = ',') && m.isTopLevel) = false := by
      intro m hm
      rcases List.mem_cons.mp hm with rfl | hm
      · rfl
      · exact (hps p List.mem_cons_self).comma m hm
    rw [List.flatMap_cons, separatedMarks, List.cons_append, cutMarks_append h rfl,
      ih hrun fun q hq => hps q (List.mem_cons_of_mem p hq), List.map_cons]

theorem IsPart.uncomment {t : Text} (ht : IsPart t) : uncomment (scan true t) = t := by
  rw [uncomment_of_forall ht.comment, scan_eq_marks, Spot.map_char_marks]

/-- A blank in front of a part is stripped. -/
theorem IsPart.strip_space {t : Text} (ht : IsPart t) : strip (' ' :: t) = t :=
  ht.solid

/-- **Splitting a list gives the parts it was joined from.** -/
theorem splitCommas_join {ps : List Text} (hps : ∀ p ∈ ps, IsPart p) :
    splitCommas (join [',', ' '] ps) = ps := by
  cases ps with
  | nil => rfl
  | cons p ps =>
    have hp := hps p List.mem_cons_self
    have htail : ∀ q ∈ ps, IsPart q := fun q hq => hps q (List.mem_cons_of_mem p hq)
    have hmap : (ps.map fun q => (⟨' ', .code, 0⟩ : Mark) :: scan true q).map
        (fun run => (uncomment run).strip) = ps := by
      rw [List.map_map]
      refine (List.map_congr_left fun q hq => ?_).trans (List.map_id ps)
      have hspace : uncomment (⟨' ', .code, 0⟩ :: scan true q) = ' ' :: uncomment (scan true q) :=
        rfl
      rw [Function.comp_apply, hspace, (htail q hq).uncomment, (htail q hq).strip_space]
      rfl
    rw [splitCommas, splitTopLevel, join_cons,
      scan_separated hp.level fun q hq => (htail q hq).level,
      cutMarks_separated hp.comma htail, List.map_cons, hp.uncomment, hmap, hp.solid]
    exact dropEmptyLast_of_forall fun q hq => (hps q hq).ne_nil

end TableTypes
