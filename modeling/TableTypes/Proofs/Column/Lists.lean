import TableTypes.Proofs.Column.Sound
import TableTypes.Proofs.Scan.Split

/-!
# Lists of definitions

A list of definitions is read exactly if each of its columns is (`Column.readAll_eq_ok_iff`), and
fails exactly at the first column that cannot be read (`Column.readAll_eq_error_iff`).

A text is a part of a list (`IsPart`) if the scan reports no comment and no separator in it and ends
in code at depth zero (`isPart_iff`), so a list that is joined from such texts is split into them
again, and its columns are theirs (`Column.parseAll_join`).
-/

namespace TableTypes

open Text

/-! ### Part after part -/

namespace Column

theorem readPart_eq_ok_iff {part : Text × Nat} {c : Column} :
    Column.readPart part = .ok c ↔ Column.read part.1 = .ok c := by
  rw [readPart]
  cases Column.read part.1 with
  | error cause =>
    constructor
    · intro h
      cases h
    · intro h
      cases h
  | ok c' => exact ⟨fun h => congrArg Except.ok (Except.ok.inj h), fun h => congrArg _ h⟩

theorem readPart_eq_error_iff {part : Text × Nat} {e : ParseError} :
    Column.readPart part = .error e ↔
      ∃ cause, Column.read part.1 = .error cause ∧
        e = ⟨.inColumn (part.2 + 1) cause, none, some (part.2 + 1)⟩ := by
  rw [readPart]
  cases Column.read part.1 with
  | ok c =>
    constructor
    · intro h
      cases h
    · rintro ⟨_, h, -⟩
      cases h
  | error cause =>
    constructor
    · intro h
      exact ⟨cause, rfl, (Except.error.inj h).symm⟩
    · rintro ⟨cause', h, rfl⟩
      rw [Except.error.inj h]
      rfl

/-- **A list is read** exactly if each of its columns is. -/
theorem readAll_eq_ok_iff {t : Text} {cs : List Column} : Column.readAll t = .ok cs ↔
    List.Forall₂ (fun part c => Column.read part = .ok c)
      ((splitCommas t).filter isColumnPart) cs := by
  refine ⟨readAll_eq_ok, fun h => Report.mapM_of_forall₂ ?_⟩
  rw [← map_fst_columnParts, List.forall₂_map_left_iff] at h
  exact h.imp fun part c => readPart_eq_ok_iff.mpr

/-- **A list fails** exactly at the first of its columns that cannot be read. -/
theorem readAll_eq_error_iff {t : Text} {e : ParseError} : Column.readAll t = .error e ↔
    ∃ (i : Nat) (part : Text) (cause : ParseCause), (splitCommas t)[i]? = some part ∧
      isColumnPart part = true ∧ Column.read part = .error cause ∧
      (∀ j part', j < i → (splitCommas t)[j]? = some part' → isColumnPart part' = true →
        ∃ c, Column.read part' = .ok c) ∧
      e = ⟨.inColumn (i + 1) cause, none, some (i + 1)⟩ := by
  have hget : ∀ i : Nat, (splitCommas t).zipIdx[i]? = (splitCommas t)[i]?.map (·, i) := by
    intro i
    rw [List.getElem?_zipIdx, Nat.zero_add]
  rw [Column.readAll, Report.mapM_filter_eq_error_iff]
  simp only [hget, Option.map_eq_some_iff, readPart_eq_error_iff, readPart_eq_ok_iff]
  constructor
  · rintro ⟨i, -, ⟨part, hpart, rfl⟩, ⟨hcolumn, cause, hcause, he⟩, hfirst⟩
    refine ⟨i, part, cause, hpart, hcolumn, hcause, fun j part' hj hpart' => ?_, he⟩
    exact hfirst j (part', j) hj ⟨part', hpart', rfl⟩
  · rintro ⟨i, part, cause, hpart, hcolumn, hcause, hfirst, he⟩
    refine ⟨i, (part, i), ⟨part, hpart, rfl⟩, ⟨hcolumn, cause, hcause, he⟩, ?_⟩
    rintro j - hj ⟨part', hpart', rfl⟩
    exact hfirst j part' hj hpart'

/-! ### A definition by itself -/

theorem solid?_text {t : Text} (hsolid : strip t = t) (hne : t ≠ []) :
    (Source.text t).solid? = some t := by
  have hblank : ¬ t.isAllBlank = true := by
    rw [isAllBlank_iff, ← strip_eq_nil_iff, hsolid]
    exact hne
  exact solid?_of_isAllBlank (Bool.eq_false_iff.mpr hblank)

/-- A definition without blanks around it is parsed as it is read from a list. -/
theorem parse_of_solid {t : Text} (hsolid : strip t = t) (hne : t ≠ []) (line : Option Nat) :
    Column.parse (.text t) line = (Column.read t).mapError (·.onLine line) := by
  rw [Column.parse, solid?_text hsolid hne]
  simp only [hsolid]

theorem parse_eq_ok_iff {t : Text} {c : Column} (hsolid : strip t = t) (hne : t ≠ []) :
    Column.parse (.text t) none = .ok c ↔ Column.read t = .ok c := by
  rw [parse_of_solid hsolid hne]
  cases Column.read t with
  | error cause => exact ⟨fun h => (nomatch h), fun h => (nomatch h)⟩
  | ok c' => exact ⟨fun h => congrArg Except.ok (Except.ok.inj h), fun h => congrArg _ h⟩

theorem parse_eq_error_iff {t : Text} {cause : ParseCause} (hsolid : strip t = t) (hne : t ≠ []) :
    Column.parse (.text t) none = .error ⟨cause, none, none⟩ ↔ Column.read t = .error cause := by
  rw [parse_of_solid hsolid hne]
  cases Column.read t with
  | ok c => exact ⟨fun h => (nomatch h), fun h => (nomatch h)⟩
  | error cause' =>
    constructor
    · intro h
      exact congrArg Except.error (ParseError.mk.inj (Except.error.inj h)).1
    · intro h
      rw [Except.error.inj h]
      rfl

end Column

/-! ### Joined lists -/

theorem forall₂_congr_left {α β : Type} {R S : α → β → Prop} {as : List α} {bs : List β}
    (h : ∀ a ∈ as, ∀ b, R a b ↔ S a b) : List.Forall₂ R as bs ↔ List.Forall₂ S as bs := by
  induction as generalizing bs with
  | nil => rw [List.forall₂_nil_left_iff, List.forall₂_nil_left_iff]
  | cons a as ih =>
    rw [List.forall_mem_cons] at h
    rw [List.forall₂_cons_left_iff, List.forall₂_cons_left_iff]
    simp only [h.1, ih h.2]

/-- What makes a text a part of a list: it is not empty and has no blanks around it, and the scan
reports in it neither a comment nor a comma of code outside parentheses, and ends in code outside
parentheses. -/
structure IsListable (t : Text) : Prop where
  ne_nil : t ≠ []
  solid : strip t = t
  comment : ∀ m ∈ scan true t, m.region ≠ .comment
  comma : ∀ m ∈ scan true t, ¬ (m.char = ',' ∧ m.region = .code ∧ m.depth = 0)
  ends : ∀ m ∈ (scan true t).getLast?, m.region = .code ∧ m.depth = 0

theorem IsListable.isPart {t : Text} (ht : IsListable t) : IsPart t := by
  refine ⟨IsLevel.of_getLast? ht.ends, ht.comment, fun m hm => ?_, ht.solid, ht.ne_nil⟩
  rw [← Bool.not_eq_true]
  intro hcomma
  apply ht.comma m hm
  simpa [Mark.isTopLevel] using hcomma

theorem IsListable.isColumnPart {t : Text} (ht : IsListable t) :
    isColumnPart t = !isTableLevel t := by
  have hempty : t.isEmpty = false := List.isEmpty_eq_false_iff.mpr ht.ne_nil
  rw [TableTypes.isColumnPart, hempty, Bool.not_false, Bool.true_and]

/-- A joined list is read part by part. -/
theorem Column.parseAll_eq_readAll {ps : List Text} (hne : ps ≠ [])
    (hps : ∀ p ∈ ps, IsListable p) :
    Column.parseAll (.text (join [',', ' '] ps)) = Column.readAll (join [',', ' '] ps) := by
  have hblank : ¬ (join [',', ' '] ps).isAllBlank = true := by
    obtain ⟨p, ps, rfl⟩ := List.exists_cons_of_ne_nil hne
    have hp := hps p List.mem_cons_self
    rw [join_cons, isAllBlank_append, Bool.and_eq_true, isAllBlank_iff, ← strip_eq_nil_iff,
      hp.solid]
    exact fun h => hp.ne_nil h.1
  rw [Column.parseAll, solid?_of_isAllBlank (Bool.eq_false_iff.mpr hblank)]

/-- **Splitting undoes joining**: the columns of a list are those of the parts it was joined from
that are no table constraints, and it fails exactly at the first of them that cannot be parsed. -/
theorem Column.parseAll_join {ps : List Text} (hne : ps ≠ []) (hps : ∀ p ∈ ps, IsListable p) :
    splitCommas (join [',', ' '] ps) = ps ∧
    (∀ cs, Column.parseAll (.text (join [',', ' '] ps)) = .ok cs ↔
      List.Forall₂ (fun p c => Column.parse (.text p) none = .ok c)
        (ps.filter fun p => !isTableLevel p) cs) ∧
    ∀ e, Column.parseAll (.text (join [',', ' '] ps)) = .error e ↔
      ∃ i p cause, ps[i]? = some p ∧ isTableLevel p = false ∧
        Column.parse (.text p) none = .error ⟨cause, none, none⟩ ∧
        (∀ j q, j < i → ps[j]? = some q → isTableLevel q = true ∨
          ∃ c, Column.parse (.text q) none = .ok c) ∧
        e = ⟨.inColumn (i + 1) cause, none, some (i + 1)⟩ := by
  have hsplit : splitCommas (join [',', ' '] ps) = ps :=
    splitCommas_join fun p hp => (hps p hp).isPart
  have hread := Column.parseAll_eq_readAll hne hps
  have hparse : ∀ p ∈ ps, ∀ c, Column.read p = .ok c ↔ Column.parse (.text p) none = .ok c :=
    fun p hp c => (Column.parse_eq_ok_iff (hps p hp).solid (hps p hp).ne_nil).symm
  have hcolumn : ∀ p ∈ ps, isColumnPart p = !isTableLevel p := fun p hp => (hps p hp).isColumnPart
  refine ⟨hsplit, fun cs => ?_, fun e => ?_⟩
  · rw [hread, Column.readAll_eq_ok_iff, hsplit, List.filter_congr hcolumn]
    exact forall₂_congr_left fun p hp => hparse p (List.mem_of_mem_filter hp)
  · rw [hread, Column.readAll_eq_error_iff, hsplit]
    refine exists_congr fun i => exists_congr fun p => exists_congr fun cause =>
      and_congr_right fun hp => ?_
    have hmem := List.mem_of_getElem? hp
    have hfirst : ∀ q ∈ ps, (isColumnPart q = true → ∃ c, Column.read q = .ok c) ↔
        (isTableLevel q = true ∨ ∃ c, Column.parse (.text q) none = .ok c) := by
      intro q hq
      simp only [hcolumn q hq, hparse q hq]
      cases isTableLevel q <;> simp
    rw [hcolumn p hmem, Bool.not_eq_true', Column.parse_eq_error_iff (hps p hmem).solid
      (hps p hmem).ne_nil]
    refine and_congr_right fun _ => and_congr_right fun _ => and_congr_left fun _ => ?_
    refine forall_congr' fun j => forall_congr' fun q => imp_congr_right fun _ =>
      forall_congr' fun hq => ?_
    exact hfirst q (List.mem_of_getElem? hq)

/-- Two columns and a key between them, with commas in parentheses and in quotes. -/
def commaColumns : List Text :=
  ["a DECIMAL(10,2)".toList, "PRIMARY KEY (a, b)".toList, "b CHAR(3) DEFAULT ','".toList]

theorem isListable_commaColumns : ∀ p ∈ commaColumns, IsListable p := by
  have h : ∀ p ∈ commaColumns, p ≠ [] ∧ strip p = p ∧
      (∀ m ∈ scan true p, m.region ≠ .comment) ∧
      (∀ m ∈ scan true p, ¬ (m.char = ',' ∧ m.region = .code ∧ m.depth = 0)) ∧
      ∀ m ∈ (scan true p).getLast?, m.region = .code ∧ m.depth = 0 := by
    decide +kernel
  intro p hp
  obtain ⟨hne, hsolid, hcomment, hcomma, hends⟩ := h p hp
  exact ⟨hne, hsolid, hcomment, hcomma, hends⟩

/-- The two columns are read from the joined list, and the key is left out. -/
theorem Column.parseAll_join_commaColumns : commaColumns ≠ [] ∧
    (∀ p ∈ commaColumns, IsListable p) ∧
    splitCommas (join [',', ' '] commaColumns) = commaColumns ∧
    Column.parseAll (.text (join [',', ' '] commaColumns)) =
      .ok [⟨"a".toList, "DECIMAL(10,2)".toList, true, none, [], none⟩,
        ⟨"b".toList, "CHAR(3)".toList, true, some [','], [], none⟩] := by
  obtain ⟨hsplit, hok, -⟩ := Column.parseAll_join (by decide) isListable_commaColumns
  refine ⟨by decide, isListable_commaColumns, hsplit, (hok _).mpr ?_⟩
  have hfilter : (commaColumns.filter fun p => !isTableLevel p) =
      ["a DECIMAL(10,2)".toList, "b CHAR(3) DEFAULT ','".toList] := by decide +kernel
  rw [hfilter]
  exact .cons (by decide +kernel) (.cons (by decide +kernel) .nil)

end TableTypes
