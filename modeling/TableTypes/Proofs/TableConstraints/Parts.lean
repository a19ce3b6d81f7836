import TableTypes.Column
import TableTypes.Proofs.Scan.Segments
import TableTypes.Proofs.TableConstraints.Bounded

/-!
# The constraints of a list and of its parts

A list of definitions is searched for constraints as a whole, and the columns are read from its
parts.  Since a reader of constraints stays within a segment, the search finds in the list what it
finds in the parts one by one (`tableConstraints_eq_flatMap`).  So both readings agree on what is a
constraint exactly if no part that is read as a column holds one (`readingsAgree_iff`), which a column
with `UNIQUE` and parameters of its index does (`not_readingsAgree_parameters`).
-/

namespace TableTypes

open Text

variable {α : Type} {read : Text → Option (α × Text)}

/-! ### The search behind a comma -/

section

variable (hread : ∀ {t r : Text} {a : α}, read t = some (a, r) → TakesList t r)

include hread

theorem suffix_of_read_dropBlanks {t r : Text} {a : α} (h : read (dropBlanks t) = some (a, r)) :
    r <:+ t :=
  (hread h).suffix.trans (List.dropWhile_suffix isBlank)

/-- A reader takes at least one character. -/
theorem suffix_of_read_cons {c : Char} {t r : Text} {a : α}
    (h : read (dropBlanks (c :: t)) = some (a, r)) : r <:+ t := by
  obtain ⟨u, hu, hparen⟩ := hread h
  rcases List.suffix_cons_iff.mp (suffix_of_read_dropBlanks hread h) with rfl | hr
  · have hlength : (dropBlanks (c :: t)).length ≤ (c :: t).length :=
      (List.dropWhile_suffix isBlank).length_le
    rw [hu, List.length_append] at hlength
    have hpos := List.length_pos_of_mem hparen
    omega
  · exact hr

/-- A list is searched as if it stood behind a comma. -/
theorem constraintSpans_eq_findAfter (hnil : read [] = none) (t : Text) :
    constraintSpans read t = findAfter read (',' :: t) := by
  cases t with
  | nil =>
    rw [findAfter_of_none fun _ => hnil]
    rfl
  | cons c t => exact constraintSpans_cons fun a r h => suffix_of_read_cons hread h

/-! ### The search in a segment -/

variable {z : Text} {ext : α → α}

/-- One step of the search: where the reader is asked, it finds the same in the longer text, and the
search goes on behind it. -/
theorem findAfter_gap_append (hz : Ends (dropBlanks z)) (h : ReadsSpan z read ext) {c : Char}
    {v : Text} (hc : isGap c = true) (hv : IsOpen v)
    (hrest : ∀ r, r <:+ v →
      findAfter read (r ++ z) = (findAfter read r).map ext ++ findAfter read z) :
    findAfter read (c :: (v ++ z)) = (findAfter read (c :: v)).map ext ++ findAfter read z := by
  have happend := h.dropBlanks_append hz hv.dropBlanks
  cases hfind : read (dropBlanks v) with
  | none =>
    rw [hfind] at happend
    rw [findAfter_of_none fun _ => happend, findAfter_of_none fun _ => hfind]
    exact hrest v List.suffix_rfl
  | some p =>
    obtain ⟨a, r⟩ := p
    have hr : r <:+ v := suffix_of_read_dropBlanks hread hfind
    rw [hfind] at happend
    have hr' : r ++ z <:+ v ++ z := suffix_of_read_dropBlanks hread happend
    rw [findAfter_of_some hc happend hr', findAfter_of_some hc hfind hr, List.map_cons,
      List.cons_append, hrest r hr]

/-- **A search goes through a segment as if nothing stood behind it.** -/
theorem findAfter_append (hz : Ends (dropBlanks z)) (h : ReadsSpan z read ext) {v : Text}
    (hv : IsShown v) :
    findAfter read (v ++ z) = (findAfter read v).map ext ++ findAfter read z := by
  induction hn : v.length using Nat.strong_induction_on generalizing v with
  | _ n ih =>
    cases v with
    | nil => rfl
    | cons c v =>
      have hrest : ∀ r, r <:+ v →
          findAfter read (r ++ z) = (findAfter read r).map ext ++ findAfter read z := by
        intro r hr
        have hlength := hr.length_le
        rw [List.length_cons] at hn
        exact ih r.length (by omega) (hv.tail.suffix hr) rfl
      by_cases hc : isGap c = true
      · have hgap : c = ',' ∨ isBlank c = true := by
          simpa only [isGap, Bool.or_eq_true, decide_eq_true_eq] using hc
        exact findAfter_gap_append hread hz h hc (hv.tail_gap hgap) hrest
      · rw [List.cons_append, findAfter_of_none fun h => absurd h hc,
          findAfter_of_none fun h => absurd h hc]
        exact hrest v List.suffix_rfl

/-- A segment of a list holds the constraints of its text without the blanks around it, and what
follows it is searched by itself. -/
theorem constraintSpans_segment {a y : Text} (ha : IsBare a) (hy : Ends y) : ∃ l r,
    a = l ++ (strip a ++ r) ∧ Ends (dropBlanks (r ++ y)) ∧
      ∀ {ext : α → α}, ReadsSpan (r ++ y) read ext →
        constraintSpans read (maskQuoted a ++ y) =
          (constraintSpans read (maskQuoted (strip a))).map ext ++ findAfter read y := by
  obtain ⟨l, r, hsplit, hl, hr⟩ := strip_split a
  have hs : IsBare (strip a) := ha.strip
  have hmask : maskQuoted a = l ++ (maskQuoted (strip a) ++ r) :=
    (congrArg maskQuoted hsplit).trans (hs.maskQuoted_inset hl hr)
  have hz : Ends (dropBlanks (r ++ y)) := by
    rwa [dropBlanks_of_isAllBlank (isAllBlank_iff.mpr hr), hy.dropBlanks]
  refine ⟨l, r, hsplit, hz, fun {ext} h => ?_⟩
  have hnil : read [] = none := (h.idle [] Ends.nil).1
  have hrest : findAfter read (r ++ y) = findAfter read y :=
    findAfter_blanks hr (by rw [hy.dropBlanks]; exact (h.idle y hy).1)
  calc constraintSpans read (maskQuoted a ++ y)
      = findAfter read (',' :: (l ++ (maskQuoted (strip a) ++ (r ++ y)))) := by
        rw [constraintSpans_eq_findAfter hread hnil, hmask, List.append_assoc, List.append_assoc]
    _ = findAfter read (',' :: (maskQuoted (strip a) ++ (r ++ y))) :=
        findAfter_comma_blanks hl fun _ _ h => suffix_of_read_dropBlanks hread h
    _ = (findAfter read (',' :: maskQuoted (strip a))).map ext ++ findAfter read (r ++ y) :=
        findAfter_gap_append hread hz h rfl (Or.inl hs.inCode) fun _ hv =>
          findAfter_append hread hz h (hs.isShown.suffix hv)
    _ = (constraintSpans read (maskQuoted (strip a))).map ext ++ findAfter read y := by
        rw [hrest, constraintSpans_eq_findAfter hread hnil]

end

/-! ### Cutting -/

theorem ListSpan.between_append {x t y z : Text} {p : ListSpan} (hp : p.1.length ≤ t.length)
    (hlength : y.length = z.length) :
    between (x ++ (t ++ y)) (p.append z).1 (p.append z).2 = between t p.1 p.2 :=
  between_inside hp hlength

theorem ConstraintSpan.append_nil (s : ConstraintSpan) : s.append [] = s := by
  have hspan : ∀ p : ListSpan, p.append [] = p := fun p => by
    rw [ListSpan.append, List.append_nil, List.append_nil]
  obtain ⟨columns, reference, name⟩ := s
  cases reference <;> cases name <;> simp only [append, hspan, Option.map_none, Option.map_some]

theorem ConstraintSpan.constraint?_append {x t y z : Text} {s : ConstraintSpan}
    (hs : ∀ p ∈ s.pieces, p.1.length ≤ t.length) (hlength : y.length = z.length)
    (kind : TableConstraintKind) :
    (s.append z).constraint? kind (x ++ (t ++ y)) = s.constraint? kind t := by
  have hcut : ∀ p ∈ s.pieces, between (x ++ (t ++ y)) (p.append z).1 (p.append z).2 =
      between t p.1 p.2 := fun p hp => ListSpan.between_append (hs p hp) hlength
  obtain ⟨columns, reference, name⟩ := s
  have hcolumns := hcut columns List.mem_cons_self
  have hname : (name.map (·.append z)).map (fun p => unquoteIdentifier
      (between (x ++ (t ++ y)) p.1 p.2)) =
        name.map fun p => unquoteIdentifier (between t p.1 p.2) := by
    rw [Option.map_map]
    refine Option.map_congr fun p hp => congrArg unquoteIdentifier (hcut p ?_)
    exact List.mem_cons_of_mem _ (List.mem_append_right _ (Option.mem_toList.mpr hp))
  cases reference with
  | none =>
    simp only [append, constraint?, hcolumns, hname, Option.map_none]
  | some r =>
    have htable := hcut r.1 (by simp [pieces])
    have htarget := hcut r.2 (by simp [pieces])
    simp only [append, constraint?, hcolumns, hname, htable, htarget, Option.map_some]

theorem ConstraintSpan.kind_of_constraint? {s : ConstraintSpan} {kind : TableConstraintKind}
    {t : Text} {c : TableConstraint} (h : s.constraint? kind t = some c) : c.kind = kind := by
  rw [constraint?] at h
  dsimp only at h
  split at h
  · cases h
  · split at h
    · rw [← Option.some.inj h]
    · split at h
      · cases h
      · rw [← Option.some.inj h]

/-! ### One kind -/

/-- A reader of the constraints of one kind, and which of its findings count. -/
structure KindReader (α : Type) where
  kind : TableConstraintKind
  read : Text → Option (α × Text)
  span : α → ConstraintSpan
  counts : α → Bool

namespace KindReader

/-- The constraints of the kind in a list without comments. -/
def constraints (k : KindReader α) (t : Text) : List TableConstraint :=
  ((constraintSpans k.read (maskQuoted t)).filter k.counts).filterMap fun a =>
    (k.span a).constraint? k.kind t

/-- The reader stays within a segment; `append` is what becomes of a finding when the segment is
followed by more text. -/
structure IsLocal (k : KindReader α) (append : α → Text → α) : Prop where
  reads : ∀ {z : Text}, Ends (dropBlanks z) → ReadsSpan z k.read (append · z)
  takes : ∀ {t r : Text} {a : α}, k.read t = some (a, r) → (k.span a).Takes t r
  span : ∀ (a : α) (z : Text), k.span (append a z) = (k.span a).append z
  counts : ∀ (a : α) (z : Text), k.counts (append a z) = k.counts a

namespace IsLocal

variable {k : KindReader α} {append : α → Text → α} (hk : k.IsLocal append)

include hk

theorem length_le {m : Text} {a : α} (ha : a ∈ constraintSpans k.read m) :
    ∀ p ∈ (k.span a).pieces, p.1.length ≤ m.length := by
  intro p hp
  obtain ⟨before, s, r, hs, hfind⟩ := exists_of_mem_findAllFrom ha
  obtain ⟨start, hstart, hread⟩ := List.exists_of_findSome?_eq_some hfind
  exact (((hk.takes hread).pieces p hp).1.trans
    ((suffix_of_mem_constraintStarts hstart).trans hs)).length_le

/-- What was found in a part of a text is cut alike from the part and from the text. -/
theorem filterMap_append {as : List α} {t x y z : Text}
    (has : ∀ a ∈ as, ∀ p ∈ (k.span a).pieces, p.1.length ≤ t.length)
    (hlength : y.length = z.length) :
    (((as.map (append · z)).filter k.counts).filterMap fun a =>
      (k.span a).constraint? k.kind (x ++ (t ++ y))) =
      (as.filter k.counts).filterMap fun a => (k.span a).constraint? k.kind t := by
  rw [List.filter_map, List.filterMap_map]
  have hcounts : (k.counts ∘ fun a => append a z) = k.counts := funext fun a => hk.counts a z
  rw [hcounts]
  refine List.filterMap_congr fun a ha => ?_
  show (k.span (append a z)).constraint? k.kind _ = _
  rw [hk.span]
  exact ConstraintSpan.constraint?_append (has a (List.mem_filter.mp ha).1) hlength k.kind

/-- The constraints of a list are those of its first segment and those found behind it. -/
theorem constraints_segment {a w y : Text} (ha : IsBare a) (hy : Ends y)
    (hlength : w.length = y.length) :
    ((constraintSpans k.read (maskQuoted a ++ y)).filter k.counts).filterMap (fun s =>
      (k.span s).constraint? k.kind (a ++ w)) =
      k.constraints (strip a) ++ ((findAfter k.read y).filter k.counts).filterMap fun s =>
        (k.span s).constraint? k.kind (a ++ w) := by
  obtain ⟨l, r, hsplit, hz, hspans⟩ := constraintSpans_segment (fun h => (hk.takes h).list) ha hy
  have htext : a ++ w = l ++ (strip a ++ (r ++ w)) := by
    rw [← List.append_assoc (strip a), ← List.append_assoc l, ← hsplit]
  have hpieces : ∀ s ∈ constraintSpans k.read (maskQuoted (strip a)),
      ∀ p ∈ (k.span s).pieces, p.1.length ≤ (strip a).length := by
    intro s hs p hp
    have hle := hk.length_le hs p hp
    rwa [length_maskQuoted] at hle
  rw [hspans (hk.reads hz), List.filter_append, List.filterMap_append]
  refine congrArg (· ++ _) ?_
  rw [htext]
  exact hk.filterMap_append hpieces (by rw [List.length_append, List.length_append, hlength])

theorem constraints_strip {a : Text} (ha : IsBare a) : k.constraints a = k.constraints (strip a) := by
  have h := hk.constraints_segment ha (w := []) Ends.nil rfl
  simp only [List.append_nil] at h
  exact h.trans (List.append_nil _)

theorem constraints_comma {a b : Text} (ha : IsBare a) :
    k.constraints (a ++ ',' :: b) = k.constraints (strip a) ++ k.constraints b := by
  have hnil : k.read [] = none := ((hk.reads (z := []) Ends.nil).idle [] Ends.nil).1
  have hy : Ends (',' :: maskQuoted b) := fun c hc => (Option.some.inj hc).symm
  have hfind : findAfter k.read (',' :: maskQuoted b) = constraintSpans k.read (maskQuoted b) :=
    (constraintSpans_eq_findAfter (fun h => (hk.takes h).list) hnil _).symm
  have hcut : ∀ s ∈ (constraintSpans k.read (maskQuoted b)).filter k.counts,
      (k.span s).constraint? k.kind (a ++ ',' :: b) = (k.span s).constraint? k.kind b := by
    intro s hs
    have htext : a ++ ',' :: b = (a ++ [',']) ++ (b ++ []) := by
      rw [List.append_nil, List.append_assoc, List.singleton_append]
    have hpieces : ∀ p ∈ (k.span s).pieces, p.1.length ≤ b.length := by
      intro p hp
      have hle := hk.length_le (List.mem_filter.mp hs).1 p hp
      rwa [length_maskQuoted] at hle
    rw [htext, ← ConstraintSpan.constraint?_append (x := a ++ [',']) hpieces rfl,
      ConstraintSpan.append_nil]
  rw [constraints, ha.maskQuoted_comma,
    hk.constraints_segment ha hy (by rw [List.length_cons, List.length_cons, length_maskQuoted]),
    hfind, List.filterMap_congr hcut]
  rfl

/-- **The constraints of one kind are those of the parts**, in their order. -/
theorem constraints_eq_flatMap {t : Text} (ht : IsBare t) :
    k.constraints t = (splitCommas t).flatMap k.constraints := by
  have hnil : k.constraints [] = [] := rfl
  exact (ht.flatMap_splitCommas hnil (fun _ ha => hk.constraints_strip ha)
    fun _ _ ha _ => hk.constraints_comma ha).symm

end IsLocal

end KindReader

/-! ### The four kinds -/

/-- The reader of one of the kinds of which every finding counts. -/
def plainReader (kind : TableConstraintKind) (read : Text → Option (ConstraintSpan × Text)) :
    KindReader ConstraintSpan where
  kind := kind
  read := read
  span := id
  counts := fun _ => true

/-- The reader of indexes; one with a word in front does not count. -/
def indexReader : KindReader (Bool × ConstraintSpan) where
  kind := .index
  read := indexSpan?
  span := Prod.snd
  counts := fun s => !s.1

theorem isLocal_plainReader {kind : TableConstraintKind}
    {read : Text → Option (ConstraintSpan × Text)}
    (hreads : ∀ {z : Text}, Ends (dropBlanks z) → ReadsSpan z read (·.append z))
    (htakes : ∀ {t r : Text} {s : ConstraintSpan}, read t = some (s, r) → s.Takes t r) :
    (plainReader kind read).IsLocal ConstraintSpan.append where
  reads := hreads
  takes := htakes
  span _ _ := rfl
  counts _ _ := rfl

theorem isLocal_indexReader : indexReader.IsLocal fun s z => (s.1, s.2.append z) where
  reads := reads_indexSpan?
  takes := takes_of_indexSpan?
  span _ _ := rfl
  counts _ _ := rfl

/-- The constraints of a kind in a list without comments. -/
def constraintsOf : TableConstraintKind → Text → List TableConstraint
  | .primaryKey => (plainReader .primaryKey primaryKeySpan?).constraints
  | .foreignKey => (plainReader .foreignKey foreignKeySpan?).constraints
  | .unique => (plainReader .unique uniqueSpan?).constraints
  | .index => indexReader.constraints

/-- The kinds in the order in which their constraints are listed. -/
def constraintKinds : List TableConstraintKind :=
  [.primaryKey, .foreignKey, .unique, .index]

theorem constraintsOf_eq_flatMap (kind : TableConstraintKind) {t : Text} (ht : IsBare t) :
    constraintsOf kind t = (splitCommas t).flatMap (constraintsOf kind) := by
  cases kind with
  | primaryKey =>
    exact (isLocal_plainReader reads_primaryKeySpan? takes_of_primaryKeySpan?).constraints_eq_flatMap
      ht
  | foreignKey =>
    exact (isLocal_plainReader reads_foreignKeySpan? takes_of_foreignKeySpan?).constraints_eq_flatMap
      ht
  | unique =>
    exact (isLocal_plainReader reads_uniqueSpan? takes_of_uniqueSpan?).constraints_eq_flatMap ht
  | index => exact isLocal_indexReader.constraints_eq_flatMap ht

theorem tableConstraints_eq_kinds (t : Text) : tableConstraints t =
    constraintKinds.flatMap fun kind => constraintsOf kind (maskComments t) := by
  have hplain : ∀ kind read, (plainReader kind read).constraints (maskComments t) =
      (constraintSpans read (maskQuoted (maskComments t))).filterMap
        (·.constraint? kind (maskComments t)) := by
    intro kind read
    rw [KindReader.constraints]
    exact congrArg (List.filterMap _) (List.filter_eq_self.mpr fun _ _ => rfl)
  simp only [constraintKinds, List.flatMap_cons, List.flatMap_nil, List.append_nil, constraintsOf,
    hplain]
  rw [tableConstraints, List.append_assoc, List.append_assoc]
  rfl

theorem kind_of_mem_constraintsOf {kind : TableConstraintKind} {t : Text} {c : TableConstraint}
    (h : c ∈ constraintsOf kind t) : c.kind = kind := by
  cases kind <;>
  · obtain ⟨s, -, hs⟩ := List.mem_filterMap.mp h
    exact ConstraintSpan.kind_of_constraint? hs

/-- The constraints of a kind are those of a list that are of this kind. -/
theorem filter_kind_tableConstraints (kind : TableConstraintKind) (t : Text) :
    (tableConstraints t).filter (·.kind = kind) = constraintsOf kind (maskComments t) := by
  have hfilter : ∀ k, (constraintsOf k (maskComments t)).filter (·.kind = kind) =
      if k = kind then constraintsOf k (maskComments t) else [] := by
    intro k
    split
    · rename_i hk
      exact List.filter_eq_self.mpr fun c hc =>
        decide_eq_true ((kind_of_mem_constraintsOf hc).trans hk)
    · rename_i hk
      exact List.filter_eq_nil_iff.mpr fun c hc h =>
        hk ((kind_of_mem_constraintsOf hc).symm.trans (of_decide_eq_true h))
  rw [tableConstraints_eq_kinds, List.filter_flatMap]
  simp only [hfilter]
  cases kind <;> simp [constraintKinds]

/-- **The constraints of a list are those of its parts**, kind by kind and each kind in the order of
the parts. -/
theorem tableConstraints_eq_flatMap {t : Text} (ht : hasUnmatchedDelimiters t = false) :
    tableConstraints t = constraintKinds.flatMap fun kind =>
      (splitCommas (maskComments t)).flatMap fun part =>
        (tableConstraints part).filter (·.kind = kind) := by
  have hbare : IsBare (maskComments t) := isBare_maskComments ht
  rw [tableConstraints_eq_kinds]
  refine List.flatMap_congr fun kind _ => ?_
  rw [constraintsOf_eq_flatMap kind hbare]
  refine List.flatMap_congr fun part hpart => ?_
  rw [filter_kind_tableConstraints, (hbare.of_mem_splitCommas hpart).maskComments]

theorem mem_tableConstraints_iff {t : Text} (ht : hasUnmatchedDelimiters t = false)
    {c : TableConstraint} : c ∈ tableConstraints t ↔
      ∃ part ∈ splitCommas (maskComments t), c ∈ tableConstraints part := by
  rw [tableConstraints_eq_flatMap ht]
  simp only [List.mem_flatMap, List.mem_filter, decide_eq_true_eq]
  constructor
  · rintro ⟨kind, -, part, hpart, hc, -⟩
    exact ⟨part, hpart, hc⟩
  · rintro ⟨part, hpart, hc⟩
    have hkind : c.kind ∈ constraintKinds := by cases c.kind <;> decide
    exact ⟨c.kind, hkind, part, hpart, hc, rfl⟩

/-! ### Columns and constraints -/

/-- Every constraint of the list is one of a part that is no column, and no column holds one. -/
structure ReadingsAgree (t : Text) : Prop where
  constraint : ∀ c ∈ tableConstraints t, ∃ part ∈ splitCommas (maskComments t),
    isTableLevel part = true ∧ c ∈ tableConstraints part
  column : ∀ part ∈ splitCommas (maskComments t), isColumnPart part = true →
    tableConstraints part = []

/-- **The constraints of a list are those of its parts**, kind by kind; they are those of the parts
that are read as constraints exactly if no part that is read as a column holds any. -/
theorem readingsAgree_iff {t : Text} (ht : hasUnmatchedDelimiters t = false) :
    (tableConstraints t = constraintKinds.flatMap fun kind =>
      (splitCommas (maskComments t)).flatMap fun part =>
        (tableConstraints part).filter (·.kind = kind)) ∧
    (ReadingsAgree t ↔ ∀ part ∈ splitCommas (maskComments t), isColumnPart part = true →
      tableConstraints part = []) := by
  refine ⟨tableConstraints_eq_flatMap ht, fun h => h.column, fun h => ⟨fun c hc => ?_, h⟩⟩
  obtain ⟨part, hpart, hc⟩ := (mem_tableConstraints_iff ht).mp hc
  refine ⟨part, hpart, ?_, hc⟩
  have hne : tableConstraints part ≠ [] := List.ne_nil_of_mem hc
  by_contra hlevel
  -- What is no table constraint is a column, unless there is nothing.
  have hpart_ne : part ≠ [] := by
    rintro rfl
    exact hne rfl
  refine hne (h part hpart ?_)
  rw [isColumnPart, Bool.eq_false_iff.mpr hlevel, Bool.not_false, Bool.and_true,
    Bool.not_eq_true', List.isEmpty_eq_false_iff]
  exact hpart_ne

theorem readingsAgree_iff_unique :
    hasUnmatchedDelimiters "a INT NOT NULL, b INT, UNIQUE (a, b)".toList = false ∧
      ReadingsAgree "a INT NOT NULL, b INT, UNIQUE (a, b)".toList :=
  ⟨by decide +kernel, (readingsAgree_iff (by decide +kernel)).2.mpr (by decide +kernel)⟩

/-- The parameters of an index behind `UNIQUE` are read as the columns of a constraint. -/
theorem not_readingsAgree_parameters :
    hasUnmatchedDelimiters "email TEXT UNIQUE WITH (fillfactor=70)".toList = false ∧
      splitCommas (maskComments "email TEXT UNIQUE WITH (fillfactor=70)".toList) =
        ["email TEXT UNIQUE WITH (fillfactor=70)".toList] ∧
      isColumnPart "email TEXT UNIQUE WITH (fillfactor=70)".toList = true ∧
      tableConstraints "email TEXT UNIQUE WITH (fillfactor=70)".toList =
        [⟨.unique, ["fillfactor=70".toList], none, some "WITH".toList⟩] ∧
      ¬ ReadingsAgree "email TEXT UNIQUE WITH (fillfactor=70)".toList := by
  have hparts : splitCommas (maskComments "email TEXT UNIQUE WITH (fillfactor=70)".toList) =
      ["email TEXT UNIQUE WITH (fillfactor=70)".toList] := by decide +kernel
  have hcolumn : isColumnPart "email TEXT UNIQUE WITH (fillfactor=70)".toList = true := by
    decide +kernel
  have hfound : tableConstraints "email TEXT UNIQUE WITH (fillfactor=70)".toList =
      [⟨.unique, ["fillfactor=70".toList], none, some "WITH".toList⟩] := by decide +kernel
  refine ⟨by decide +kernel, hparts, hcolumn, hfound, fun h => ?_⟩
  have hnone := h.column _ (by rw [hparts]; exact List.mem_singleton_self _) hcolumn
  rw [hfound] at hnone
  cases hnone

end TableTypes
