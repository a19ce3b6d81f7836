import TableTypes.Proofs.TableConstraints.Cutting

/-!
# Reading back table constraints

Each reader finds, segment after segment, the constraints of its kind (`constraintSpans_segments`),
and what it finds is cut out as it was written (`filterMap_segmentSpans`), so the constraints of a
list of segments are those of its segments, sorted by their kind (`tableConstraints_join`).
-/

namespace TableTypes

open Text

variable {α : Type} {read : Text → Option (α × Text)}

/-! ### Segment after segment -/

/-- What the search for constraints finds at a segment and behind it, with the text that follows
each segment. -/
def segmentSpans (spans : Segment → Text → List α) : List Segment → List α
  | [] => []
  | x :: xs => spans x (segmentsMasked xs) ++ segmentSpans spans xs

/-- The reader finds `spans` at each segment: what it takes where a segment begins is all of the
segment, and the search goes on behind it. -/
structure Finds (read : Text → Option (α × Text)) (spans : Segment → Text → List α) : Prop where
  whole : ∀ (x : Segment) {s : Text}, Ends s → ∀ a r, read (x.masked ++ s) = some (a, r) → r = s
  behind : ∀ (x : Segment) {s : Text}, Ends s →
    findAfter read ([',', ' '] ++ (x.masked ++ s)) = spans x s ++ findAfter read s

theorem ends_segmentsMasked (xs : List Segment) : Ends (segmentsMasked xs) := by
  cases xs with
  | nil => rintro c ⟨⟩
  | cons x xs => rintro c ⟨⟩; rfl

theorem segmentsMasked_cons (x : Segment) (xs : List Segment) :
    segmentsMasked (x :: xs) = [',', ' '] ++ (x.masked ++ segmentsMasked xs) := by
  rw [segmentsMasked, List.flatMap_cons, List.append_assoc]
  rfl

theorem segmentsText_cons (x : Segment) (xs : List Segment) :
    segmentsText (x :: xs) = [',', ' '] ++ (x.text ++ segmentsText xs) := by
  rw [segmentsText, List.flatMap_cons, List.append_assoc]
  rfl

/-- A segment begins with a word. -/
theorem Segment.exists_cons (x : Segment) :
    ∃ c u, x.masked = c :: u ∧ isGap c = false := by
  cases x with
  | column c =>
    obtain ⟨d, w, hw⟩ := List.exists_cons_of_ne_nil c.definition.name.ne_nil
    have hd : isAsciiWord d = true :=
      c.definition.name.forall_word d (by rw [hw]; exact List.mem_cons_self)
    refine ⟨d, w ++ ' ' :: (c.definition.type.text ++ clausesMasked c.definition.clauses), ?_,
      isGap_of_isAsciiWord hd⟩
    rw [Segment.masked, hw]
    rfl
  | constraint c =>
    obtain ⟨label, head, columns⟩ := c
    cases label with
    | none => cases head <;> exact ⟨_, _, rfl, rfl⟩
    | some n => exact ⟨_, _, rfl, rfl⟩

theorem findAfter_segments {spans : Segment → Text → List α} (h : Finds read spans)
    (xs : List Segment) : findAfter read (segmentsMasked xs) = segmentSpans spans xs := by
  induction xs with
  | nil => rfl
  | cons x xs ih =>
    rw [segmentsMasked_cons, h.behind x (ends_segmentsMasked xs), ih, segmentSpans]

/-- **The search finds the constraints segment after segment.** -/
theorem constraintSpans_segments {spans : Segment → Text → List α} (h : Finds read spans)
    (x : Segment) (xs : List Segment) :
    constraintSpans read (x.masked ++ segmentsMasked xs) = segmentSpans spans (x :: xs) := by
  obtain ⟨c, u, hx, hc⟩ := x.exists_cons
  have hwhole := h.whole x (ends_segmentsMasked xs)
  have hbehind := findAfter_segments h (x :: xs)
  rw [segmentsMasked_cons, hx, List.cons_append] at hbehind
  rw [hx, List.cons_append] at hwhole ⊢
  rw [constraintSpans_eq hc hwhole]
  exact hbehind

/-- What is found is cut out of the list segment by segment. -/
theorem filterMap_segmentSpans {spans : Segment → Text → List α}
    (cut : Text → α → Option TableConstraint) {found : Segment → Option TableConstraint}
    (hcut : ∀ (x : Segment) (p : Text) {s t : Text}, s.length = t.length →
      (spans x s).filterMap (cut (p ++ (x.text ++ t))) = (found x).toList)
    (xs : List Segment) : ∀ p : Text,
      (segmentSpans spans xs).filterMap (cut (p ++ segmentsText xs)) = xs.filterMap found := by
  induction xs with
  | nil => intro p; rfl
  | cons x xs ih =>
    intro p
    have hfirst := hcut x (p ++ [',', ' ']) (length_segmentsMasked xs)
    have hrest := ih (p ++ ([',', ' '] ++ x.text))
    have hsplit : p ++ segmentsText (x :: xs) =
        p ++ [',', ' '] ++ (x.text ++ segmentsText xs) := by
      rw [segmentsText_cons, List.append_assoc]
    have hsplit' : p ++ segmentsText (x :: xs) =
        p ++ ([',', ' '] ++ x.text) ++ segmentsText xs := by
      rw [segmentsText_cons]
      simp only [List.append_assoc]
    rw [← hsplit] at hfirst
    rw [← hsplit'] at hrest
    rw [segmentSpans, List.filterMap_append, hfirst, hrest, List.filterMap_cons]
    cases found x <;> rfl

theorem filterMap_spans {spans : Segment → Text → List α}
    (cut : Text → α → Option TableConstraint) {found : Segment → Option TableConstraint}
    (hcut : ∀ (x : Segment) (p : Text) {s t : Text}, s.length = t.length →
      (spans x s).filterMap (cut (p ++ (x.text ++ t))) = (found x).toList)
    (x : Segment) (xs : List Segment) :
    (segmentSpans spans (x :: xs)).filterMap (cut (x.text ++ segmentsText xs)) =
      (x :: xs).filterMap found := by
  have hfirst := hcut x [] (length_segmentsMasked xs)
  have hrest := filterMap_segmentSpans cut hcut xs x.text
  rw [List.nil_append] at hfirst
  rw [segmentSpans, List.filterMap_append, hfirst, hrest, List.filterMap_cons]
  cases found x <;> rfl

/-! ### Primary, foreign and unique keys -/

/-- What the reader of a kind finds at a segment that is followed by `s`. -/
def Segment.spans (kind : TableConstraintKind) : Segment → Text → List ConstraintSpan
  | column _, _ => []
  | constraint c, s => if c.head.kind = kind then [c.span s] else []

/-- The constraint of a kind that a segment declares. -/
def Segment.ofKind? (kind : TableConstraintKind) (x : Segment) : Option TableConstraint :=
  x.constraint?.filter (·.kind = kind)

theorem dropBlanks_text (c : ConstraintText) (s : Text) :
    dropBlanks (c.text ++ s) = c.text ++ s := by
  obtain ⟨label, head, columns⟩ := c
  cases label with
  | none => cases head <;> rfl
  | some n => rfl

/-- A column is not taken where it begins. -/
theorem TableReader.column_eq_none (hread : TableReader read) (c : TableColumn) (s : Text) :
    read ((Segment.column c).masked ++ s) = none := by
  rw [Segment.masked, List.append_assoc]
  exact hread.opens.at_word _ _ c.definition.name.forall_word rfl
    (not_mem_constraintWords c.definition.name.free)

/-- A reader of table constraints passes over columns, so it is enough to know what it finds at
constraints. -/
theorem TableReader.finds (hread : TableReader read) {spans : Segment → Text → List α}
    (hcolumn : ∀ c s, spans (.column c) s = [])
    (hwhole : ∀ (c : ConstraintText) (s : Text) a r, read (c.text ++ s) = some (a, r) → r = s)
    (hbehind : ∀ (c : ConstraintText) {s : Text}, Ends s →
      findAfter read ([',', ' '] ++ (c.text ++ s)) =
        spans (.constraint c) s ++ findAfter read s) : Finds read spans where
  whole := by
    intro x s _ a r h
    cases x with
    | column c =>
      rw [hread.column_eq_none] at h
      cases h
    | constraint c => exact hwhole c s a r h
  behind := by
    intro x s hs
    cases x with
    | column c =>
      rw [← List.append_assoc, findAfter_pass (hread.quiet_column c hs), hcolumn]
      rfl
    | constraint c => exact hbehind c hs

/-- A reader that takes the constraints of one kind where they begin finds them. -/
theorem finds_of_kind {read : Text → Option (ConstraintSpan × Text)} (hread : TableReader read)
    {kind : TableConstraintKind}
    (htext : ∀ (c : ConstraintText) (s : Text),
      read (c.text ++ s) = if c.head.kind = kind then some (c.span s, s) else none)
    (hkey : kind ≠ .unique → ∀ x : Text, read ("KEY ".toList ++ x) = none) :
    Finds read (Segment.spans kind) := by
  apply hread.finds (fun _ _ => rfl)
  · intro c s a r h
    rw [htext] at h
    split at h
    · cases h; rfl
    · cases h
  · intro c s _
    rw [Segment.spans]
    by_cases hkind : c.head.kind = kind
    · have htake : read (dropBlanks (' ' :: c.text ++ s)) = some (c.span s, s) := by
        rw [List.cons_append, dropBlanks_space, dropBlanks_text, htext, if_pos hkind]
      rw [if_pos hkind]
      exact findAfter_hit rfl htake
    · have hstart : read (c.text ++ s) = none := by rw [htext, if_neg hkind]
      have hbody : read (c.body ++ s) = none := by
        have h := htext { c with label := none } s
        rw [if_neg hkind] at h
        exact h
      have hquiet := hread.quiet_constraint c hstart hbody (by
        intro n hn
        apply hkey
        rintro rfl
        rw [hn] at hkind
        exact hkind rfl)
      rw [if_neg hkind, ← List.append_assoc]
      exact findAfter_pass hquiet

theorem Segment.ofKind?_constraint (kind : TableConstraintKind) (c : ConstraintText) :
    (constraint c).ofKind? kind = if c.head.kind = kind then some c.constraint else none := by
  rw [ofKind?, constraint?, Option.filter_some]
  by_cases h : c.head.kind = kind
  · rw [if_pos h]
    exact if_pos (decide_eq_true h)
  · rw [if_neg h]
    exact if_neg (by rw [decide_eq_true_eq]; exact h)

/-- What is found of a kind is cut out as it was written. -/
theorem cut_of_kind (kind : TableConstraintKind) (x : Segment) (p : Text) {s t : Text}
    (h : s.length = t.length) :
    (x.spans kind s).filterMap (·.constraint? kind (p ++ (x.text ++ t))) =
      (x.ofKind? kind).toList := by
  cases x with
  | column c => rfl
  | constraint c =>
    rw [Segment.spans, Segment.ofKind?_constraint]
    by_cases hkind : c.head.kind = kind
    · subst hkind
      have hcut := c.constraint?_span p h
      rw [if_pos rfl, if_pos rfl, List.filterMap_cons, Segment.text, hcut]
      rfl
    · rw [if_neg hkind, if_neg hkind]
      rfl

/-! ### Indexes -/

/-- What the reader of indexes finds at a segment that is followed by `s`: unique keys, too. -/
def Segment.indexSpans : Segment → Text → List (Bool × ConstraintSpan)
  | column _, _ => []
  | constraint c, s => (c.indexSpan s).toList

/-- The reader of indexes finds a constraint with a label behind the label. -/
theorem findAfter_index {c : ConstraintText} {s : Text} {a : Bool × ConstraintSpan}
    (h : c.indexSpan s = some a) :
    findAfter indexSpan? ([',', ' '] ++ (c.text ++ s)) = a :: findAfter indexSpan? s := by
  have hbody : indexSpan? (dropBlanks (c.body ++ s)) = some (a, s) := by
    rw [c.dropBlanks_body, indexSpan?_body, h]
    rfl
  cases hlabel : c.label with
  | none =>
    have htext : c.text = c.body := by
      rw [ConstraintText.text, hlabel]
      rfl
    have htake : indexSpan? (dropBlanks (' ' :: c.body ++ s)) = some (a, s) := by
      rw [List.cons_append, dropBlanks_space, hbody]
    rw [htext]
    exact findAfter_hit rfl htake
  | some n =>
    have hstart := indexSpan?_label c (by rw [hlabel]; exact Option.some_ne_none n) s
    have htext := c.text_of_label hlabel
    have hquiet := tableReader_index.quiet_label n (s := ' ' :: (c.body ++ s)) rfl (by
      rw [htext, List.append_assoc] at hstart
      exact hstart)
    have hpass := findAfter_pass hquiet
    rw [htext]
    show findAfter indexSpan? ([',', ' '] ++
      ("CONSTRAINT".toList ++ (' ' :: n.text) ++ (' ' :: c.body) ++ s)) = _
    rw [List.append_assoc, ← List.append_assoc [',', ' ']]
    exact hpass.trans (findAfter_hit rfl hbody)

/-- The reader of indexes passes over a constraint that declares none. -/
theorem findAfter_not_index {c : ConstraintText} {s : Text} (h : c.indexSpan s = none) :
    findAfter indexSpan? ([',', ' '] ++ (c.text ++ s)) = findAfter indexSpan? s := by
  have hbody : indexSpan? (c.body ++ s) = none := by
    rw [indexSpan?_body, h]
    rfl
  have hstart : indexSpan? (c.text ++ s) = none := by
    cases hlabel : c.label with
    | none =>
      rw [ConstraintText.text, hlabel]
      exact hbody
    | some n => exact indexSpan?_label c (by rw [hlabel]; exact Option.some_ne_none n) s
  have hquiet := tableReader_index.quiet_constraint c hstart hbody (by
    intro n hn
    rw [ConstraintText.indexSpan, hn] at h
    cases h)
  rw [← List.append_assoc]
  exact findAfter_pass hquiet

theorem finds_index : Finds indexSpan? Segment.indexSpans := by
  apply tableReader_index.finds (fun _ _ => rfl)
  · intro c s a r h
    cases hlabel : c.label with
    | none =>
      have htext : c.text = c.body := by
        rw [ConstraintText.text, hlabel]
        rfl
      rw [htext, indexSpan?_body, Option.map_eq_some_iff] at h
      obtain ⟨b, -, hb⟩ := h
      cases hb
      rfl
    | some n =>
      rw [indexSpan?_label c (by rw [hlabel]; exact Option.some_ne_none n) s] at h
      cases h
  · intro c s _
    rw [Segment.indexSpans]
    cases hspan : c.indexSpan s with
    | some a => exact findAfter_index hspan
    | none => exact findAfter_not_index hspan

/-- What is found of indexes is cut out as it was written, unique keys left out. -/
theorem cut_index (x : Segment) (p : Text) {s t : Text} (h : s.length = t.length) :
    (x.indexSpans s).filterMap (fun a =>
        if !a.1 then a.2.constraint? .index (p ++ (x.text ++ t)) else none) =
      (x.ofKind? .index).toList := by
  cases x with
  | column c => rfl
  | constraint c =>
    have hcut := c.constraint?_span p h
    rw [Segment.indexSpans, Segment.ofKind?_constraint, Segment.text, ConstraintText.indexSpan]
    cases hhead : c.head with
    | key n =>
      rw [hhead] at hcut
      exact congrArg Option.toList hcut
    | index n =>
      rw [hhead] at hcut
      exact congrArg Option.toList hcut
    | _ => rfl

/-! ### All kinds -/

/-- **Table constraints decode back to what was written**, whatever columns surround them: the
constraints of the segments, primary keys first, then foreign keys, unique keys and indexes, each
kind in the order of its appearance. -/
theorem tableConstraints_join (xs : List Segment) :
    tableConstraints (join [',', ' '] (xs.map Segment.text)) =
      [TableConstraintKind.primaryKey, .foreignKey, .unique, .index].flatMap fun kind =>
        (xs.filterMap Segment.constraint?).filter (·.kind = kind) := by
  cases xs with
  | nil => rfl
  | cons x xs =>
    have hcomments : maskComments (x.text ++ segmentsText xs) = x.text ++ segmentsText xs := by
      rw [maskComments_segment, maskComments_segments]
    have hquoted : maskQuoted (x.text ++ segmentsText xs) = x.masked ++ segmentsMasked xs := by
      rw [maskQuoted_segment, maskQuoted_segments]
    have hprimary := constraintSpans_segments (finds_of_kind tableReader_primaryKey
      primaryKeySpan?_text fun _ _ => rfl) x xs
    have hforeign := constraintSpans_segments (finds_of_kind tableReader_foreignKey
      foreignKeySpan?_text fun _ _ => rfl) x xs
    have hunique := constraintSpans_segments (finds_of_kind tableReader_unique
      uniqueSpan?_text fun h => absurd rfl h) x xs
    have hindex := constraintSpans_segments finds_index x xs
    have hkind : ∀ kind, ((x :: xs).filterMap Segment.constraint?).filter (·.kind = kind) =
        (x :: xs).filterMap (Segment.ofKind? kind) := fun kind => List.filter_filterMap
    have hcut := fun kind => filterMap_spans
      (fun text (span : ConstraintSpan) => span.constraint? kind text) (cut_of_kind kind) x xs
    have hcutIndex := filterMap_spans (fun text (a : Bool × ConstraintSpan) =>
      if !a.1 then a.2.constraint? .index text else none) cut_index x xs
    rw [join_segments, tableConstraints]
    simp only [hcomments, hquoted, hprimary, hforeign, hunique, hindex, List.filterMap_filter,
      hcut, hcutIndex]
    simp only [List.flatMap_cons, List.flatMap_nil, hkind, List.append_nil, List.append_assoc]

end TableTypes
