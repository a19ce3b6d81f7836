import TableTypes.Proofs.TableConstraints.FirstParen

/-!
# Key parts with a length

A key part is a column or, as in `name(10)`, so many of its first characters.  The list of a key is
read up to its first closing parenthesis, so a length ends the list (`find?_keyText`): the last column
that is read has a parenthesis left open, and the parts behind it are not read.  Only a key of columns
is read as the one constraint that it declares (`isReadAsOne_iff`).
-/

namespace TableTypes

open Text

/-! ### Key parts -/

/-- A part of a key: a column, of which only the first characters may count. -/
structure KeyPart where
  column : Bareword []
  length : Option Digits

namespace KeyPart

/-- The part as it is written. -/
def text (p : KeyPart) : Text :=
  p.column.text ++ p.length.elim [] fun d => '(' :: (d.text ++ [')'])

/-- What stands of the part before its first closing parenthesis. -/
def stem (p : KeyPart) : Text :=
  p.column.text ++ p.length.elim [] fun d => '(' :: d.text

variable {p : KeyPart}

theorem text_of_length {d : Digits} (h : p.length = some d) : p.text = p.stem ++ [')'] := by
  rw [text, stem, h, List.append_assoc]
  rfl

theorem stem_of_length {d : Digits} (h : p.length = some d) :
    p.stem = p.column.text ++ '(' :: d.text := by
  rw [stem, h]
  rfl

theorem stem_of_none (h : p.length = none) : p.stem = p.column.text := by
  rw [stem, h]
  exact List.append_nil _

theorem text_of_none (h : p.length = none) : p.text = p.stem := by
  rw [text, stem, h]
  rfl

/-- A stem consists of word characters and at most the opening parenthesis of a length. -/
theorem mem_stem {c : Char} (hc : c ∈ p.stem) :
    isAsciiWord c = true ∨ c = '(' ∧ p.length ≠ none := by
  cases h : p.length with
  | none =>
    rw [stem_of_none h] at hc
    exact Or.inl (p.column.forall_word c hc)
  | some d =>
    rw [stem_of_length h, List.mem_append, List.mem_cons] at hc
    rcases hc with hc | rfl | hc
    · exact Or.inl (p.column.forall_word c hc)
    · exact Or.inr ⟨rfl, Option.some_ne_none d⟩
    · exact Or.inl (d.forall_word c hc)

variable (p)

theorem isListed_stem : IsListed p.stem := by
  obtain ⟨c, v, hv, hc⟩ := p.column.isListed.head
  refine ⟨⟨c, v ++ p.length.elim [] fun d => '(' :: d.text, ?_, hc⟩, fun d hd => ?_⟩
  · rw [stem, hv, List.cons_append]
  · rcases mem_stem hd with hd | ⟨rfl, -⟩
    · refine ⟨isBlank_of_isAsciiWord hd, ?_⟩
      rintro rfl
      exact absurd hd (by decide)
    · decide

theorem plain_stem : p.stem.all isPlain = true := by
  refine List.all_eq_true.mpr fun c hc => ?_
  rcases mem_stem hc with hc | ⟨rfl, -⟩
  · exact isPlain_of_isAsciiWord hc
  · rfl

theorem plain_text : p.text.all isPlain = true := by
  cases h : p.length with
  | none => rw [text_of_none h, p.plain_stem]
  | some d => rw [text_of_length h, List.all_append, p.plain_stem]; rfl

/-- **A stem has a parenthesis left open exactly if the part has a length.** -/
theorem hasUnmatchedDelimiters_stem : hasUnmatchedDelimiters p.stem = p.length.isSome := by
  have hclose : ')' ∉ p.stem := fun hc => by
    rcases mem_stem hc with hc | ⟨hc, -⟩
    · exact absurd hc (by decide)
    · exact absurd hc (by decide)
  cases h : p.length with
  | none =>
    refine hasUnmatchedDelimiters_plain p.plain_stem (fun hc => ?_) hclose
    rcases mem_stem hc with hc | ⟨-, hlength⟩
    · exact absurd hc (by decide)
    · exact hlength h
  | some d =>
    refine hasUnmatchedDelimiters_of_count p.plain_stem ?_
    have hmem : '(' ∈ p.stem := by
      rw [stem_of_length h]
      exact List.mem_append_right _ List.mem_cons_self
    rw [List.count_eq_zero_of_not_mem hclose]
    exact (List.count_pos_iff.mpr hmem).ne'

end KeyPart

/-! ### What is read of a list of key parts -/

/-- The columns that are read of a list of key parts. -/
def columnsRead : List KeyPart → List Text
  | [] => []
  | p :: ps => p.stem :: if p.length.isSome then [] else columnsRead ps

/-- The key parts as they are written. -/
def keyPartsText (ps : List KeyPart) : Text :=
  join [',', ' '] (ps.map KeyPart.text)

variable {ps : List KeyPart}

theorem mem_columnsRead {w : Text} (h : w ∈ columnsRead ps) : ∃ p ∈ ps, w = p.stem := by
  induction ps with
  | nil => cases h
  | cons p ps ih =>
    rw [columnsRead, List.mem_cons] at h
    rcases h with rfl | h
    · exact ⟨p, List.mem_cons_self, rfl⟩
    · split at h
      · cases h
      · obtain ⟨q, hq, hw⟩ := ih h
        exact ⟨q, List.mem_cons_of_mem p hq, hw⟩

theorem columnsRead_of_none (h : ∀ p ∈ ps, p.length = none) :
    columnsRead ps = ps.map KeyPart.stem := by
  induction ps with
  | nil => rfl
  | cons p ps ih =>
    rw [List.forall_mem_cons] at h
    rw [columnsRead, h.1, ih h.2]
    rfl

/-- If a part has a length, a parenthesis is left open in a column that is read. -/
theorem exists_unmatched_of_length {p : KeyPart} (hp : p ∈ ps) (hlength : p.length ≠ none) :
    ∃ w ∈ columnsRead ps, hasUnmatchedDelimiters w = true := by
  induction ps with
  | nil => cases hp
  | cons q ps ih =>
    rw [columnsRead]
    cases hq : q.length with
    | some d =>
      refine ⟨q.stem, List.mem_cons_self, ?_⟩
      rw [q.hasUnmatchedDelimiters_stem, hq]
      rfl
    | none =>
      have hp : p ∈ ps := by
        rcases List.mem_cons.mp hp with rfl | hp
        · exact absurd hq hlength
        · exact hp
      obtain ⟨w, hw, hopen⟩ := ih hp
      exact ⟨w, List.mem_cons_of_mem _ hw, hopen⟩

theorem identifierList_columnsRead (hne : ps ≠ []) :
    identifierList (join [',', ' '] (columnsRead ps)) = columnsRead ps := by
  obtain ⟨p, ps, rfl⟩ := List.exists_cons_of_ne_nil hne
  refine identifierList_join (List.cons_ne_nil _ _) fun w hw => ?_
  obtain ⟨q, -, rfl⟩ := mem_columnsRead hw
  exact q.isListed_stem

theorem identifierList_columnsRead_ne_nil (hne : ps ≠ []) :
    identifierList (join [',', ' '] (columnsRead ps)) ≠ [] := by
  obtain ⟨p, ps, rfl⟩ := List.exists_cons_of_ne_nil hne
  rw [identifierList_columnsRead hne]
  exact List.cons_ne_nil _ _

theorem close_not_mem_columnsRead : ')' ∉ join [',', ' '] (columnsRead ps) := by
  intro h
  rcases mem_of_mem_join h with h | ⟨w, hw, h⟩
  · exact absurd h (by decide)
  · obtain ⟨p, -, rfl⟩ := mem_columnsRead hw
    rcases KeyPart.mem_stem h with h | ⟨h, -⟩
    · exact absurd h (by decide)
    · exact absurd h (by decide)

theorem open_not_mem_columnsRead (h : ∀ p ∈ ps, p.length = none) :
    '(' ∉ join [',', ' '] (columnsRead ps) := by
  intro hopen
  rcases mem_of_mem_join hopen with hopen | ⟨w, hw, hopen⟩
  · exact absurd hopen (by decide)
  · obtain ⟨p, hp, rfl⟩ := mem_columnsRead hw
    rcases KeyPart.mem_stem hopen with hopen | ⟨-, hlength⟩
    · exact absurd hopen (by decide)
    · exact hlength (h p hp)

/-- The list with its closing parenthesis is what is read with a closing parenthesis behind it, and
nothing is left over if no part has a length. -/
theorem exists_keyPartsText_eq (hne : ps ≠ []) : ∃ r,
    keyPartsText ps ++ [')'] = join [',', ' '] (columnsRead ps) ++ ([')'] ++ r) ∧
      ((∀ p ∈ ps, p.length = none) → r = []) := by
  induction ps with
  | nil => exact absurd rfl hne
  | cons p ps ih =>
    rw [keyPartsText, List.map_cons]
    cases h : p.length with
    | some d =>
      -- The parenthesis that closes the length ends the list, so all parts behind it are left over.
      refine ⟨(ps.map KeyPart.text).flatMap ([',', ' '] ++ ·) ++ [')'], ?_, fun hall => ?_⟩
      · rw [columnsRead, h, join_cons, KeyPart.text_of_length h]
        show _ = join [',', ' '] [p.stem] ++ _
        rw [join_cons, List.flatMap_nil, List.append_nil]
        simp only [List.append_assoc]
      · rw [hall p List.mem_cons_self] at h
        cases h
    | none =>
      cases ps with
      | nil =>
        refine ⟨[], ?_, fun _ => rfl⟩
        rw [columnsRead, h, KeyPart.text_of_none h]
        rfl
      | cons q ps =>
        -- What is left over is what the parts behind this one leave over.
        obtain ⟨r, hr, hnil⟩ := ih (List.cons_ne_nil q ps)
        refine ⟨r, ?_, fun hall => hnil fun x hx => hall x (List.mem_cons_of_mem p hx)⟩
        have hread : columnsRead (p :: q :: ps) = p.stem :: columnsRead (q :: ps) := by
          rw [columnsRead, h]
          rfl
        obtain ⟨w, ws, hws⟩ : ∃ w ws, columnsRead (q :: ps) = w :: ws := ⟨_, _, rfl⟩
        rw [hws] at hr hread
        rw [keyPartsText, List.map_cons] at hr
        rw [hread, List.map_cons, join_cons_cons, join_cons_cons, KeyPart.text_of_none h]
        simp only [List.append_assoc] at hr ⊢
        rw [hr]

/-! ### Keys -/

/-- The text is read as one constraint on `n` columns, none of which has a parenthesis without its
partner. -/
def IsReadAsOne (t : Text) (n : Nat) : Prop :=
  ∃ c, tableConstraints t = [c] ∧ c.columns.length = n ∧
    ∀ w ∈ c.columns, hasUnmatchedDelimiters w = false

namespace ConstraintHead

/-- A key on key parts as it is written. -/
def keyText (h : ConstraintHead) (ps : List KeyPart) : Text :=
  h.text ++ ([' ', '('] ++ (keyPartsText ps ++ [')']))

theorem plain_keyText (h : ConstraintHead) (ps : List KeyPart) :
    (h.keyText ps).all isPlain = true := by
  have hparts : (keyPartsText ps).all isPlain = true := by
    refine List.all_eq_true.mpr fun c hc => ?_
    rcases mem_of_mem_join hc with hc | ⟨w, hw, hc⟩
    · exact List.all_eq_true.mp (by rfl : [',', ' '].all isPlain = true) c hc
    · obtain ⟨p, -, rfl⟩ := List.mem_map.mp hw
      exact List.all_eq_true.mp p.plain_text c hc
  rw [keyText, List.all_append, List.all_append, List.all_append, h.plain_text, hparts]
  rfl

variable {h : ConstraintHead} {ps : List KeyPart}

theorem exists_keyText_eq (hne : ps ≠ []) : ∃ r,
    h.keyText ps = h.textWith (join [',', ' '] (columnsRead ps)) r ∧
      ((∀ p ∈ ps, p.length = none) → r = []) := by
  obtain ⟨r, hr, hnil⟩ := exists_keyPartsText_eq hne
  exact ⟨r, by rw [keyText, textWith, hr], hnil⟩

/-- The first constraint of its kind is the key on the columns up to the first that has a length. -/
theorem find?_keyText (hkind : h.kind ≠ .foreignKey) (hne : ps ≠ []) :
    (tableConstraints (h.keyText ps)).find? (·.kind = h.kind) = some (h.on (columnsRead ps)) := by
  obtain ⟨r, htext, -⟩ := exists_keyText_eq (h := h) hne
  have hplain := h.plain_keyText ps
  rw [htext] at hplain
  obtain ⟨cs, hcs, -⟩ := exists_constraintsOf_textWith hkind close_not_mem_columnsRead
    (identifierList_columnsRead_ne_nil hne) (maskQuoted_plain hplain)
  rw [htext, ← List.head?_filter, filter_kind_tableConstraints, maskComments_plain hplain, hcs,
    identifierList_columnsRead hne]
  rfl

/-- A key of columns is read as the constraint on these columns. -/
theorem tableConstraints_keyText (hkind : h.kind ≠ .foreignKey) (hne : ps ≠ [])
    (hlength : ∀ p ∈ ps, p.length = none) :
    tableConstraints (h.keyText ps) = [h.on (columnsRead ps)] := by
  obtain ⟨r, htext, hnil⟩ := exists_keyText_eq (h := h) hne
  obtain rfl := hnil hlength
  have hplain := h.plain_keyText ps
  rw [htext] at hplain ⊢
  rw [tableConstraints_textWith hkind close_not_mem_columnsRead (open_not_mem_columnsRead hlength)
    (identifierList_columnsRead_ne_nil hne) hplain, identifierList_columnsRead hne]

end ConstraintHead

/-- **The list of a key is read up to its first closing parenthesis.**  So the key is read as one
constraint on all its parts, none with a parenthesis left open, exactly if no part has a length. -/
theorem isReadAsOne_iff (h : ConstraintHead) (ps : List KeyPart) (hkind : h.kind ≠ .foreignKey)
    (hne : ps ≠ []) :
    (tableConstraints (h.keyText ps)).find? (·.kind = h.kind) = some (h.on (columnsRead ps)) ∧
      (IsReadAsOne (h.keyText ps) ps.length ↔ ∀ p ∈ ps, p.length = none) := by
  have hfind := ConstraintHead.find?_keyText hkind hne
  refine ⟨hfind, ?_, fun hlength => ?_⟩
  · rintro ⟨c, hc, -, hmatched⟩ p hp
    -- The only constraint is the one on the columns that are read.
    have hmem := List.mem_of_find?_eq_some hfind
    rw [hc, List.mem_singleton] at hmem
    subst hmem
    by_contra hlength
    obtain ⟨w, hw, hopen⟩ := exists_unmatched_of_length hp hlength
    rw [hmatched w hw] at hopen
    cases hopen
  · refine ⟨_, ConstraintHead.tableConstraints_keyText hkind hne hlength, ?_, fun w hw => ?_⟩
    · show (columnsRead ps).length = ps.length
      rw [columnsRead_of_none hlength, List.length_map]
    · obtain ⟨p, hp, rfl⟩ := mem_columnsRead hw
      rw [p.hasUnmatchedDelimiters_stem, hlength p hp]
      rfl

theorem isReadAsOne_iff_uniqueKey :
    ConstraintHead.kind (.uniqueKey ⟨"m".toList, by decide, by decide, by decide⟩) ≠ .foreignKey ∧
      IsReadAsOne "UNIQUE KEY m (a, key)".toList 2 :=
  ⟨by decide, (isReadAsOne_iff (.uniqueKey ⟨"m".toList, by decide, by decide, by decide⟩)
    [⟨⟨"a".toList, by decide, by decide, by decide⟩, none⟩,
      ⟨⟨"key".toList, by decide, by decide, by decide⟩, none⟩] (by decide) (by simp)).2.mpr
        (by simp)⟩

/-- The length of the first part ends the list, and the second part is lost. -/
theorem not_isReadAsOne_length :
    tableConstraints "KEY k (a(10), b)".toList =
        [⟨.index, ["a(10".toList], none, some "k".toList⟩] ∧
      hasUnmatchedDelimiters "a(10".toList = true ∧ ¬ IsReadAsOne "KEY k (a(10), b)".toList 2 := by
  have hread : tableConstraints "KEY k (a(10), b)".toList =
      [⟨.index, ["a(10".toList], none, some "k".toList⟩] := by decide +kernel
  refine ⟨hread, by decide +kernel, ?_⟩
  rintro ⟨c, hc, hlength, -⟩
  rw [hread, List.cons.injEq] at hc
  rw [← hc.1] at hlength
  exact absurd hlength (by decide)

end TableTypes
