import TableTypes.Proofs.Scan.Transparent
import TableTypes.Proofs.Statement.Place

/-!
# Statements in masked text

Statements are looked for in the text with its comments masked, but their bodies and options are
read from the text itself.  Where a comment makes no difference to either, masking the comments of a
text beforehand changes neither the names of its statements nor their lines and comments
(`Statement.parse_maskComments`).
-/

namespace TableTypes

open Text

/-! ### Pieces of the masked text -/

/-- What is cut out of the masked text is cut out of the text itself, up to masked characters. -/
theorem exists_marks_of_slice (t : Text) (start stop : Nat) : ∃ ms : List Mark,
    slice t start stop = ms.map Mark.char ∧
      slice (maskComments t) start stop = ms.map fun m => m.blanked.char := by
  refine ⟨((scan true t).drop start).take (stop - start), ?_, ?_⟩
  · rw [List.map_take, List.map_drop, map_char_scan]
    rfl
  · rw [List.map_take, List.map_drop, ← maskComments_eq_map]
    rfl

theorem newlines_maskComments (t : Text) (n : Nat) :
    newlines ((maskComments t).take n) = newlines (t.take n) := by
  obtain ⟨ms, hraw, hmasked⟩ := exists_marks_of_slice t 0 n
  have hnewline : ∀ m : Mark, (m.blanked.char == '\n') = (m.char == '\n') := by
    intro m
    rw [Bool.eq_iff_iff, beq_iff_eq, beq_iff_eq]
    exact m.blanked_newline
  have hslice : ∀ u : Text, slice u 0 n = u.take n := by
    intro u
    rw [slice, List.drop_zero, Nat.sub_zero]
  rw [← hslice, ← hslice, hraw, hmasked, newlines, newlines, List.count_eq_countP,
    List.count_eq_countP, List.countP_map, List.countP_map]
  simp only [Function.comp_def, hnewline]

/-- What is blank in the text itself is blank in the masked text. -/
theorem strip_slice_maskComments {t : Text} {start stop : Nat}
    (h : strip (slice t start stop) = []) : strip (slice (maskComments t) start stop) = [] := by
  obtain ⟨ms, hraw, hmasked⟩ := exists_marks_of_slice t start stop
  rw [strip_eq_nil_iff] at h ⊢
  rw [hraw] at h
  rw [hmasked]
  intro c hc
  obtain ⟨m, hm, rfl⟩ := List.mem_map.mp hc
  exact isBlank_blanked (h _ (List.mem_map_of_mem hm))

theorem isClean_maskComments {t : Text} (ht : isClean t = true) :
    isClean (maskComments t) = true := by
  rw [isClean, List.all_eq_true] at ht ⊢
  intro c hc
  rw [maskComments_eq_map] at hc
  obtain ⟨m, hm, rfl⟩ := List.mem_map.mp hc
  by_cases hcomment : m.region = .comment
  · rcases (blanked_of_comment hcomment).2.2 with heq | heq <;> rw [heq] <;> decide
  · rw [blanked_of_not_comment hcomment]
    apply ht
    rw [← map_char_scan true t]
    exact List.mem_map_of_mem hm

/-! ### Statements -/

namespace PlacedStatement

variable {t : Text} {p : PlacedStatement}

/-- The statement of the masked text that stands where `p` stands in the text itself. -/
def masked (t : Text) (p : PlacedStatement) : PlacedStatement :=
  { p with
    statement :=
      { p.statement with
        body := strip (slice (maskComments t) (p.opening + 1) p.closing)
        source := slice (maskComments t) p.start p.stop } }

/-- The comments in a statement make no difference to what it declares: its options are the same
without them, and it has a body without them. -/
structure ReadsMasked (p : PlacedStatement) (t : Text) : Prop where
  options : tableOptions ((maskComments t).drop (p.closing + 1)) =
    (p.statement.comment, (maskComments t).drop p.stop)
  body : strip (slice (maskComments t) (p.opening + 1) p.closing) ≠ []

theorem StandsIn.masked_iff (hp : p.StandsIn t) :
    (p.masked t).StandsIn (maskComments t) ↔ p.ReadsMasked t := by
  constructor
  · intro h
    exact ⟨h.options, h.solid⟩
  · rintro ⟨hoptions, hbody⟩
    exact {
      head := by
        rw [maskComments_maskComments]
        exact hp.head
      closes := by
        rw [maskComments_maskComments]
        exact hp.closes
      start_lt := hp.start_lt
      name_lt := hp.name_lt
      opening_lt := hp.opening_lt
      closing_lt := hp.closing_lt
      stop_le := by
        rw [length_maskComments]
        exact hp.stop_le
      body := rfl
      solid := hbody
      line := by
        rw [newlines_maskComments]
        exact hp.line
      source := rfl
      options := hoptions }

/-- A fault stays the same fault when comments are masked. -/
theorem at?_maskComments_error {k : Nat} {e : ParseError} {r : Text}
    (h : at? t ((maskComments t).drop k) = some (.error e, r)) :
    at? (maskComments t) ((maskComments t).drop k) = some (.error e, r) := by
  obtain ⟨head, hread, -⟩ := Option.bind_eq_some_iff.mp h
  obtain ⟨n, o, hkn, hno, ho, hname, hopening⟩ := exists_positions hread
  rw [at?_of_head hread hname hopening hkn hno ho,
    Statement.at?_of_head hread hname hopening hkn hno ho] at h
  have hmask := maskComments_maskComments t
  have ho' : o < (maskComments t).length := by rwa [length_maskComments]
  -- The head stands at the same positions in the masked text, so only the body remains to compare.
  rw [← hmask] at hread hname hopening
  have hmasked := at?_of_head hread hname hopening hkn hno ho'
  rw [Statement.at?_of_head hread hname hopening hkn hno ho', hmask, newlines_maskComments]
    at hmasked
  rw [hmasked]
  cases hclose : closing? ((maskComments t).drop o) with
  | none =>
    rw [hclose] at h
    exact h
  | some width =>
    rw [hclose] at h
    dsimp only at h ⊢
    split at h
    · rename_i hbody
      have hempty : (strip (slice (maskComments t) (o + 1) (o + width))).isEmpty = true := by
        rw [List.isEmpty_iff] at hbody ⊢
        exact strip_slice_maskComments hbody
      rw [if_pos hempty]
      exact h
    · cases (Prod.mk.inj (Option.some.inj h)).1

/-- **The same statements are read from the masked text**, masked, if and only if in none of them
the comments make a difference. -/
theorem found_maskComments_iff :
    found (maskComments t) = (found t).map (Except.map (masked t)) ↔
      ∀ p, .ok p ∈ found t → p.ReadsMasked t := by
  constructor
  · intro h p hp
    have hmasked : .ok (p.masked t) ∈ found (maskComments t) := by
      rw [h]
      exact List.mem_map_of_mem (f := Except.map (masked t)) hp
    exact (standsIn_of_mem_found hp).1.masked_iff.mp (standsIn_of_mem_found hmasked).1
  · intro h
    -- Masked once or twice, the text that is searched is the same, so the runs go side by side.
    have hrun : Found (at? (maskComments t)) (maskComments t) 0
        ((found t).map (Except.map (masked t))) := by
      refine (found_run t).map (fun k hnone => at?_eq_none_iff.mpr (at?_eq_none_iff.mp hnone)) ?_
      intro k j result hresult hat
      cases result with
      | error e => exact at?_maskComments_error hat
      | ok p =>
        obtain ⟨hp, rfl, hstop⟩ := StandsIn.of_at? hat
        have hmasked := (hp.masked_iff.mpr (h p hresult)).at?
        rw [maskComments_maskComments] at hmasked
        rw [hstop]
        exact hmasked
    rw [found, maskComments_maskComments]
    exact hrun.findAllFrom_eq none

end PlacedStatement

/-! ### All statements -/

/-- What masking the comments of a text should leave of a statement: its name, its line and its
comment. -/
def Statement.outline (s : Statement) : Text × Nat × Option Text :=
  (s.name, s.line, s.comment)

theorem exists_of_map_eq_ok {ε α β : Type} {f : α → β} {r : Except ε α} {b : β}
    (h : r.map f = .ok b) : ∃ a, r = .ok a ∧ f a = b := by
  cases r with
  | error e => cases h
  | ok a => exact ⟨a, rfl, Except.ok.inj h⟩

theorem outlines_masked (t : Text) (ps : List PlacedStatement) :
    ((ps.map (PlacedStatement.masked t)).map PlacedStatement.statement).map Statement.outline =
      (ps.map PlacedStatement.statement).map Statement.outline := by
  rw [List.map_map, List.map_map, List.map_map]
  rfl

/-- **When comments make no difference.**  For a text without carriage returns and control
characters the same statements are read from the masked text if and only if in none of them the
comments change the options or are all there is of the body; and then both texts are parsed, if
they are, as statements of the same names, lines and comments. -/
theorem Statement.parse_maskComments {t : Text} (ht : isClean t = true) :
    (PlacedStatement.found (maskComments t) =
        (PlacedStatement.found t).map (Except.map (PlacedStatement.masked t)) ↔
      ∀ p, .ok p ∈ PlacedStatement.found t → p.ReadsMasked t) ∧
    ((∀ p, .ok p ∈ PlacedStatement.found t → p.ReadsMasked t) →
      ∀ outlines, (Statement.parse (.text t)).map (List.map Statement.outline) = .ok outlines ↔
        (Statement.parse (.text (maskComments t))).map (List.map Statement.outline) =
          .ok outlines) := by
  refine ⟨PlacedStatement.found_maskComments_iff, fun h outlines => ?_⟩
  have hclean : cleaned t = t := cleaned_eq_self ht
  have hclean' : cleaned (maskComments t) = maskComments t :=
    cleaned_eq_self (isClean_maskComments ht)
  have hread : PlacedStatement.readAll (maskComments t) =
      (PlacedStatement.readAll t).map (List.map (PlacedStatement.masked t)) := by
    rw [PlacedStatement.readAll, PlacedStatement.found_maskComments_iff.mpr h, mapM_id_map]
    rfl
  constructor
  · intro hparse
    obtain ⟨ss, hss, rfl⟩ := exists_of_map_eq_ok hparse
    obtain ⟨ps, hps, rfl, hne⟩ := PlacedStatement.exists_of_parse hss
    rw [hclean] at hps
    rw [hps] at hread
    rw [PlacedStatement.parse_of_readAll hclean' hread (by simpa using hne)]
    exact congrArg Except.ok (outlines_masked t ps)
  · intro hparse
    obtain ⟨ss, hss, rfl⟩ := exists_of_map_eq_ok hparse
    obtain ⟨qs, hqs, rfl, hne⟩ := PlacedStatement.exists_of_parse hss
    rw [hclean', hread] at hqs
    obtain ⟨ps, hps, rfl⟩ := exists_of_map_eq_ok hqs
    rw [PlacedStatement.parse_of_readAll hclean hps (by simpa using hne)]
    exact congrArg Except.ok (outlines_masked t ps).symm

/-- A text with a comment between the words of a statement, and one in its body. -/
theorem Statement.parse_maskComments_between :
    isClean "CREATE /* x */ TABLE t (a INT -- )\n) COMMENT='c';".toList = true ∧
      (Statement.parse (.text (maskComments
        "CREATE /* x */ TABLE t (a INT -- )\n) COMMENT='c';".toList))).map
          (List.map Statement.outline) = .ok [(['t'], 1, some ['c'])] := by
  have hclean : isClean "CREATE /* x */ TABLE t (a INT -- )\n) COMMENT='c';".toList = true := by
    decide +kernel
  have hfound : PlacedStatement.found "CREATE /* x */ TABLE t (a INT -- )\n) COMMENT='c';".toList =
      [.ok ⟨⟨['t'], "a INT -- )".toList, 1,
        "CREATE /* x */ TABLE t (a INT -- )\n) COMMENT='c';".toList, some ['c']⟩, 0, 21, 23, 35,
          49⟩] := by
    decide +kernel
  refine ⟨hclean, ((Statement.parse_maskComments hclean).2 ?_ _).mp (by decide +kernel)⟩
  intro p hp
  rw [hfound] at hp
  obtain rfl := Except.ok.inj (List.mem_singleton.mp hp)
  exact ⟨by decide +kernel, by decide +kernel⟩

/-- A comment behind the parenthesis hides the options behind it, and a comment passes for the
columns of a table without any. -/
theorem Statement.parse_commentBeforeOption :
    (isClean "CREATE TABLE t (a INT) /* x */ COMMENT='c';".toList = true ∧
      (Statement.parse (.text "CREATE TABLE t (a INT) /* x */ COMMENT='c';".toList)).map
        (List.map Statement.outline) = .ok [(['t'], 1, none)] ∧
      (Statement.parse (.text (maskComments
        "CREATE TABLE t (a INT) /* x */ COMMENT='c';".toList))).map
          (List.map Statement.outline) = .ok [(['t'], 1, some ['c'])]) ∧
    (isClean "CREATE TABLE t (/* x */)".toList = true ∧
      (Statement.parse (.text "CREATE TABLE t (/* x */)".toList)).map
        (List.map Statement.outline) = .ok [(['t'], 1, none)] ∧
      Statement.parse (.text (maskComments "CREATE TABLE t (/* x */)".toList)) =
        .error ((ParseCause.noColumns ['t']).onLine (some 1))) :=
  ⟨⟨by decide +kernel, by decide +kernel, by decide +kernel⟩,
    ⟨by decide +kernel, by decide +kernel, by decide +kernel⟩⟩

end TableTypes
