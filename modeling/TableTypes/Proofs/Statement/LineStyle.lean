import TableTypes.Proofs.Text.Clean
import TableTypes.Proofs.Text.Replace
import TableTypes.Statement

/-!
# Line ends and control characters

Cleaning undoes what an editor or a transport may do to a text: it takes out control characters
wherever they stand (`WithControls.dropControls`), and writes the line ends of every style as
newlines again (`LineStyle.unifyNewlines_write`).  So a text that is read as statements is read as
the same statements, lines and sources included, with control characters put in and in another style
of line ends (`Statement.parse_write`).

Line ends are unified in one pass.  That is the same as two replacements, of the pairs first and
then of the carriage returns that are left (`unifyNewlines_eq_replace`).
-/

namespace TableTypes

open Text

/-! ### Styles of line ends -/

/-- How the lines of a text end. -/
inductive LineStyle where
  | lf
  | crlf
  | cr
  deriving DecidableEq, Repr

namespace LineStyle

/-- What stands at the end of a line. -/
def lineEnd : LineStyle → Text
  | lf => ['\n']
  | crlf => ['\r', '\n']
  | cr => ['\r']

/-- The text with every newline written in the style. -/
def write (style : LineStyle) (t : Text) : Text :=
  t.flatMap fun c => if c = '\n' then style.lineEnd else [c]

variable {style : LineStyle} {t : Text}

theorem write_newline (style : LineStyle) (t : Text) :
    style.write ('\n' :: t) = style.lineEnd ++ style.write t := by
  rw [write, List.flatMap_cons, if_pos rfl]
  rfl

theorem write_cons {c : Char} (hc : c ≠ '\n') (t : Text) :
    style.write (c :: t) = c :: style.write t := by
  rw [write, List.flatMap_cons, if_neg hc]
  rfl

theorem newline_not_mem_write_cr (t : Text) : '\n' ∉ cr.write t := by
  intro h
  obtain ⟨c, -, hc⟩ := List.mem_flatMap.mp h
  split_ifs at hc with hnewline
  · exact absurd (List.mem_singleton.mp hc) (by decide)
  · exact hnewline (List.mem_singleton.mp hc).symm

/-- A line end of any style is unified to one newline, if it does not run into the next one. -/
theorem unifyNewlines_lineEnd (h : style = cr → t.head? ≠ some '\n') :
    unifyNewlines (style.lineEnd ++ t) = '\n' :: unifyNewlines t := by
  cases style with
  | lf => exact unifyNewlines.eq_3 '\n' t fun _ hc => absurd hc (by decide)
  | crlf => rfl
  | cr => exact unifyNewlines_append ['\r'] (h rfl)

/-- **Unifying the line ends undoes the style.** -/
theorem unifyNewlines_write (style : LineStyle) (ht : '\r' ∉ t) :
    unifyNewlines (style.write t) = t := by
  induction t with
  | nil => rfl
  | cons c t ih =>
    obtain ⟨hc, hrest⟩ := not_or.mp (mt List.mem_cons.mpr ht)
    by_cases hnewline : c = '\n'
    · subst hnewline
      rw [write_newline, unifyNewlines_lineEnd, ih hrest]
      -- No newline follows a carriage return, since that style has none.
      rintro rfl hhead
      exact newline_not_mem_write_cr t (List.mem_of_mem_head? hhead)
    · have hreturn : c ≠ '\r' := Ne.symm hc
      rw [write_cons hnewline, unifyNewlines.eq_3 c _ fun _ h => absurd h hreturn, if_neg hreturn,
        ih hrest]

/-- Line ends are blanks in every style. -/
theorem isAllBlank_write (style : LineStyle) (ht : '\r' ∉ t) :
    isAllBlank (style.write t) = isAllBlank t := by
  rw [← isAllBlank_unifyNewlines, unifyNewlines_write style ht]

end LineStyle

/-! ### Two replacements -/

/-- **The pairs first, then the carriage returns that are left**: two replacements one behind the
other unify the line ends. -/
theorem unifyNewlines_eq_replace (t : Text) :
    unifyNewlines t = replace ['\r'] ['\n'] (replace ['\r', '\n'] ['\n'] t) := by
  have hother : ∀ {c : Char}, c ≠ '\r' → ∀ t, after? ['\r'] (c :: t) = none := by
    intro c hc t
    rw [after?, if_neg (Ne.symm hc)]
  fun_induction unifyNewlines t with
  | case1 => rfl
  | case2 t ih =>
    have hpair : replace ['\r', '\n'] ['\n'] ('\r' :: '\n' :: t) =
        '\n' :: replace ['\r', '\n'] ['\n'] t :=
      replaceAll_match (u := ['\n']) rfl
    rw [hpair, replace_cons (hother (by decide) _), ← ih]
  | case3 c t hpair ih =>
    have hkept : after? ['\r', '\n'] (c :: t) = none :=
      after?_eq_none fun r hr => hpair r (List.cons.inj hr).1 (List.cons.inj hr).2
    rw [replace_cons hkept]
    split_ifs with hc
    · have hreturn : ∀ r, replace ['\r'] ['\n'] ('\r' :: r) = '\n' :: replace ['\r'] ['\n'] r :=
        fun r => replaceAll_match (u := []) rfl
      rw [hc, hreturn, ← ih]
    · rw [replace_cons (hother hc _), ← ih]

/-! ### Control characters at any place -/

/-- The second text is the first one with control characters put in at any places. -/
inductive WithControls : Text → Text → Prop
  | nil : WithControls [] []
  | keep (c : Char) {t s : Text} (h : WithControls t s) : WithControls (c :: t) (c :: s)
  | insert {c : Char} (hc : isControl c = true) {t s : Text} (h : WithControls t s) :
      WithControls t (c :: s)

namespace WithControls

variable {t s : Text}

theorem refl (t : Text) : WithControls t t := by
  induction t with
  | nil => exact nil
  | cons c t ih => exact keep c ih

theorem append {t' s' : Text} (h : WithControls t s) (h' : WithControls t' s') :
    WithControls (t ++ t') (s ++ s') := by
  induction h with
  | nil => exact h'
  | keep c _ ih => exact keep c ih
  | insert hc _ ih => exact insert hc ih

theorem subset (h : WithControls t s) : t ⊆ s := by
  induction h with
  | nil => exact List.Subset.refl []
  | keep c _ ih => exact List.cons_subset_cons c ih
  | insert _ _ ih => exact List.subset_cons_of_subset _ ih

theorem return_not_mem (h : WithControls t s) (ht : '\r' ∉ t) : '\r' ∉ s := by
  induction h with
  | nil => exact ht
  | keep c _ ih =>
    obtain ⟨hc, hrest⟩ := not_or.mp (mt List.mem_cons.mpr ht)
    exact List.not_mem_cons_of_ne_of_not_mem hc (ih hrest)
  | insert hc _ ih =>
    -- The carriage return is not among the control characters that are taken out.
    refine List.not_mem_cons_of_ne_of_not_mem ?_ (ih ht)
    rintro rfl
    cases hc

/-- **Control characters are taken out** wherever they were put in. -/
theorem dropControls_eq (h : WithControls t s) : dropControls s = dropControls t := by
  induction h with
  | nil => rfl
  | keep c _ ih =>
    rw [dropControls, dropControls, List.filter_cons, List.filter_cons]
    exact congrArg (fun r => if (!isControl c) = true then c :: r else r) ih
  | @insert c hc t s _ ih =>
    have hdropped : ¬ (!isControl c) = true := by
      rw [hc]
      decide
    rw [dropControls, List.filter_cons, if_neg hdropped]
    exact ih

theorem isAllBlank_eq_false (h : WithControls t s) (ht : isAllBlank t = false) :
    isAllBlank s = false := by
  rw [← Bool.not_eq_true, isAllBlank, List.all_eq_true] at ht ⊢
  exact fun hs => ht fun c hc => hs c (h.subset hc)

theorem cleaned_write (h : WithControls t s) (ht : '\r' ∉ t) (style : LineStyle) :
    cleaned (style.write s) = cleaned t := by
  rw [cleaned, cleaned, LineStyle.unifyNewlines_write style (h.return_not_mem ht),
    unifyNewlines_eq_self ht, h.dropControls_eq]

end WithControls

/-! ### Statements -/

namespace Statement

variable {t s : Text}

/-- A text that is not blank is parsed alike in every style of line ends, and whatever control
characters are put in. -/
theorem parse_eq_of_withControls (h : WithControls t s) (ht : '\r' ∉ t)
    (hsolid : isAllBlank t = false) (style : LineStyle) :
    parse (.text (style.write s)) = parse (.text t) := by
  have hwritten : isAllBlank (style.write s) = false := by
    rw [LineStyle.isAllBlank_write style (h.return_not_mem ht)]
    exact h.isAllBlank_eq_false hsolid
  rw [parse, parse, hwritten, hsolid, h.cleaned_write ht style]

/-- **Line ends and control characters change nothing that is parsed.**  What is read of a text
without carriage returns is read, with the same names, bodies, lines, sources and comments, of the
text with control characters put in anywhere and then with its newlines written in any one style. -/
theorem parse_write {ss : List Statement} (ht : '\r' ∉ t) (hparse : parse (.text t) = .ok ss)
    (h : WithControls t s) (style : LineStyle) : parse (.text (style.write s)) = .ok ss := by
  have hsolid : isAllBlank t = false := by
    rw [← Bool.not_eq_true]
    intro hblank
    rw [parse, if_pos hblank] at hparse
    cases hparse
  rw [parse_eq_of_withControls h ht hsolid style, hparse]

/-- A statement on three lines. -/
def threeLines : Text :=
  "\nCRE".toList ++ "ATE TABLE t (\n".toList ++ "  a INT COMMENT '".toList ++
    "x') COMMENT='y';\n".toList

/-- The same with control characters in a keyword, next to a newline and in a literal. -/
def specked : Text :=
  "\nCRE".toList ++ '\x08' :: "ATE TABLE t (\n".toList ++ '\x1f' :: "  a INT COMMENT '".toList ++
    '\x7f' :: "x') COMMENT='y';\n".toList

theorem parse_write_specked :
    ('\r' ∉ threeLines ∧ WithControls threeLines specked) ∧
      parse (.text threeLines) = .ok [⟨['t'], "a INT COMMENT 'x'".toList, 2,
        "CREATE TABLE t (\n  a INT COMMENT 'x') COMMENT='y';".toList, some ['y']⟩] ∧
      parse (.text (LineStyle.crlf.write specked)) = .ok [⟨['t'], "a INT COMMENT 'x'".toList, 2,
        "CREATE TABLE t (\n  a INT COMMENT 'x') COMMENT='y';".toList, some ['y']⟩] := by
  have hreturn : '\r' ∉ threeLines := by decide
  have hparse : parse (.text threeLines) = .ok [⟨['t'], "a INT COMMENT 'x'".toList, 2,
      "CREATE TABLE t (\n  a INT COMMENT 'x') COMMENT='y';".toList, some ['y']⟩] := by
    decide +kernel
  have hcontrols : WithControls threeLines specked :=
    (((WithControls.refl _).append (.insert rfl (.refl _))).append (.insert rfl (.refl _))).append
      (.insert rfl (.refl _))
  exact ⟨⟨hreturn, hcontrols⟩, hparse, parse_write hreturn hparse hcontrols .crlf⟩

end Statement

end TableTypes
