import TableTypes.Proofs.Declaration.Blocks
import TableTypes.Proofs.Declaration.SolidLines
import TableTypes.Proofs.Naming
import TableTypes.Proofs.TypeMap.Values

/-!
# Code without its comments

With comments, lines are written in front of declarations and properties that begin with a slash and
two stars or with a star, and no line of the code itself begins so.  The layout works on lines of
code and lines of comments together, but no comment stands inside an empty body, so it does the same
to the lines of code with the comments and without (`Annotates.filter_joinBodies`).  Hence what is
left of the code when the lines of comments are taken out is the code that is written without comments
(`Generator.codeLines_generate`).
-/

namespace TableTypes

open Text

variable {l t w x y : Text} {c : Char}

/-! ### Beginnings of lines -/

/-- What stands behind a text does not matter to a word at its front that it cannot be part of. -/
theorem isSome_after?_append {s : Text} (hs : ∀ c ∈ s.head?, c ∉ w) (x : Text) :
    (after? w (x ++ s)).isSome = (after? w x).isSome := by
  induction w generalizing x with
  | nil => cases x <;> cases s <;> rfl
  | cons a w ih =>
    have hw : ∀ c ∈ s.head?, c ∉ w := fun c hc h => hs c hc (List.mem_cons_of_mem a h)
    cases x with
    | nil =>
      cases s with
      | nil => rfl
      | cons c s =>
        have hc : a ≠ c := fun h => hs c rfl (h ▸ List.mem_cons_self)
        show (if a = c then after? w s else none).isSome = false
        rw [if_neg hc]
        rfl
    | cons d x =>
      rw [List.cons_append, after?, after?]
      split_ifs
      · exact ih hw x
      · rfl

theorem beginsWith_append_cons (hc : isBlank c = false) (hw : c ∉ w) (x y : Text) :
    beginsWith w (x ++ c :: y) = beginsWith w x := by
  rw [beginsWith, dropBlanks_append_cons hc, isSome_after?_append, beginsWith]
  intro d hd
  exact Option.some.inj hd ▸ hw

theorem beginsWith_dropEndWhile (hw : w.any isSpacing = false) (l : Text) :
    beginsWith w (dropEndWhile isSpacing l) = beginsWith w l := by
  obtain ⟨s, hsplit, hs⟩ := dropEndWhile_split isSpacing l
  have hnot : ∀ c ∈ s.head?, c ∉ w := fun c hc hmem =>
    Bool.false_ne_true ((forall_eq_false hw c hmem).symm.trans (hs c (List.mem_of_mem_head? hc)))
  conv_rhs => rw [hsplit]
  rcases isAllBlank_or_split (dropEndWhile isSpacing l) with h | ⟨v, c, u, h, -, hc⟩
  · have hblank : isAllBlank l = true := (isAllBlank_dropEndWhile l).symm.trans h
    rw [← hsplit, beginsWith, beginsWith, dropBlanks, dropBlanks,
      List.dropWhile_eq_nil_iff.mpr (isAllBlank_iff.mp h),
      List.dropWhile_eq_nil_iff.mpr (isAllBlank_iff.mp hblank)]
  · rw [h, List.append_assoc, List.cons_append, beginsWith, beginsWith, dropBlanks_append_cons hc,
      dropBlanks_append_cons hc, ← List.cons_append, ← List.append_assoc,
      isSome_after?_append hnot]

/-- A line that is joined with another begins as before. -/
theorem beginsWith_joined (hl : opensBody l = true) (hw : '\x7b' ∉ w) (m : Text) :
    beginsWith w (dropEndWhile isBlank l ++ m) = beginsWith w l := by
  obtain ⟨u, s, rfl, hs⟩ := opensBody_iff.mp hl
  rw [dropEndWhile_run (by decide) (isAllBlank_iff.mp hs), List.append_assoc, List.singleton_append,
    beginsWith_append_cons (by decide) hw, beginsWith_append_cons (by decide) hw]

/-! ### Lines of comments -/

/-- Whether the line belongs to a comment: whether its first characters that are not blank are a
slash and two stars, or a star. -/
def isCommentLine (l : Text) : Bool :=
  beginsWith "/**".toList l || beginsWith ['*'] l

/-- The solid lines that do not belong to a comment. -/
def codeLines (t : Text) : List Text :=
  (solidLines t).filter (!isCommentLine ·)

theorem isCommentLine_dropEndWhile (l : Text) :
    isCommentLine (dropEndWhile isSpacing l) = isCommentLine l := by
  rw [isCommentLine, beginsWith_dropEndWhile (by decide), beginsWith_dropEndWhile (by decide),
    isCommentLine]

theorem closesBody_dropEndWhile (l : Text) :
    closesBody (dropEndWhile isSpacing l) = closesBody l :=
  beginsWith_dropEndWhile (by decide) l

theorem isCommentLine_star (hw : isAllBlank w = true) (t : Text) :
    isCommentLine (w ++ '*' :: t) = true := by
  rw [isCommentLine, Bool.or_eq_true, beginsWith_iff, beginsWith_iff, dropBlanks_of_isAllBlank hw]
  exact Or.inr ⟨t, rfl⟩

theorem isCommentLine_slash (hw : isAllBlank w = true) :
    isCommentLine (w ++ "/**".toList) = true := by
  rw [isCommentLine, Bool.or_eq_true, beginsWith_iff, dropBlanks_of_isAllBlank hw]
  exact Or.inl List.prefix_rfl

theorem isCommentLine_of_solid (hw : isAllBlank w = true) (hc : isBlank c = false)
    (hslash : c ≠ '/') (hstar : c ≠ '*') (t : Text) : isCommentLine (w ++ c :: t) = false := by
  rw [isCommentLine, ← Bool.not_eq_true, Bool.or_eq_true, beginsWith_iff, beginsWith_iff,
    dropBlanks_of_isAllBlank hw, dropBlanks_of_head t hc]
  rintro (⟨s, hs⟩ | ⟨s, hs⟩)
  · exact hslash (List.cons.inj hs).1.symm
  · exact hstar (List.cons.inj hs).1.symm

theorem closesBody_of_isCommentLine (hl : isCommentLine l = true) : closesBody l = false := by
  rw [← Bool.not_eq_true]
  intro h
  obtain ⟨s, u, rfl, hs⟩ := closesBody_iff.mp h
  rw [isCommentLine_of_solid hs (by decide) (by decide) (by decide)] at hl
  cases hl

theorem isCommentLine_joined (hl : opensBody l = true) (m : Text) :
    isCommentLine (dropEndWhile isBlank l ++ m) = isCommentLine l := by
  rw [isCommentLine, beginsWith_joined hl (by decide), beginsWith_joined hl (by decide),
    isCommentLine]

/-- The first line of joined lines begins like the first line. -/
theorem joinBodies_cons (l : Text) (ls : List Text) : ∃ m ms, joinBodies (l :: ls) = m :: ms ∧
    isCommentLine m = isCommentLine l ∧ closesBody m = closesBody l := by
  show ∃ m ms, consLine l (joinBodies ls) = m :: ms ∧ _
  cases joinBodies ls with
  | nil => exact ⟨l, [], rfl, rfl, rfl⟩
  | cons k ks =>
    rw [consLine]
    split_ifs with h
    · rw [Bool.and_eq_true] at h
      exact ⟨_, ks, rfl, isCommentLine_joined h.1 _, beginsWith_joined h.1 (by decide) _⟩
    · exact ⟨l, k :: ks, rfl, rfl, rfl⟩

/-! ### Lines of code with comments among them -/

/-- Lines of code with lines of comments among them, none of these in front of a line that closes a
body. -/
inductive Annotates : List Text → List Text → Prop
  | nil : Annotates [] []
  | code {l : Text} {ls ms : List Text} : isCommentLine l = false → Annotates ls ms →
      Annotates (l :: ls) (l :: ms)
  | comment {l m : Text} {ls ms : List Text} : isCommentLine l = true → closesBody m = false →
      Annotates ls (m :: ms) → Annotates (l :: ls) (m :: ms)

namespace Annotates

variable {m : Text} {ls ms ls' ms' : List Text}

theorem append (h : Annotates ls ms) (h' : Annotates ls' ms') :
    Annotates (ls ++ ls') (ms ++ ms') := by
  induction h with
  | nil => exact h'
  | code hl _ ih => exact .code hl ih
  | comment hl hm _ ih => exact .comment hl hm ih

theorem comments {cs : List Text} (hcs : ∀ l ∈ cs, isCommentLine l = true)
    (hm : closesBody m = false) (h : Annotates ls (m :: ms)) : Annotates (cs ++ ls) (m :: ms) := by
  induction cs with
  | nil => exact h
  | cons l cs ih =>
    rw [List.forall_mem_cons] at hcs
    exact .comment hcs.1 hm (ih hcs.2)

theorem flatMap {α β : Type} {f : α → List Text} {g : β → List Text} {as : List α} {bs : List β}
    (h : List.Forall₂ (fun a b => Annotates (f a) (g b)) as bs) :
    Annotates (as.flatMap f) (bs.flatMap g) := by
  induction h with
  | nil => exact .nil
  | cons hab _ ih => exact hab.append ih

/-- Lines of comments and of code stay what they are without the spaces at their ends. -/
theorem map_dropEndWhile (h : Annotates ls ms) :
    Annotates (ls.map (dropEndWhile isSpacing)) (ms.map (dropEndWhile isSpacing)) := by
  induction h with
  | nil => exact .nil
  | code hl _ ih => exact .code ((isCommentLine_dropEndWhile _).trans hl) ih
  | comment hl hm _ ih =>
    exact .comment ((isCommentLine_dropEndWhile _).trans hl) ((closesBody_dropEndWhile _).trans hm)
      ih

/-- The line in front of a comment, or of a line of code that does not close a body, is not
joined. -/
theorem not_closes (h : Annotates ls (m :: ms)) (hm : closesBody m = false) :
    ∀ k ∈ (joinBodies ls).head?, closesBody k = false := by
  intro k hk
  cases h with
  | @code _ ls _ _ _ =>
    obtain ⟨k', ks, hks, -, hcloses⟩ := joinBodies_cons m ls
    rw [hks] at hk
    rw [← Option.some.inj hk, hcloses, hm]
  | @comment l _ ls _ hl _ _ =>
    obtain ⟨k', ks, hks, -, hcloses⟩ := joinBodies_cons l ls
    rw [hks] at hk
    rw [← Option.some.inj hk, hcloses, closesBody_of_isCommentLine hl]

/-- **Bodies are joined in the same way with comments and without.** -/
theorem filter_joinBodies (h : Annotates ls ms) :
    (joinBodies ls).filter (!isCommentLine ·) = joinBodies ms := by
  -- Bodies are joined from the last line on: the lines behind `l` are joined before `l` is put in
  -- front of them.
  induction h with
  | nil => rfl
  | @comment l m ls ms hl hm h ih =>
    have hjoin : joinBodies (l :: ls) = l :: joinBodies ls := consLine_of_not _ fun k hk => by
      rw [h.not_closes hm k hk, Bool.and_false]
    rw [hjoin, List.filter_cons, hl, ih]
    rfl
  | @code l ls ms hl h ih =>
    show (consLine l (joinBodies ls)).filter _ = consLine l (joinBodies ms)
    cases h with
    | nil =>
      rw [joinBodies, List.foldr_nil, consLine, List.filter_singleton, hl]
      rfl
    | @comment k m ls ms hk hm h =>
      -- Neither the comment nor the line behind the comments closes a body.
      have hls := Annotates.not_closes (.comment hk hm h) hm
      rw [consLine_of_not _ fun k hk => by rw [hls k hk, Bool.and_false], List.filter_cons, hl, ih]
      refine (consLine_of_not _ fun k hk => ?_).symm
      obtain ⟨m', ms', hms, -, hcloses⟩ := joinBodies_cons m ms
      rw [hms] at hk
      rw [← Option.some.inj hk, hcloses, hm, Bool.and_false]
    | @code k ls ms hk h =>
      obtain ⟨m, ms', hms, hcomment, -⟩ := joinBodies_cons k ls
      rw [hms, List.filter_cons, hcomment, hk] at ih
      rw [hms, ← ih, consLine]
      show _ = consLine l (m :: ms'.filter (!isCommentLine ·))
      rw [consLine]
      split_ifs with hbody
      · rw [Bool.and_eq_true] at hbody
        rw [List.filter_cons, isCommentLine_joined hbody.1, hl]
        rfl
      · rw [List.filter_cons, List.filter_cons, hl, hcomment, hk]
        rfl

end Annotates

/-! ### Comments -/

theorem newline_not_mem_ofNat (n : Nat) : '\n' ∉ ofNat n := fun h =>
  absurd (Nat.isDigit_of_mem_toDigits (by decide) (by decide) h) (by decide)

/-- What is escaped is one line. -/
theorem newline_not_mem_escapeComment (t : Text) : '\n' ∉ escapeComment t := by
  rw [escapeComment, replace]
  refine replaceAll_induction (motive := fun _ t' => '\n' ∉ t')
    (takesPiece_after? (List.cons_ne_nil _ _)) List.not_mem_nil ?_ ?_ _
  · intro c t t' hnone ih
    rw [List.mem_cons, not_or]
    refine ⟨?_, ih⟩
    rintro rfl
    cases hnone
  · exact fun b r r' _ ih => List.not_mem_append (by decide) ih

theorem Column.newline_not_mem_commentLines (c : Column) : ∀ l ∈ c.commentLines, '\n' ∉ l := by
  have hconstraints : '\n' ∉
      "Constraints: ".toList ++ join ", ".toList (c.constraints.map (·.kind.name)) := by
    refine List.not_mem_append (by decide) fun h => ?_
    rcases mem_of_mem_join h with h | ⟨p, hp, h⟩
    · exact absurd h (by decide)
    · obtain ⟨k, -, rfl⟩ := List.mem_map.mp hp
      have hkind : ∀ k : ColumnConstraintKind, '\n' ∉ k.name := by
        intro k
        cases k <;> decide
      exact hkind k.kind h
  intro l hl
  rw [commentLines, List.mem_append, List.mem_append] at hl
  rcases hl with (hl | hl) | hl
  · split_ifs at hl
    · cases hl
    · rw [List.mem_singleton.mp hl]
      exact newline_not_mem_escapeComment _
  · split_ifs at hl
    · cases hl
    · rwa [List.mem_singleton.mp hl]
  · rw [List.mem_singleton.mp hl]
    exact newline_not_mem_escapeComment _

theorem Table.newline_not_mem_commentLines {t : Table} (ht : '\n' ∉ t.name) :
    ∀ l ∈ t.commentLines, '\n' ∉ l := by
  intro l hl
  rw [commentLines, List.mem_append, List.mem_append, List.mem_singleton, List.mem_singleton] at hl
  rcases hl with (rfl | hl) | rfl
  · exact List.not_mem_append (List.not_mem_append (by decide) ht) (by decide)
  · split at hl
    · cases hl
    · cases hl
    · rw [List.mem_singleton.mp hl]
      exact newline_not_mem_escapeComment _
  · refine List.not_mem_append (List.not_mem_append (by decide) (newline_not_mem_ofNat _)) ?_
    split_ifs <;> decide

/-- A text of lines of comments, of which nothing else is left in front of a text. -/
def IsCommentary (t : Text) : Prop :=
  ∃ cs, (∀ l ∈ cs, isCommentLine l = true) ∧ ∀ y, solidLines (t ++ y) = cs ++ solidLines y

namespace IsCommentary

theorem nil : IsCommentary [] :=
  ⟨[], fun _ h => (nomatch h), fun _ => rfl⟩

theorem append (hx : IsCommentary x) (hy : IsCommentary y) : IsCommentary (x ++ y) := by
  obtain ⟨cs, hcs, hxs⟩ := hx
  obtain ⟨ds, hds, hys⟩ := hy
  refine ⟨cs ++ ds, fun l hl => ?_, fun z => ?_⟩
  · exact (List.mem_append.mp hl).elim (hcs l) (hds l)
  · rw [List.append_assoc, hxs, hys, List.append_assoc]

theorem newline : IsCommentary ['\n'] :=
  ⟨[], fun _ h => (nomatch h), fun y => solidLines_append [] y⟩

theorem line (hl : '\n' ∉ l) (hcomment : isCommentLine l = true) : IsCommentary (l ++ ['\n']) := by
  refine ⟨solidLines l, fun k hk => ?_, fun y => ?_⟩
  · rw [solidLines_line hl] at hk
    split_ifs at hk
    · cases hk
    · rwa [List.mem_singleton.mp hk]
  · rw [List.append_assoc]
    exact solidLines_append l y

theorem join {ls : List Text} (hls : ∀ l ∈ ls, '\n' ∉ l ∧ isCommentLine l = true) :
    IsCommentary (join ['\n'] ls ++ ['\n']) := by
  induction ls with
  | nil => exact newline
  | cons l ls ih =>
    rw [List.forall_mem_cons] at hls
    cases ls with
    | nil =>
      rw [join_cons, List.flatMap_nil, List.append_nil]
      exact line hls.1.1 hls.1.2
    | cons m ls =>
      have hjoin := (line hls.1.1 hls.1.2).append (ih hls.2)
      rwa [List.append_assoc, ← List.append_assoc ['\n'], ← List.append_assoc,
        ← join_cons_cons] at hjoin

/-- Every line of a block belongs to the comment. -/
theorem commentBlock {indent : Text} (hindent : isAllBlank indent = true ∧ '\n' ∉ indent)
    {ls : List Text} (hls : ∀ l ∈ ls, '\n' ∉ l) : IsCommentary (commentBlock indent ls) := by
  have hblank : isAllBlank (indent ++ [' ']) = true := by
    rw [isAllBlank_append, hindent.1]
    rfl
  have hopen : IsCommentary (indent ++ "/**".toList ++ ['\n']) :=
    line (List.not_mem_append hindent.2 (by decide)) (isCommentLine_slash hindent.1)
  have hend : IsCommentary (indent ++ " */".toList ++ ['\n']) := by
    refine line (List.not_mem_append hindent.2 (by decide)) ?_
    have hstar := isCommentLine_star hblank ['/']
    rwa [List.append_assoc] at hstar
  have hlines : ∀ k ∈ ls.map (fun l => indent ++ " * ".toList ++ l),
      '\n' ∉ k ∧ isCommentLine k = true := by
    intro k hk
    obtain ⟨l, hl, rfl⟩ := List.mem_map.mp hk
    refine ⟨List.not_mem_append (List.not_mem_append hindent.2 (by decide)) (hls l hl), ?_⟩
    have hstar := isCommentLine_star hblank (' ' :: l)
    rw [List.append_assoc] at hstar
    rwa [List.append_assoc]
  have hblock := hopen.append ((join hlines).append hend)
  simp only [List.append_assoc] at hblock
  simp only [TableTypes.commentBlock, List.append_assoc]
  exact hblock

theorem fileComment {now : Text} (hnow : '\n' ∉ now) (count : Nat) :
    IsCommentary (fileComment now count) := by
  have hmiddle : "\n * Total interfaces: ".toList = ['\n'] ++ " * Total interfaces: ".toList := by
    decide +kernel
  have hend : "\n *\n * @warning This file is auto-generated. Do not edit manually.\n */\n\n".toList =
      ['\n'] ++ (Text.join ['\n'] [" *".toList,
        " * @warning This file is auto-generated. Do not edit manually.".toList, " */".toList] ++
        ['\n'] ++ ['\n']) := by
    decide +kernel
  have hstar : ∀ {u : Text} (v : Text), '\n' ∉ u → '\n' ∉ v →
      IsCommentary (" *".toList ++ (u ++ v) ++ ['\n']) := fun v hu hv =>
    line (List.not_mem_append (by decide) (List.not_mem_append hu hv))
      (isCommentLine_star (w := [' ']) (by decide) _)
  have hlines : ∀ ls : List Text, (∀ l ∈ ls, '\n' ∉ l ∧ isCommentLine l = true) →
      IsCommentary (Text.join ['\n'] ls ++ ['\n']) := fun _ => join
  have hfront : IsCommentary
      "/**\n * Auto-generated TypeScript interfaces from SQL schema\n".toList :=
    hlines ["/**".toList, " * Auto-generated TypeScript interfaces from SQL schema".toList]
      (by decide +kernel)
  have hback := (hlines [" *".toList,
    " * @warning This file is auto-generated. Do not edit manually.".toList, " */".toList]
    (by decide +kernel)).append newline
  have hcomment := hfront.append ((hstar (u := " Generated on: ".toList) now (by decide) hnow).append
    ((hstar (u := " Total interfaces: ".toList) (ofNat count) (by decide)
      (newline_not_mem_ofNat count)).append hback))
  unfold TableTypes.fileComment
  rw [hmiddle, hend]
  simp only [List.append_assoc] at hcomment ⊢
  exact hcomment

end IsCommentary

theorem Column.isCommentary_commentBlock (c : Column) : IsCommentary c.commentBlock := by
  rw [Column.commentBlock]
  split
  · exact .nil
  · exact .nil
  · exact .commentBlock (by decide) c.newline_not_mem_commentLines

theorem Table.isCommentary_commentBlock {t : Table} (ht : '\n' ∉ t.name) :
    IsCommentary (TableTypes.commentBlock [] t.commentLines) :=
  .commentBlock (by decide) (t.newline_not_mem_commentLines ht)

/-! ### Lines of code -/

/-- A line of code. -/
structure IsCode (l : Text) : Prop where
  solid : solidLines l = [l]
  code : isCommentLine l = false

theorem isCode_of_split (hl : '\n' ∉ l) (hsplit : l = w ++ c :: t) (hw : isAllBlank w = true)
    (hc : isBlank c = false ∧ c ≠ '/' ∧ c ≠ '*') : IsCode l where
  solid := by
    rw [solidLines_line hl, if_neg]
    rw [hsplit, isAllBlank_of_solid hc.1]
    exact Bool.false_ne_true
  code := by rw [hsplit, isCommentLine_of_solid hw hc.1 hc.2.1 hc.2.2]

theorem IsCode.annotates (hl : IsCode l) : Annotates (solidLines l) [l] := by
  rw [hl.solid]
  exact .code hl.code .nil

/-- Comments in front of code that does not close a body. -/
theorem Annotates.commentary {m : Text} {ms : List Text} (h : Annotates (solidLines y) (m :: ms))
    (hm : closesBody m = false) (hx : IsCommentary x) :
    Annotates (solidLines (x ++ y)) (m :: ms) := by
  obtain ⟨cs, hcs, hlines⟩ := hx
  rw [hlines]
  exact h.comments hcs hm

theorem IsBlock.fileComment (hx : IsBlock x) (now : Text) (count : Nat) :
    IsBlock (fileComment now count ++ x) := by
  obtain ⟨u, c, rfl, hc⟩ := hx.last
  exact ⟨⟨'/', _, rfl, by decide⟩, _, c, (List.append_assoc _ u [c]).symm, hc⟩

/-! ### Declarations -/

theorem isTypeProperty_newline : IsTypeProperty fun t => '\n' ∉ t where
  builtin := by
    intro d
    cases d <;> decide +kernel
  any := by decide
  array := fun _ ht => List.not_mem_append ht (by decide)

namespace Generator

/-- The generator with comments or without. -/
def withComments (g : Generator) (b : Bool) : Generator :=
  { g with options := { g.options with includeComments := b } }

variable {g : Generator}

theorem isCode_propertyLine {c : Column} (hname : '\n' ∉ c.name) {ts : Text} (hts : '\n' ∉ ts) :
    IsCode (g.propertyLine c ts) ∧ closesBody (g.propertyLine c ts) = false := by
  have hnewline : '\n' ∉ g.propertyLine c ts := by
    have hoptional : '\n' ∉ (if g.options.isOptional c then ['?'] else []) := by
      split_ifs <;> decide
    have hnull :
        '\n' ∉ (if c.nullable && !g.options.isOptional c then " | null".toList else []) := by
      split_ifs <;> decide
    have hproperty := not_mem_propertyName (by decide) hname g.options
    simp only [propertyLine, List.mem_append, not_or]
    exact ⟨⟨⟨⟨⟨⟨by decide, hproperty⟩, hoptional⟩, by decide⟩, hts⟩, hnull⟩, by decide⟩
  obtain ⟨d, n, hproperty, hd⟩ := exists_propertyName g.options c.name
  obtain ⟨rest, hsplit⟩ : ∃ rest, g.propertyLine c ts = "  ".toList ++ d :: rest := by
    refine ⟨n ++ (if g.options.isOptional c then ['?'] else []) ++ ": ".toList ++ ts ++
      (if c.nullable && !g.options.isOptional c then " | null".toList else []) ++ [';'], ?_⟩
    rw [propertyLine, hproperty]
    simp only [List.append_assoc, List.cons_append]
  have hstart : ∀ e, isBlank e = true → (isIdentifierStart e || e = '\'') = false :=
    fun _ => eq_false_of_isBlank (p := fun e => isIdentifierStart e || e = '\'') (by decide +kernel)
  have hblank : isBlank d = false := by
    refine isBlank_eq_false_of hstart ?_
    rwa [Bool.or_eq_true, decide_eq_true_eq]
  -- A property begins with a letter, an underscore, a dollar sign or a quote: neither like a comment
  -- nor like the end of a body.
  have hother : d ≠ '/' ∧ d ≠ '*' ∧ d ≠ '\x7d' := by
    refine ⟨?_, ?_, ?_⟩ <;> rintro rfl <;> revert hd <;> decide
  refine ⟨isCode_of_split hnewline hsplit (by decide) ⟨hblank, hother.1, hother.2.1⟩, ?_⟩
  rw [hsplit, closesBody_of_solid (by decide) hblank, decide_eq_false hother.2.2]

theorem newline_not_mem_declarationName (o : GeneratorOptions) (name : Text) :
    '\n' ∉ o.declarationName name := fun h =>
  absurd (isIdentifierChar_of_mem_toIdentifier h) (by decide)

theorem isCode_openingLine (t : Table) :
    IsCode (g.openingLine t) ∧ closesBody (g.openingLine t) = false := by
  have hline : ∀ {front back : Text}, '\n' ∉ front → '\n' ∉ back →
      '\n' ∉ front ++ g.options.declarationName t.name ++ back := fun hfront hback =>
    List.not_mem_append (List.not_mem_append hfront (newline_not_mem_declarationName _ _)) hback
  rw [openingLine]
  cases g.options.exportType with
  | interface =>
    exact ⟨isCode_of_split (w := []) (c := 'e') (hline (by decide) (by decide)) rfl rfl (by decide),
      rfl⟩
  | type =>
    exact ⟨isCode_of_split (w := []) (c := 'e') (hline (by decide) (by decide)) rfl rfl (by decide),
      rfl⟩

theorem isCode_closingLine : IsCode g.closingLine := by
  rw [closingLine]
  cases g.options.exportType with
  | interface => exact isCode_of_split (w := []) (c := '\x7d') (by decide) rfl rfl (by decide)
  | type => exact isCode_of_split (w := []) (c := '\x7d') (by decide) rfl rfl (by decide)

/-- The code of declarations without their comments, in its final layout. -/
theorem codeLines_formatCode {ds es : List Text} (hne : ds ≠ [])
    (h : List.Forall₂ (fun x y => Annotates (solidLines x) (solidLines y) ∧
      ∃ m ms, solidLines y = m :: ms ∧ closesBody m = false) ds es)
    (hds : IsBlock (join ['\n', '\n'] ds)) (hes : IsBlock (join ['\n', '\n'] es)) {now : Text}
    (hnow : '\n' ∉ now) (count : Nat) :
    codeLines (formatCode (fileComment now count ++ join ['\n', '\n'] ds)) =
      solidLines (formatCode (join ['\n', '\n'] es)) := by
  have hjoin : ∀ ps : List Text, solidLines (join ['\n', '\n'] ps) = ps.flatMap solidLines :=
    solidLines_join 1
  have hlines : Annotates (solidLines (join ['\n', '\n'] ds)) (es.flatMap solidLines) := by
    rw [hjoin]
    exact Annotates.flatMap (h.imp fun _ _ hde => hde.1)
  -- The comment on the file stands in front of the first line of the first declaration.
  obtain ⟨m, ms, hfirst, hcloses⟩ :
      ∃ m ms, es.flatMap solidLines = m :: ms ∧ closesBody m = false := by
    cases h with
    | nil => exact absurd rfl hne
    | cons hde _ =>
      obtain ⟨-, m, ms, he, hcloses⟩ := hde
      exact ⟨m, _, by rw [List.flatMap_cons, he]; rfl, hcloses⟩
  rw [codeLines, solidLines_formatCode (hds.fileComment now count), solidLines_formatCode hes]
  refine (Annotates.map_dropEndWhile ?_).filter_joinBodies
  rw [hjoin es]
  rw [hfirst] at hlines ⊢
  exact hlines.commentary hcloses (.fileComment hnow count)

section

variable (hmapper : ∀ d, ∀ e ∈ g.mapper.custom d, '\n' ∉ e.2)
include hmapper

/-- With comments a property is its line without them, with lines of comments in front of it. -/
theorem agrees_property {c : Column} (hname : '\n' ∉ c.name) :
    Report.Agrees (fun x y => Annotates (solidLines x) (solidLines y))
      ((g.withComments true).property c) ((g.withComments false).property c) := by
  rw [property_eq, property_eq]
  refine (Report.Agrees.refl (g.mapper.map c.type g.dialect)).outcome.bind ?_
  rintro ts _ ⟨rfl, hts, -⟩
  obtain ⟨hcode, hcloses⟩ :=
    isCode_propertyLine (g := g) hname (isTypeProperty_newline.of_map hmapper hts)
  refine .ok ?_
  show Annotates (solidLines (c.commentBlock ++ g.propertyLine c ts))
    (solidLines (g.propertyLine c ts))
  rw [hcode.solid]
  exact hcode.annotates.commentary hcloses c.isCommentary_commentBlock

theorem agrees_declaration {t : Table} (ht : '\n' ∉ t.name)
    (hcolumns : ∀ c ∈ t.columns, '\n' ∉ c.name) :
    Report.Agrees (fun x y => Annotates (solidLines x) (solidLines y) ∧
      ∃ m ms, solidLines y = m :: ms ∧ closesBody m = false)
      ((g.withComments true).declaration t) ((g.withComments false).declaration t) := by
  rw [declaration_eq, declaration_eq]
  refine (Report.Agrees.mapM fun c hc => agrees_property hmapper (hcolumns c hc)).bind ?_
  intro ps qs hps
  obtain ⟨hopening, hcloses⟩ := isCode_openingLine (g := g) t
  have hlines : ∀ ps : List Text, solidLines
      (g.openingLine t ++ '\n' :: (join ['\n'] ps ++ '\n' :: g.closingLine)) =
      g.openingLine t :: (ps.flatMap solidLines ++ solidLines g.closingLine) := by
    intro ps
    rw [solidLines_append, hopening.solid, solidLines_append]
    exact congrArg (g.openingLine t :: · ++ _) (solidLines_join 0 ps)
  have hbody : Annotates (ps.flatMap solidLines ++ solidLines g.closingLine)
      (qs.flatMap solidLines ++ solidLines g.closingLine) := by
    refine (Annotates.flatMap hps).append ?_
    rw [isCode_closingLine.solid]
    exact .code isCode_closingLine.code .nil
  refine .ok ⟨?_, ?_⟩
  · show Annotates (solidLines (TableTypes.commentBlock [] t.commentLines ++
      (g.openingLine t ++ '\n' :: (join ['\n'] ps ++ '\n' :: g.closingLine))))
      (solidLines (g.openingLine t ++ '\n' :: (join ['\n'] qs ++ '\n' :: g.closingLine)))
    rw [hlines qs]
    refine Annotates.commentary ?_ hcloses (t.isCommentary_commentBlock ht)
    rw [hlines]
    exact .code hopening.code hbody
  · exact ⟨_, _, hlines qs, hcloses⟩

theorem agrees_generate {tables : List Table} (hne : tables ≠ [])
    (htables : ∀ t ∈ tables, '\n' ∉ t.name ∧ ∀ c ∈ t.columns, '\n' ∉ c.name) {now : Text}
    (hnow : '\n' ∉ now) (now' : Text) :
    Report.Agrees (fun x y => codeLines x = solidLines y)
      ((g.withComments true).generate now tables) ((g.withComments false).generate now' tables) := by
  rw [generate_of_ne_nil now hne, generate_of_ne_nil now' hne]
  refine (Report.Agrees.mapM fun t ht =>
    agrees_declaration hmapper (htables t ht).1 (htables t ht).2).outcome.bind ?_
  rintro ds es ⟨hlines, hd, he⟩
  obtain ⟨hds_ne, hds⟩ := isBlock_join_of_mapM hne hd
  exact .ok (codeLines_formatCode hds_ne hlines hds (isBlock_join_of_mapM hne he).2 hnow _)

/-- **Comments are inert.**  When the lines of comments are taken out of the code that is written
with comments, what is left is the code that is written without them, but for blank lines; and the
warnings and faults are the same. -/
theorem codeLines_generate {tables : List Table} (hne : tables ≠ [])
    (htables : ∀ t ∈ tables, '\n' ∉ t.name ∧ ∀ c ∈ t.columns, '\n' ∉ c.name) {now : Text}
    (hnow : '\n' ∉ now) (now' : Text) :
    ((g.withComments true).generate now tables).warnings =
        ((g.withComments false).generate now' tables).warnings ∧
      ((g.withComments true).generate now tables).outcome.map codeLines =
        ((g.withComments false).generate now' tables).outcome.map solidLines := by
  have hagrees := agrees_generate hmapper hne htables hnow now'
  revert hagrees
  generalize (g.withComments true).generate now tables = r,
    (g.withComments false).generate now' tables = s
  rintro (hcode | _)
  · exact ⟨rfl, congrArg Except.ok hcode⟩
  · exact ⟨rfl, rfl⟩

end

/-- Comments with braces in them and on lines of their own, and a table without columns. -/
theorem codeLines_generate_braces :
    let g : Generator := ⟨.plain, "mysql".toList, .standard⟩
    let tables : List Table :=
      [⟨['t'], [⟨['c'], "INT".toList, false, none, [], some "\x7b\n\x7d".toList⟩], [],
        some "export \x7b".toList⟩, ⟨['u'], [], [], none⟩]
    ((∀ d, ∀ e ∈ g.mapper.custom d, '\n' ∉ e.2) ∧ tables ≠ [] ∧
      (∀ t ∈ tables, '\n' ∉ t.name ∧ ∀ c ∈ t.columns, '\n' ∉ c.name) ∧ '\n' ∉ "now".toList) ∧
      ((g.withComments true).generate "now".toList tables).outcome.map codeLines =
        .ok ["export interface t \x7b".toList, "  c: number;".toList, ['\x7d'],
          "export interface u \x7b\x7d".toList] := by
  intro g tables
  have hmapper : ∀ d, ∀ e ∈ g.mapper.custom d, '\n' ∉ e.2 := fun _ _ h => (nomatch h)
  have htables : ∀ t ∈ tables, '\n' ∉ t.name ∧ ∀ c ∈ t.columns, '\n' ∉ c.name := by decide
  refine ⟨⟨hmapper, List.cons_ne_nil _ _, htables, by decide⟩, ?_⟩
  rw [(codeLines_generate hmapper (List.cons_ne_nil _ _) htables (by decide) []).2]
  decide +kernel

end Generator

end TableTypes
