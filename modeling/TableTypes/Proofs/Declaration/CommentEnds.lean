import TableTypes.Proofs.Declaration.Blocks
import TableTypes.Proofs.Naming
import TableTypes.Proofs.TypeMap.Values
import Mathlib

/-!
# Ends of comments

A comment ends at the first star with a slash behind it.  `commentEnds` counts these in a text.  The
layout of code neither makes nor removes one (`commentEnds_formatCode`), and what is escaped has
none (`commentEnds_escapeComment`), so every comment that is written ends where it is closed, but for the
name of a table, which is written as it is (`Generator.commentEnds_generate`).
-/

namespace TableTypes

open Text

/-! ### Counting -/

/-- The number of ends of comments in the text. -/
def commentEnds : Text → Nat
  | [] => 0
  | c :: t => commentEnds t + if c = '*' ∧ t.head? = some '/' then 1 else 0

/-- A text without the characters that comments end with. -/
def IsNeutral (t : Text) : Prop :=
  '*' ∉ t ∧ '/' ∉ t

instance (t : Text) : Decidable (IsNeutral t) :=
  inferInstanceAs (Decidable (_ ∧ _))

variable {s t x y : Text}

/-- Where two texts meet there is an end of a comment if the star stands in the first and the slash
in the second. -/
theorem commentEnds_append (x y : Text) : commentEnds (x ++ y) = commentEnds x + commentEnds y +
    if x.getLast? = some '*' ∧ y.head? = some '/' then 1 else 0 := by
  induction x with
  | nil => simp [commentEnds]
  | cons c x ih =>
    rw [List.cons_append, commentEnds, commentEnds, ih]
    cases x with
    | nil => simp [commentEnds]
    | cons d x =>
      rw [List.getLast?_cons_cons, List.cons_append, List.head?_cons, List.head?_cons]
      omega

theorem commentEnds_append_of_last (hx : x.getLast? ≠ some '*') (y : Text) :
    commentEnds (x ++ y) = commentEnds x + commentEnds y := by
  rw [commentEnds_append, if_neg fun h => hx h.1, Nat.add_zero]

theorem commentEnds_append_of_head (hy : y.head? ≠ some '/') (x : Text) :
    commentEnds (x ++ y) = commentEnds x + commentEnds y := by
  rw [commentEnds_append, if_neg fun h => hy h.2, Nat.add_zero]

namespace IsNeutral

theorem append (hs : IsNeutral s) (ht : IsNeutral t) : IsNeutral (s ++ t) := by
  rw [IsNeutral, List.mem_append, List.mem_append, not_or, not_or]
  exact ⟨⟨hs.1, ht.1⟩, hs.2, ht.2⟩

theorem of_forall {p : Char → Bool} (hp : p '*' = false ∧ p '/' = false)
    (ht : ∀ c ∈ t, p c = true) : IsNeutral t := by
  constructor
  · exact fun h => Bool.false_ne_true (hp.1.symm.trans (ht _ h))
  · exact fun h => Bool.false_ne_true (hp.2.symm.trans (ht _ h))

theorem of_isBlank (ht : ∀ c ∈ t, isBlank c = true) : IsNeutral t :=
  of_forall (by decide) ht

theorem head? (ht : IsNeutral t) : t.head? ≠ some '/' :=
  fun h => ht.2 (List.mem_of_head? h)

theorem getLast? (ht : IsNeutral t) : t.getLast? ≠ some '*' :=
  fun h => ht.1 (List.mem_of_getLast? h)

theorem commentEnds_eq_zero (ht : IsNeutral t) : commentEnds t = 0 := by
  induction t with
  | nil => rfl
  | cons c t ih =>
    rw [IsNeutral, List.mem_cons, List.mem_cons, not_or, not_or] at ht
    rw [commentEnds, ih ⟨ht.1.2, ht.2.2⟩, if_neg fun h => ht.1.1 h.1.symm]

@[simp] theorem commentEnds_left (hs : IsNeutral s) (y : Text) :
    commentEnds (s ++ y) = commentEnds y := by
  rw [commentEnds_append_of_last hs.getLast?, hs.commentEnds_eq_zero, Nat.zero_add]

theorem commentEnds_right (hs : IsNeutral s) (x : Text) :
    commentEnds (x ++ s) = commentEnds x := by
  rw [commentEnds_append_of_head hs.head?, hs.commentEnds_eq_zero, Nat.add_zero]

/-- A neutral text keeps the texts around it apart. -/
theorem commentEnds_between (hs : IsNeutral s) (hne : s ≠ []) (x y : Text) :
    commentEnds (x ++ (s ++ y)) = commentEnds x + commentEnds y := by
  have hhead : (s ++ y).head? ≠ some '/' := by
    rw [List.head?_append_of_ne_nil s hne]
    exact hs.head?
  rw [commentEnds_append_of_head hhead, hs.commentEnds_left]

theorem commentEnds_join (hs : IsNeutral s) (hne : s ≠ []) (parts : List Text) :
    commentEnds (join s parts) = (parts.map commentEnds).sum := by
  cases parts with
  | nil => rfl
  | cons p parts =>
    rw [join_cons, List.map_cons, List.sum_cons]
    induction parts generalizing p with
    | nil => rw [List.flatMap_nil, List.append_nil]; rfl
    | cons q parts ih =>
      rw [List.flatMap_cons, List.append_assoc, hs.commentEnds_between hne, ih q, List.map_cons,
        List.sum_cons]

end IsNeutral

/-! ### Layout -/

/-- Two texts with as many ends of comments, alone and behind a star. -/
structure SameEnds (t t' : Text) : Prop where
  count : commentEnds t' = commentEnds t
  slash : t'.head? = some '/' ↔ t.head? = some '/'

namespace SameEnds

variable {t' : Text}

theorem cons (h : SameEnds t t') (c : Char) : SameEnds (c :: t) (c :: t') :=
  ⟨by simp only [commentEnds, h.count, h.slash], Iff.rfl⟩

/-- One neutral text in the place of another. -/
theorem append (h : SameEnds t t') (hs : IsNeutral s ∧ s ≠ []) (hx : IsNeutral x ∧ x ≠ []) :
    SameEnds (s ++ t) (x ++ t') := by
  constructor
  · rw [hs.1.commentEnds_left, hx.1.commentEnds_left, h.count]
  · rw [List.head?_append_of_ne_nil s hs.2, List.head?_append_of_ne_nil x hx.2]
    exact iff_of_false hx.1.head? hs.1.head?

/-- What is taken out and what is written for it are neutral. -/
theorem replaceAll {m : Text → Option Text} {new : Text} (hnew : IsNeutral new ∧ new ≠ [])
    (hm : ∀ {t r : Text}, m t = some r → ∃ b, (IsNeutral b ∧ b ≠ []) ∧ t = b ++ r) (t : Text) :
    SameEnds t (replaceAll m new t) := by
  have htakes : TakesPiece m := fun h => by
    obtain ⟨b, hb, hsplit⟩ := hm h
    exact ⟨b, hb.2, hsplit⟩
  refine replaceAll_induction (motive := SameEnds) htakes ⟨rfl, Iff.rfl⟩ ?_ ?_ t
  · exact fun c t t' _ ih => ih.cons c
  · intro b r r' h ih
    obtain ⟨b', hb', hsplit⟩ := hm h
    obtain rfl := List.append_cancel_right hsplit
    exact ih.append hb' hnew

theorem trimLines (t : Text) : SameEnds t (trimLines t) := by
  induction t with
  | nil => exact ⟨rfl, Iff.rfl⟩
  | cons c t ih =>
    rw [trimLines_cons]
    split_ifs with h
    · -- A space or a tab that is left out, with a newline or nothing behind it.
      rw [Bool.and_eq_true] at h
      have hc : IsNeutral [c] :=
        IsNeutral.of_forall (p := isSpacing) (by decide) fun d hd => by
          rw [List.mem_singleton.mp hd, h.1]
      refine ⟨?_, iff_of_false ?_ hc.head?⟩
      · rw [ih.count]
        exact (hc.commentEnds_left t).symm
      · intro hslash
        rw [hslash] at h
        exact absurd h.2 (by decide)
    · exact ih.cons c

end SameEnds

/-- **The layout neither makes an end of a comment nor removes one.** -/
theorem commentEnds_formatCode (code : Text) :
    commentEnds (formatCode code) = commentEnds code := by
  have hblank : ∀ t : Text, SameEnds t (replaceAll blankLines? ['\n', '\n'] t) := by
    refine SameEnds.replaceAll (by decide) fun h => ?_
    obtain ⟨b, hsplit, ⟨hlength, hb⟩, -⟩ := blankLines?_eq_some_iff.mp h
    refine ⟨b, ⟨IsNeutral.of_forall (p := (· = '\n')) (by decide) ?_, ?_⟩, hsplit⟩
    · exact fun c hc => decide_eq_true (hb c hc)
    · rintro rfl
      exact absurd hlength (by decide)
  have hbody : ∀ t : Text, SameEnds t (replaceAll emptyBody? ['\x7b', '\x7d'] t) := by
    refine SameEnds.replaceAll (by decide) fun h => ?_
    obtain ⟨b, hsplit, w, rfl, hw, -⟩ := emptyBody?_eq_some_iff.mp h
    have hneutral : IsNeutral (['\x7b'] ++ (w ++ ['\x7d'])) :=
      IsNeutral.append (by decide) ((IsNeutral.of_isBlank hw).append (by decide))
    exact ⟨_, ⟨hneutral, List.cons_ne_nil _ _⟩, hsplit⟩
  obtain ⟨l, r, hstrip, hl, hr⟩ := strip_split (layout code)
  calc commentEnds (formatCode code)
      = commentEnds (strip (layout code)) := by
        rw [formatCode_eq, IsNeutral.commentEnds_right (by decide)]
    _ = commentEnds (layout code) := by
        conv_rhs => rw [hstrip]
        rw [(IsNeutral.of_isBlank hl).commentEnds_left, (IsNeutral.of_isBlank hr).commentEnds_right]
    _ = commentEnds code :=
        (hbody _).count.trans ((hblank _).count.trans (SameEnds.trimLines code).count)

/-! ### Comments -/

/-- **What is escaped has no end of a comment.** -/
theorem commentEnds_escapeComment (t : Text) : commentEnds (escapeComment t) = 0 := by
  have hescaped : ∀ t : Text, commentEnds (replace "*/".toList "*\\/".toList t) = 0 ∧
      ((replace "*/".toList "*\\/".toList t).head? = some '/' → t.head? = some '/') := by
    refine replaceAll_induction (motive := fun t t' =>
      commentEnds t' = 0 ∧ (t'.head? = some '/' → t.head? = some '/'))
      (takesPiece_after? (List.cons_ne_nil _ _)) ⟨rfl, id⟩ ?_ ?_
    · intro c t t' hnone ih
      refine ⟨?_, id⟩
      rw [commentEnds, ih.1, if_neg]
      -- A star with a slash behind it would have been replaced.
      rintro ⟨rfl, hslash⟩
      obtain ⟨u, rfl⟩ := List.head?_eq_some_iff.mp (ih.2 hslash)
      cases hnone
    · intro b r r' _ ih
      refine ⟨?_, fun h => ?_⟩
      · rw [commentEnds_append_of_last (by decide), ih.1]
        rfl
      · exact absurd h (by simp)
  rw [escapeComment, replace]
  refine (SameEnds.replaceAll (by decide) (fun h => ?_) _).count.trans (hescaped t).1
  exact ⟨['\n'], by decide, after?_eq_some_iff.mp h⟩

/-- A block has its own end and those in its lines. -/
theorem commentEnds_commentBlock {indent : Text} (hindent : IsNeutral indent)
    (lines : List Text) : commentEnds (commentBlock indent lines) =
      (lines.map commentEnds).sum + 1 := by
  have hnewline : IsNeutral ['\n'] ∧ ['\n'] ≠ [] := by decide
  have hline : ∀ l : Text, commentEnds (indent ++ " * ".toList ++ l) = commentEnds l := by
    intro l
    rw [List.append_assoc, hindent.commentEnds_left]
    exact (IsNeutral.commentEnds_between (s := [' ']) (by decide) (by decide) " *".toList l).trans
      (Nat.zero_add _)
  have hend : commentEnds (indent ++ " */\n".toList) = 1 := hindent.commentEnds_left _
  have hblock : commentBlock indent lines = indent ++ ("/**".toList ++ (['\n'] ++
      (join ['\n'] (lines.map fun l => indent ++ " * ".toList ++ l) ++
        (['\n'] ++ (indent ++ " */\n".toList))))) := by
    simp only [commentBlock, List.append_assoc]
    rfl
  rw [hblock, hindent.commentEnds_left, hnewline.1.commentEnds_between hnewline.2,
    hnewline.1.commentEnds_between hnewline.2, hnewline.1.commentEnds_join hnewline.2, hend,
    List.map_map, Function.comp_def, funext hline]
  exact Nat.zero_add _

theorem isNeutral_ofNat (n : Nat) : IsNeutral (ofNat n) :=
  IsNeutral.of_forall (p := Char.isDigit) (by decide) fun _ hc =>
    Nat.isDigit_of_mem_toDigits (by decide) (by decide) hc

/-- **No line of the comment on a column has an end of a comment.** -/
theorem Column.commentEnds_commentLines (c : Column) : ∀ l ∈ c.commentLines, commentEnds l = 0 := by
  have hconstraints : commentEnds
      ("Constraints: ".toList ++ join ", ".toList (c.constraints.map (·.kind.name))) = 0 := by
    have hkind : ∀ k : ColumnConstraintKind, commentEnds k.name = 0 := by
      intro k
      cases k <;> decide
    rw [IsNeutral.commentEnds_left (by decide), IsNeutral.commentEnds_join (by decide) (by decide),
      List.map_map, List.sum_eq_zero_iff_forall_eq_nat]
    intro n hn
    obtain ⟨k, -, rfl⟩ := List.mem_map.mp hn
    exact hkind k.kind
  intro l hl
  rw [commentLines, List.mem_append, List.mem_append] at hl
  rcases hl with (hl | hl) | hl
  · split_ifs at hl
    · cases hl
    · rw [List.mem_singleton.mp hl, commentEnds_escapeComment]
  · split_ifs at hl
    · cases hl
    · rw [List.mem_singleton.mp hl, hconstraints]
  · rw [List.mem_singleton.mp hl, commentEnds_escapeComment]

/-- The comment on a table has the ends that its name has. -/
theorem Table.commentEnds_commentLines (t : Table) :
    (t.commentLines.map commentEnds).sum = commentEnds t.name := by
  have hname : commentEnds ("TypeScript interface for the '".toList ++ t.name ++
      "' table".toList) = commentEnds t.name := by
    rw [IsNeutral.commentEnds_right (by decide), IsNeutral.commentEnds_left (by decide)]
  have hcount : commentEnds ("Generated from SQL schema with ".toList ++ ofNat t.columns.length ++
      (if t.columns.length = 1 then " field".toList else " fields".toList)) = 0 := by
    have hunit : IsNeutral
        (if t.columns.length = 1 then " field".toList else " fields".toList) := by
      split_ifs <;> decide
    rw [hunit.commentEnds_right, IsNeutral.commentEnds_left (by decide),
      (isNeutral_ofNat _).commentEnds_eq_zero]
  rw [commentLines]
  split <;> simp only [List.map_append, List.map_cons, List.map_nil, List.sum_append, List.sum_cons,
    List.sum_nil, hname, hcount, commentEnds_escapeComment, Nat.add_zero]

/-! ### Declarations -/

/-- Whether there is a comment that is not empty. -/
def Column.isCommented (c : Column) : Bool :=
  c.comment.any (!·.isEmpty)

/-- The number of comments that are written for tables: one at the head of the file, one for each
table, and one for each column that has a comment. -/
def commentCount (tables : List Table) : Nat :=
  1 + tables.length + (tables.map fun t => t.columns.countP (·.isCommented)).sum

theorem isNeutral_declarationName (o : GeneratorOptions) (name : Text) :
    IsNeutral (o.declarationName name) :=
  IsNeutral.of_forall (p := isIdentifierChar) (by decide) fun _ hc =>
    isIdentifierChar_of_mem_toIdentifier hc

theorem isNeutral_propertyName (o : GeneratorOptions) {name : Text}
    (hname : isPlainName name = true) : IsNeutral (o.propertyName name) := by
  have hneutral : IsNeutral name :=
    IsNeutral.of_forall (p := fun c => isIdentifierChar c || c = '\n') (by decide) fun c hc => by
      rw [Bool.or_eq_true, decide_eq_true_eq]
      exact isIdentifierChar_of_isPlainName hname hc
  exact ⟨not_mem_propertyName (by decide) hneutral.1 o,
    not_mem_propertyName (by decide) hneutral.2 o⟩

theorem Column.commentEnds_commentBlock (c : Column) :
    commentEnds c.commentBlock = if c.isCommented then 1 else 0 := by
  have hlines : (c.commentLines.map commentEnds).sum = 0 := by
    rw [List.sum_eq_zero_iff_forall_eq_nat]
    intro n hn
    obtain ⟨l, hl, rfl⟩ := List.mem_map.mp hn
    exact c.commentEnds_commentLines l hl
  rw [Column.commentBlock, isCommented]
  split
  · rename_i h
    rw [h]
    rfl
  · rename_i h
    rw [h]
    rfl
  · rename_i comment hne h
    rw [TableTypes.commentEnds_commentBlock (by decide), hlines, h]
    cases comment with
    | nil => exact absurd rfl hne
    | cons d u => rfl

theorem sum_map_ite {α : Type} (p : α → Bool) (l : List α) :
    (l.map fun a => if p a then 1 else 0).sum = l.countP p := by
  induction l with
  | nil => rfl
  | cons a l ih => rw [List.map_cons, List.sum_cons, List.countP_cons, ih, Nat.add_comm]

/-- The comment at the head has the ends that the time of writing has, and its own. -/
theorem commentEnds_fileComment {now : Text} (hnow : commentEnds now = 0) (count : Nat) :
    commentEnds (fileComment now count) = 1 := by
  have hmiddle : commentEnds "\n * Total interfaces: ".toList = 0 := by decide +kernel
  have hend : commentEnds
      "\n *\n * @warning This file is auto-generated. Do not edit manually.\n */\n\n".toList = 1 := by
    decide +kernel
  unfold fileComment
  rw [commentEnds_append_of_head (by decide +kernel), hend,
    (isNeutral_ofNat count).commentEnds_right, commentEnds_append_of_head (by decide +kernel),
    hmiddle, commentEnds_append_of_last (by decide +kernel), hnow]
  decide +kernel

theorem getLast?_fileComment (now : Text) (count : Nat) :
    (fileComment now count).getLast? ≠ some '*' := by
  unfold fileComment
  rw [List.getLast?_append_of_ne_nil _ (by decide +kernel)]
  decide +kernel

theorem isTypeProperty_commentEnds : IsTypeProperty fun t => commentEnds t = 0 where
  builtin := by
    intro d
    cases d <;> decide +kernel
  any := rfl
  array := fun t ht => by rw [IsNeutral.commentEnds_right (by decide), ht]

namespace Generator

variable {g : Generator}

theorem commentEnds_propertyLine {c : Column} (hname : isPlainName c.name = true) {ts : Text}
    (hts : commentEnds ts = 0) : commentEnds (g.propertyLine c ts) = 0 := by
  have hoptional : IsNeutral (if g.options.isOptional c then ['?'] else []) := by
    split_ifs <;> decide
  have hnull : IsNeutral
      (if c.nullable && !g.options.isOptional c then " | null".toList else []) := by
    split_ifs <;> decide
  have hfront : IsNeutral ("  ".toList ++ g.options.propertyName c.name ++
      (if g.options.isOptional c then ['?'] else []) ++ ": ".toList) :=
    ((IsNeutral.append (by decide) (isNeutral_propertyName _ hname)).append hoptional).append
      (by decide)
  rw [propertyLine, IsNeutral.commentEnds_right (by decide), hnull.commentEnds_right,
    hfront.commentEnds_left, hts]

theorem isNeutral_openingLine (t : Table) : IsNeutral (g.openingLine t) := by
  have hname := isNeutral_declarationName g.options t.name
  rw [openingLine]
  split
  · exact (IsNeutral.append (by decide) hname).append (by decide)
  · exact (IsNeutral.append (by decide) hname).append (by decide)

theorem isNeutral_closingLine : IsNeutral g.closingLine := by
  rw [closingLine]
  split <;> decide

section

variable (hcomments : g.options.includeComments = true)
  (hmapper : ∀ d, ∀ e ∈ g.mapper.custom d, commentEnds e.2 = 0)
include hcomments hmapper

theorem commentEnds_property {c : Column} (hname : isPlainName c.name = true) {p : Text}
    (h : (g.property c).outcome = .ok p) :
    commentEnds p = if c.isCommented then 1 else 0 := by
  rw [property_eq, hcomments] at h
  obtain ⟨ts, hts, h⟩ := Report.bind_eq_ok h
  obtain rfl := Except.ok.inj h
  have hhead : (g.propertyLine c ts).head? = some ' ' := rfl
  rw [if_pos rfl, commentEnds_append_of_head (by rw [hhead]; decide), c.commentEnds_commentBlock,
    commentEnds_propertyLine hname (isTypeProperty_commentEnds.of_map hmapper hts), Nat.add_zero]

/-- Everything in a declaration but the comments is neutral. -/
theorem commentEnds_declaration {t : Table}
    (hcolumns : ∀ c ∈ t.columns, isPlainName c.name = true) {d : Text}
    (h : (g.declaration t).outcome = .ok d) :
    commentEnds d = commentEnds t.name + 1 + t.columns.countP (·.isCommented) := by
  rw [declaration_eq, hcomments] at h
  obtain ⟨ps, hps, h⟩ := Report.bind_eq_ok h
  obtain rfl := Except.ok.inj h
  have hproperties : commentEnds (join ['\n'] ps) = t.columns.countP (·.isCommented) := by
    have hcounts := Report.map_eq_of_mapM hps fun c hc p hp =>
      commentEnds_property hcomments hmapper (hcolumns c hc) hp
    rw [IsNeutral.commentEnds_join (by decide) (by decide), hcounts, sum_map_ite]
  have hopening : IsNeutral (g.openingLine t ++ ['\n']) :=
    (isNeutral_openingLine t).append (by decide)
  have hclosing : IsNeutral ('\n' :: g.closingLine) :=
    IsNeutral.append (s := ['\n']) (by decide) isNeutral_closingLine
  rw [if_pos rfl, List.append_cons (g.openingLine t), hopening.commentEnds_between (by simp),
    hclosing.commentEnds_right, hproperties, commentEnds_commentBlock (by decide),
    t.commentEnds_commentLines]

/-- There are as many ends of comments as there are comments and ends in the names of the tables. -/
theorem commentEnds_of_generate {tables : List Table} (hne : tables ≠ [])
    (hcolumns : ∀ t ∈ tables, ∀ c ∈ t.columns, isPlainName c.name = true) {now : Text}
    (hnow : commentEnds now = 0) {code : Text} (h : (g.generate now tables).outcome = .ok code) :
    commentEnds code = commentCount tables + (tables.map fun t => commentEnds t.name).sum := by
  rw [generate_of_ne_nil now hne, hcomments, if_pos rfl] at h
  obtain ⟨ds, hds, h⟩ := Report.bind_eq_ok h
  obtain rfl := Except.ok.inj h
  have hdeclarations := Report.map_eq_of_mapM hds fun t ht d hd =>
    commentEnds_declaration hcomments hmapper (hcolumns t ht) hd
  have hblank : IsNeutral ['\n', '\n'] ∧ ['\n', '\n'] ≠ [] := by decide
  rw [commentEnds_formatCode, commentEnds_append_of_last (getLast?_fileComment now _),
    commentEnds_fileComment hnow, hblank.1.commentEnds_join hblank.2, hdeclarations,
    List.sum_map_add, List.sum_map_add, List.map_const', List.sum_replicate_nat, commentCount]
  omega

/-- **Every comment ends where it is closed, but for the names of the tables.**  There are as many
ends of comments as there are comments and ends in the names, and so as many as there are comments
only if no name has one. -/
theorem commentEnds_generate {tables : List Table} (hne : tables ≠ [])
    (hcolumns : ∀ t ∈ tables, ∀ c ∈ t.columns, isPlainName c.name = true) {now : Text}
    (hnow : commentEnds now = 0) {code : Text} (h : (g.generate now tables).outcome = .ok code) :
    commentEnds code = commentCount tables + (tables.map fun t => commentEnds t.name).sum ∧
      (commentEnds code = commentCount tables ↔ ∀ t ∈ tables, commentEnds t.name = 0) := by
  have hcount := commentEnds_of_generate hcomments hmapper hne hcolumns hnow h
  refine ⟨hcount, ?_⟩
  rw [hcount, Nat.add_eq_left, List.sum_eq_zero_iff_forall_eq_nat, List.forall_mem_map]

end

/-- Ends of comments in the comments and in a default value. -/
theorem commentEnds_generate_escaped :
    let g : Generator := ⟨.plain, "mysql".toList, .standard⟩
    let tables : List Table := [⟨['t'], [⟨['c'], "INT".toList, false, some "*/".toList, [],
      some "no */ end".toList⟩], [], some "*/".toList⟩]
    (g.options.includeComments = true ∧ (∀ d, ∀ e ∈ g.mapper.custom d, commentEnds e.2 = 0) ∧
      tables ≠ [] ∧ (∀ t ∈ tables, ∀ c ∈ t.columns, isPlainName c.name = true) ∧
      commentEnds "2024-01-02T03:04:05".toList = 0) ∧
      ∃ code, (g.generate "2024-01-02T03:04:05".toList tables).outcome = .ok code ∧
        commentEnds code = 3 := by
  intro g tables
  have hmapper : ∀ d, ∀ e ∈ g.mapper.custom d, commentEnds e.2 = 0 := fun _ _ h => nomatch h
  have hcolumns : ∀ t ∈ tables, ∀ c ∈ t.columns, isPlainName c.name = true := by decide
  have hnow : commentEnds "2024-01-02T03:04:05".toList = 0 := by decide +kernel
  refine ⟨⟨rfl, hmapper, List.cons_ne_nil _ _, hcolumns, hnow⟩, ?_⟩
  obtain ⟨code, hcode⟩ :
      ∃ code, (g.generate "2024-01-02T03:04:05".toList tables).outcome = .ok code := ⟨_, rfl⟩
  exact ⟨code, hcode,
    (commentEnds_generate rfl hmapper (List.cons_ne_nil _ _) hcolumns hnow hcode).1⟩

/-- The name of a table closes the comment on the table. -/
theorem commentEnds_generate_tableName :
    let g : Generator := ⟨.plain, "mysql".toList, .standard⟩
    let tables : List Table := [⟨"a*/b".toList, [], [], none⟩]
    (∀ d, ∀ e ∈ g.mapper.custom d, commentEnds e.2 = 0) ∧ commentCount tables = 2 ∧
      ∃ code, (g.generate "2024-01-02T03:04:05".toList tables).outcome = .ok code ∧
        commentEnds code = 3 := by
  intro g tables
  have hmapper : ∀ d, ∀ e ∈ g.mapper.custom d, commentEnds e.2 = 0 := fun _ _ h => nomatch h
  obtain ⟨code, hcode⟩ :
      ∃ code, (g.generate "2024-01-02T03:04:05".toList tables).outcome = .ok code := ⟨_, rfl⟩
  exact ⟨hmapper, rfl, code, hcode, commentEnds_of_generate rfl hmapper (List.cons_ne_nil _ _)
    (by decide) (by decide +kernel) hcode⟩

end Generator

end TableTypes
