import TableTypes.Proofs.Column.SpelledReference
import TableTypes.Proofs.TableConstraints.FirstParen

/-!
# Foreign keys with spelled names

`CONSTRAINT n FOREIGN KEY (x) REFERENCES t (c₁, …, cₙ)` is read as the one constraint that it
declares, all names without their quotes (`tableConstraints_foreignKeyText`).  So a foreign key of
the table is read alike in all spellings, and a reference of a column only if the columns that it
refers to are written bare (`spelledReference_iff`).
-/

namespace TableTypes

open Text

variable {α : Type} {read : Text → Option (α × Text)}

/-! ### Passing over spelled names -/

section

variable (hread : Opens constraintWords read) {s u : Text}

include hread

theorem Text.Opens.quiet_masked (n : SpelledName) (hu : Quiet read s u) :
    Quiet read s (n.masked ++ u) := by
  have hquoted : ∀ q : Quote,
      Quiet read s (q.enclose (List.replicate n.word.text.length ' ') ++ u) :=
    fun q => hread.quiet_enclose_blank q _ hu
  obtain ⟨b, sp⟩ := n
  cases sp with
  | bare =>
    show Quiet read s (Spelling.bare.write b.text ++ u)
    rw [Spelling.write_bare]
    exact Quiet.append (Quiet.of_word b.forall_word) hu
  | backticks => exact hquoted .backtick
  | doubleQuotes => exact hquoted .double

/-- Behind a space the reader is asked in vain for a name. -/
theorem Text.Opens.quiet_space_masked (n : SpelledName) (hend : atWordEnd (u ++ s) = true)
    (hu : Quiet read s u) : Quiet read s (' ' :: (n.masked ++ u)) := by
  have hquiet := hread.quiet_masked n hu
  obtain ⟨b, sp⟩ := n
  cases sp with
  | bare =>
    have hfree : b.text.map Char.toLower ∉ constraintWords :=
      fun h => b.free ((by decide : constraintWords ⊆ constraintKeywords) h)
    show Quiet read s (' ' :: (Spelling.bare.write b.text ++ u))
    rw [Spelling.write_bare]
    exact hread.quiet_word b.ne_nil b.forall_word hfree hend hu
  | backticks => exact hread.quiet_nonword rfl rfl hquiet
  | doubleQuotes => exact hread.quiet_nonword rfl rfl hquiet

/-- A list of names is quiet up to its parenthesis. -/
theorem Text.Opens.quiet_names (n : SpelledName) (ns : List SpelledName)
    (hu : Quiet read s (')' :: u)) :
    Quiet read s (namesText SpelledName.masked (n :: ns) ++ ')' :: u) := by
  -- What stands behind the first name is quiet and ends a word.
  have hrest : ∀ (m : SpelledName) (ms : List SpelledName), ∃ v,
      namesText SpelledName.masked (m :: ms) ++ ')' :: u = m.masked ++ v ∧
        atWordEnd (v ++ s) = true ∧ Quiet read s v := by
    intro m ms
    induction ms generalizing m with
    | nil =>
      refine ⟨')' :: u, ?_, rfl, hu⟩
      rw [namesText_singleton]
    | cons k ms ih =>
      obtain ⟨v, hv, hend, hquiet⟩ := ih k
      refine ⟨',' :: ' ' :: (k.masked ++ v), ?_, rfl,
        Quiet.comma (hread.quiet_space_masked k hend hquiet)⟩
      rw [namesText_cons_cons, ← hv, List.append_assoc]
      rfl
  obtain ⟨v, hv, -, hquiet⟩ := hrest n ns
  rw [hv]
  exact hread.quiet_masked n hquiet

end

/-! ### Foreign keys as they are written -/

section

variable (n x t c : SpelledName) (cs : List SpelledName)

/-- The list of columns that the key refers to, each name as `write` has it. -/
def foreignKeyTargets (write : SpelledName → Text) (cs : List SpelledName) : Text :=
  [' ', '('] ++ (namesText write cs ++ ([')'] ++ []))

/-- `REFERENCES table (columns)` with the space in front of it. -/
def foreignKeyTail (write : SpelledName → Text) (t : SpelledName) (cs : List SpelledName) : Text :=
  " REFERENCES ".toList ++ (write t ++ foreignKeyTargets write cs)

/-- `FOREIGN KEY (column)` and what the key refers to. -/
def foreignKeyBody (write : SpelledName → Text) (x t : SpelledName) (cs : List SpelledName) :
    Text :=
  "FOREIGN KEY".toList ++ ([' ', '('] ++ (write x ++ ([')'] ++ foreignKeyTail write t cs)))

/-- The foreign key with its label. -/
def foreignKeyText (write : SpelledName → Text) (n x t : SpelledName) (cs : List SpelledName) :
    Text :=
  "CONSTRAINT ".toList ++ (write n ++ ([' '] ++ foreignKeyBody write x t cs))

theorem maskQuoted_foreignKeyTargets : maskQuoted (foreignKeyTargets SpelledName.text (c :: cs)) =
    foreignKeyTargets SpelledName.masked (c :: cs) := by
  have hclose : maskQuoted ([')'] ++ []) = [')'] ++ [] := maskQuoted_plain rfl
  unfold foreignKeyTargets
  rw [maskQuoted_plain_append _ rfl, maskQuoted_names_append, hclose]

theorem maskQuoted_foreignKeyTail : maskQuoted (foreignKeyTail SpelledName.text t (c :: cs)) =
    foreignKeyTail SpelledName.masked t (c :: cs) := by
  unfold foreignKeyTail
  rw [maskQuoted_plain_append _ rfl, t.maskQuoted_append, maskQuoted_foreignKeyTargets]

theorem maskQuoted_foreignKeyBody : maskQuoted (foreignKeyBody SpelledName.text x t (c :: cs)) =
    foreignKeyBody SpelledName.masked x t (c :: cs) := by
  unfold foreignKeyBody
  rw [maskQuoted_plain_append _ rfl, maskQuoted_plain_append _ rfl, x.maskQuoted_append,
    maskQuoted_plain_append _ rfl, maskQuoted_foreignKeyTail]

theorem maskQuoted_foreignKeyText : maskQuoted (foreignKeyText SpelledName.text n x t (c :: cs)) =
    foreignKeyText SpelledName.masked n x t (c :: cs) := by
  unfold foreignKeyText
  rw [maskQuoted_plain_append _ rfl, n.maskQuoted_append, maskQuoted_plain_append _ rfl,
    maskQuoted_foreignKeyBody]

/-- There is no comment in a foreign key. -/
theorem maskComments_foreignKeyText :
    maskComments (foreignKeyText SpelledName.text n x t (c :: cs)) =
      foreignKeyText SpelledName.text n x t (c :: cs) := by
  have hclose : maskComments ([')'] ++ []) = [')'] ++ [] := maskComments_plain rfl
  have htail : maskComments (foreignKeyTail SpelledName.text t (c :: cs)) =
      foreignKeyTail SpelledName.text t (c :: cs) := by
    unfold foreignKeyTail foreignKeyTargets
    rw [maskComments_plain_append _ rfl, t.maskComments_append, maskComments_plain_append _ rfl,
      maskComments_names_append, hclose]
  have hbody : maskComments (foreignKeyBody SpelledName.text x t (c :: cs)) =
      foreignKeyBody SpelledName.text x t (c :: cs) := by
    unfold foreignKeyBody
    rw [maskComments_plain_append _ rfl, maskComments_plain_append _ rfl, x.maskComments_append,
      maskComments_plain_append _ rfl, htail]
  unfold foreignKeyText
  rw [maskComments_plain_append _ rfl, n.maskComments_append,
    maskComments_plain_append _ rfl, hbody]

/-! ### The foreign key -/

/-- The parts of the key, as its reader finds them. -/
def foreignKeySpan (n x t : SpelledName) (cs : List SpelledName) : ConstraintSpan where
  columns := (x.masked ++ ')' :: foreignKeyTail SpelledName.masked t cs,
    ')' :: foreignKeyTail SpelledName.masked t cs)
  reference := some ((t.masked ++ foreignKeyTargets SpelledName.masked cs,
      foreignKeyTargets SpelledName.masked cs),
    (namesText SpelledName.masked cs ++ [')'], [')']))
  name := some (n.masked ++ ([' '] ++ foreignKeyBody SpelledName.masked x t cs),
    [' '] ++ foreignKeyBody SpelledName.masked x t cs)

theorem quotedName?_masked {z : Text} (hz : atWordEnd z = true) :
    quotedName? (n.masked ++ z) = some ((n.masked ++ z, z), z) := by
  have hread : NameSpan.read? (n.masked ++ z) = some (n.spelling.span n.filler z) :=
    n.encloses_filler.read?_write hz
  rw [quotedName?, hread]
  rfl

theorem constraintLabel_foreignKeyText :
    constraintLabel (foreignKeyText SpelledName.masked n x t cs) =
      ((foreignKeySpan n x t cs).name, foreignKeyBody SpelledName.masked x t cs) := by
  have hword : (keyword? "constraint".toList (foreignKeyText SpelledName.masked n x t cs)).bind
      dropBlanks1? = some (n.masked ++ ([' '] ++ foreignKeyBody SpelledName.masked x t cs)) :=
    congrArg some (n.encloses_filler.dropBlanks_write _)
  rw [constraintLabel, hword, Option.bind_eq_bind, Option.bind_some, quotedName?_masked n rfl]
  rfl

/-- **The reader takes the key as a whole.** -/
theorem foreignKeySpan?_foreignKeyText :
    foreignKeySpan? (foreignKeyText SpelledName.masked n x t (c :: cs)) =
      some (foreignKeySpan n x t (c :: cs), []) := by
  have hcolumn : ')' ∉ x.masked := x.not_mem_masked (by decide) (by decide) (by decide)
  have hcolumns := columnList?_paren x.masked_ne_nil hcolumn
    (foreignKeyTail SpelledName.masked t (c :: cs))
  have htargets := columnList?_paren (namesText_ne_nil c cs _ c.masked_ne_nil)
    (close_not_mem_namesText (c :: cs)) []
  have hword : (keyword? "references".toList
      (dropBlanks (foreignKeyTail SpelledName.masked t (c :: cs)))).bind dropBlanks1? =
        some (t.masked ++ foreignKeyTargets SpelledName.masked (c :: cs)) :=
    congrArg some (t.encloses_filler.dropBlanks_write _)
  rw [foreignKeySpan?_of_label (constraintLabel_foreignKeyText n x t (c :: cs))]
  show (columnList? ([' ', '('] ++ (x.masked ++ ([')'] ++
    foreignKeyTail SpelledName.masked t (c :: cs))))).bind _ = _
  rw [hcolumns, Option.bind_some]
  show ((keyword? "references".toList (dropBlanks _)).bind dropBlanks1?).bind _ = _
  rw [hword, Option.bind_some, quotedName?_masked t rfl, Option.bind_some]
  show (columnList? ([' ', '('] ++ (namesText SpelledName.masked (c :: cs) ++ ([')'] ++ [])))).bind
    _ = _
  rw [htargets]
  rfl

/-- The constraint that the key declares. -/
def foreignKey (n x t : SpelledName) (cs : List SpelledName) : TableConstraint where
  kind := .foreignKey
  columns := [x.word.text]
  reference := some ⟨t.word.text, cs.map (·.word.text)⟩
  name := some n.word.text

theorem between_name : between (foreignKeyText SpelledName.text n x t (c :: cs))
    (n.masked ++ ([' '] ++ foreignKeyBody SpelledName.masked x t (c :: cs)))
      ([' '] ++ foreignKeyBody SpelledName.masked x t (c :: cs)) = n.text := by
  refine between_like "CONSTRAINT ".toList n.length_masked ?_
  rw [List.length_append, List.length_append, ← maskQuoted_foreignKeyBody, length_maskQuoted]

theorem between_column : between (foreignKeyText SpelledName.text n x t (c :: cs))
    (x.masked ++ ')' :: foreignKeyTail SpelledName.masked t (c :: cs))
      (')' :: foreignKeyTail SpelledName.masked t (c :: cs)) = x.text := by
  have hsplit : foreignKeyText SpelledName.text n x t (c :: cs) =
      ("CONSTRAINT ".toList ++ (n.text ++ " FOREIGN KEY (".toList)) ++
        (x.text ++ ')' :: foreignKeyTail SpelledName.text t (c :: cs)) := by
    simp only [List.append_assoc]
    rfl
  rw [hsplit]
  refine between_like _ x.length_masked ?_
  rw [List.length_cons, List.length_cons, ← maskQuoted_foreignKeyTail, length_maskQuoted]

theorem between_table : between (foreignKeyText SpelledName.text n x t (c :: cs))
    (t.masked ++ foreignKeyTargets SpelledName.masked (c :: cs))
      (foreignKeyTargets SpelledName.masked (c :: cs)) = t.text := by
  have hsplit : foreignKeyText SpelledName.text n x t (c :: cs) =
      ("CONSTRAINT ".toList ++ (n.text ++ (" FOREIGN KEY (".toList ++ (x.text ++
        ") REFERENCES ".toList)))) ++
          (t.text ++ foreignKeyTargets SpelledName.text (c :: cs)) := by
    simp only [List.append_assoc]
    rfl
  rw [hsplit]
  refine between_like _ t.length_masked ?_
  rw [← maskQuoted_foreignKeyTargets, length_maskQuoted]

theorem between_targets : between (foreignKeyText SpelledName.text n x t (c :: cs))
    (namesText SpelledName.masked (c :: cs) ++ [')']) [')'] =
      namesText SpelledName.text (c :: cs) := by
  have hsplit : foreignKeyText SpelledName.text n x t (c :: cs) =
      ("CONSTRAINT ".toList ++ (n.text ++ (" FOREIGN KEY (".toList ++ (x.text ++
        (") REFERENCES ".toList ++ (t.text ++ [' ', '('])))))) ++
          (namesText SpelledName.text (c :: cs) ++ [')']) := by
    simp only [List.append_assoc]
    rfl
  rw [hsplit]
  exact between_like _ (length_namesText c cs) rfl

/-- **What the reader finds is cut out as the key**, all names without their quotes. -/
theorem constraint?_foreignKeySpan :
    (foreignKeySpan n x t (c :: cs)).constraint? .foreignKey
      (foreignKeyText SpelledName.text n x t (c :: cs)) = some (foreignKey n x t (c :: cs)) := by
  have hsingle : identifierList x.text = [x.word.text] := by
    have h := identifierList_namesText x []
    rwa [namesText_singleton] at h
  unfold foreignKeySpan
  rw [ConstraintSpan.constraint?]
  simp only [between_name, between_column, between_table, between_targets, hsingle,
    identifierList_namesText, Option.map_some, n.isListedAs.first, t.isListedAs.first]
  rfl

/-! ### The other kinds -/

/-- A reader that takes neither the key nor the key without its label finds nothing. -/
theorem TableReader.constraintSpans_foreignKeyText (hread : TableReader read)
    (htakes : ∀ {t r : Text} {a : α}, read t = some (a, r) → TakesList t r)
    (hstart : read (foreignKeyText SpelledName.masked n x t (c :: cs)) = none)
    (hforeign : ∀ z : Text, read ("FOREIGN KEY (".toList ++ z) = none) :
    constraintSpans read (foreignKeyText SpelledName.masked n x t (c :: cs)) = [] := by
  have hclose : ∀ {u : Text}, Quiet read [] u → Quiet read [] (')' :: u) :=
    fun hu => ⟨fun h => absurd h (by decide), hu⟩
  have hopen : ∀ {u : Text}, Quiet read [] u → Quiet read [] ([' ', '('] ++ u) :=
    fun hu => hread.opens.quiet_nonword rfl rfl ⟨fun h => absurd h (by decide), hu⟩
  have htargets := hopen (hread.opens.quiet_names c cs (hclose (u := []) trivial))
  have htail : Quiet read [] (foreignKeyTail SpelledName.masked t (c :: cs)) :=
    hread.opens.quiet_upper (w := "REFERENCES".toList) (by decide) rfl (by decide)
      rfl (hread.opens.quiet_space_masked t rfl htargets)
  have hcolumn := hopen (hread.opens.quiet_masked x (hclose htail))
  have hkey : ∀ {u : Text}, Quiet read [] ([' ', '('] ++ u) →
      Quiet read [] (' ' :: ("KEY".toList ++ ([' ', '('] ++ u))) :=
    fun hu => Quiet.space rfl (hread.key_list _) (Quiet.upper rfl hu)
  have hbody : Quiet read [] (' ' :: foreignKeyBody SpelledName.masked x t (c :: cs)) :=
    Quiet.space rfl (hforeign _) (Quiet.upper (w := "FOREIGN".toList) rfl (hkey hcolumn))
  have hlabel : Quiet read [] (foreignKeyText SpelledName.masked n x t (c :: cs)) :=
    Quiet.upper (w := "CONSTRAINT".toList) rfl (hread.opens.quiet_space_masked n rfl hbody)
  have hquiet : Quiet read [] (',' :: foreignKeyText SpelledName.masked n x t (c :: cs)) :=
    ⟨fun _ => by rw [List.append_nil]; exact hstart, hlabel⟩
  have hpass := findAfter_pass hquiet
  rw [List.append_nil] at hpass
  rw [constraintSpans_eq_findAfter htakes (read_nil_of_takesList htakes), hpass]
  rfl

/-- **The key is the only constraint, all names without their quotes.** -/
theorem tableConstraints_foreignKeyText :
    tableConstraints (foreignKeyText SpelledName.text n x t (c :: cs)) =
      [foreignKey n x t (c :: cs)] := by
  have hlabel := constraintLabel_foreignKeyText n x t (c :: cs)
  have hprimaryKey := tableReader_primaryKey.constraintSpans_foreignKeyText n x t c cs
    (fun h => (takes_of_primaryKeySpan? h).list)
    (by rw [primaryKeySpan?_of_label hlabel]; rfl) (fun _ => rfl)
  have hunique := tableReader_unique.constraintSpans_foreignKeyText n x t c cs
    (fun h => (takes_of_uniqueSpan? h).list)
    (by rw [uniqueSpan?_of_label hlabel]; rfl) (fun _ => rfl)
  have hindex := tableReader_index.constraintSpans_foreignKeyText n x t c cs
    (fun h => (takes_of_indexSpan? h).list) rfl (fun _ => rfl)
  have hforeignKey : constraintSpans foreignKeySpan?
      (foreignKeyText SpelledName.masked n x t (c :: cs)) = [foreignKeySpan n x t (c :: cs)] :=
    constraintSpans_of_read (fun h => (takes_of_foreignKeySpan? h).list) rfl
      (foreignKeySpan?_foreignKeyText n x t c cs)
  rw [tableConstraints]
  simp only [maskComments_foreignKeyText, maskQuoted_foreignKeyText, hprimaryKey, hforeignKey,
    hunique, hindex, List.filterMap_nil, List.filterMap_cons, constraint?_foreignKeySpan,
    List.filter_nil]
  rfl

end

/-! ### Both kinds of references -/

/-- **The spelling of names does not matter to a foreign key of the table**, which is read with all
names unquoted.  A column with a reference is read with its name and the name of the table unquoted,
but the columns that it refers to are kept as they are written; so it is read like the column with
all names bare exactly if those are bare. -/
theorem spelledReference_iff (n x t c : SpelledName) (cs : List SpelledName) (line : Option Nat) :
    tableConstraints (foreignKeyText SpelledName.text n x t (c :: cs)) =
        [⟨.foreignKey, [x.word.text], some ⟨t.word.text, (c :: cs).map (·.word.text)⟩,
          some n.word.text⟩] ∧
      Column.parse (.text (referenceText x t (c :: cs))) line =
        .ok ⟨x.word.text, "INT".toList, true, none, [⟨.foreignKey,
          some (t.word.text ++ '(' :: (namesText SpelledName.text (c :: cs) ++ [')']))⟩], none⟩ ∧
      (Column.parse (.text (referenceText x t (c :: cs))) line =
          Column.parse (.text (referenceText x.bare t.bare ((c :: cs).map SpelledName.bare))) line ↔
        ∀ m ∈ c :: cs, m.spelling = .bare) := by
  refine ⟨tableConstraints_foreignKeyText n x t c cs, Column.parse_referenceText x t c cs line, ?_⟩
  rw [Column.parse_referenceText, List.map_cons, Column.parse_referenceText, Except.ok.injEq,
    ← List.map_cons, referenceColumn_eq_iff]

/-- Between backticks the column that is referred to keeps them. -/
theorem not_readAlike_backticks :
    Column.parse (.text "\x60x\x60 INT REFERENCES \x60t\x60(\x60a\x60)".toList) none =
        .ok ⟨"x".toList, "INT".toList, true, none,
          [⟨.foreignKey, some "t(\x60a\x60)".toList⟩], none⟩ ∧
      Column.parse (.text "x INT REFERENCES t(a)".toList) none =
        .ok ⟨"x".toList, "INT".toList, true, none, [⟨.foreignKey, some "t(a)".toList⟩], none⟩ ∧
      Column.parse (.text "\x60x\x60 INT REFERENCES \x60t\x60(\x60a\x60)".toList) none ≠
        Column.parse (.text "x INT REFERENCES t(a)".toList) none := by
  have hquoted : Column.parse (.text "\x60x\x60 INT REFERENCES \x60t\x60(\x60a\x60)".toList) none =
      .ok ⟨"x".toList, "INT".toList, true, none,
        [⟨.foreignKey, some "t(\x60a\x60)".toList⟩], none⟩ := by decide +kernel
  have hbare : Column.parse (.text "x INT REFERENCES t(a)".toList) none =
      .ok ⟨"x".toList, "INT".toList, true, none, [⟨.foreignKey, some "t(a)".toList⟩], none⟩ := by
    decide +kernel
  refine ⟨hquoted, hbare, ?_⟩
  rw [hquoted, hbare]
  decide

end TableTypes
