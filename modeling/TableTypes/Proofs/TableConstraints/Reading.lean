import TableTypes.Proofs.Identifier
import TableTypes.Proofs.TableConstraints.Passing

/-!
# Reading one constraint

Where a constraint stands, the reader of its kind takes its head and whatever list stands in
parentheses behind it (`ConstraintHead.uniqueSpan?_eq_some` and its siblings).  So it takes all of a
constraint that was written, and the readers of the other kinds take nothing
(`primaryKeySpan?_text`, `foreignKeySpan?_text`, `uniqueSpan?_text`).  The reader of indexes takes a
constraint only behind its label (`indexSpan?_body`).  All four pass over columns
(`tableReader_primaryKey` and the three after it).
-/

namespace TableTypes

open Text

/-! ### Names and column lists -/

theorem quotedName?_identifier (b : Identifier) {s : Text} (hs : atWordEnd s = true) :
    quotedName? (b.text ++ s) = some ((b.text ++ s, s), s) := by
  rw [quotedName?, NameSpan.read?_word b.ne_nil b.forall_word hs]
  rfl

theorem constraintName?_word {w s : Text} (hne : w ≠ []) (hw : ∀ c ∈ w, isAsciiWord c = true)
    (hfree : w.map Char.toLower ∉ reservedNames.filterMap List.head?) (hs : atWordEnd s = true) :
    constraintName? (w ++ s) = some ((w ++ s, s), s) := by
  have hnone : anyPhrase? reservedNames (w ++ s) = none :=
    anyPhrase?_eq_none (by decide) hw hs hfree
  rw [constraintName?, hnone, quotedName?, NameSpan.read?_word hne hw hs]
  rfl

theorem constraintName?_identifier (b : Identifier) {s : Text} (hs : atWordEnd s = true) :
    constraintName? (b.text ++ s) = some ((b.text ++ s, s), s) :=
  constraintName?_word b.ne_nil b.forall_word
    (fun h => b.free ((by decide : reservedNames.filterMap List.head? ⊆ reservedWords) h)) hs

theorem ColumnList.forall_ne (l : ColumnList) : ∀ c ∈ l.text, c ≠ ')' := by
  have hname : ∀ b : Identifier, ∀ c ∈ b.text, c ≠ ')' := by
    rintro b c hc rfl
    exact absurd (b.forall_word _ hc) (by decide)
  intro c hc
  rw [l.text_eq, List.mem_append, List.mem_flatMap] at hc
  rcases hc with hc | ⟨n, -, hc⟩
  · exact hname l.first c hc
  · rw [List.mem_append] at hc
    rcases hc with hc | hc
    · rintro rfl
      exact absurd hc (by decide)
    · exact hname n c hc

theorem ColumnList.exists_cons (l : ColumnList) :
    ∃ c t, l.text = c :: t ∧ isAsciiWord c = true := by
  obtain ⟨c, w, hw⟩ := List.exists_cons_of_ne_nil l.first.ne_nil
  refine ⟨c, w ++ l.rest.flatMap fun n => [',', ' '] ++ n.text, ?_, ?_⟩
  · rw [l.text_eq, hw, List.cons_append]
  · exact l.first.forall_word c (by rw [hw]; exact List.mem_cons_self)

/-- A list in parentheses behind a space ends at the first closing parenthesis. -/
theorem columnList?_paren {u : Text} (hne : u ≠ []) (hu : ')' ∉ u) (r : Text) :
    columnList? ([' ', '('] ++ (u ++ ([')'] ++ r))) = some ((u ++ ')' :: r, ')' :: r), r) := by
  have hparens : parenthesized? ('(' :: (u ++ ')' :: r)) = some (u ++ ')' :: r, ')' :: r, r) := by
    rw [parenthesized?_paren hu, if_neg hne]
  show (parenthesized? ('(' :: (u ++ ')' :: r))).map _ = _
  rw [hparens]
  rfl

theorem columnList?_text (l : ColumnList) (r : Text) :
    columnList? ([' ', '('] ++ (l.text ++ ([')'] ++ r))) =
      some ((l.text ++ ')' :: r, ')' :: r), r) := by
  obtain ⟨c, t, ht, -⟩ := l.exists_cons
  exact columnList?_paren (ht ▸ List.cons_ne_nil c t) (fun h => l.forall_ne _ h rfl) r

/-- A column list without a name in front. -/
theorem namedList?_of_columnList? {x r : Text} {columns : ListSpan}
    (h : columnList? x = some (columns, r)) : namedList? false x = some (none, columns, r) := by
  show (columnList? x).map _ = _
  rw [h]
  rfl

/-- A column list with a name in front. -/
theorem namedList?_identifier (n : Identifier) {x r : Text} {columns : ListSpan}
    (hend : atWordEnd x = true) (h : columnList? x = some (columns, r)) :
    namedList? true (' ' :: (n.text ++ x)) = some (some (n.text ++ x, x), columns, r) := by
  have hblank : dropBlanks1? (' ' :: (n.text ++ x)) = some (n.text ++ x) :=
    congrArg some (dropBlanks_word n.ne_nil n.forall_word _)
  show (((dropBlanks1? _).bind constraintName?).bind fun name => (columnList? name.2).bind
    fun columns => some (some name.1, columns.1, columns.2)) = _
  rw [hblank, Option.bind_some, constraintName?_identifier n hend, Option.bind_some]
  show (columnList? x).bind _ = _
  rw [h]
  rfl

/-! ### Spans -/

namespace ConstraintText

/-- What stands behind the head of a constraint that is followed by `s`. -/
def behindHead (c : ConstraintText) (s : Text) : Text :=
  [' ', '('] ++ (c.columns.text ++ ([')'] ++ (c.head.tail ++ s)))

theorem body_append (c : ConstraintText) (s : Text) :
    c.body ++ s = c.head.text ++ c.behindHead s := by
  simp only [body, behindHead, List.append_assoc]

/-- The label of a constraint that is followed by `s`, as the readers find it. -/
def labelSpan (c : ConstraintText) (s : Text) : Option ListSpan :=
  c.label.map fun n => (n.text ++ ' ' :: (c.body ++ s), ' ' :: (c.body ++ s))

/-- The parts of a constraint that is followed by `s`, as the readers find them. -/
def span (c : ConstraintText) (s : Text) : ConstraintSpan where
  columns := (c.columns.text ++ ')' :: (c.head.tail ++ s), ')' :: (c.head.tail ++ s))
  reference :=
    match c.head with
    | .foreignKey t l =>
      some ((t.text ++ ([' ', '('] ++ (l.text ++ ([')'] ++ s))),
          [' ', '('] ++ (l.text ++ ([')'] ++ s))),
        (l.text ++ ')' :: s, ')' :: s))
    | _ => none
  name := (c.head.name?.map fun n => (n.text ++ c.behindHead s, c.behindHead s)) <|> c.labelSpan s

end ConstraintText

/-- Without a label the constraint is left as it is. -/
theorem ConstraintHead.constraintLabel_text (h : ConstraintHead) (x : Text) :
    constraintLabel (h.text ++ x) = (none, h.text ++ x) := by
  have hword : (keyword? "constraint".toList (h.text ++ x)).bind dropBlanks1? = none := by
    cases h <;> rfl
  rw [constraintLabel, hword]
  rfl

/-- A label is read up to the constraint behind it. -/
theorem constraintLabel_text (c : ConstraintText) (s : Text) :
    constraintLabel (c.text ++ s) = (c.labelSpan s, c.body ++ s) := by
  cases hlabel : c.label with
  | none =>
    have htext : c.text = c.body := by
      rw [ConstraintText.text, hlabel]
      rfl
    rw [htext, c.body_append, c.head.constraintLabel_text, ConstraintText.labelSpan, hlabel]
    rfl
  | some n =>
    have htext : c.text ++ s = "CONSTRAINT ".toList ++ (n.text ++ ' ' :: (c.body ++ s)) := by
      rw [ConstraintText.text, hlabel]
      show "CONSTRAINT ".toList ++ (n.text ++ [' ']) ++ c.body ++ s = _
      simp
    have hword : (keyword? "constraint".toList (c.text ++ s)).bind dropBlanks1? =
        some (n.text ++ ' ' :: (c.body ++ s)) := by
      rw [htext]
      exact congrArg some (dropBlanks_word n.ne_nil n.forall_word _)
    have hblank : dropBlanks1? (' ' :: (c.body ++ s)) = some (c.body ++ s) :=
      congrArg some (c.dropBlanks_body s)
    rw [constraintLabel, hword, Option.bind_eq_bind, Option.bind_some,
      quotedName?_identifier n rfl]
    show (((dropBlanks1? (' ' :: (c.body ++ s))).bind fun r => some (some _, r)).getD _) = _
    rw [hblank, ConstraintText.labelSpan, hlabel]
    rfl

/-! ### The reader of each kind -/

section

variable {t r : Text} {label : Option ListSpan} (hlabel : constraintLabel t = (label, r))

include hlabel

theorem primaryKeySpan?_of_label : primaryKeySpan? t =
    (phrase? ["primary".toList, "key".toList] r).bind fun r =>
      (columnList? r).bind fun p => some (⟨p.1, none, label⟩, p.2) := by
  rw [primaryKeySpan?, hlabel]
  rfl

theorem foreignKeySpan?_of_label : foreignKeySpan? t =
    (phrase? ["foreign".toList, "key".toList] r).bind fun r =>
      (columnList? r).bind fun columns =>
        ((keyword? "references".toList (dropBlanks columns.2)).bind dropBlanks1?).bind fun r =>
          (quotedName? r).bind fun table =>
            (columnList? table.2).bind fun target =>
              some (⟨columns.1, some (table.1, target.1), label⟩, target.2) := by
  rw [foreignKeySpan?, hlabel]
  rfl

theorem uniqueSpan?_of_label : uniqueSpan? t =
    (keyword? "unique".toList r).bind fun r =>
      let behindKey := (dropBlanks1? r).bind fun s =>
        keyword? "key".toList s <|> keyword? "index".toList s
      (behindKey.bind (namedList? true) <|> behindKey.bind (namedList? false) <|>
        namedList? true r <|> namedList? false r).bind fun list =>
          some (⟨list.2.1, none, list.1 <|> label⟩, list.2.2) := by
  rw [uniqueSpan?, hlabel]
  rfl

end

namespace ConstraintHead

/-- What the readers find of a constraint whose list is `columns`, `x` being the text behind its
head. -/
def span (h : ConstraintHead) (label : Option ListSpan) (columns : ListSpan) (x : Text) :
    ConstraintSpan where
  columns := columns
  reference := none
  name := (h.name?.map fun n => (n.text ++ x, x)) <|> label

variable {h : ConstraintHead}

theorem exists_name_of_index (hkind : h.kind = .index) : ∃ n, h.name? = some n := by
  cases h with
  | key n => exact ⟨n, rfl⟩
  | index n => exact ⟨n, rfl⟩
  | _ => cases hkind

theorem kind_of_name {n : Identifier} (hname : h.name? = some n) (hkind : h.kind ≠ .index) :
    h.kind = .unique := by
  cases h with
  | uniqueKey m => rfl
  | key m => exact absurd rfl hkind
  | index m => exact absurd rfl hkind
  | _ => cases hname

section

variable {t y r : Text} {label : Option ListSpan} {columns : ListSpan}
  (hlabel : constraintLabel t = (label, h.text ++ ([' ', '('] ++ y)))
  (hlist : columnList? ([' ', '('] ++ y) = some (columns, r))

include hlabel

theorem primaryKeySpan?_eq_none (hkind : h.kind ≠ .primaryKey) : primaryKeySpan? t = none := by
  rw [primaryKeySpan?_of_label hlabel]
  cases h with
  | primaryKey => exact absurd rfl hkind
  | _ => rfl

theorem foreignKeySpan?_eq_none (hkind : h.kind ≠ .foreignKey) : foreignKeySpan? t = none := by
  rw [foreignKeySpan?_of_label hlabel]
  cases h with
  | foreignKey t l => exact absurd rfl hkind
  | _ => rfl

theorem uniqueSpan?_eq_none (hkind : h.kind ≠ .unique) : uniqueSpan? t = none := by
  rw [uniqueSpan?_of_label hlabel]
  cases h with
  | unique => exact absurd rfl hkind
  | uniqueKey n => exact absurd rfl hkind
  | _ => rfl

include hlist

/-- **A primary key is taken where it stands.** -/
theorem primaryKeySpan?_eq_some (hkind : h.kind = .primaryKey) :
    primaryKeySpan? t = some (h.span label columns ([' ', '('] ++ y), r) := by
  rw [primaryKeySpan?_of_label hlabel]
  cases h with
  | primaryKey =>
    show (columnList? ([' ', '('] ++ y)).bind _ = _
    rw [hlist]
    rfl
  | _ => cases hkind

/-- **A unique key is taken where it stands**, with or without a name. -/
theorem uniqueSpan?_eq_some (hkind : h.kind = .unique) :
    uniqueSpan? t = some (h.span label columns ([' ', '('] ++ y), r) := by
  rw [uniqueSpan?_of_label hlabel]
  cases h with
  | unique =>
    show (namedList? false ([' ', '('] ++ y)).bind _ = _
    rw [namedList?_of_columnList? hlist]
    rfl
  | uniqueKey n =>
    have hunique : keyword? "unique".toList ((uniqueKey n).text ++ ([' ', '('] ++ y)) =
        some (" KEY ".toList ++ (n.text ++ ([' ', '('] ++ y))) := by
      show keyword? "unique".toList ("UNIQUE KEY ".toList ++ n.text ++ ([' ', '('] ++ y)) = _
      rw [List.append_assoc]
      rfl
    have hkey : ∀ x : Text, ((dropBlanks1? (" KEY ".toList ++ x)).bind fun s =>
        keyword? "key".toList s <|> keyword? "index".toList s) = some (' ' :: x) := fun _ => rfl
    have hnamed := namedList?_identifier n rfl hlist
    rw [hunique, Option.bind_some]
    simp only [hkey, Option.bind_some, hnamed]
    rfl
  | _ => cases hkind

end

theorem indexSpan?_eq_none (hname : h.name? = none) (y : Text) :
    indexSpan? (h.text ++ ([' ', '('] ++ y)) = none := by
  cases h with
  | uniqueKey n => cases hname
  | key n => cases hname
  | index n => cases hname
  | _ => rfl

/-- **The reader of indexes takes every constraint that has a name**, with the information whether
it is a unique key. -/
theorem indexSpan?_eq_some {n : Identifier} {y r : Text} {columns : ListSpan}
    (hlist : columnList? ([' ', '('] ++ y) = some (columns, r)) (hname : h.name? = some n)
    (label : Option ListSpan) : indexSpan? (h.text ++ ([' ', '('] ++ y)) =
      some ((decide (h.kind = .unique), h.span label columns ([' ', '('] ++ y)), r) := by
  have hnamed : indexSpan? (h.text ++ ([' ', '('] ++ y)) =
      (namedList? true (' ' :: (n.text ++ ([' ', '('] ++ y)))).bind fun list =>
        some ((decide (h.kind = .unique), ⟨list.2.1, none, list.1⟩), list.2.2) := by
    cases h with
    | uniqueKey m =>
      obtain rfl : m = n := Option.some.inj hname
      show indexSpan? ("UNIQUE KEY ".toList ++ m.text ++ ([' ', '('] ++ y)) = _
      rw [List.append_assoc]
      rfl
    | key m =>
      obtain rfl : m = n := Option.some.inj hname
      show indexSpan? ("KEY ".toList ++ m.text ++ ([' ', '('] ++ y)) = _
      rw [List.append_assoc]
      rfl
    | index m =>
      obtain rfl : m = n := Option.some.inj hname
      show indexSpan? ("INDEX ".toList ++ m.text ++ ([' ', '('] ++ y)) = _
      rw [List.append_assoc]
      rfl
    | _ => cases hname
  rw [hnamed, namedList?_identifier n rfl hlist, span, hname]
  rfl

end ConstraintHead

/-! ### The readers at the constraints of a list -/

section

variable (c : ConstraintText) (s : Text)

theorem constraintLabel_behindHead :
    constraintLabel (c.text ++ s) = (c.labelSpan s, c.head.text ++ c.behindHead s) := by
  rw [constraintLabel_text, c.body_append]

theorem columnList?_behindHead : columnList? (c.behindHead s) =
    some ((c.columns.text ++ ')' :: (c.head.tail ++ s), ')' :: (c.head.tail ++ s)),
      c.head.tail ++ s) :=
  columnList?_text c.columns _

/-- A constraint without a reference is found as its head is, and nothing of it stands behind its
columns. -/
theorem ConstraintText.span_eq {c : ConstraintText} (hkind : c.head.kind ≠ .foreignKey) (s : Text) :
    (c.head.span (c.labelSpan s)
        (c.columns.text ++ ')' :: (c.head.tail ++ s), ')' :: (c.head.tail ++ s)) (c.behindHead s),
      c.head.tail ++ s) = (c.span s, s) := by
  obtain ⟨label, head, columns⟩ := c
  cases head with
  | foreignKey t l => exact absurd rfl hkind
  | _ => rfl

/-- **A primary key is taken where it stands**, and only a primary key. -/
theorem primaryKeySpan?_text :
    primaryKeySpan? (c.text ++ s) =
      if c.head.kind = .primaryKey then some (c.span s, s) else none := by
  have hlabel := constraintLabel_behindHead c s
  split
  · rename_i hkind
    have hspan := ConstraintText.span_eq (by rw [hkind]; decide) s
    rw [← hspan]
    exact ConstraintHead.primaryKeySpan?_eq_some hlabel (columnList?_behindHead c s) hkind
  · rename_i hkind
    exact ConstraintHead.primaryKeySpan?_eq_none hlabel hkind

theorem foreignKeySpan?_text :
    foreignKeySpan? (c.text ++ s) =
      if c.head.kind = .foreignKey then some (c.span s, s) else none := by
  rw [foreignKeySpan?_of_label (constraintLabel_behindHead c s)]
  obtain ⟨label, head, columns⟩ := c
  cases head with
  | foreignKey t l =>
    have htail : (ConstraintHead.foreignKey t l).tail ++ s =
        " REFERENCES ".toList ++ (t.text ++ ([' ', '('] ++ (l.text ++ ([')'] ++ s)))) := by
      show " REFERENCES ".toList ++ (t.text ++ ([' ', '('] ++ (l.text ++ [')']))) ++ s = _
      simp only [List.append_assoc]
    have hword : (keyword? "references".toList
        (dropBlanks ((ConstraintHead.foreignKey t l).tail ++ s))).bind dropBlanks1? =
          some (t.text ++ ([' ', '('] ++ (l.text ++ ([')'] ++ s)))) := by
      rw [htail]
      exact congrArg some (dropBlanks_word t.ne_nil t.forall_word _)
    show (columnList? ([' ', '('] ++ (columns.text ++ ([')'] ++
      ((ConstraintHead.foreignKey t l).tail ++ s))))).bind _ = _
    rw [columnList?_text, Option.bind_some]
    show ((keyword? "references".toList (dropBlanks _)).bind dropBlanks1?).bind _ = _
    rw [hword, Option.bind_some, quotedName?_identifier t rfl, Option.bind_some]
    show (columnList? ([' ', '('] ++ (l.text ++ ([')'] ++ s)))).bind _ = _
    rw [columnList?_text]
    rfl
  | _ => rfl

theorem uniqueSpan?_text :
    uniqueSpan? (c.text ++ s) =
      if c.head.kind = .unique then some (c.span s, s) else none := by
  have hlabel := constraintLabel_behindHead c s
  split
  · rename_i hkind
    have hspan := ConstraintText.span_eq (by rw [hkind]; decide) s
    rw [← hspan]
    exact ConstraintHead.uniqueSpan?_eq_some hlabel (columnList?_behindHead c s) hkind
  · rename_i hkind
    exact ConstraintHead.uniqueSpan?_eq_none hlabel hkind

end

theorem indexSpan?_label (c : ConstraintText) (hlabel : c.label ≠ none) (s : Text) :
    indexSpan? (c.text ++ s) = none := by
  obtain ⟨label, head, columns⟩ := c
  cases label with
  | none => exact absurd rfl hlabel
  | some n => rfl

/-- What the reader of indexes takes of a constraint that is followed by `s`, with the information
whether it is a unique key. -/
def ConstraintText.indexSpan (c : ConstraintText) (s : Text) : Option (Bool × ConstraintSpan) :=
  match c.head with
  | .uniqueKey _ => some (true, c.span s)
  | .key _ => some (false, c.span s)
  | .index _ => some (false, c.span s)
  | _ => none

/-- The reader of indexes takes a named constraint behind its label. -/
theorem indexSpan?_body (c : ConstraintText) (s : Text) :
    indexSpan? (c.body ++ s) = (c.indexSpan s).map (·, s) := by
  have hlist := columnList?_behindHead c s
  have hsome := fun n (hname : c.head.name? = some n) =>
    ConstraintHead.indexSpan?_eq_some hlist hname (c.labelSpan s)
  rw [c.body_append]
  obtain ⟨label, head, columns⟩ := c
  cases head with
  | uniqueKey n => exact hsome n rfl
  | key n => exact hsome n rfl
  | index n => exact hsome n rfl
  | _ => rfl

/-! ### The readers at other words -/

/-- Behind the keyword that only begins a word there is neither a blank nor a column list. -/
theorem columnList?_word {c : Char} (hc : isAsciiWord c = true) (t : Text) :
    columnList? (c :: t) = none := by
  have hparen : c ≠ '(' := by rintro rfl; exact absurd hc (by decide)
  rw [columnList?, dropBlanks_of_head _ (isBlank_of_isAsciiWord hc), parenthesized?_of_ne hparen]
  rfl

theorem namedList?_word (named : Bool) {c : Char} (hc : isAsciiWord c = true) (t : Text) :
    namedList? named (c :: t) = none := by
  cases named with
  | true =>
    show ((dropBlanks1? (c :: t)).bind constraintName?).bind _ = none
    rw [dropBlanks1?_of_head t (isBlank_of_isAsciiWord hc)]
    rfl
  | false =>
    show (columnList? (c :: t)).map _ = none
    rw [columnList?_word hc]
    rfl

/-- A word that is no keyword of constraints, and what follows it. -/
structure OtherWord (w s : Text) : Prop where
  word : ∀ c ∈ w, isAsciiWord c = true
  ends : atWordEnd s = true
  other : w.map Char.toLower ∉ constraintWords

namespace OtherWord

variable {w s : Text} (h : OtherWord w s)

include h

theorem ne {k : Text} (hk : k ∈ constraintWords) : w.map Char.toLower ≠ k :=
  fun h' => h.other (h' ▸ hk)

theorem inside {k r : Text} (hk : k ∈ constraintWords) (hr : keyword? k (w ++ s) = some r) :
    ∃ c t, isAsciiWord c = true ∧ r = c :: t := by
  have hkeyword : isKeyword k = true :=
    List.all_eq_true.mp (by decide : constraintWords.all isKeyword = true) k hk
  obtain ⟨c, u, hc, rfl⟩ := keyword?_inside hkeyword h.word h.ends (h.ne hk) hr
  exact ⟨c, u ++ s, hc, rfl⟩

theorem dropBlanks1? {k : Text} (hk : k ∈ constraintWords) :
    (keyword? k (w ++ s)).bind Text.dropBlanks1? = none := by
  cases hr : keyword? k (w ++ s) with
  | none => rfl
  | some r =>
    obtain ⟨c, t, hc, rfl⟩ := h.inside hk hr
    exact dropBlanks1?_of_head t (isBlank_of_isAsciiWord hc)

theorem constraintLabel : constraintLabel (w ++ s) = (none, w ++ s) := by
  rw [TableTypes.constraintLabel, h.dropBlanks1? (by decide)]
  rfl

theorem primaryKeySpan? : primaryKeySpan? (w ++ s) = none := by
  have hphrase : phrase? ["primary".toList, "key".toList] (w ++ s) = none :=
    phrase?_eq_none (by decide) h.word h.ends (h.ne (by decide))
  rw [TableTypes.primaryKeySpan?, h.constraintLabel]
  show (phrase? ["primary".toList, "key".toList] (w ++ s)).bind _ = none
  rw [hphrase]
  rfl

theorem foreignKeySpan? : foreignKeySpan? (w ++ s) = none := by
  have hphrase : phrase? ["foreign".toList, "key".toList] (w ++ s) = none :=
    phrase?_eq_none (by decide) h.word h.ends (h.ne (by decide))
  rw [TableTypes.foreignKeySpan?, h.constraintLabel]
  show (phrase? ["foreign".toList, "key".toList] (w ++ s)).bind _ = none
  rw [hphrase]
  rfl

theorem uniqueSpan? : uniqueSpan? (w ++ s) = none := by
  rw [TableTypes.uniqueSpan?, h.constraintLabel]
  cases hr : keyword? "unique".toList (w ++ s) with
  | none =>
    show (keyword? "unique".toList (w ++ s)).bind _ = none
    rw [hr]
    rfl
  | some r =>
    obtain ⟨c, t, hc, rfl⟩ := h.inside (by decide) hr
    have hblank := dropBlanks1?_of_head t (isBlank_of_isAsciiWord hc)
    show (keyword? "unique".toList (w ++ s)).bind _ = none
    rw [hr, Option.bind_some]
    simp only [hblank, Option.bind_none, namedList?_word _ hc]
    rfl

theorem indexSpan? : indexSpan? (w ++ s) = none := by
  have hqualified : (["unique", "primary", "foreign"].findSome? fun k =>
      keyword? k.toList (w ++ s)).bind Text.dropBlanks1? = none := by
    cases hr : ["unique", "primary", "foreign"].findSome? fun k => keyword? k.toList (w ++ s) with
    | none => rfl
    | some r =>
      obtain ⟨k, hk, hr⟩ := List.exists_of_findSome?_eq_some hr
      have hmem : k.toList ∈ constraintWords := by
        simp only [List.mem_cons, List.not_mem_nil, or_false] at hk
        rcases hk with rfl | rfl | rfl <;> decide
      have hnone := h.dropBlanks1? hmem
      rwa [hr] at hnone
  rw [TableTypes.indexSpan?]
  simp only [hqualified, Option.getD_none]
  cases hr : keyword? "key".toList (w ++ s) <|> keyword? "index".toList (w ++ s) with
  | none => rfl
  | some r =>
    have hinside : ∃ c t, isAsciiWord c = true ∧ r = c :: t := by
      cases hkey : keyword? "key".toList (w ++ s) with
      | some r' =>
        rw [hkey] at hr
        obtain rfl : r' = r := Option.some.inj hr
        exact h.inside (by decide) hkey
      | none =>
        rw [hkey] at hr
        exact h.inside (by decide) hr
    obtain ⟨c, t, hc, rfl⟩ := hinside
    show (namedList? true (c :: t)).bind _ = none
    rw [namedList?_word true hc]
    rfl

end OtherWord

theorem opens_constraintWords {α : Type} {read : Text → Option (α × Text)}
    (h : ∀ {w s : Text}, OtherWord w s → read (w ++ s) = none) : Opens constraintWords read where
  initial := by decide
  at_word := fun _ _ hw hs hne => h ⟨hw, hs, hne⟩

/-! ### The readers at clauses -/

/-- Behind the type of a column there is no column list. -/
theorem columnList?_clauses (cs : List Clause) {s : Text} (hs : Ends s) :
    columnList? (clausesMasked cs ++ s) = none := by
  cases cs with
  | nil => obtain rfl | ⟨r, rfl⟩ := hs.eq_nil_or_comma <;> rfl
  | cons c cs => cases c <;> rfl

/-- Where a name stands without a column list behind it there is no constraint. -/
theorem namedList?_name {w x : Text} (hne : w ≠ []) (hw : ∀ c ∈ w, isAsciiWord c = true)
    (hfree : w.map Char.toLower ∉ reservedNames.filterMap List.head?) (hx : atWordEnd x = true)
    (hlist : columnList? x = none) : namedList? true (' ' :: (w ++ x)) = none := by
  have hblank : dropBlanks1? (' ' :: (w ++ x)) = some (w ++ x) := by
    obtain ⟨c, v, rfl⟩ := List.exists_cons_of_ne_nil hne
    exact congrArg some (dropBlanks_of_head _ (isBlank_of_isAsciiWord (hw c List.mem_cons_self)))
  show ((dropBlanks1? (' ' :: (w ++ x))).bind constraintName?).bind _ = none
  rw [hblank, Option.bind_some, constraintName?_word hne hw hfree hx, Option.bind_some]
  show (columnList? x).bind _ = none
  rw [hlist]
  rfl

/-- A clause may be taken for a name, but there is no column list behind it. -/
theorem namedList?_clauses (cs : List Clause) {s : Text} (hs : Ends s) :
    namedList? true (clausesMasked cs ++ s) = none := by
  cases cs with
  | nil => obtain rfl | ⟨r, rfl⟩ := hs.eq_nil_or_comma <;> rfl
  | cons c cs =>
    have hlist := columnList?_clauses cs hs
    have hend := atWordEnd_clauses cs hs
    cases c with
    | unique =>
      exact namedList?_name (w := "UNIQUE".toList) (by decide) (List.all_eq_true.mp rfl) (by decide)
        hend hlist
    | autoIncrement =>
      exact namedList?_name (w := "AUTO_INCREMENT".toList) (by decide) (List.all_eq_true.mp rfl)
        (by decide) hend hlist
    | _ => rfl

/-! ### The four readers -/

theorem tableReader_primaryKey : TableReader primaryKeySpan? where
  opens := opens_constraintWords OtherWord.primaryKeySpan?
  key_list := fun _ => rfl
  primaryKey_clause := fun cs s hs => by
    show (columnList? (clausesMasked cs ++ s)).bind _ = none
    rw [columnList?_clauses cs hs]
    rfl
  key_clause := fun _ _ _ => rfl
  unique_clause := fun _ _ _ => rfl

theorem tableReader_foreignKey : TableReader foreignKeySpan? where
  opens := opens_constraintWords OtherWord.foreignKeySpan?
  key_list := fun _ => rfl
  primaryKey_clause := fun _ _ _ => rfl
  key_clause := fun _ _ _ => rfl
  unique_clause := fun _ _ _ => rfl

/-- Behind `UNIQUE` in a column there is no word `KEY` or `INDEX`. -/
theorem behindUnique_clauses (cs : List Clause) {s : Text} (hs : Ends s) :
    ((dropBlanks1? (clausesMasked cs ++ s)).bind fun s =>
      keyword? "key".toList s <|> keyword? "index".toList s) = none := by
  cases cs with
  | nil => obtain rfl | ⟨r, rfl⟩ := hs.eq_nil_or_comma <;> rfl
  | cons c cs => cases c <;> rfl

theorem tableReader_unique : TableReader uniqueSpan? where
  opens := opens_constraintWords OtherWord.uniqueSpan?
  key_list := fun _ => rfl
  primaryKey_clause := fun _ _ _ => rfl
  key_clause := fun _ _ _ => rfl
  unique_clause := fun cs s hs => by
    have hfalse : namedList? false (clausesMasked cs ++ s) = none := by
      show (columnList? (clausesMasked cs ++ s)).map _ = none
      rw [columnList?_clauses cs hs]
      rfl
    have hword : keyword? "unique".toList ("UNIQUE".toList ++ (clausesMasked cs ++ s)) =
        some (clausesMasked cs ++ s) := rfl
    have hlabel : constraintLabel ("UNIQUE".toList ++ (clausesMasked cs ++ s)) =
        (none, "UNIQUE".toList ++ (clausesMasked cs ++ s)) := rfl
    rw [uniqueSpan?, hlabel]
    show (keyword? "unique".toList ("UNIQUE".toList ++ (clausesMasked cs ++ s))).bind _ = none
    rw [hword, Option.bind_some]
    simp only [behindUnique_clauses cs hs, Option.bind_none, namedList?_clauses cs hs, hfalse]
    rfl

theorem tableReader_index : TableReader indexSpan? where
  opens := opens_constraintWords OtherWord.indexSpan?
  key_list := fun _ => rfl
  primaryKey_clause := fun cs s hs => by
    show (namedList? true (clausesMasked cs ++ s)).bind _ = none
    rw [namedList?_clauses cs hs]
    rfl
  key_clause := fun cs s hs => by
    show (namedList? true (clausesMasked cs ++ s)).bind _ = none
    rw [namedList?_clauses cs hs]
    rfl
  unique_clause := fun cs s hs => by
    cases cs with
    | nil => obtain rfl | ⟨r, rfl⟩ := hs.eq_nil_or_comma <;> rfl
    | cons c cs => cases c <;> rfl

end TableTypes
