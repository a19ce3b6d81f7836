import TableTypes.Proofs.TableConstraints.Segment

/-!
# The four readers within a segment

Each of the four readers of constraints finds in a segment what it finds there when the list goes
on (`reads_primaryKeySpan?` and the three after it).  A word in front that is optional, such as a
label, is looked at as an alternative: what is read with the word does not begin like what is read
without it.
-/

namespace TableTypes

open Text

variable {α : Type} {z : Text}

/-! ### Spans in longer texts -/

/-- A constraint that was found with more text behind it. -/
def ConstraintSpan.append (s : ConstraintSpan) (z : Text) : ConstraintSpan where
  columns := s.columns.append z
  reference := s.reference.map fun r => (r.1.append z, r.2.append z)
  name := s.name.map (·.append z)

/-- The reader finds the same constraints when `z` stands behind the segment. -/
abbrev ReadsSpan (z : Text) (read : Text → Option (α × Text)) (ext : α → α) : Prop :=
  Reads z IsOpen (fun _ => True) (fun p => (ext p.1, p.2 ++ z)) read read

/-! ### Words in front -/

/-- Two words with blanks between them. -/
theorem reads_phrase? {k l : Text} (hk : isKeyword k = true) (hkne : k ≠ [])
    (hl : isKeyword l = true) (hlne : l ≠ []) (hz : Ends (dropBlanks z)) :
    Reads z IsOpen InCode (· ++ z) (phrase? [k, l]) (phrase? [k, l]) := by
  have heq : phrase? [k, l] = fun t => (keyword? k t).bind fun r =>
      (dropBlanks1? r).bind (keyword? l) :=
    funext (phrase?_cons_cons k l [])
  have hsecond := (reads_keyword? hl hlne hz).blanks1 hz fun _ hv => hv.dropBlanks
  rw [heq]
  exact (reads_keyword? hk hkne hz).bind fun r hr => hsecond.behind r (Or.inl hr)

/-- What `body` reads behind a label. -/
def behindLabel (body : Option ListSpan → Text → Option α) (t : Text) : Option α :=
  (keyword? "constraint".toList t).bind fun r => (dropBlanks1? r).bind fun r =>
    (quotedName? r).bind fun name => (dropBlanks1? name.2).bind (body (some name.1))

section

variable {body : Option ListSpan → Text → Option α}

/-- What does not begin with `CONSTRAINT` is read behind a label or without one. -/
theorem constraintLabel_body
    (hbody : ∀ t r : Text, keyword? "constraint".toList t = some r → body none t = none) (t : Text) :
    body (constraintLabel t).1 (constraintLabel t).2 = (behindLabel body t <|> body none t) := by
  rw [constraintLabel]
  dsimp only
  have hbehind : behindLabel body t = (((keyword? "constraint".toList t).bind dropBlanks1?) >>=
      fun r => quotedName? r >>= fun name => dropBlanks1? name.2 >>= fun r =>
        pure (some name.1, r)).bind fun label => body label.1 label.2 := by
    simp only [behindLabel, Option.bind_eq_bind, Option.bind_assoc, Option.pure_def,
      Option.bind_some]
  rw [hbehind]
  cases hlabel : ((keyword? "constraint".toList t).bind dropBlanks1?) >>= fun r =>
      quotedName? r >>= fun name => dropBlanks1? name.2 >>= fun r => pure (some name.1, r) with
  | none => rfl
  | some label =>
    obtain ⟨r, hr, -⟩ := Option.bind_eq_some_iff.mp hlabel
    obtain ⟨s, hs, -⟩ := Option.bind_eq_some_iff.mp hr
    rw [hbody t s hs]
    show body label.1 label.2 = (body label.1 label.2 <|> none)
    cases body label.1 label.2 <;> rfl

theorem reads_labelled (body : Option ListSpan → Text → Option α) {P : α → Prop} {ext : α → α}
    (hz : Ends (dropBlanks z))
    (hclash : ∀ t r : Text, keyword? "constraint".toList t = some r → body none t = none)
    (h : ∀ label, Reads z IsOpen P ext (body label) (body (label.map (·.append z)))) :
    Reads z IsOpen P ext (fun t => body (constraintLabel t).1 (constraintLabel t).2)
      (fun t => body (constraintLabel t).1 (constraintLabel t).2) := by
  have heq : (fun t => body (constraintLabel t).1 (constraintLabel t).2) =
      fun t => behindLabel body t <|> body none t :=
    funext (constraintLabel_body hclash)
  rw [heq]
  have hbody : ∀ name, Reads z IsOpen P ext (fun t => (dropBlanks1? t).bind (body (some name)))
      (fun t => (dropBlanks1? t).bind (body (some (name.append z)))) :=
    fun name => (h (some name)).blanks1 hz fun _ hv => hv.dropBlanks
  have hname : Reads z InCode P ext
      (fun t => (quotedName? t).bind fun p => (dropBlanks1? p.2).bind (body (some p.1)))
      (fun t => (quotedName? t).bind fun p => (dropBlanks1? p.2).bind (body (some p.1))) :=
    (reads_quotedName? hz).bind fun p hp => (hbody p.1).behind p.2 hp
  have hblanks := hname.blanks1 hz fun _ hv => hv.dropBlanks
  exact ((reads_keyword? (by decide) (by decide) hz).bind hblanks.behind).orElse (h none)

end

/-! ### The four kinds -/

/-- A primary key behind its label. -/
def primaryKeyBody? (label : Option ListSpan) (t : Text) : Option (ConstraintSpan × Text) :=
  (phrase? ["primary".toList, "key".toList] t).bind fun r => (columnList? r).bind fun columns =>
    some (⟨columns.1, none, label⟩, columns.2)

theorem reads_primaryKeySpan? (hz : Ends (dropBlanks z)) :
    ReadsSpan z primaryKeySpan? (·.append z) := by
  refine reads_labelled primaryKeyBody? hz (fun t r hr => ?_) fun label => ?_
  · rw [primaryKeyBody?, phrase?_cons_cons,
      keyword?_eq_none_of_clash (by decide) (by decide) (by decide) hr]
    rfl
  · have hlist : Reads z IsOpen (fun _ => True) (fun p => (p.1.append z, p.2 ++ z))
        (fun t => (columnList? t).bind fun l => some (ConstraintSpan.mk l.1 none label, l.2))
        (fun t => (columnList? t).bind fun l =>
          some (ConstraintSpan.mk l.1 none (label.map (·.append z)), l.2)) :=
      (reads_columnList? hz).bind fun l _ => ⟨rfl, fun _ _ => trivial⟩
    exact (reads_phrase? (by decide) (by decide) (by decide) (by decide) hz).bind fun r hr =>
      hlist.behind r (Or.inl hr)

/-- The columns that a foreign key refers to. -/
def targetBody? (label : Option ListSpan) (columns table : ListSpan) (t : Text) :
    Option (ConstraintSpan × Text) :=
  (columnList? t).bind fun target =>
    some (⟨columns, some (table, target.1), label⟩, target.2)

theorem reads_targetBody? (label : Option ListSpan) (columns table : ListSpan)
    (hz : Ends (dropBlanks z)) :
    Reads z IsOpen (fun _ => True) (fun p => (p.1.append z, p.2 ++ z))
      (targetBody? label columns table)
      (targetBody? (label.map (·.append z)) (columns.append z) (table.append z)) :=
  (reads_columnList? hz).bind fun _ _ => ⟨rfl, fun _ _ => trivial⟩

/-- What a foreign key refers to, behind its own columns. -/
def referenceBody? (label : Option ListSpan) (columns : ListSpan) (t : Text) :
    Option (ConstraintSpan × Text) :=
  (keyword? "references".toList t).bind fun r => (dropBlanks1? r).bind fun r =>
    (quotedName? r).bind fun table => targetBody? label columns table.1 table.2

theorem reads_referenceBody? (label : Option ListSpan) (columns : ListSpan)
    (hz : Ends (dropBlanks z)) :
    Reads z IsOpen (fun _ => True) (fun p => (p.1.append z, p.2 ++ z))
      (referenceBody? label columns)
      (referenceBody? (label.map (·.append z)) (columns.append z)) := by
  have htable : Reads z InCode (fun _ => True) (fun p => (p.1.append z, p.2 ++ z))
      (fun t => (quotedName? t).bind fun table => targetBody? label columns table.1 table.2)
      (fun t => (quotedName? t).bind fun table =>
        targetBody? (label.map (·.append z)) (columns.append z) table.1 table.2) :=
    (reads_quotedName? hz).bind fun table ht =>
      (reads_targetBody? label columns table.1 hz).behind table.2 ht
  have hblanks := htable.blanks1 hz fun _ hv => hv.dropBlanks
  exact (reads_keyword? (by decide) (by decide) hz).bind hblanks.behind

/-- A foreign key behind its label. -/
def foreignKeyBody? (label : Option ListSpan) (t : Text) : Option (ConstraintSpan × Text) :=
  (phrase? ["foreign".toList, "key".toList] t).bind fun r => (columnList? r).bind fun columns =>
    referenceBody? label columns.1 (dropBlanks columns.2)

theorem reads_foreignKeySpan? (hz : Ends (dropBlanks z)) :
    ReadsSpan z foreignKeySpan? (·.append z) := by
  have heq : foreignKeySpan? = fun t =>
      foreignKeyBody? (constraintLabel t).1 (constraintLabel t).2 := by
    funext t
    rw [foreignKeySpan?]
    simp only [foreignKeyBody?, referenceBody?, targetBody?, Option.bind_eq_bind, Option.bind_assoc]
    rfl
  rw [ReadsSpan, heq]
  refine reads_labelled foreignKeyBody? hz (fun t r hr => ?_) fun label => ?_
  · rw [foreignKeyBody?, phrase?_cons_cons,
      keyword?_eq_none_of_clash (by decide) (by decide) (by decide) hr]
    rfl
  · have hlist : Reads z IsOpen (fun _ => True) (fun p => (p.1.append z, p.2 ++ z))
        (fun t => (columnList? t).bind fun l => referenceBody? label l.1 (dropBlanks l.2))
        (fun t => (columnList? t).bind fun l =>
          referenceBody? (label.map (·.append z)) l.1 (dropBlanks l.2)) :=
      (reads_columnList? hz).bind fun l hl =>
        ((reads_referenceBody? label l.1 hz).blanks hz fun _ hv => hv.dropBlanks).behind l.2
          (Or.inl hl)
    exact (reads_phrase? (by decide) (by decide) (by decide) (by decide) hz).bind fun r hr =>
      hlist.behind r (Or.inl hr)

/-- `KEY` or `INDEX`. -/
def keyWord? (t : Text) : Option Text :=
  keyword? "key".toList t <|> keyword? "index".toList t

theorem reads_keyWord? (hz : Ends (dropBlanks z)) :
    Reads z IsOpen InCode (· ++ z) keyWord? keyWord? :=
  (reads_keyword? (by decide) (by decide) hz).orElse (reads_keyword? (by decide) (by decide) hz)

/-- The name and the columns of a unique key, behind `KEY` or `INDEX`. -/
def keyList? (named : Bool) (t : Text) : Option (Option ListSpan × ListSpan × Text) :=
  (dropBlanks1? t).bind fun r => (keyWord? r).bind (namedList? named)

theorem reads_keyList? (named : Bool) (hz : Ends (dropBlanks z)) :
    Reads z InCode (fun p => InCode p.2.2)
      (fun p => (p.1.map (·.append z), p.2.1.append z, p.2.2 ++ z)) (keyList? named)
      (keyList? named) :=
  (((reads_keyWord? hz).bind (reads_namedList? named hz).behind).mono fun _ hv =>
    Or.inl hv).blanks1 hz fun _ hv => hv.dropBlanks

/-- The name and the columns of a unique key, behind `UNIQUE`. -/
def uniqueList? (label : Option ListSpan) (t : Text) : Option (ConstraintSpan × Text) :=
  (keyList? true t <|> keyList? false t <|> namedList? true t <|> namedList? false t).bind
    fun list => some (⟨list.2.1, none, list.1 <|> label⟩, list.2.2)

theorem reads_uniqueList? (label : Option ListSpan) (hz : Ends (dropBlanks z)) :
    Reads z InCode (fun _ => True) (fun p => (p.1.append z, p.2 ++ z)) (uniqueList? label)
      (uniqueList? (label.map (·.append z))) := by
  have hlists := (reads_keyList? true hz).orElse ((reads_keyList? false hz).orElse
    ((reads_namedList? true hz).orElse (reads_namedList? false hz)))
  exact hlists.bind fun list _ => ⟨by cases h : list.1 <;> rfl, fun _ _ => trivial⟩

/-- A unique key behind its label. -/
def uniqueBody? (label : Option ListSpan) (t : Text) : Option (ConstraintSpan × Text) :=
  (keyword? "unique".toList t).bind (uniqueList? label)

theorem reads_uniqueSpan? (hz : Ends (dropBlanks z)) : ReadsSpan z uniqueSpan? (·.append z) := by
  have heq : uniqueSpan? = fun t => uniqueBody? (constraintLabel t).1 (constraintLabel t).2 := by
    funext t
    rw [uniqueSpan?]
    simp only [uniqueBody?, uniqueList?, keyList?, keyWord?, Option.bind_eq_bind,
      Option.bind_assoc]
    rfl
  rw [ReadsSpan, heq]
  refine reads_labelled uniqueBody? hz (fun t r hr => ?_) fun label => ?_
  · rw [uniqueBody?, keyword?_eq_none_of_clash (by decide) (by decide) (by decide) hr]
    rfl
  · exact (reads_keyword? (by decide) (by decide) hz).bind (reads_uniqueList? label hz).behind

/-- The words that may stand in front of an index. -/
def qualifiers : List String :=
  ["unique", "primary", "foreign"]

/-- One of the words in front of an index. -/
def qualifier? (t : Text) : Option Text :=
  qualifiers.findSome? fun w => keyword? w.toList t

theorem reads_qualifier? (hz : Ends (dropBlanks z)) :
    Reads z IsOpen InCode (· ++ z) qualifier? qualifier? := by
  refine Reads.findSome? fun w hw => ?_
  have hkeyword : ∀ w ∈ qualifiers, isKeyword w.toList = true ∧ w.toList ≠ [] := by decide
  exact reads_keyword? (hkeyword w hw).1 (hkeyword w hw).2 hz

/-- `KEY` and `INDEX` do not begin like the words in front of them. -/
theorem keyWord?_of_qualifier? {t r : Text} (h : qualifier? t = some r) : keyWord? t = none := by
  have hclash : ∀ w ∈ qualifiers, isKeyword w.toList = true ∧
      ¬ ("key".toList <+: w.toList ∨ w.toList <+: "key".toList) ∧
        ¬ ("index".toList <+: w.toList ∨ w.toList <+: "index".toList) := by decide
  obtain ⟨w, hw, hr⟩ := List.exists_of_findSome?_eq_some h
  obtain ⟨hkeyword, hkey, hindex⟩ := hclash w hw
  rw [keyWord?, keyword?_eq_none_of_clash (by decide) hkeyword hkey hr,
    keyword?_eq_none_of_clash (by decide) hkeyword hindex hr]
  rfl

/-- An index, with the information whether a word stands in front of it. -/
def indexBody? (qualified : Bool) (t : Text) : Option ((Bool × ConstraintSpan) × Text) :=
  (keyWord? t).bind fun r => (namedList? true r).bind fun list =>
    some ((qualified, ⟨list.2.1, none, list.1⟩), list.2.2)

theorem reads_indexBody? (qualified : Bool) (hz : Ends (dropBlanks z)) :
    ReadsSpan z (indexBody? qualified) fun s => (s.1, s.2.append z) := by
  have hspan : Reads z InCode (fun _ => True) (fun p => ((p.1.1, p.1.2.append z), p.2 ++ z))
      (fun t => (namedList? true t).bind fun list =>
        some ((qualified, ConstraintSpan.mk list.2.1 none list.1), list.2.2))
      (fun t => (namedList? true t).bind fun list =>
        some ((qualified, ConstraintSpan.mk list.2.1 none list.1), list.2.2)) :=
    (reads_namedList? true hz).bind fun list _ => ⟨rfl, fun _ _ => trivial⟩
  exact (reads_keyWord? hz).bind hspan.behind

/-- An index is read behind a word or without one. -/
theorem indexSpan?_eq (t : Text) : indexSpan? t =
    (((qualifier? t).bind fun r => (dropBlanks1? r).bind (indexBody? true)) <|>
      indexBody? false t) := by
  have hbody : indexSpan? t = indexBody? ((qualifier? t).bind dropBlanks1?).isSome
      (((qualifier? t).bind dropBlanks1?).getD t) := rfl
  rw [hbody, ← Option.bind_assoc]
  cases hq : (qualifier? t).bind dropBlanks1? with
  | none => rfl
  | some r =>
    obtain ⟨s, hs, -⟩ := Option.bind_eq_some_iff.mp hq
    have hnone : indexBody? false t = none := by
      rw [indexBody?, keyWord?_of_qualifier? hs]
      rfl
    rw [hnone]
    show indexBody? true r = (indexBody? true r <|> none)
    cases indexBody? true r <;> rfl

theorem reads_indexSpan? (hz : Ends (dropBlanks z)) :
    ReadsSpan z indexSpan? fun s => (s.1, s.2.append z) := by
  rw [ReadsSpan, funext indexSpan?_eq]
  have hblanks := (reads_indexBody? true hz).blanks1 hz fun _ hv => hv.dropBlanks
  exact ((reads_qualifier? hz).bind fun r hr => hblanks.behind r (Or.inl hr)).orElse
    (reads_indexBody? false hz)

end TableTypes
