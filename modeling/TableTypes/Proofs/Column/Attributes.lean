import TableTypes.Proofs.Column.Layout
import TableTypes.Proofs.Text.Search

/-!
# Reading the attributes of a column

Each attribute is found wherever its clause stands: the flags (`isNullable_clauses`,
`columnConstraints_clauses`), the default value (`defaultValue?_clauses`) and the comment
(`columnComment?_clauses`).  A search for a keyword passes over every clause of another kind
(`Text.Opens.findWord_clause`); what is inside quotes is blank to all searches but that for the
comment, and there it holds no blank.
-/

namespace TableTypes

open Text

variable {α : Type} {f : Text → Option α} {ks : List Text}

/-! ### Passing over clauses -/

theorem atWordEnd_clausesText (cs : List Clause) : atWordEnd (clausesText cs) = true := by
  cases cs <;> rfl

theorem atWordEnd_clausesMasked (cs : List Clause) : atWordEnd (clausesMasked cs) = true := by
  cases cs <;> rfl

theorem Text.Opens.findWord_enclose_blank (hf : Opens ks f) {q : Quote} (n : Nat) (t : Text) :
    findWord f (q.enclose (List.replicate n ' ') ++ t) = findWord f t := by
  have hquote : isWord q.char = false := by cases q <;> rfl
  apply hf.findWord_nonwords
  intro c hc
  rw [Quote.enclose, List.mem_cons, List.mem_append, List.mem_singleton] at hc
  rcases hc with rfl | hc | rfl
  · exact hquote
  · rw [List.eq_of_mem_replicate hc]; rfl
  · exact hquote

/-- The search for a keyword passes over a clause without it. -/
theorem Text.Opens.findWord_clause (hf : Opens ks f) (c : Clause)
    (hne : ∀ v ∈ Clause.keywords c.kind, v ∉ ks) {t : Text} (ht : atWordEnd t = true) :
    findWord f (' ' :: (c.masked ++ t)) = findWord f t := by
  rw [hf.findWord_nonword rfl]
  cases c with
  | notNull =>
    have hnot : "NOT".toList.map Char.toLower ∉ ks := hne _ List.mem_cons_self
    have hnull : "NULL".toList.map Char.toLower ∉ ks :=
      hne _ (List.mem_cons_of_mem _ List.mem_cons_self)
    show findWord f ("NOT".toList ++ (' ' :: ("NULL".toList ++ t))) = _
    rw [hf.findWord_upper rfl hnot rfl, hf.findWord_nonword rfl, hf.findWord_upper rfl hnull ht]
  | primaryKey =>
    have hprimary : "PRIMARY".toList.map Char.toLower ∉ ks := hne _ List.mem_cons_self
    have hkey : "KEY".toList.map Char.toLower ∉ ks :=
      hne _ (List.mem_cons_of_mem _ List.mem_cons_self)
    show findWord f ("PRIMARY".toList ++ (' ' :: ("KEY".toList ++ t))) = _
    rw [hf.findWord_upper rfl hprimary rfl, hf.findWord_nonword rfl, hf.findWord_upper rfl hkey ht]
  | unique =>
    have hunique : "UNIQUE".toList.map Char.toLower ∉ ks := hne _ List.mem_cons_self
    exact hf.findWord_upper rfl hunique ht
  | autoIncrement =>
    have hauto : "AUTO_INCREMENT".toList.map Char.toLower ∉ ks := hne _ List.mem_cons_self
    exact hf.findWord_upper rfl hauto ht
  | default v =>
    have hdefault : "DEFAULT".toList.map Char.toLower ∉ ks := hne _ List.mem_cons_self
    show findWord f ("DEFAULT".toList ++ (' ' :: (v.masked ++ t))) = _
    rw [hf.findWord_upper rfl hdefault rfl, hf.findWord_nonword rfl]
    cases v with
    | digits d =>
      exact hf.findWord_word d.forall_word ht (hf.digits_not_mem d.ne_nil d.forall_digit)
    | quoted s hs => exact hf.findWord_enclose_blank _ t
  | comment c hc =>
    have hcomment : "COMMENT".toList.map Char.toLower ∉ ks := hne _ List.mem_cons_self
    show findWord f ("COMMENT".toList ++ (' ' ::
      (Quote.single.enclose (List.replicate c.length ' ') ++ t))) = _
    rw [hf.findWord_upper rfl hcomment rfl, hf.findWord_nonword rfl, hf.findWord_enclose_blank]

theorem Text.Opens.findWord_clauses (hf : Opens ks f) (cs : List Clause)
    (hne : ∀ c ∈ cs, ∀ v ∈ Clause.keywords c.kind, v ∉ ks) {t : Text} (ht : atWordEnd t = true) :
    findWord f (clausesMasked cs ++ t) = findWord f t := by
  induction cs with
  | nil => rfl
  | cons c cs ih =>
    have hend : atWordEnd (clausesMasked cs ++ t) = true := by
      cases cs with
      | nil => exact ht
      | cons => rfl
    have hsplit : clausesMasked (c :: cs) ++ t = ' ' :: (c.masked ++ (clausesMasked cs ++ t)) := by
      rw [clausesMasked, List.flatMap_cons, List.append_assoc]
      rfl
    rw [hsplit, hf.findWord_clause c (hne c List.mem_cons_self) hend,
      ih fun x hx => hne x (List.mem_cons_of_mem c hx)]

/-- A keyword that no clause has is not found. -/
theorem Text.Opens.findWord_clauses_eq_none (hf : Opens ks f)
    (hne : ∀ kind, ∀ v ∈ Clause.keywords kind, v ∉ ks) (cs : List Clause) :
    findWord f (clausesMasked cs) = none := by
  have h := hf.findWord_clauses cs (t := []) (fun c _ => hne c.kind) rfl
  rwa [List.append_nil, hf.findWord_nil] at h
/-! ### From clauses to attributes -/

/-- The attributes that clauses make: the clauses without the space in front. -/
def attributesText (cs : List Clause) : Text :=
  dropBlanks (clausesText cs)

theorem dropBlanks_clause (c : Clause) (t : Text) : dropBlanks (' ' :: (c.text ++ t)) =
    c.text ++ t := by
  rw [dropBlanks_space]
  cases c <;> rfl

theorem clausesText_cons (c : Clause) (cs : List Clause) :
    clausesText (c :: cs) = ' ' :: (c.text ++ clausesText cs) := rfl

theorem attributesText_cons (c : Clause) (cs : List Clause) :
    attributesText (c :: cs) = c.text ++ clausesText cs :=
  dropBlanks_clause c (clausesText cs)

/-- The space in front of the clauses does not matter to a search. -/
theorem Text.Opens.findWord_attributes (hf : Opens ks f) (cs : List Clause) :
    findWord f (maskQuoted (attributesText cs)) = findWord f (clausesMasked cs) := by
  have hmask : maskQuoted (clausesText cs) = clausesMasked cs := by
    have h := maskQuoted_clauses cs []
    rwa [List.append_nil, maskQuoted_nil, List.append_nil] at h
  cases cs with
  | nil => rfl
  | cons c cs =>
    have hspace : maskQuoted (' ' :: (c.text ++ clausesText cs)) =
        ' ' :: maskQuoted (c.text ++ clausesText cs) :=
      maskQuoted_plain_append (a := [' ']) _ rfl
    rw [← hmask, attributesText_cons, clausesText_cons, hspace, hf.findWord_nonword rfl]

/-- A keyword that no clause has is not found among the attributes. -/
theorem Text.Opens.find?_attributes (hf : Opens ks f)
    (hne : ∀ kind, ∀ v ∈ Clause.keywords kind, v ∉ ks) (cs : List Clause) :
    find? (fun before s => if atWordStart before then f s else none)
      (maskQuoted (attributesText cs)) = none := by
  rw [find?_eq_findWord, hf.findWord_attributes, hf.findWord_clauses_eq_none hne]

theorem Text.Opens.findWord_text_attributes (hf : Opens ks f) (cs : List Clause) :
    findWord f (attributesText cs) = findWord f (clausesText cs) := by
  cases cs with
  | nil => rfl
  | cons c cs => rw [attributesText_cons, clausesText_cons, hf.findWord_nonword rfl]

/-! ### Flags -/

/-- A keyword that only one kind of clause has is found if there is a clause of the kind. -/
theorem Text.Opens.isSome_findWord_clauses (hf : Opens ks f) (kind : ClauseKind)
    (hother : ∀ x, x ≠ kind → ∀ v ∈ Clause.keywords x, v ∉ ks)
    (hkind : ∀ (c : Clause) (t : Text), c.kind = kind → atWordEnd t = true →
      (f (c.masked ++ t)).isSome = true) (cs : List Clause) :
    (findWord f (clausesMasked cs)).isSome = cs.any (·.kind = kind) := by
  induction cs with
  | nil => rw [show clausesMasked [] = [] from rfl, hf.findWord_nil]; rfl
  | cons c cs ih =>
    have hsplit : clausesMasked (c :: cs) = ' ' :: (c.masked ++ clausesMasked cs) := rfl
    by_cases hc : c.kind = kind
    · obtain ⟨a, ha⟩ := Option.isSome_iff_exists.mp (hkind c _ hc (atWordEnd_clausesMasked cs))
      rw [hsplit, hf.findWord_nonword rfl, findWord_of_eq_some ha, List.any_cons, decide_eq_true hc]
      rfl
    · rw [hsplit, hf.findWord_clause c (hother c.kind hc) (atWordEnd_clausesMasked cs), ih,
        List.any_cons, decide_eq_false hc, Bool.false_or]

theorem isSome_wholePhrase? {ws : List Text} {t r : Text} (h : phrase? ws t = some r)
    (hr : atWordEnd r = true) : (wholePhrase? ws t).isSome = true := by
  rw [wholePhrase?, h, Option.filter_some, hr]
  rfl

/-- The first keywords tell the kinds of clauses apart. -/
theorem keywords_not_mem {kind x : ClauseKind} (h : x ≠ kind) :
    ∀ v ∈ Clause.keywords x, v ∉ [Clause.keyword kind] := by
  cases kind <;> cases x <;> first | exact absurd rfl h | decide

theorem opens_keywords (kind : ClauseKind) :
    Opens [Clause.keyword kind] (wholePhrase? (Clause.keywords kind)) := by
  apply opens_wholePhrase?
  · cases kind <;> rfl
  · cases kind <;> decide

/-- The keywords of a kind are found if there is a clause of the kind. -/
theorem hasPhrase_keywords (kind : ClauseKind) (cs : List Clause) :
    hasPhrase (Clause.keywords kind) (maskQuoted (attributesText cs)) =
      cs.any (·.kind = kind) := by
  have hopens := opens_keywords kind
  rw [hasPhrase_eq_findWord, hopens.findWord_attributes]
  refine hopens.isSome_findWord_clauses kind (fun x hx => keywords_not_mem hx) ?_ cs
  rintro c t rfl ht
  cases c with
  | default v => exact isSome_wholePhrase? rfl rfl
  | comment c hc => exact isSome_wholePhrase? rfl rfl
  | _ => exact isSome_wholePhrase? rfl ht

/-- No clause is the other spelling of `AUTO_INCREMENT`. -/
theorem hasPhrase_autoincrement (cs : List Clause) :
    hasPhrase ["autoincrement".toList] (maskQuoted (attributesText cs)) = false := by
  have hopens : Opens ["autoincrement".toList] (wholePhrase? ["autoincrement".toList]) :=
    opens_wholePhrase? rfl (by decide)
  rw [hasPhrase_eq_findWord, hopens.findWord_attributes, hopens.findWord_clauses_eq_none]
  · rfl
  · intro x
    cases x <;> decide

theorem isNullable_clauses (cs : List Clause) : isNullable (attributesText cs) =
    !(cs.any (·.kind = .notNull) || cs.any (·.kind = .primaryKey)) := by
  have hnotNull : hasPhrase ["not".toList, "null".toList] (maskQuoted (attributesText cs)) = _ :=
    hasPhrase_keywords .notNull cs
  have hprimaryKey : hasPhrase ["primary".toList, "key".toList] (maskQuoted (attributesText cs)) =
      _ := hasPhrase_keywords .primaryKey cs
  simp only [isNullable, hnotNull, hprimaryKey, Bool.not_or]

theorem references?_clauses (cs : List Clause) : references? (attributesText cs) = none := by
  have hne : ∀ kind, ∀ v ∈ Clause.keywords kind, v ∉ ["references".toList] := by
    intro x
    cases x <;> decide
  rw [references?]
  refine Opens.find?_attributes (opens_of_bind rfl (by decide) ?_) hne cs
  intro t h
  rw [h]
  rfl

theorem checkPredicate?_clauses (cs : List Clause) :
    checkPredicate? (attributesText cs) = none := by
  have hne : ∀ kind, ∀ v ∈ Clause.keywords kind, v ∉ ["check".toList] := by
    intro x
    cases x <;> decide
  rw [checkPredicate?, Opens.find?_attributes ⟨rfl, ?_⟩ hne cs]
  · rfl
  intro w s hw hs hword
  cases h : keyword? "check".toList (w ++ s) with
  | none => rfl
  | some r =>
    obtain ⟨c, u, hc, rfl⟩ := keyword?_inside (by decide) hw hs
      (fun h' => hword (List.mem_singleton.mpr h')) h
    have hparen : c ≠ '(' := by rintro rfl; exact absurd hc (by decide)
    rw [Option.map_some, dropBlanks_of_head _ (isBlank_of_isAsciiWord hc)]
    split
    · rename_i heq; cases heq; exact absurd rfl hparen
    · rfl

theorem columnConstraints_clauses (cs : List Clause) : columnConstraints (attributesText cs) =
    (if cs.any (·.kind = .primaryKey) then [⟨.primaryKey, none⟩] else []) ++
      (if cs.any (·.kind = .unique) then [⟨.unique, none⟩] else []) ++
      (if cs.any (·.kind = .autoIncrement) then [⟨.autoIncrement, none⟩] else []) := by
  have hprimaryKey : hasPhrase ["primary".toList, "key".toList] (maskQuoted (attributesText cs)) =
      _ := hasPhrase_keywords .primaryKey cs
  have hunique : hasPhrase ["unique".toList] (maskQuoted (attributesText cs)) = _ :=
    hasPhrase_keywords .unique cs
  have hautoIncrement : hasPhrase ["auto_increment".toList] (maskQuoted (attributesText cs)) = _ :=
    hasPhrase_keywords .autoIncrement cs
  simp only [columnConstraints, List.any_cons, List.any_nil, Bool.or_false, hprimaryKey, hunique,
    hautoIncrement, hasPhrase_autoincrement, references?_clauses, checkPredicate?_clauses,
    Option.map_none, Option.toList_none, List.append_nil]

end TableTypes
