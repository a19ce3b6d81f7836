import TableTypes.Proofs.Column.Attributes
import TableTypes.Proofs.Scan.Literal

/-!
# Default values and comments

The value behind `DEFAULT` ends where the next clause begins (`defaultRun_clauses`), and the literal
behind `COMMENT` at its quote (`columnLiteral?_plain`).  The search for `COMMENT` runs over the text
itself, so it also looks into a quoted default value, but finds no blank there
(`keyword?_bind_solid`).
-/

namespace TableTypes

open Text

/-! ### The end of a default value -/

/-- A clause that is not a default value ends one. -/
theorem startsClause_clause (c : Clause) (t : Text) (hc : c.kind ≠ .default) :
    startsClause (c.text ++ t) = true := by
  cases c with
  | default v => exact absurd rfl hc
  | _ => rfl

theorem DefaultText.getLast?_text (v : DefaultText) :
    ∀ c ∈ v.text.getLast?, isBlank c = false := by
  intro c hc
  cases v with
  | digits d => exact isBlank_of_isAsciiWord (d.forall_word c (List.mem_of_mem_getLast? hc))
  | quoted s hs =>
    have hlast : (Quote.single.enclose s).getLast? = some '\'' := by
      rw [Quote.enclose, List.getLast?_cons, List.getLast?_concat]
      rfl
    obtain rfl : '\'' = c := Option.some.inj (hlast.symm.trans hc)
    rfl

theorem DefaultText.text_ne_nil (v : DefaultText) : v.text ≠ [] := by
  cases v with
  | digits d => exact d.ne_nil
  | quoted s hs => exact List.cons_ne_nil _ _

/-- A clause does not end with a blank. -/
theorem Clause.getLast?_text (c : Clause) : ∃ x, c.text.getLast? = some x ∧ isBlank x = false := by
  cases c with
  | default v =>
    obtain ⟨x, hx⟩ : ∃ x, v.text.getLast? = some x :=
      Option.ne_none_iff_exists'.mp (by simpa using v.text_ne_nil)
    refine ⟨x, ?_, v.getLast?_text x hx⟩
    show ("DEFAULT ".toList ++ v.text).getLast? = some x
    rw [List.getLast?_append, hx]
    rfl
  | comment c hc =>
    refine ⟨'\'', ?_, rfl⟩
    show ("COMMENT ".toList ++ ('\'' :: (c ++ ['\'']))).getLast? = some '\''
    rw [List.getLast?_append, List.getLast?_cons, List.getLast?_concat]
    rfl
  | _ => exact ⟨_, rfl, rfl⟩

/-- Text in front of clauses ends with a blank only if there are no clauses. -/
theorem getLast?_clausesText (a : Text) (ha : ∀ x ∈ a.getLast?, isBlank x = false)
    (cs : List Clause) : ∀ x ∈ (a ++ clausesText cs).getLast?, isBlank x = false := by
  induction cs generalizing a with
  | nil => rwa [show clausesText [] = [] from rfl, List.append_nil]
  | cons c cs ih =>
    obtain ⟨x, hx, hblank⟩ := c.getLast?_text
    have hsplit : a ++ clausesText (c :: cs) = (a ++ ' ' :: c.text) ++ clausesText cs := by
      rw [clausesText_cons, List.append_assoc]
      rfl
    rw [hsplit]
    apply ih
    intro y hy
    rw [List.getLast?_append, List.getLast?_cons, hx] at hy
    obtain rfl : x = y := Option.some.inj hy
    exact hblank

theorem strip_clausesText (c : Clause) (cs : List Clause) :
    strip (clausesText (c :: cs)) = c.text ++ clausesText cs := by
  have hlast : ∀ x ∈ (c.text ++ clausesText cs).getLast?, isBlank x = false := by
    apply getLast?_clausesText
    obtain ⟨x, hx, hblank⟩ := c.getLast?_text
    intro y hy
    obtain rfl : x = y := Option.some.inj (hx.symm.trans hy)
    exact hblank
  have hhead : ∀ x ∈ (c.text ++ clausesText cs).head?, isBlank x = false := by
    intro x hx
    cases c <;> (cases hx; rfl)
  have hspace : strip (clausesText (c :: cs)) = strip (c.text ++ clausesText cs) := rfl
  rw [hspace, strip_eq_self hhead hlast]

/-- In front of the next clause a default value is at its end. -/
theorem defaultRun_end {cs : List Clause} (hcs : ∀ c ∈ cs.head?, c.kind ≠ .default) (before : Char)
    (opened : Bool) : defaultRun before none 0 opened (clausesText cs) = [] := by
  cases cs with
  | nil => rfl
  | cons c cs =>
    have hstarts : startsClause (strip (' ' :: (c.text ++ clausesText cs))) = true := by
      rw [← clausesText_cons, strip_clausesText]
      exact startsClause_clause c _ (hcs c rfl)
    rw [clausesText_cons, defaultRun]
    simp only [hstarts, if_true]
    rfl

/-- Outside quotes the character in front does not matter. -/
theorem defaultRun_before (before before' : Char) (depth : Int) (opened : Bool) (t : Text) :
    defaultRun before none depth opened t = defaultRun before' none depth opened t := by
  cases t <;> rfl

/-- A default value goes on over a word. -/
theorem defaultRun_word {w : Text} (hw : ∀ c ∈ w, isAsciiWord c = true) (t : Text) (opened : Bool) :
    ∀ before : Char,
      defaultRun before none 0 opened (w ++ t) = w ++ defaultRun ' ' none 0 opened t := by
  induction w with
  | nil => exact fun before => defaultRun_before before ' ' 0 opened t
  | cons c w ih =>
    intro before
    have hc : isAsciiWord c = true := hw c List.mem_cons_self
    have hblank : isBlank c = false := isBlank_of_isAsciiWord hc
    have hne : ∀ d : Char, isAsciiWord d = false → c ≠ d := by
      rintro d hd rfl
      rw [hc] at hd
      cases hd
    have hrest := ih (fun d hd => hw d (List.mem_cons_of_mem c hd)) c
    rw [List.cons_append, defaultRun]
    simp [hne '"' rfl, hne '\'' rfl, hne '(' rfl, hne ')' rfl, hblank, hrest]

/-- Inside quotes a default value goes on to the quote. -/
theorem defaultRun_quoted {s t : Text} (hquote : '\'' ∉ s) (hescape : '\\' ∉ s)
    (ht : ∀ before opened, defaultRun before none 0 opened t = []) :
    ∀ (before : Char) (opened : Bool), before ≠ '\\' →
      defaultRun before (some '\'') 0 opened (s ++ '\'' :: t) = s ++ ['\''] := by
  induction s with
  | nil =>
    intro before opened hbefore
    rw [List.nil_append, defaultRun]
    simp [hbefore, ht]
  | cons c s ih =>
    intro before opened hbefore
    have hc : c ≠ '\'' := fun h => hquote (h ▸ List.mem_cons_self)
    have hc' : c ≠ '\\' := fun h => hescape (h ▸ List.mem_cons_self)
    have hrest := ih (fun h => hquote (List.mem_cons_of_mem c h))
      (fun h => hescape (List.mem_cons_of_mem c h)) c (opened || c = '(') hc'
    rw [List.cons_append, defaultRun]
    simp [hc, hrest]

/-- **A default value ends where the next clause begins.** -/
theorem defaultRun_clauses (v : DefaultText) {cs : List Clause}
    (hcs : ∀ c ∈ cs.head?, c.kind ≠ .default) :
    defaultRun ' ' none 0 false (v.text ++ clausesText cs) = v.text := by
  cases v with
  | digits d =>
    show defaultRun ' ' none 0 false (d.text ++ clausesText cs) = d.text
    rw [defaultRun_word d.forall_word, defaultRun_end hcs, List.append_nil]
  | quoted s hs =>
    obtain ⟨hquote, hescape⟩ := not_mem_of_isDefaultChar hs
    have hrun := defaultRun_quoted hquote hescape (defaultRun_end hcs) '\'' false (by decide)
    show defaultRun ' ' none 0 false ('\'' :: (s ++ ['\''] ++ clausesText cs)) =
      '\'' :: (s ++ ['\''])
    rw [List.append_assoc, List.singleton_append, ← hrun]
    rfl

/-! ### The default value -/

theorem DefaultText.forall_solid (v : DefaultText) : ∀ c ∈ v.text, isBlank c = false := by
  intro c hc
  cases v with
  | digits d => exact isBlank_of_isAsciiWord (d.forall_word c hc)
  | quoted s hs =>
    rw [DefaultText.text, Quote.enclose, List.mem_cons, List.mem_append, List.mem_singleton] at hc
    rcases hc with rfl | hc | rfl
    · rfl
    · have h := List.all_eq_true.mp hs c hc
      simp only [isDefaultChar, Bool.and_eq_true, Bool.not_eq_true'] at h
      exact h.1.1
    · rfl

/-- There are no quotes around what does not begin with one. -/
theorem unquoteSimple_of_head {t : Text} (ht : ∀ c ∈ t.head?, c ≠ '"' ∧ c ≠ '\'') :
    unquoteSimple t = t := by
  unfold unquoteSimple
  split
  · rename_i q c rest
    obtain ⟨hdouble, hsingle⟩ := ht q rfl
    simp [hdouble, hsingle]
  · rfl

theorem unquoteSimple_of_word {t : Text} (ht : ∀ c ∈ t.head?, isAsciiWord c = true) :
    unquoteSimple t = t := by
  apply unquoteSimple_of_head
  intro c hc
  have hword := ht c hc
  constructor <;> (rintro rfl; exact absurd hword (by decide))

theorem unquoteSimple_text (v : DefaultText) : unquoteSimple v.text = v.value := by
  cases v with
  | digits d =>
    exact unquoteSimple_of_word fun c hc => d.forall_word c (List.mem_of_mem_head? hc)
  | quoted s hs =>
    have hspace : ' ' ∉ s := fun h => absurd (List.all_eq_true.mp hs _ h) (by decide)
    show unquoteSimple ('\'' :: (s ++ ['\''])) = s
    obtain ⟨c, rest, hrest⟩ := List.exists_cons_of_ne_nil (l := s ++ ['\'']) (by simp)
    rw [hrest, unquoteSimple]
    simp only [← hrest, List.getLast?_concat, List.dropLast_concat]
    simp [hspace]

/-- What stands in front of a clause and behind it. -/
theorem attributesText_append (as : List Clause) (c : Clause) (bs : List Clause) :
    ∃ p, attributesText (as ++ c :: bs) = p ++ (c.text ++ clausesText bs) := by
  cases as with
  | nil => exact ⟨[], attributesText_cons c bs⟩
  | cons a as =>
    refine ⟨a.text ++ clausesText as ++ [' '], ?_⟩
    rw [List.cons_append, attributesText_cons, clausesText, List.flatMap_append, ← clausesText,
      ← clausesText, clausesText_cons, List.append_assoc, List.append_assoc]
    rfl

/-- What the search for a default value finds behind clauses of other kinds. -/
theorem afterDefault?_clauses {as : List Clause} (has : ∀ c ∈ as, c.kind ≠ .default)
    (v : DefaultText) (bs : List Clause) :
    afterDefault? (attributesText (as ++ .default v :: bs)) = some (v.text ++ clausesText bs) := by
  have hopens : Opens ["default".toList] fun s => (keyword? "default".toList s).bind dropBlanks1? :=
    opens_of_bind rfl (by decide) fun _ h => h
  have hmask : clausesMasked (as ++ .default v :: bs) =
      clausesMasked as ++ ' ' :: ("DEFAULT ".toList ++ (v.masked ++ clausesMasked bs)) := by
    rw [clausesMasked, List.flatMap_append, List.flatMap_cons]
    show _ ++ (' ' :: ("DEFAULT ".toList ++ v.masked) ++ _) = _
    rw [List.cons_append, List.append_assoc]
    rfl
  have hblank : dropBlanks1? (' ' :: (v.masked ++ clausesMasked bs)) =
      some (v.masked ++ clausesMasked bs) := by
    cases v with
    | digits d => exact congrArg some (dropBlanks_word d.ne_nil d.forall_word _)
    | quoted s hs => rfl
  have hfind : findWord (fun s => (keyword? "default".toList s).bind dropBlanks1?)
      (maskQuoted (attributesText (as ++ .default v :: bs))) =
        some (v.masked ++ clausesMasked bs) := by
    rw [hopens.findWord_attributes, hmask, hopens.findWord_clauses as ?_ rfl,
      hopens.findWord_nonword rfl]
    · exact findWord_of_eq_some hblank
    · intro c hc
      exact keywords_not_mem (has c hc)
  obtain ⟨p, hp⟩ := attributesText_append as (.default v) bs
  have hsuffix : suffixLike (attributesText (as ++ .default v :: bs))
      (v.masked ++ clausesMasked bs) = v.text ++ clausesText bs := by
    have hsplit : attributesText (as ++ .default v :: bs) =
        (p ++ "DEFAULT ".toList) ++ (v.text ++ clausesText bs) := by
      rw [hp, List.append_assoc, ← List.append_assoc "DEFAULT ".toList]
      rfl
    rw [hsplit]
    apply suffixLike_append
    rw [List.length_append, List.length_append, v.length_masked, length_clausesMasked]
  rw [afterDefault?, find?_eq_findWord, hfind, Option.map_some, hsuffix]

theorem afterDefault?_eq_none {cs : List Clause} (hcs : ∀ c ∈ cs, c.kind ≠ .default) :
    afterDefault? (attributesText cs) = none := by
  have hopens : Opens ["default".toList] fun s => (keyword? "default".toList s).bind dropBlanks1? :=
    opens_of_bind rfl (by decide) fun _ h => h
  have hfind := hopens.findWord_clauses cs (t := [])
    (fun c hc => keywords_not_mem (hcs c hc)) rfl
  rw [List.append_nil, hopens.findWord_nil] at hfind
  rw [afterDefault?, find?_eq_findWord, hopens.findWord_attributes, hfind]
  rfl

theorem default?_eq_none {c : Clause} (hc : c.kind ≠ .default) : c.default? = none := by
  cases c with
  | default v => exact absurd rfl hc
  | _ => rfl

/-- The default value among clauses of different kinds. -/
theorem defaultValue?_clauses {cs : List Clause} (hcs : (cs.map Clause.kind).Nodup) :
    defaultValue? (attributesText cs) = (cs.findSome? Clause.default?).map DefaultText.value := by
  by_cases h : ∀ c ∈ cs, c.kind ≠ .default
  · have hnone : cs.findSome? Clause.default? = none :=
      List.findSome?_eq_none_iff.mpr fun c hc => default?_eq_none (h c hc)
    rw [defaultValue?, afterDefault?_eq_none h, hnone]
    rfl
  · push Not at h
    obtain ⟨c, hc, hkind⟩ := h
    obtain ⟨v, rfl⟩ : ∃ v, c = .default v := by
      cases c with
      | default v => exact ⟨v, rfl⟩
      | _ => cases hkind
    obtain ⟨as, bs, rfl⟩ := List.append_of_mem hc
    -- The kinds are different, so no other clause is a default value.
    rw [List.map_append, List.map_cons, List.nodup_append, List.nodup_cons] at hcs
    obtain ⟨-, ⟨hbs, -⟩, hne⟩ := hcs
    have has : ∀ a ∈ as, a.kind ≠ .default := fun a ha =>
      hne a.kind (List.mem_map_of_mem ha) _ List.mem_cons_self
    have hhead : ∀ b ∈ bs.head?, b.kind ≠ .default := fun b hb h =>
      hbs (List.mem_map.mpr ⟨b, List.mem_of_mem_head? hb, h⟩)
    have hnone : as.findSome? Clause.default? = none :=
      List.findSome?_eq_none_iff.mpr fun a ha => default?_eq_none (has a ha)
    have hsome : (as ++ .default v :: bs).findSome? Clause.default? = some v := by
      rw [List.findSome?_append, hnone]
      rfl
    rw [defaultValue?, afterDefault?_clauses has, hsome, Option.map_some,
      defaultRun_clauses v hhead, strip_of_forall v.forall_solid, unquoteSimple_text]
    rfl

/-! ### The comment -/

/-- The literal behind the word `COMMENT` at the front of a text, with its quote. -/
def commentLiteral? (s : Text) : Option (Char × Text) :=
  match (keyword? "comment".toList s).bind dropBlanks1? with
  | some (q :: t) => if q = '\'' || q = '"' then (columnLiteral? q t).map (q, ·) else none
  | _ => none

theorem columnComment?_eq (attributes : Text) : columnComment? attributes =
    (findWord commentLiteral? attributes).bind fun (q, body) =>
      if body.isEmpty then none else some (unescape q body) := rfl

theorem opens_commentLiteral? : Opens ["comment".toList] commentLiteral? := by
  apply opens_of_bind rfl (by decide)
  intro t h
  rw [commentLiteral?, h]

/-- In a text without blanks no keyword is followed by one. -/
theorem keyword?_bind_solid {q : Char} (hword : isWord q = false) (hblank : isBlank q = false)
    (t : Text) {u : Text} (hu : ∀ c ∈ u, isBlank c = false) : ∀ {k : Text},
    isKeyword k = true → (keyword? k (u ++ q :: t)).bind dropBlanks1? = none := by
  induction u with
  | nil =>
    intro k hk
    cases k with
    | nil => exact dropBlanks1?_of_head t hblank
    | cons x k =>
      rw [List.nil_append, keyword?, matchesLetter_eq_false (isKeyword_cons.mp hk).1.1 hword]
      rfl
  | cons c u ih =>
    intro k hk
    cases k with
    | nil => exact dropBlanks1?_of_head _ (hu c List.mem_cons_self)
    | cons x k =>
      rw [List.cons_append, keyword?]
      split
      · exact ih (fun d hd => hu d (List.mem_cons_of_mem c hd)) (isKeyword_cons.mp hk).2
      · rfl

/-- The search for a comment passes over a quoted default value, whatever words stand in it. -/
theorem findWord_comment_solid {s : Text} (hs : ∀ c ∈ s, isBlank c = false) (t : Text) :
    findWord commentLiteral? (Quote.single.enclose s ++ t) = findWord commentLiteral? t := by
  have hpass : ∀ c v, c :: v <:+ s → commentLiteral? (c :: v ++ '\'' :: t) = none := by
    intro c v hv
    have hnone := keyword?_bind_solid (q := '\'') rfl rfl t (fun d hd => hs d (hv.subset hd))
      (k := "comment".toList) (by decide)
    rw [commentLiteral?, hnone]
  have hsplit : Quote.single.enclose s ++ t = '\'' :: (s ++ '\'' :: t) := by
    simp [Quote.enclose, Quote.char]
  rw [hsplit, opens_commentLiteral?.findWord_nonword rfl, findWord,
    findWordFrom_pass _ _ hpass, opens_commentLiteral?.findWordFrom_nonword rfl]

/-- A clause that is no comment is passed over in the text itself, too. -/
theorem findWord_comment_clause (c : Clause) (hc : c.kind ≠ .comment) {t : Text}
    (ht : atWordEnd t = true) :
    findWord commentLiteral? (' ' :: (c.text ++ t)) = findWord commentLiteral? t := by
  have hmasked := opens_commentLiteral?.findWord_clause c (keywords_not_mem hc) ht
  cases c with
  | default v =>
    cases v with
    | digits d => exact hmasked
    | quoted s hs =>
      have hsolid : ∀ x ∈ s, isBlank x = false := fun x hx =>
        (DefaultText.quoted s hs).forall_solid x
          (List.mem_cons_of_mem _ (List.mem_append_left _ hx))
      have hdefault : "DEFAULT".toList.map Char.toLower ∉ ["comment".toList] := by decide
      show findWord commentLiteral?
        (' ' :: ("DEFAULT".toList ++ (' ' :: (Quote.single.enclose s ++ t)))) = _
      rw [opens_commentLiteral?.findWord_nonword rfl,
        opens_commentLiteral?.findWord_upper rfl hdefault rfl,
        opens_commentLiteral?.findWord_nonword rfl, findWord_comment_solid hsolid]
  | comment c _ => exact absurd rfl hc
  | _ => exact hmasked

/-- A literal without quotes and backslashes inside ends at its quote. -/
theorem columnLiteral?_plain {q : Char} {c t : Text} (hquote : q ∉ c) (hescape : '\\' ∉ c)
    (ht : t.head? ≠ some q) : columnLiteral? q (c ++ q :: t) = some c := by
  induction c with
  | nil =>
    cases t with
    | nil => simp [columnLiteral?]
    | cons d t =>
      have hd : d ≠ q := fun h => ht (congrArg some h)
      simp [columnLiteral?, hd]
  | cons x c ih =>
    rw [List.mem_cons, not_or] at hquote hescape
    have hx : x ≠ q := fun h => hquote.1 h.symm
    have hx' : x ≠ '\\' := fun h => hescape.1 h.symm
    have hrest := ih hquote.2 hescape.2
    obtain ⟨d, s, hs⟩ := List.exists_cons_of_ne_nil (l := c ++ q :: t) (by simp)
    rw [hs] at hrest
    rw [List.cons_append, hs, columnLiteral?, if_neg hx]
    simp [hx', hrest]

/-- The first comment among clauses, as the search finds it. -/
theorem findWord_comment_clauses (cs : List Clause) :
    findWord commentLiteral? (clausesText cs) =
      (cs.findSome? Clause.comment?).map ('\'', ·) := by
  induction cs with
  | nil => exact opens_commentLiteral?.findWord_nil
  | cons c cs ih =>
    rw [clausesText_cons]
    by_cases hc : c.kind = .comment
    · obtain ⟨c, hfree, rfl⟩ : ∃ t h, c = .comment t h := by
        cases c with
        | comment t h => exact ⟨t, h, rfl⟩
        | _ => cases hc
      obtain ⟨hquote, hescape⟩ := not_mem_of_isCommentChar hfree
      have hend : (clausesText cs).head? ≠ some '\'' := by
        cases cs with
        | nil => decide
        | cons b bs =>
          show some ' ' ≠ some '\''
          decide
      have hread : commentLiteral? ("COMMENT ".toList ++ '\'' :: (c ++ '\'' :: clausesText cs)) =
          some ('\'', c) := by
        show (columnLiteral? '\'' (c ++ '\'' :: clausesText cs)).map ('\'', ·) = _
        rw [columnLiteral?_plain hquote hescape hend]
        rfl
      have hsplit : (Clause.comment c hfree).text ++ clausesText cs =
          "COMMENT ".toList ++ '\'' :: (c ++ '\'' :: clausesText cs) := by
        show "COMMENT ".toList ++ ('\'' :: (c ++ ['\''])) ++ clausesText cs = _
        rw [List.append_assoc, List.cons_append, List.append_assoc]
        rfl
      rw [opens_commentLiteral?.findWord_nonword rfl, hsplit, findWord_of_eq_some hread]
      rfl
    · have hnone : c.comment? = none := by
        cases c with
        | comment t h => exact absurd rfl hc
        | _ => rfl
      rw [findWord_comment_clause c hc (atWordEnd_clausesText cs), ih, List.findSome?_cons, hnone]

theorem unescape_plain {q : Char} {c : Text} (hquote : q ∉ c) (hescape : '\\' ∉ c) :
    unescape q c = c := by
  have hsingle : replace "\\'".toList ['\''] c = c := replace_eq_self hescape
  have hdouble : replace "\\\"".toList ['"'] c = c := replace_eq_self hescape
  rw [unescape, replace_eq_self hquote, hsingle, hdouble]

/-- The comment among clauses, wherever it stands. -/
theorem columnComment?_clauses (cs : List Clause) : columnComment? (attributesText cs) =
    (cs.findSome? Clause.comment?).filter (!·.isEmpty) := by
  rw [columnComment?_eq, opens_commentLiteral?.findWord_text_attributes,
    findWord_comment_clauses]
  cases h : cs.findSome? Clause.comment? with
  | none => rfl
  | some c =>
    obtain ⟨x, -, hx⟩ := List.exists_of_findSome?_eq_some h
    obtain ⟨hquote, hescape⟩ : '\'' ∉ c ∧ '\\' ∉ c := by
      cases x with
      | comment t ht => cases hx; exact not_mem_of_isCommentChar ht
      | _ => cases hx
    show (if c.isEmpty then none else some (unescape '\'' c)) = _
    rw [unescape_plain hquote hescape, Option.filter_some]
    cases c <;> rfl

end TableTypes
