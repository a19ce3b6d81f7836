import TableTypes.Proofs.TableConstraints.Reading

/-!
# Cutting out the parts of a constraint

Names that are joined with commas are read back as they are (`identifierList_join`).  What the
readers find in the masked list are places; cut out of the list itself they give the constraint that
was written (`ConstraintText.constraint?_span`).
-/

namespace TableTypes

open Text

/-! ### Lists of names -/

theorem isIdentifierQuote_of_isAsciiWord {c : Char} (hc : isAsciiWord c = true) :
    isIdentifierQuote c = false := by
  rw [← Bool.not_eq_true]
  intro h
  simp only [isIdentifierQuote, Bool.or_eq_true, decide_eq_true_eq] at h
  rcases h with (rfl | rfl) | rfl
  · exact absurd hc (by decide)
  · exact absurd hc (by decide)
  · exact absurd hc (by decide)

theorem unquoteIdentifier_of_strip {t w : Text} {c : Char} (hstrip : strip t = c :: w)
    (hc : isIdentifierQuote c = false) : unquoteIdentifier t = c :: w := by
  unfold unquoteIdentifier
  rw [hstrip]
  cases w with
  | nil => rfl
  | cons d w => simp [hc]

/-- A name as it stands between the commas of a list: without blanks and commas, and without a quote
in front. -/
structure IsListed (w : Text) : Prop where
  head : ∃ c v, w = c :: v ∧ isIdentifierQuote c = false
  solid : ∀ c ∈ w, isBlank c = false ∧ c ≠ ','

namespace IsListed

variable {w : Text} (h : IsListed w)

include h

theorem ne_nil : w ≠ [] := by
  obtain ⟨c, v, rfl, -⟩ := h.head
  exact List.cons_ne_nil c v

theorem comma_not_mem : ',' ∉ w :=
  fun hc => (h.solid _ hc).2 rfl

/-- The name is read as it is, with or without a space in front. -/
theorem unquoteIdentifier :
    unquoteIdentifier w = w ∧ unquoteIdentifier (' ' :: w) = w := by
  obtain ⟨c, v, rfl, hc⟩ := h.head
  have hstrip : strip (c :: v) = c :: v := strip_of_forall fun d hd => (h.solid d hd).1
  have hspace : strip (' ' :: c :: v) = c :: v := hstrip
  exact ⟨unquoteIdentifier_of_strip hstrip hc, unquoteIdentifier_of_strip hspace hc⟩

end IsListed

theorem Bareword.isListed {reserved : List Text} (b : Bareword reserved) : IsListed b.text := by
  obtain ⟨c, v, hv⟩ := List.exists_cons_of_ne_nil b.ne_nil
  have hc : isAsciiWord c = true := b.forall_word c (hv ▸ List.mem_cons_self)
  refine ⟨⟨c, v, hv, isIdentifierQuote_of_isAsciiWord hc⟩, fun d hd => ?_⟩
  refine ⟨b.forall_solid d hd, ?_⟩
  rintro rfl
  exact absurd (b.forall_word _ hd) (by decide)

/-- The parts between the commas of joined names. -/
theorem splitOnChar_join_space (w : Text) (ws : List Text) (h : ∀ x ∈ w :: ws, ',' ∉ x) :
    splitOnChar ',' (join [',', ' '] (w :: ws)) = w :: ws.map (' ' :: ·) := by
  induction ws generalizing w with
  | nil =>
    rw [join_cons, List.flatMap_nil, List.append_nil,
      splitOnChar_of_not_mem (h w List.mem_cons_self)]
    rfl
  | cons v ws ih =>
    rw [List.forall_mem_cons, List.forall_mem_cons] at h
    -- The space goes to the name behind it.
    have hspace : [' '] ++ join [',', ' '] (v :: ws) = join [',', ' '] ((' ' :: v) :: ws) := by
      rw [join_cons, join_cons]
      rfl
    have hv : ∀ x ∈ (' ' :: v) :: ws, ',' ∉ x := by
      rw [List.forall_mem_cons, List.mem_cons, not_or]
      exact ⟨⟨by decide, h.2.1⟩, h.2.2⟩
    rw [join_cons_cons]
    show splitOnChar ',' (w ++ ',' :: ([' '] ++ join [',', ' '] (v :: ws))) = _
    rw [hspace, splitOnChar_append, splitOnChar_of_not_mem h.1, ih _ hv]
    rfl

/-- Joined texts without commas are alike only if they are joined from the same texts. -/
theorem join_inj {ws vs : List Text} (hws : ws ≠ []) (hvs : vs ≠ []) (hw : ∀ x ∈ ws, ',' ∉ x)
    (hv : ∀ x ∈ vs, ',' ∉ x) : join [',', ' '] ws = join [',', ' '] vs ↔ ws = vs := by
  refine ⟨fun h => ?_, congrArg _⟩
  obtain ⟨w, ws, rfl⟩ := List.exists_cons_of_ne_nil hws
  obtain ⟨v, vs, rfl⟩ := List.exists_cons_of_ne_nil hvs
  have hsplit := congrArg (splitOnChar ',') h
  rw [splitOnChar_join_space w ws hw, splitOnChar_join_space v vs hv, List.cons.injEq,
    (List.map_injective_iff.mpr List.cons_injective).eq_iff] at hsplit
  rw [hsplit.1, hsplit.2]

/-- Between the commas of a list the text `w` is read as the name `v`. -/
structure IsListedAs (w v : Text) : Prop where
  comma_not_mem : ',' ∉ w
  ne_nil : v ≠ []
  first : unquoteIdentifier w = v
  later : unquoteIdentifier (' ' :: w) = v

theorem IsListed.as {w : Text} (h : IsListed w) : IsListedAs w w :=
  ⟨h.comma_not_mem, h.ne_nil, h.unquoteIdentifier.1, h.unquoteIdentifier.2⟩

/-- **Joined texts are read as the names that they are.** -/
theorem identifierList_join_as {ι : Type} {text name : ι → Text} {is : List ι} (hne : is ≠ [])
    (h : ∀ i ∈ is, IsListedAs (text i) (name i)) :
    identifierList (join [',', ' '] (is.map text)) = is.map name := by
  obtain ⟨i, is, rfl⟩ := List.exists_cons_of_ne_nil hne
  have hcomma : ∀ x ∈ text i :: is.map text, ',' ∉ x := by
    intro x hx
    obtain ⟨j, hj, rfl⟩ := List.mem_map.mp (List.map_cons ▸ hx : x ∈ (i :: is).map text)
    exact (h j hj).comma_not_mem
  have hmap : (splitOnChar ',' (join [',', ' '] ((i :: is).map text))).map unquoteIdentifier =
      (i :: is).map name := by
    rw [List.map_cons, splitOnChar_join_space _ _ hcomma, List.map_cons, List.map_map, List.map_map,
      List.map_cons, (h i List.mem_cons_self).first]
    exact congrArg (name i :: ·) (List.map_congr_left fun j hj =>
      (h j (List.mem_cons_of_mem i hj)).later)
  rw [identifierList, hmap, List.filter_eq_self]
  intro x hx
  obtain ⟨j, hj, rfl⟩ := List.mem_map.mp hx
  rw [Bool.not_eq_true', List.isEmpty_eq_false_iff]
  exact (h j hj).ne_nil

theorem identifierList_join {ws : List Text} (hne : ws ≠ []) (h : ∀ w ∈ ws, IsListed w) :
    identifierList (join [',', ' '] ws) = ws := by
  have hjoin : identifierList (join [',', ' '] (ws.map id)) = ws.map id :=
    identifierList_join_as hne fun w hw => (h w hw).as
  rwa [List.map_id] at hjoin

/-- A column list is read as its names. -/
theorem identifierList_text (l : ColumnList) : identifierList l.text = l.names := by
  refine identifierList_join (List.cons_ne_nil _ _) fun w hw => ?_
  obtain ⟨b, -, rfl⟩ := List.mem_map.mp hw
  exact b.isListed

/-! ### Constraints -/

/-- The name of a constraint stands in front of its column list. -/
theorem ConstraintHead.exists_text_eq {h : ConstraintHead} {n : Identifier}
    (hname : h.name? = some n) : ∃ k, h.text = k ++ n.text := by
  cases h with
  | uniqueKey m =>
    obtain rfl : m = n := Option.some.inj hname
    exact ⟨_, rfl⟩
  | key m =>
    obtain rfl : m = n := Option.some.inj hname
    exact ⟨_, rfl⟩
  | index m =>
    obtain rfl : m = n := Option.some.inj hname
    exact ⟨_, rfl⟩
  | _ => cases hname

namespace ConstraintText

variable (c : ConstraintText) (p : Text) {s t : Text}

theorem between_columns (h : s.length = t.length) :
    between (p ++ (c.text ++ t)) (c.span s).columns.1 (c.span s).columns.2 = c.columns.text := by
  have hsplit : p ++ (c.text ++ t) =
      (p ++ (labelText c.label ++ (c.head.text ++ [' ', '(']))) ++ c.columns.text ++
        (')' :: (c.head.tail ++ t)) := by
    simp only [text, body, List.append_assoc, List.cons_append, List.nil_append]
  rw [hsplit]
  apply between_append
  · simp only [span, List.length_append, List.length_cons, h]
  · simp only [span, List.length_append, List.length_cons, h]

theorem between_label {n : Identifier} (hlabel : c.label = some n) (h : s.length = t.length) :
    between (p ++ (c.text ++ t)) (n.text ++ ' ' :: (c.body ++ s)) (' ' :: (c.body ++ s)) =
      n.text := by
  have hsplit : p ++ (c.text ++ t) = (p ++ "CONSTRAINT ".toList) ++ n.text ++
      (' ' :: (c.body ++ t)) := by
    have htext : labelText c.label = "CONSTRAINT ".toList ++ (n.text ++ [' ']) := by
      rw [hlabel]
      rfl
    simp only [text, htext, List.append_assoc, List.cons_append, List.nil_append]
  rw [hsplit]
  apply between_append
  · simp only [List.length_append, List.length_cons, h]
  · simp only [List.length_append, List.length_cons, h]

theorem between_name {n : Identifier} (hname : c.head.name? = some n) (h : s.length = t.length) :
    between (p ++ (c.text ++ t)) (n.text ++ c.behindHead s) (c.behindHead s) = n.text := by
  obtain ⟨k, hk⟩ := ConstraintHead.exists_text_eq hname
  have hsplit : p ++ (c.text ++ t) = (p ++ (labelText c.label ++ k)) ++ n.text ++
      c.behindHead t := by
    rw [text, List.append_assoc, c.body_append, hk]
    simp only [List.append_assoc]
  have hlength : (c.behindHead s).length = (c.behindHead t).length := by
    simp only [behindHead, List.length_append, h]
  rw [hsplit]
  apply between_append
  · rw [List.length_append, hlength]
  · exact hlength

/-- The name is cut out where it stands, and else the label. -/
theorem name_span (h : s.length = t.length) :
    (c.span s).name.map (fun span => unquoteIdentifier
      (between (p ++ (c.text ++ t)) span.1 span.2)) =
        (c.head.name? <|> c.label).map Bareword.text := by
  cases hname : c.head.name? with
  | some n =>
    have hspan : (c.span s).name = some (n.text ++ c.behindHead s, c.behindHead s) := by
      rw [span, hname]
      rfl
    rw [hspan, Option.map_some, c.between_name p hname h, n.isListed.unquoteIdentifier.1]
    rfl
  | none =>
    have hspan : (c.span s).name = c.labelSpan s := by
      rw [span, hname]
      rfl
    rw [hspan, labelSpan]
    cases hlabel : c.label with
    | none => rfl
    | some n =>
      rw [Option.map_some, Option.map_some, c.between_label p hlabel h,
        n.isListed.unquoteIdentifier.1]
      rfl

theorem between_reference {r : Identifier} {l : ColumnList} (hhead : c.head = .foreignKey r l)
    (h : s.length = t.length) :
    between (p ++ (c.text ++ t)) (r.text ++ ([' ', '('] ++ (l.text ++ ([')'] ++ s))))
        ([' ', '('] ++ (l.text ++ ([')'] ++ s))) = r.text ∧
      between (p ++ (c.text ++ t)) (l.text ++ ')' :: s) (')' :: s) = l.text := by
  have hsplit : p ++ (c.text ++ t) =
      (p ++ (labelText c.label ++ (c.head.text ++ ([' ', '('] ++ (c.columns.text ++ ([')'] ++
        " REFERENCES ".toList)))))) ++ r.text ++ ([' ', '('] ++ (l.text ++ ([')'] ++ t))) := by
    have htail : c.head.tail =
        " REFERENCES ".toList ++ (r.text ++ ([' ', '('] ++ (l.text ++ [')']))) := by
      rw [hhead]
      rfl
    simp only [text, body, htail, List.append_assoc]
  constructor
  · rw [hsplit]
    apply between_append
    · simp only [List.length_append, h]
    · simp only [List.length_append, h]
  · have hsplit' : p ++ (c.text ++ t) =
        (p ++ (labelText c.label ++ (c.head.text ++ ([' ', '('] ++ (c.columns.text ++ ([')'] ++
          (" REFERENCES ".toList ++ (r.text ++ [' ', '('])))))))) ++ l.text ++ ([')'] ++ t) := by
      rw [hsplit]
      simp only [List.append_assoc]
    rw [hsplit']
    apply between_append
    · simp only [List.length_append, List.length_cons, List.length_nil, h]
      omega
    · simp only [List.length_append, List.length_cons, List.length_nil, h]
      omega

/-- **What a reader finds of a constraint is cut out as the constraint itself.** -/
theorem constraint?_span (h : s.length = t.length) :
    (c.span s).constraint? c.head.kind (p ++ (c.text ++ t)) = some c.constraint := by
  have hcolumns : c.columns.names.isEmpty = false := rfl
  rw [ConstraintSpan.constraint?]
  simp only [c.between_columns p h, identifierList_text, hcolumns, c.name_span p h]
  rw [constraint]
  cases hhead : c.head with
  | foreignKey r l =>
    have href : (c.span s).reference = some ((r.text ++ ([' ', '('] ++ (l.text ++ ([')'] ++ s))),
        [' ', '('] ++ (l.text ++ ([')'] ++ s))), (l.text ++ ')' :: s, ')' :: s)) := by
      rw [span, hhead]
    obtain ⟨htable, htarget⟩ := c.between_reference p hhead h
    have htargets : l.names.isEmpty = false := rfl
    rw [href]
    simp only [htable, htarget, identifierList_text, htargets, r.isListed.unquoteIdentifier.1]
    rfl
  | _ =>
    have href : (c.span s).reference = none := by
      rw [span, hhead]
    rw [href]
    rfl

end ConstraintText

end TableTypes
