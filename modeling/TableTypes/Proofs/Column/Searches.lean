import TableTypes.Proofs.Column.Values
import TableTypes.Proofs.Column.Sound
import TableTypes.Proofs.Scan.Names
import TableTypes.Proofs.Scan.Segments
import TableTypes.Proofs.Text.Barrier

/-!
# Searches among attributes

What the attributes of a column declare is found by searches, one for each phrase of
`attributePhrases` and one each for a default value, a reference, a check and a comment.  Where
attributes are divided by a barrier (`Divides`), a search for words finds something if it does so on
one side.  The searches for values find the same value when more text follows that they are not
interested in: a reference (`references?_append`), a check (`checkPredicate?_append`) and a
comment (`commentLiteral?_append`).
-/

namespace TableTypes

open Text

variable {a b z : Text} {x : Char}

/-! ### Phrases -/

/-- The phrases that are searched for among the attributes. -/
def attributePhrases : List (List Text) :=
  [["not".toList, "null".toList], ["primary".toList, "key".toList], ["unique".toList],
    ["auto_increment".toList], ["autoincrement".toList]]

theorem exists_of_mem_attributePhrases {ws : List Text} (hws : ws ∈ attributePhrases) :
    ∃ k ks, ws = k :: ks ∧ k.head?.any (!isAsciiDigit ·) = true ∧
      ∀ w ∈ k :: ks, isKeyword w = true := by
  have hall : attributePhrases.all (fun ws =>
      (ws.head?.any fun k => k.head?.any (!isAsciiDigit ·)) && ws.all isKeyword) = true := by decide
  have h := List.all_eq_true.mp hall ws hws
  cases ws with
  | nil => cases h
  | cons k ks =>
    rw [Bool.and_eq_true, List.head?_cons, Option.any_some] at h
    exact ⟨k, ks, rfl, h.1, List.all_eq_true.mp h.2⟩

section

variable (h : ∀ ws ∈ attributePhrases,
  hasPhrase ws (maskQuoted a) = hasPhrase ws (maskQuoted b))

include h

theorem isNullable_congr : isNullable a = isNullable b := by
  rw [isNullable, isNullable, h _ (by decide), h _ (by decide)]

theorem declares_congr {kind : ColumnConstraintKind}
    (hkind : kind ∈ [.primaryKey, .unique, .autoIncrement]) :
    declares a kind = declares b kind := by
  rw [declares_eq, declares_eq]
  cases kind with
  | primaryKey => exact h _ (by decide)
  | unique => exact h _ (by decide)
  | autoIncrement =>
    simp only
    rw [h _ (by decide), h _ (by decide)]
  | foreignKey => exact absurd hkind (by decide)
  | check => exact absurd hkind (by decide)

/-- The constraints are told by the phrases, the reference and the check. -/
theorem columnConstraints_congr (hreference : references? a = references? b)
    (hcheck : checkPredicate? a = checkPredicate? b) :
    columnConstraints a = columnConstraints b := by
  have hprimaryKey := h ["primary".toList, "key".toList] (by decide)
  have hunique := h ["unique".toList] (by decide)
  have hautoIncrement := h ["auto_increment".toList] (by decide)
  have hautoincrement := h ["autoincrement".toList] (by decide)
  rw [columnConstraints, columnConstraints, hreference, hcheck]
  simp only [List.any_cons, List.any_nil, hprimaryKey, hunique, hautoIncrement, hautoincrement]
  rfl

end

/-! ### Attributes on both sides of a barrier -/

/-- A search for words in `t` that does not go beyond barriers finds something if and only if it
finds something in `a` or in `b`. -/
def Divides (t a b : Text) : Prop :=
  ∀ (ks : List Text) (f : Text → Option Text), Opens ks f →
    (∀ x, isWord x = false → isBlank x = false → StopsAt x f) →
      (findWord f (maskQuoted t)).isSome =
        ((findWord f (maskQuoted a)).isSome || (findWord f (maskQuoted b)).isSome)

theorem maskQuoted_barrier (ha : (spotBehind false a).place = .code) (hx : isPlain x = true)
    (hstar : x ≠ '*') (b : Text) :
    maskQuoted (a ++ x :: b) = maskQuoted a ++ x :: maskQuoted b := by
  obtain ⟨hquote, hdash, -, -⟩ := isPlain_iff.mp hx
  have hplain : [x].all isPlain = true := by rw [List.all_cons, hx]; rfl
  rw [maskQuoted_append (.of_head ha rfl ⟨hquote, hdash, hstar⟩)]
  exact congrArg _ (maskQuoted_plain_append b hplain)

theorem divides_barrier (ha : (spotBehind false a).place = .code) (hx : isPlain x = true)
    (hstar : x ≠ '*') (hword : isWord x = false) (hblank : isBlank x = false) (b : Text) :
    Divides (a ++ x :: b) a b := by
  intro ks f hf hstop
  rw [maskQuoted_barrier ha hx hstar, hf.isSome_findWord_barrier hword (hstop x hword hblank)]

namespace Divides

variable {t : Text} (h : Divides t a b)

include h

theorem hasPhrase {ws : List Text} (hws : ws ∈ attributePhrases) :
    hasPhrase ws (maskQuoted t) =
      (Text.hasPhrase ws (maskQuoted a) || Text.hasPhrase ws (maskQuoted b)) := by
  obtain ⟨k, ks, rfl, hinitial, hks⟩ := exists_of_mem_attributePhrases hws
  exact h _ _ (opens_wholePhrase? hinitial (hks k List.mem_cons_self)) fun _ hword hblank =>
    stopsAt_wholePhrase? hword hblank hks

end Divides

/-! ### The word for a default value -/

theorem opens_defaultWord? : Opens ["default".toList] defaultWord? :=
  opens_of_bind rfl (by decide) fun _ h => h

theorem stopsAt_defaultWord? (hword : isWord x = false) (hblank : isBlank x = false) :
    StopsAt x defaultWord? :=
  (stopsAt_keyword? hword (by decide)).bind (stopsAt_dropBlanks1? hblank)

/-- Where the word does not occur there is no default value. -/
theorem findWord_defaultWord?_eq_none {t : Text} (h : hasPhrase ["default".toList] t = false) :
    findWord defaultWord? t = none := by
  rw [← Option.not_isSome_iff_eq_none]
  intro hsome
  obtain ⟨u, s, rfl, hstart, hs⟩ := isSome_findWord_iff.mp hsome
  obtain ⟨r, hr⟩ := Option.isSome_iff_exists.mp hs
  obtain ⟨w, hw, hr⟩ := Option.bind_eq_some_iff.mp hr
  obtain ⟨c, w, rfl⟩ : ∃ c y, w = c :: y := by
    cases w with
    | nil => cases hr
    | cons c w => exact ⟨c, w, rfl⟩
  -- A blank ends the word.
  have hend : atWordEnd (c :: w) = true := by
    rw [dropBlanks1?] at hr
    split at hr
    · rename_i hc
      exact atWordEnd_cons (isWord_of_isBlank hc) w
    · cases hr
  have hphrase : (wholePhrase? ["default".toList] s).isSome = true := isSome_wholePhrase? hw hend
  rw [hasPhrase_eq_findWord, isSome_findWord_iff.mpr ⟨u, s, rfl, hstart, hphrase⟩] at h
  cases h

theorem afterDefault?_eq (attributes : Text) : afterDefault? attributes =
    (findWord defaultWord? (maskQuoted attributes)).map (suffixLike attributes) := rfl

/-- There is a default value where its word is found. -/
theorem isSome_defaultValue? (attributes : Text) : (defaultValue? attributes).isSome =
    (findWord defaultWord? (maskQuoted attributes)).isSome := by
  rw [defaultValue?, afterDefault?_eq, Option.isSome_map, Option.isSome_map]

theorem Divides.isSome_defaultValue? {t : Text} (h : Divides t a b) :
    (defaultValue? t).isSome = ((defaultValue? a).isSome || (defaultValue? b).isSome) := by
  rw [TableTypes.isSome_defaultValue?, TableTypes.isSome_defaultValue?,
    TableTypes.isSome_defaultValue?]
  exact h _ _ opens_defaultWord? fun _ => stopsAt_defaultWord?

/-! ### References -/

/-- A reference as it is found: the name of the table, and what the text goes on with at the first
character of the columns and behind their last. -/
structure ReferenceSpan where
  table : NameSpan
  first : Text
  last : Text

namespace ReferenceSpan

/-- What follows the word `REFERENCES` and blanks. -/
def word? (s : Text) : Option Text :=
  (keyword? "references".toList s).bind dropBlanks1?

/-- The reference at the front of a text. -/
def read? (s : Text) : Option ReferenceSpan :=
  (word? s).bind fun r =>
    (NameSpan.read? r).bind fun table =>
      (parenthesized? (dropBlanks table.rest)).map fun p => ⟨table, p.1, p.2.1⟩

/-- The reference with more text behind it. -/
def append (p : ReferenceSpan) (z : Text) : ReferenceSpan :=
  ⟨p.table.append z, p.first ++ z, p.last ++ z⟩

/-- What stands at its place in a text, as `table(columns)`. -/
def textIn (t : Text) (p : ReferenceSpan) : Text :=
  strip (p.table.nameIn t) ++ ['('] ++ strip (between t p.first p.last) ++ [')']

theorem opens_read? : Opens ["references".toList] read? :=
  opens_of_bind rfl (by decide) fun t h => by rw [read?, word?, h, Option.bind_none]

/-- A reference is read with its table and what stands between its parentheses. -/
theorem read?_of_name {u x r : Text} {n : NameSpan} (hdrop : dropBlanks u = u)
    (hname : NameSpan.read? u = some n) (hrest : n.rest = '(' :: (x ++ ')' :: r)) (hx : ')' ∉ x)
    (hne : x ≠ []) :
    read? ("REFERENCES".toList ++ ' ' :: u) = some ⟨n, x ++ ')' :: r, ')' :: r⟩ := by
  have hword : word? ("REFERENCES".toList ++ ' ' :: u) = some u := congrArg some hdrop
  have hlist : parenthesized? (dropBlanks n.rest) = some (x ++ ')' :: r, ')' :: r, r) := by
    rw [hrest, dropBlanks_of_head _ (by decide), parenthesized?_paren hx, if_neg hne]
  rw [read?, hword, Option.bind_some, hname, Option.bind_some, hlist]
  rfl

theorem references?_eq (attributes : Text) : references? attributes =
    (findWord read? (maskQuoted attributes)).map (textIn attributes) := by
  rw [← findWord_map, references?, ← find?_eq_findWord]
  refine congrArg (find? · _) (funext fun before => funext fun s => if_congr Iff.rfl ?_ rfl)
  show (word? s).bind _ = ((word? s).bind _).map _
  cases word? s with
  | none => rfl
  | some r =>
    show (NameSpan.read? r).bind _ = ((NameSpan.read? r).bind _).map _
    cases NameSpan.read? r with
    | none => rfl
    | some n =>
      show (parenthesized? _).bind _ = ((parenthesized? _).map _).map _
      cases parenthesized? (dropBlanks n.rest) <;> rfl

/-- A reference that is shown as a whole is read as well when a parenthesis and more text follow. -/
theorem read?_append {v : Text} (hv : IsShown v) (z : Text) :
    read? (v ++ ')' :: z) = (read? v).map (·.append (')' :: z)) := by
  have hword : StopsAt ')' word? :=
    (stopsAt_keyword? (by decide) (by decide)).bind (stopsAt_dropBlanks1? (by decide))
  have hnone : NameSpan.NoneAt (')' :: z) := by
    intro c hc
    rw [← Option.some.inj hc]
    exact ⟨by decide, rfl⟩
  rw [read?, hword v z, read?]
  cases hr : word? v with
  | none => rfl
  | some r =>
    obtain ⟨s, hs, hr⟩ := Option.bind_eq_some_iff.mp hr
    have hcode : InCode r :=
      eq_dropBlanks_of_dropBlanks1? hr ▸ (hv.keyword (by decide) (by decide) hs).dropBlanks
    show (NameSpan.read? (r ++ ')' :: z)).bind _ = ((NameSpan.read? r).bind _).map _
    rw [NameSpan.read?_append hcode hnone]
    cases hn : NameSpan.read? r with
    | none => rfl
    | some n =>
      have hopen := (NameSpan.isOpen_rest hcode hn).dropBlanks
      have hhead : (')' :: z).head? ≠ some '(' := fun h => absurd (Option.some.inj h) (by decide)
      show (parenthesized? (dropBlanks (n.rest ++ ')' :: z))).map _ =
        ((parenthesized? (dropBlanks n.rest)).map _).map _
      rw [dropBlanks_append_cons (by decide), parenthesized?_append hopen hhead,
        Option.map_map, Option.map_map]
      rfl

/-- A reference that is found lies in the text. -/
theorem length_le_of_findWord {t : Text} {p : ReferenceSpan} (h : findWord read? t = some p) :
    p.table.start.length ≤ t.length ∧ p.first.length ≤ t.length := by
  obtain ⟨u, s, rfl, hfound⟩ := findWord_eq_some_iff.mp h
  obtain ⟨r, hr, hread⟩ := Option.bind_eq_some_iff.mp hfound.reads
  obtain ⟨n, hn, hread⟩ := Option.bind_eq_some_iff.mp hread
  obtain ⟨⟨first, last, rest⟩, hl, rfl⟩ := Option.map_eq_some_iff.mp hread
  have hword : r <:+ u ++ s :=
    (((isReader_keyword? _).bind isReader_dropBlanks1?).suffix hr).trans (List.suffix_append u s)
  obtain ⟨hstart, hstop, hrest, -⟩ := (NameSpan.read?_eq_some_iff.mp hn).suffix
  have hlist : first <:+ n.rest :=
    (parenthesized?_suffix hl).trans (List.dropWhile_suffix isBlank)
  exact ⟨(hstart.trans hword).length_le,
    ((((hlist.trans hrest).trans hstop).trans hstart).trans hword).length_le⟩

/-- A reference is read alike when more text stands around. -/
theorem textIn_inside {x t y z : Text} {p : ReferenceSpan}
    (htable : p.table.start.length ≤ t.length) (hfirst : p.first.length ≤ t.length)
    (hlength : y.length = z.length) :
    (p.append z).textIn (x ++ (t ++ y)) = p.textIn t := by
  have hname : NameSpan.nameIn (p.table.append z) (x ++ (t ++ y)) = p.table.nameIn t :=
    between_inside htable hlength
  rw [textIn, textIn, append, hname, between_inside hfirst hlength]

theorem append_nil (p : ReferenceSpan) : p.append [] = p := by
  simp only [append, NameSpan.append, List.append_nil]

end ReferenceSpan

/-- A reference is found as well behind a plain text that is passed over. -/
theorem references?_plain_append {u : Text} (hu : u.all isPlain = true)
    (hpass : findWord ReferenceSpan.read? (u ++ maskQuoted a) =
      findWord ReferenceSpan.read? (maskQuoted a)) : references? (u ++ a) = references? a := by
  rw [ReferenceSpan.references?_eq, ReferenceSpan.references?_eq, maskQuoted_plain_append a hu,
    hpass]
  cases h : findWord ReferenceSpan.read? (maskQuoted a) with
  | none => rw [Option.map_none, Option.map_none]
  | some r =>
    obtain ⟨htable, hfirst⟩ := ReferenceSpan.length_le_of_findWord h
    rw [length_maskQuoted] at htable hfirst
    have hinside := ReferenceSpan.textIn_inside (x := u) (y := []) (z := []) htable hfirst rfl
    rw [List.append_nil, ReferenceSpan.append_nil] at hinside
    rw [Option.map_some, Option.map_some, hinside]

/-- **A reference is not changed by what follows the attributes**, if that holds no reference
itself. -/
theorem references?_append (ha : IsBare a)
    (hnone : findWord ReferenceSpan.read? (maskQuoted z) = none) :
    references? (a ++ ')' :: z) = references? a := by
  have hread : ∀ s, s <:+ maskQuoted a → ReferenceSpan.read? (s ++ ')' :: maskQuoted z) =
      (ReferenceSpan.read? s).map (·.append (')' :: maskQuoted z)) :=
    fun s hs => ReferenceSpan.read?_append (ha.isShown.suffix hs) _
  rw [ReferenceSpan.references?_eq, ReferenceSpan.references?_eq,
    maskQuoted_barrier ha.place_false (by decide) (by decide),
    ReferenceSpan.opens_read?.findWord_append (by decide) hread, hnone, Option.or_none,
    Option.map_map]
  -- What is found lies in `a`, so it is cut from the text at the same place.
  cases h : findWord ReferenceSpan.read? (maskQuoted a) with
  | none => rw [Option.map_none, Option.map_none]
  | some r =>
    obtain ⟨htable, hfirst⟩ := ReferenceSpan.length_le_of_findWord h
    rw [length_maskQuoted] at htable hfirst
    have hlength : (')' :: z).length = (')' :: maskQuoted z).length := by
      rw [List.length_cons, List.length_cons, length_maskQuoted]
    exact congrArg some (ReferenceSpan.textIn_inside (x := []) htable hfirst hlength)

/-! ### Checks -/

/-- What a text goes on with from the parenthesis behind the word `CHECK` on. -/
def checkWord? (s : Text) : Option Text :=
  ((keyword? "check".toList s).map dropBlanks).filter fun r => r.head? = some '('

/-- The text between the parenthesis at the front and the one that closes it. -/
def predicateOf (source : Text) : Option Text :=
  (closing? source).bind fun width =>
    let predicate := strip (slice source 1 width)
    if predicate.isEmpty then none else some predicate

theorem opens_checkWord? : Opens ["check".toList] checkWord? where
  initial := rfl
  at_word := by
    intro w s hw hs hword
    cases h : keyword? "check".toList (w ++ s) with
    | none => rw [checkWord?, h]; rfl
    | some r =>
      obtain ⟨c, u, hc, rfl⟩ := keyword?_inside (by decide) hw hs
        (fun h' => hword (List.mem_singleton.mpr h')) h
      have hparen : c ≠ '(' := by rintro rfl; exact absurd hc (by decide)
      rw [checkWord?, h, Option.map_some, dropBlanks_of_head _ (isBlank_of_isAsciiWord hc)]
      simp [hparen]

theorem checkPredicate?_eq (attributes : Text) : checkPredicate? attributes =
    (findWord checkWord? (maskQuoted attributes)).bind fun r =>
      predicateOf (suffixLike attributes r) := by
  rw [checkPredicate?, ← find?_eq_findWord]
  refine congrArg (fun f => (find? f (maskQuoted attributes)).bind _)
    (funext fun before => funext fun s => if_congr Iff.rfl ?_ rfl)
  rw [checkWord?]
  cases (keyword? "check".toList s).map dropBlanks with
  | none => rfl
  | some r =>
    cases r with
    | nil => rfl
    | cons c r =>
      by_cases hc : c = '('
      · subst hc; rfl
      · have hnone : Option.filter (fun r => r.head? = some '(') (some (c :: r)) = none := by
          simp [hc]
        rw [hnone]
        simp [hc]

theorem stopsAt_checkWord? (hword : isWord x = false) (hblank : isBlank x = false) (hx : x ≠ '(') :
    StopsAt x checkWord? := by
  intro u t
  rw [checkWord?, checkWord?, stopsAt_keyword? hword (by decide) u t]
  cases keyword? "check".toList u with
  | none => rfl
  | some r =>
    rw [Option.map_some, Option.map_some, Option.map_some, dropBlanks_append_cons hblank,
      Option.filter_some, Option.filter_some]
    cases dropBlanks r with
    | nil => simp [hx]
    | cons c r => by_cases hc : c = '(' <;> simp [hc]

/-- A predicate is between the first pair of parentheses that are closed. -/
theorem predicateOf_paren {p : Text} (hp : IsEnclosed p) (r : Text) :
    predicateOf ('(' :: (p ++ ')' :: r)) =
      if (strip p).isEmpty then none else some (strip p) := by
  have hclose : closing? ('(' :: (p ++ ')' :: r)) = some (p.length + 1) :=
    closing?_eq_some_iff.mpr ⟨p, r, rfl, rfl, hp⟩
  have hslice : slice ('(' :: (p ++ ')' :: r)) 1 (p.length + 1) = p :=
    slice_append ['('] p (')' :: r) rfl (Nat.add_comm _ _)
  rw [predicateOf, hclose, Option.bind_some, hslice]

/-- A text without a closing parenthesis closes nothing. -/
theorem closing?_append (t : Text) (hz : ')' ∉ z) : closing? (t ++ z) = closing? t := by
  cases h : closing? t with
  | some width =>
    obtain ⟨b, r, rfl, rfl, hb⟩ := exists_of_closing? h
    rw [List.cons_append, List.append_assoc]
    exact closing?_eq_some_iff.mpr ⟨b, r ++ z, rfl, rfl, hb⟩
  | none =>
    cases hlong : closing? (t ++ z) with
    | none => rfl
    | some width =>
      obtain ⟨b, r, ht, rfl, hb⟩ := exists_of_closing? hlong
      -- The parenthesis is not in `z`, so it is in `t`.
      rcases List.append_eq_append_iff.mp (show t ++ z = ('(' :: b) ++ ')' :: r from ht) with
        ⟨u, -, rfl⟩ | ⟨u, rfl, hu⟩
      · exact absurd (List.mem_append_right u List.mem_cons_self) hz
      · cases u with
        | nil =>
          rw [← show ')' :: r = z from hu] at hz
          exact absurd List.mem_cons_self hz
        | cons c u =>
          obtain ⟨rfl, rfl⟩ := List.cons.inj hu
          rw [List.cons_append, closing?_eq_some_iff.mpr ⟨b, u, rfl, rfl, hb⟩] at h
          cases h

theorem predicateOf_append (t : Text) (hz : ')' ∉ z) : predicateOf (t ++ z) = predicateOf t := by
  cases h : closing? t with
  | none =>
    rw [predicateOf, predicateOf, closing?_append t hz, h]
    rfl
  | some width =>
    obtain ⟨b, r, rfl, -, hb⟩ := exists_of_closing? h
    rw [List.cons_append, List.append_assoc, List.cons_append, predicateOf_paren hb,
      predicateOf_paren hb]

theorem checkWord?_suffix {s r : Text} (h : checkWord? s = some r) : r <:+ s := by
  obtain ⟨h, -⟩ := Option.filter_eq_some_iff.mp h
  obtain ⟨u, hu, rfl⟩ := Option.map_eq_some_iff.mp h
  exact (List.dropWhile_suffix isBlank).trans ((isReader_keyword? _).suffix hu)

theorem length_le_of_findWord_check {t r : Text} (h : findWord checkWord? t = some r) :
    r.length ≤ t.length := by
  obtain ⟨u, s, rfl, hfound⟩ := findWord_eq_some_iff.mp h
  exact ((checkWord?_suffix hfound.reads).trans (List.suffix_append u s)).length_le

/-- **A check is not changed by what follows the attributes**, if that holds no check itself. -/
theorem checkPredicate?_append (ha : (spotBehind false a).place = .code) (hz : ')' ∉ z)
    (hnone : findWord checkWord? (maskQuoted z) = none) :
    checkPredicate? (a ++ ')' :: z) = checkPredicate? (a ++ [')']) := by
  -- The parenthesis may close the check, so the texts are compared with it and not without it.
  have hfound : ∀ y, ')' ∉ y → findWord checkWord? (maskQuoted y) = none →
      checkPredicate? (a ++ ')' :: y) = (findWord checkWord? (maskQuoted a)).bind fun r =>
        predicateOf (suffixLike a r ++ [')']) := by
    intro y hy hnone
    rw [checkPredicate?_eq, maskQuoted_barrier ha (by decide) (by decide),
      opens_checkWord?.findWord_append (by decide) fun s _ =>
        stopsAt_checkWord? (by decide) (by decide) (by decide) s _, hnone, Option.or_none]
    cases hr : findWord checkWord? (maskQuoted a) with
    | none => rfl
    | some r =>
      have hlength := length_le_of_findWord_check hr
      rw [length_maskQuoted] at hlength
      have hsuffix : suffixLike (a ++ ')' :: y) (r ++ ')' :: maskQuoted y) =
          suffixLike a r ++ ')' :: y :=
        suffixLike_inside (x := []) hlength
          (by rw [List.length_cons, List.length_cons, length_maskQuoted])
      show predicateOf (suffixLike (a ++ ')' :: y) (r ++ ')' :: maskQuoted y)) = _
      rw [hsuffix, List.append_cons, predicateOf_append _ hy]
      rfl
  rw [hfound z hz hnone, hfound [] List.not_mem_nil opens_checkWord?.findWord_nil]

/-- A check is found as well behind a plain text that is passed over. -/
theorem checkPredicate?_plain_append {u : Text} (hu : u.all isPlain = true)
    (hpass : findWord checkWord? (u ++ maskQuoted a) = findWord checkWord? (maskQuoted a)) :
    checkPredicate? (u ++ a) = checkPredicate? a := by
  rw [checkPredicate?_eq, checkPredicate?_eq, maskQuoted_plain_append a hu, hpass]
  cases h : findWord checkWord? (maskQuoted a) with
  | none => rfl
  | some r =>
    have hlength := length_le_of_findWord_check h
    rw [length_maskQuoted] at hlength
    have hinside := suffixLike_inside (x := u) (y := []) (z := []) hlength rfl
    rw [List.append_nil, List.append_nil, List.append_nil] at hinside
    rw [Option.bind_some, Option.bind_some, hinside]

/-! ### Comments -/

/-- What follows the word `COMMENT` and blanks. -/
def commentWord? (s : Text) : Option Text :=
  (keyword? "comment".toList s).bind dropBlanks1?

theorem commentWord?_suffix {s r : Text} (h : commentWord? s = some r) : r <:+ s :=
  ((isReader_keyword? _).bind isReader_dropBlanks1?).suffix h

theorem stopsAt_commentWord? (hword : isWord x = false) (hblank : isBlank x = false) :
    StopsAt x commentWord? :=
  (stopsAt_keyword? hword (by decide)).bind (stopsAt_dropBlanks1? hblank)

theorem commentLiteral?_eq (s : Text) : commentLiteral? s = (commentWord? s).bind fun
    | q :: t => if q = '\'' || q = '"' then (columnLiteral? q t).map (q, ·) else none
    | [] => none := by
  unfold commentLiteral? commentWord?
  cases (keyword? "comment".toList s).bind dropBlanks1? with
  | none => rfl
  | some r => cases r <;> rfl

/-- A literal is closed by a quote of its kind only. -/
theorem columnLiteral?_eq_none {q : Char} (hz : q ∉ z) : columnLiteral? q z = none := by
  fun_induction columnLiteral? q z <;> simp_all

/-- A literal is read as well when more text without its quote follows. -/
theorem columnLiteral?_append {q : Char} (t : Text) (hz : q ∉ z) :
    columnLiteral? q (t ++ z) = columnLiteral? q t := by
  have hcontains : ∀ t : Text, (t ++ z).contains q = t.contains q := by
    intro t
    simp [hz]
  fun_induction columnLiteral? q t with
  | case1 => exact columnLiteral?_eq_none hz
  | case2 =>
    cases z with
    | nil => simp [columnLiteral?]
    | cons d z =>
      have hd : d ≠ q := fun h => hz (h ▸ List.mem_cons_self)
      simp [columnLiteral?, hd]
  | case3 c hc =>
    apply columnLiteral?_eq_none
    rw [List.singleton_append, List.mem_cons, not_or]
    exact ⟨fun h => hc h.symm, hz⟩
  | case4 d t hdouble ih =>
    rw [List.cons_append, List.cons_append, columnLiteral?, if_pos rfl, hcontains, if_pos hdouble,
      ih]
  | case5 d t hdouble =>
    rw [List.cons_append, List.cons_append, columnLiteral?, if_pos rfl, hcontains, if_neg hdouble]
  | case6 c d t hc hescape ih =>
    rw [List.cons_append, List.cons_append, columnLiteral?, if_neg hc, hcontains, if_pos hescape,
      ih]
  | case7 c d t hc hescape ih =>
    rw [List.cons_append, List.cons_append, columnLiteral?, if_neg hc, hcontains, if_neg hescape]
    exact congrArg _ ih

/-- A comment is read as well when a barrier and text without quotes follow. -/
theorem commentLiteral?_append (hword : isWord x = false) (hblank : isBlank x = false)
    (hx : x ≠ '\'' ∧ x ≠ '"') (hz : '\'' ∉ z ∧ '"' ∉ z) (s : Text) :
    commentLiteral? (s ++ x :: z) = commentLiteral? s := by
  rw [commentLiteral?_eq, commentLiteral?_eq, stopsAt_commentWord? hword hblank s z]
  cases commentWord? s with
  | none => rfl
  | some r =>
    cases r with
    | nil => simp [hx.1, hx.2]
    | cons q r =>
      show (if q = '\'' || q = '"' then (columnLiteral? q (r ++ x :: z)).map (q, ·) else none) =
        if q = '\'' || q = '"' then (columnLiteral? q r).map (q, ·) else none
      split
      · rename_i hq
        have hxz : q ∉ x :: z := by
          rw [List.mem_cons, not_or]
          simp only [Bool.or_eq_true, decide_eq_true_eq] at hq
          rcases hq with rfl | rfl
          · exact ⟨hx.1.symm, hz.1⟩
          · exact ⟨hx.2.symm, hz.2⟩
        rw [columnLiteral?_append r hxz]
      · rfl

theorem columnComment?_append (hword : isWord x = false) (hblank : isBlank x = false)
    (hx : x ≠ '\'' ∧ x ≠ '"') (hz : '\'' ∉ z ∧ '"' ∉ z)
    (hnone : findWord commentLiteral? z = none) :
    columnComment? (a ++ x :: z) = columnComment? a := by
  -- A comment that is found holds none of the text behind it.
  rw [columnComment?_eq, columnComment?_eq, opens_commentLiteral?.findWord_barrier hword fun s _ =>
    commentLiteral?_append hword hblank hx hz s, hnone, Option.or_none]

end TableTypes
