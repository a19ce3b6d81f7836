import TableTypes.Proofs.Text.Reader
import TableTypes.Statement

/-!
# The head of a statement by itself

The head of a statement is read from its own characters alone: it is read as well when the text is
cut off behind the parenthesis that it ends with (`StatementHead.read?_cut`), and when anything else
follows it (`StatementHead.read?_append`).
-/

namespace TableTypes

open Text

/-! ### Names -/

theorem atWordEnd_dropWhile (t : Text) : atWordEnd (t.dropWhile isWord) = true := by
  cases h : t.dropWhile isWord with
  | nil => rfl
  | cons c r =>
    have hc := List.head?_dropWhile_not isWord t
    rw [h] at hc
    rw [atWordEnd, List.head?_cons, Option.all_some]
    exact congrArg (!·) hc

namespace NameSpan

/-- A name is a word or stands between two quotes. -/
inductive Spells : Text → NameSpan → Prop
  | bare {w r : Text} (hne : w ≠ []) (hw : ∀ c ∈ w, isWord c = true) (hr : atWordEnd r = true) :
    Spells (w ++ r) ⟨w ++ r, r, r⟩
  | quoted {q : Char} {w r : Text} (hq : q = '\x60' ∨ q = '"') (hne : w ≠ []) (hw : q ∉ w) :
    Spells (q :: (w ++ q :: r)) ⟨w ++ q :: r, q :: r, r⟩

theorem spells_of_untilQuote? {q : Char} (hq : q = '\x60' ∨ q = '"') {t : Text} {n : NameSpan}
    (h : untilQuote? q t = some n) : Spells (q :: t) n := by
  rw [untilQuote?] at h
  have hsplit := List.takeWhile_append_dropWhile (p := (· ≠ q)) (l := t)
  cases hdrop : t.dropWhile (· ≠ q) with
  | nil => rw [hdrop] at h; cases h
  | cons x r =>
    have hx := List.head?_dropWhile_not (· ≠ q) t
    rw [hdrop] at hx h hsplit
    obtain rfl : x = q := by simpa using hx
    simp only at h
    split at h
    · cases h
    · rename_i hhead
      rw [← Option.some.inj h]
      have hw : x ∉ t.takeWhile (· ≠ x) := by
        intro hmem
        have := List.all_eq_true.mp List.all_takeWhile x hmem
        simp at this
      have hne : t.takeWhile (· ≠ x) ≠ [] := by
        intro hnil
        rw [hnil] at hsplit
        exact hhead (by rw [← hsplit]; rfl)
      have := Spells.quoted (r := r) hq hne hw
      rwa [hsplit] at this

theorem read?_eq_some_iff {t : Text} {n : NameSpan} : read? t = some n ↔ Spells t n := by
  constructor
  · intro h
    cases t with
    | nil => cases h
    | cons c t =>
      rw [read?] at h
      split at h
      · rename_i hc
        simp only [Bool.or_eq_true, decide_eq_true_eq] at hc
        exact spells_of_untilQuote? hc h
      · obtain ⟨⟨w, r⟩, hw, rfl⟩ := Option.map_eq_some_iff.mp h
        rw [word?] at hw
        split at hw
        · cases hw
        · rename_i hne
          obtain ⟨-, hr⟩ := Prod.mk.inj (Option.some.inj hw)
          have hword : ∀ d ∈ (c :: t).takeWhile isWord, isWord d = true := fun d hd =>
            List.all_eq_true.mp List.all_takeWhile d hd
          have := Spells.bare hne hword (atWordEnd_dropWhile (c :: t))
          rwa [List.takeWhile_append_dropWhile, hr] at this
  · intro h
    cases h with
    | @bare w r hne hw hr =>
      obtain ⟨c, v, rfl⟩ := List.exists_cons_of_ne_nil hne
      have hquote : ¬ (decide (c = '\x60') || decide (c = '"')) = true := by
        have hc := hw c List.mem_cons_self
        simp only [Bool.or_eq_true, decide_eq_true_eq]
        rintro (rfl | rfl) <;> exact absurd hc (by decide)
      rw [List.cons_append, read?, if_neg hquote, ← List.cons_append, word?_run hne hw hr]
      rfl
    | @quoted q w r hq hne hw =>
      have hquote : (decide (q = '\x60') || decide (q = '"')) = true := by
        simpa only [Bool.or_eq_true, decide_eq_true_eq] using hq
      have hhead : ¬ (w ++ q :: r).head? = some q := by
        obtain ⟨c, v, rfl⟩ := List.exists_cons_of_ne_nil hne
        intro h
        exact hw (Option.some.inj h ▸ List.mem_cons_self)
      rw [read?, if_pos hquote, untilQuote?, dropWhile_ne hw]
      exact if_neg hhead

theorem Spells.suffix {t : Text} {n : NameSpan} (h : Spells t n) :
    n.start <:+ t ∧ n.stop <:+ n.start ∧ n.rest <:+ n.stop ∧ n.stop.length < n.start.length := by
  cases h with
  | @bare w r hne =>
    refine ⟨List.suffix_rfl, List.suffix_append w r, List.suffix_rfl, ?_⟩
    rw [List.length_append]
    exact Nat.lt_add_of_pos_left (List.length_pos_iff.mpr hne)
  | @quoted q w r _ hne =>
    refine ⟨List.suffix_cons q _, List.suffix_append w _, List.suffix_cons q r, ?_⟩
    rw [List.length_append]
    exact Nat.lt_add_of_pos_left (List.length_pos_iff.mpr hne)

/-- The name with more text behind it. -/
def append (n : NameSpan) (z : Text) : NameSpan :=
  ⟨n.start ++ z, n.stop ++ z, n.rest ++ z⟩

theorem atWordEnd_append {r : Text} (z : Text) (hr : r ≠ []) :
    atWordEnd (r ++ z) = atWordEnd r := by
  obtain ⟨c, r, rfl⟩ := List.exists_cons_of_ne_nil hr
  rfl

theorem Spells.append {t : Text} {n : NameSpan} (h : Spells t n) (z : Text) (hrest : n.rest ≠ []) :
    Spells (t ++ z) (n.append z) := by
  cases h with
  | @bare w r hne hw hr =>
    have := Spells.bare (r := r ++ z) hne hw (by rwa [atWordEnd_append z hrest])
    rwa [← List.append_assoc] at this
  | @quoted q w r hq hne hw =>
    have := Spells.quoted (r := r ++ z) hq hne hw
    simpa only [NameSpan.append, List.append_assoc, List.cons_append] using this

theorem atWordEnd_of_append {r z : Text} (h : atWordEnd (r ++ z) = true) : atWordEnd r = true := by
  cases r with
  | nil => rfl
  | cons c r => exact h

/-- A name is spelled as well when the text is cut off behind it. -/
theorem Spells.cut {t r z : Text} {n : NameSpan} (h : Spells (t ++ z) n) (hr : n.rest = r ++ z) :
    ∃ m : NameSpan, n = m.append z ∧ m.rest = r ∧ Spells t m := by
  generalize ht : t ++ z = u at h
  cases h with
  | @bare w rest hne hw hend =>
    obtain rfl : rest = r ++ z := hr
    rw [← List.append_assoc] at ht
    obtain rfl := List.append_cancel_right ht
    refine ⟨⟨w ++ r, r, r⟩, ?_, rfl, .bare hne hw (atWordEnd_of_append hend)⟩
    rw [NameSpan.append, List.append_assoc]
  | @quoted q w rest hq hne hw =>
    obtain rfl : rest = r ++ z := hr
    rw [← List.cons_append, ← List.cons_append, ← List.append_assoc] at ht
    obtain rfl := List.append_cancel_right ht
    refine ⟨⟨w ++ q :: r, q :: r, r⟩, ?_, rfl, .quoted hq hne hw⟩
    rw [NameSpan.append, List.append_assoc, List.cons_append]

/-- What stands behind a name does not change it. -/
theorem Spells.name_append {t : Text} {n : NameSpan} (h : Spells t n) (z : Text) :
    (n.append z).name = n.name := by
  obtain ⟨-, ⟨w, hw⟩, -, -⟩ := h.suffix
  have hname : ∀ y : Text, between (n.start ++ y) (n.start ++ y) (n.stop ++ y) = w := by
    intro y
    have h : between ([] ++ w ++ (n.stop ++ y)) (n.start ++ y) (n.stop ++ y) = w :=
      between_append [] w (n.stop ++ y)
        (by rw [← hw]; simp only [List.length_append, Nat.add_assoc]) rfl
    rwa [List.nil_append, ← List.append_assoc, hw] at h
  have hempty := hname []
  rw [List.append_nil, List.append_nil] at hempty
  exact (hname z).trans hempty.symm

end NameSpan

/-! ### Heads -/

/-- The head with more text behind it. -/
def StatementHead.append (h : StatementHead) (z : Text) : StatementHead :=
  ⟨h.name.append z, h.opening ++ z⟩

/-- The reader of the phrase that may stand before the name of a table. -/
def existsPhrase? (t : Text) : Option Text :=
  (phrase? ["if".toList, "not".toList, "exists".toList] t).bind dropBlanks1?

theorem isReader_existsPhrase? : IsReader existsPhrase? :=
  (isReader_phrase? _).bind isReader_dropBlanks1?

theorem extends_existsPhrase? : Extends existsPhrase? :=
  (extends_phrase? (by decide)).bind extends_dropBlanks1? isReader_dropBlanks1?.suffix

theorem grows_existsPhrase? : Grows existsPhrase? := by
  intro t z a h
  obtain ⟨r, hr, hblank⟩ := Option.bind_eq_some_iff.mp h
  obtain ⟨s, hs⟩ := grows_dropBlanks1? r z a hblank
  exact ⟨s, Option.bind_eq_some_iff.mpr ⟨r ++ z, phrase?_append_right (by decide) z hr, hs⟩⟩

/-- The phrase does not reach over a parenthesis. -/
theorem existsPhrase?_eq_none_append {t z : Text} (hparen : '(' ∈ t) (h : existsPhrase? t = none) :
    existsPhrase? (t ++ z) = none := by
  cases hlong : existsPhrase? (t ++ z) with
  | none => rfl
  | some s =>
    obtain ⟨r, hr, hblank⟩ := Option.bind_eq_some_iff.mp hlong
    -- The piece `u ++ v` that the phrase takes has words and blanks only, so it ends inside `t`.
    obtain ⟨u, hu, hword⟩ := exists_of_phrase? (by decide) hr
    obtain ⟨v, rfl, hv⟩ := exists_of_dropBlanks1? hblank
    rw [← List.append_assoc] at hu
    rcases List.append_eq_append_iff.mp hu with ⟨a, ha, rfl⟩ | ⟨a, rfl, rfl⟩
    · have hmem : '(' ∈ u ++ v := by rw [ha]; exact List.mem_append_left a hparen
      rcases List.mem_append.mp hmem with hmem | hmem
      · rcases hword _ hmem with hc | hc
        · exact absurd hc (by decide)
        · exact absurd hc (by decide)
      · exact absurd (hv _ hmem) (by decide)
    · rw [isReader_existsPhrase?.cut hlong] at h
      cases h

namespace StatementHead

/-- The head with a name, if a parenthesis follows the name. -/
def ofName? (n : NameSpan) : Option StatementHead :=
  match dropBlanks n.rest with
  | '(' :: r => some ⟨n, '(' :: r⟩
  | _ => none

theorem read?_eq (t : Text) : read? t =
    (phrase? ["create".toList, "table".toList] t).bind fun r => (dropBlanks1? r).bind fun s =>
      (NameSpan.read? (skipIfNotExists s)).bind ofName? := rfl

theorem ofName?_eq_some_iff {n : NameSpan} {h : StatementHead} : ofName? n = some h ↔
    n = h.name ∧ dropBlanks n.rest = h.opening ∧ h.opening.head? = some '(' := by
  rw [ofName?]
  obtain ⟨name, opening⟩ := h
  constructor
  · intro heq
    split at heq
    · rename_i r hdrop
      obtain ⟨rfl, rfl⟩ := StatementHead.mk.inj (Option.some.inj heq)
      exact ⟨rfl, hdrop, rfl⟩
    · cases heq
  · rintro ⟨rfl, hdrop, hhead⟩
    obtain ⟨r, hr⟩ := List.head?_eq_some_iff.mp hhead
    obtain rfl : opening = '(' :: r := hr
    rw [show dropBlanks n.rest = '(' :: r from hdrop]
    rfl

theorem read?_eq_some_iff {t : Text} {h : StatementHead} : read? t = some h ↔
    ∃ r s, phrase? ["create".toList, "table".toList] t = some r ∧ dropBlanks1? r = some s ∧
      NameSpan.Spells (skipIfNotExists s) h.name ∧ dropBlanks h.name.rest = h.opening ∧
        h.opening.head? = some '(' := by
  rw [read?_eq]
  constructor
  · intro hread
    obtain ⟨r, hr, hread⟩ := Option.bind_eq_some_iff.mp hread
    obtain ⟨s, hs, hread⟩ := Option.bind_eq_some_iff.mp hread
    obtain ⟨n, hn, hread⟩ := Option.bind_eq_some_iff.mp hread
    obtain ⟨rfl, hdrop, hhead⟩ := ofName?_eq_some_iff.mp hread
    exact ⟨r, s, hr, hs, NameSpan.read?_eq_some_iff.mp hn, hdrop, hhead⟩
  · rintro ⟨r, s, hr, hs, hname, hdrop, hhead⟩
    refine Option.bind_eq_some_iff.mpr ⟨r, hr, Option.bind_eq_some_iff.mpr ⟨s, hs, ?_⟩⟩
    refine Option.bind_eq_some_iff.mpr ⟨h.name, NameSpan.read?_eq_some_iff.mpr hname, ?_⟩
    exact ofName?_eq_some_iff.mpr ⟨rfl, hdrop, hhead⟩

theorem isReader_skipIfNotExists : IsReader fun t => some (skipIfNotExists t) :=
  isReader_existsPhrase?.getD grows_existsPhrase?

/-- The parts of a head stand one behind the other. -/
theorem suffix_of_read? {t : Text} {h : StatementHead} (hread : read? t = some h) :
    h.name.start <:+ t ∧ h.name.start.length < t.length ∧ h.opening <:+ h.name.start ∧
      h.opening.length < h.name.start.length := by
  obtain ⟨r, s, hr, hs, hname, hdrop, -⟩ := read?_eq_some_iff.mp hread
  obtain ⟨hstart, hstop, hrest, hlength⟩ := hname.suffix
  have hskip : skipIfNotExists s <:+ s := isReader_skipIfNotExists.suffix rfl
  have hopening : h.opening <:+ h.name.rest := hdrop ▸ List.dropWhile_suffix isBlank
  have hblank := isReader_dropBlanks1?.suffix hs
  -- The first keyword alone takes six characters off the text.
  have hphrase : r.length < t.length := by
    rw [phrase?_cons_cons] at hr
    obtain ⟨u, hu, htable⟩ := Option.bind_eq_some_iff.mp hr
    obtain ⟨v, rfl, hv⟩ := keyword?_eq_some hu
    obtain ⟨x, hx, hend⟩ := Option.bind_eq_some_iff.mp htable
    have hrx := ((isReader_phrase? _).suffix hend).length_le
    have hxu := (isReader_dropBlanks1?.suffix hx).length_le
    rw [List.length_append, hv]
    have : ("create".toList : Text).length = 6 := rfl
    omega
  refine ⟨hstart.trans (hskip.trans (hblank.trans ((isReader_phrase? _).suffix hr))), ?_,
    hopening.trans (hrest.trans hstop), ?_⟩
  · have h₁ := hstart.length_le
    have h₂ := hskip.length_le
    have h₃ := hblank.length_le
    omega
  · have h₁ := hopening.length_le
    have h₂ := hrest.length_le
    omega

/-- A head begins with a letter of its keyword. -/
theorem exists_head?_of_read? {t : Text} {h : StatementHead} (hread : read? t = some h) :
    ∃ c, t.head? = some c ∧ isWord c = true := by
  obtain ⟨r, -, hr, -⟩ := read?_eq_some_iff.mp hread
  rw [phrase?_cons_cons] at hr
  obtain ⟨u, hu, -⟩ := Option.bind_eq_some_iff.mp hr
  obtain ⟨v, rfl, hv⟩ := keyword?_eq_some_iff.mp hu
  obtain ⟨c, v, hletter, -, rfl⟩ := List.forall₂_cons_left_iff.mp hv
  exact ⟨c, rfl, isWord_of_matchesLetter (by decide) hletter⟩

theorem skipIfNotExists_append {s : Text} (z : Text) (hparen : '(' ∈ skipIfNotExists s) :
    skipIfNotExists (s ++ z) = skipIfNotExists s ++ z := by
  have heq : ∀ u : Text, skipIfNotExists u = (existsPhrase? u).getD u := fun _ => rfl
  rw [heq] at hparen
  rw [heq, heq]
  cases hphrase : existsPhrase? s with
  | some u =>
    rw [hphrase, Option.getD_some] at hparen
    rw [extends_existsPhrase? s u z hphrase (List.ne_nil_of_mem hparen)]
    rfl
  | none =>
    rw [hphrase, Option.getD_none] at hparen
    rw [existsPhrase?_eq_none_append hparen hphrase]
    rfl

/-- **A head is read as well when the text is cut off behind its parenthesis.** -/
theorem read?_cut {t z o : Text} {h : StatementHead} (hread : read? (t ++ z) = some h)
    (ho : h.opening = o ++ z) (hne : o ≠ []) :
    ∃ g : StatementHead, h = g.append z ∧ g.opening = o ∧ read? t = some g := by
  obtain ⟨r, s, hr, hs, hname, hdrop, hhead⟩ := read?_eq_some_iff.mp hread
  obtain ⟨hstart, hstop, hrest, -⟩ := hname.suffix
  rw [ho] at hdrop hhead
  have hskip : skipIfNotExists s <:+ s := isReader_skipIfNotExists.suffix rfl
  -- Each reader leaves over a text that ends in the opening of the body, so it ends in `z`.
  have hoRest : o ++ z <:+ h.name.rest := hdrop ▸ List.dropWhile_suffix isBlank
  have hoSkip : o ++ z <:+ skipIfNotExists s := hoRest.trans (hrest.trans (hstop.trans hstart))
  have hos : o ++ z <:+ s := hoSkip.trans hskip
  have hor : o ++ z <:+ r := hos.trans (isReader_dropBlanks1?.suffix hs)
  obtain ⟨r, rfl, -⟩ := exists_eq_append_of_suffix ((isReader_phrase? _).suffix hr) hor
  obtain ⟨s, rfl, -⟩ := exists_eq_append_of_suffix (isReader_dropBlanks1?.suffix hs) hos
  obtain ⟨k, hk, -⟩ := exists_eq_append_of_suffix hskip hoSkip
  have hskip' : skipIfNotExists s = k :=
    Option.some.inj (isReader_skipIfNotExists.cut (z := z) (congrArg some hk))
  rw [hk] at hname hstart
  obtain ⟨n, hn, -⟩ := exists_eq_append_of_suffix (hrest.trans (hstop.trans hstart)) hoRest
  obtain ⟨m, hm, hmrest, hspells⟩ := hname.cut hn
  rw [hn] at hdrop
  refine ⟨⟨m, o⟩, ?_, rfl, read?_eq_some_iff.mpr ⟨r, s, (isReader_phrase? _).cut hr,
    isReader_dropBlanks1?.cut hs, by rwa [hskip'], ?_, ?_⟩⟩
  · obtain ⟨name, opening⟩ := h
    obtain rfl : name = m.append z := hm
    obtain rfl : opening = o ++ z := ho
    rfl
  · rw [hmrest]
    exact dropWhile_cut hdrop
  · obtain ⟨c, o, rfl⟩ := List.exists_cons_of_ne_nil hne
    exact hhead

/-- **A head does not look at what stands behind its parenthesis.** -/
theorem read?_append {t : Text} {h : StatementHead} (z : Text) (hread : read? t = some h) :
    read? (t ++ z) = some (h.append z) := by
  obtain ⟨r, s, hr, hs, hname, hdrop, hhead⟩ := read?_eq_some_iff.mp hread
  obtain ⟨hstart, hstop, hrest, -⟩ := hname.suffix
  -- The parenthesis stands in all that is left over on the way, so none of it is empty.
  have hparen : '(' ∈ h.opening := List.mem_of_mem_head? hhead
  have hoRest : h.opening <:+ h.name.rest := hdrop ▸ List.dropWhile_suffix isBlank
  have hparenSkip : '(' ∈ skipIfNotExists s :=
    (hoRest.trans (hrest.trans (hstop.trans hstart))).subset hparen
  have hs' : '(' ∈ s := (isReader_skipIfNotExists.suffix rfl).subset hparenSkip
  have hopening : dropBlanks h.name.rest ≠ [] := hdrop ▸ List.ne_nil_of_mem hparen
  refine read?_eq_some_iff.mpr ⟨r ++ z, s ++ z, phrase?_append_right (by decide) z hr,
    extends_dropBlanks1? r s z hs (List.ne_nil_of_mem hs'), ?_, ?_, ?_⟩
  · rw [skipIfNotExists_append z hparenSkip]
    exact hname.append z (List.ne_nil_of_mem (hoRest.subset hparen))
  · show dropBlanks (h.name.rest ++ z) = h.opening ++ z
    rw [← hdrop]
    exact dropWhile_extend z hopening
  · show (h.opening ++ z).head? = some '('
    rw [List.head?_append, hhead]
    rfl

end StatementHead

end TableTypes
