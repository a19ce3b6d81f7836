import TableTypes.Proofs.Statement.Head
import TableTypes.Proofs.Text.Search
import TableTypes.TableConstraints

/-!
# What the readers of constraints take

Each of the four readers takes a column list in parentheses off the text together with all that
stands before it, and the places it finds lie in the text (`takes_of_primaryKeySpan?` and the three
after it).  So nothing is found in a text without a parenthesis (`tableConstraints_eq_nil`).
-/

namespace TableTypes

open Text

/-! ### Places -/

/-- Where a piece of the text begins and where it ends, given by what follows. -/
def IsSpanOf (t : Text) (p : ListSpan) : Prop :=
  p.1 <:+ t ∧ p.2 <:+ t

theorem IsSpanOf.trans {s t : Text} {p : ListSpan} (hp : IsSpanOf s p) (hs : s <:+ t) :
    IsSpanOf t p :=
  ⟨hp.1.trans hs, hp.2.trans hs⟩

/-- The pieces that a constraint is cut from. -/
def ConstraintSpan.pieces (s : ConstraintSpan) : List ListSpan :=
  s.columns :: ((s.reference.elim [] fun r => [r.1, r.2]) ++ s.name.toList)

/-- What is left of the text `t` is `r`, and what was taken off it has an opening parenthesis. -/
def TakesList (t r : Text) : Prop :=
  ∃ u, t = u ++ r ∧ '(' ∈ u

theorem TakesList.of_suffix {s t r : Text} (h : TakesList s r) (hs : s <:+ t) : TakesList t r := by
  obtain ⟨v, rfl⟩ := hs
  obtain ⟨u, rfl, hu⟩ := h
  exact ⟨v ++ u, (List.append_assoc v u r).symm, List.mem_append_right v hu⟩

theorem TakesList.suffix {t r : Text} (h : TakesList t r) : r <:+ t := by
  obtain ⟨u, rfl, -⟩ := h
  exact List.suffix_append u r

/-- A constraint that was read at the front of `t`, with `r` left over. -/
structure ConstraintSpan.Takes (s : ConstraintSpan) (t r : Text) : Prop where
  list : TakesList t r
  pieces : ∀ p ∈ s.pieces, IsSpanOf t p

/-! ### Names -/

theorem quotedName?_spanOf {t r : Text} {name : ListSpan} (h : quotedName? t = some (name, r)) :
    IsSpanOf t name ∧ r <:+ t := by
  rw [quotedName?] at h
  obtain ⟨n, hn, hname⟩ := Option.map_eq_some_iff.mp h
  obtain ⟨rfl, rfl⟩ := Prod.mk.inj hname
  obtain ⟨hstart, hstop, hrest, -⟩ := (NameSpan.read?_eq_some_iff.mp hn).suffix
  have hsuffix : n.rest <:+ t := hrest.trans (hstop.trans hstart)
  exact ⟨⟨List.suffix_rfl, hsuffix⟩, hsuffix⟩

theorem constraintName?_spanOf {t r : Text} {name : ListSpan}
    (h : constraintName? t = some (name, r)) : IsSpanOf t name ∧ r <:+ t := by
  rw [constraintName?] at h
  split at h
  · cases h
  · exact quotedName?_spanOf h

/-- A label lies in the text, and so does what follows it. -/
theorem constraintLabel_spanOf (t : Text) :
    (∀ p ∈ (constraintLabel t).1, IsSpanOf t p) ∧ (constraintLabel t).2 <:+ t := by
  rw [constraintLabel]
  dsimp only
  cases hlabel : ((keyword? "constraint".toList t).bind dropBlanks1?) >>= fun r =>
      quotedName? r >>= fun name => dropBlanks1? name.2 >>= fun r => pure (some name.1, r) with
  | none => exact ⟨fun p hp => (nomatch hp), List.suffix_rfl⟩
  | some p =>
    obtain ⟨r, hr, h⟩ := Option.bind_eq_some_iff.mp hlabel
    obtain ⟨name, hname, h⟩ := Option.bind_eq_some_iff.mp h
    obtain ⟨s, hs, h⟩ := Option.bind_eq_some_iff.mp h
    obtain rfl := Option.some.inj h
    have hword : r <:+ t := ((isReader_keyword? _).bind isReader_dropBlanks1?).suffix hr
    obtain ⟨hspan, hrest⟩ := quotedName?_spanOf hname
    refine ⟨fun p hp => ?_, (isReader_dropBlanks1?.suffix hs).trans (hrest.trans hword)⟩
    obtain rfl := Option.some.inj hp
    exact hspan.trans hword

/-! ### Column lists -/

theorem parenthesized?_takes {t first last r : Text} (h : parenthesized? t = some (first, last, r)) :
    TakesList t r ∧ IsSpanOf t (first, last) := by
  unfold parenthesized? at h
  split at h
  · rename_i s
    split at h
    · rename_i c rest hdrop
      split at h
      · cases h
      · simp only [Option.some.injEq, Prod.mk.injEq] at h
        obtain ⟨rfl, rfl, rfl⟩ := h
        have hsplit := List.takeWhile_append_dropWhile (p := (· ≠ ')')) (l := s)
        have hclose : s.dropWhile (· ≠ ')') <:+ '(' :: s :=
          (List.dropWhile_suffix _).trans (List.suffix_cons '(' s)
        refine ⟨⟨'(' :: (s.takeWhile (· ≠ ')') ++ [c]), ?_, List.mem_cons_self⟩,
          List.suffix_cons '(' s, hclose⟩
        rw [List.cons_append, List.append_assoc, List.singleton_append, ← hdrop, hsplit]
    · cases h
  · cases h

theorem columnList?_takes {t r : Text} {columns : ListSpan} (h : columnList? t = some (columns, r)) :
    TakesList t r ∧ IsSpanOf t columns := by
  rw [columnList?] at h
  obtain ⟨⟨first, last, rest⟩, hparens, hspan⟩ := Option.map_eq_some_iff.mp h
  obtain ⟨rfl, rfl⟩ := Prod.mk.inj hspan
  obtain ⟨hlist, hcolumns⟩ := parenthesized?_takes hparens
  have hblanks : dropBlanks t <:+ t := List.dropWhile_suffix isBlank
  exact ⟨hlist.of_suffix hblanks, hcolumns.trans hblanks⟩

theorem namedList?_takes {named : Bool} {t r : Text} {name : Option ListSpan} {columns : ListSpan}
    (h : namedList? named t = some (name, columns, r)) :
    TakesList t r ∧ IsSpanOf t columns ∧ ∀ p ∈ name, IsSpanOf t p := by
  cases named with
  | true =>
    obtain ⟨n, hn, h⟩ := Option.bind_eq_some_iff.mp h
    obtain ⟨l, hl, h⟩ := Option.bind_eq_some_iff.mp h
    obtain ⟨s, hs, hn⟩ := Option.bind_eq_some_iff.mp hn
    simp only [Option.pure_def, Option.some.injEq, Prod.mk.injEq] at h
    obtain ⟨rfl, rfl, rfl⟩ := h
    have hblanks : s <:+ t := isReader_dropBlanks1?.suffix hs
    obtain ⟨hname, hrest⟩ := constraintName?_spanOf hn
    obtain ⟨hlist, hcolumns⟩ := columnList?_takes hl
    refine ⟨hlist.of_suffix (hrest.trans hblanks), hcolumns.trans (hrest.trans hblanks), ?_⟩
    intro p hp
    obtain rfl := Option.some.inj hp
    exact hname.trans hblanks
  | false =>
    obtain ⟨l, hl, h⟩ := Option.map_eq_some_iff.mp h
    simp only [Prod.mk.injEq] at h
    obtain ⟨rfl, rfl, rfl⟩ := h
    obtain ⟨hlist, hcolumns⟩ := columnList?_takes hl
    exact ⟨hlist, hcolumns, fun p hp => (nomatch hp)⟩

/-! ### The four readers -/

theorem takes_of_primaryKeySpan? {t r : Text} {s : ConstraintSpan}
    (h : primaryKeySpan? t = some (s, r)) : s.Takes t r := by
  rw [primaryKeySpan?] at h
  obtain ⟨v, hv, h⟩ := Option.bind_eq_some_iff.mp h
  obtain ⟨l, hl, h⟩ := Option.bind_eq_some_iff.mp h
  obtain ⟨rfl, rfl⟩ := Prod.mk.inj (Option.some.inj h)
  obtain ⟨hlabel, hbehind⟩ := constraintLabel_spanOf t
  obtain ⟨hlist, hcolumns⟩ := columnList?_takes hl
  have hphrase : v <:+ t := ((isReader_phrase? _).suffix hv).trans hbehind
  refine ⟨hlist.of_suffix hphrase, fun p hp => ?_⟩
  rcases List.mem_cons.mp hp with rfl | hp
  · exact hcolumns.trans hphrase
  · exact hlabel p (Option.mem_toList.mp hp)

theorem takes_of_foreignKeySpan? {t r : Text} {s : ConstraintSpan}
    (h : foreignKeySpan? t = some (s, r)) : s.Takes t r := by
  rw [foreignKeySpan?] at h
  obtain ⟨v, hv, h⟩ := Option.bind_eq_some_iff.mp h
  obtain ⟨l, hl, h⟩ := Option.bind_eq_some_iff.mp h
  obtain ⟨w, hw, h⟩ := Option.bind_eq_some_iff.mp h
  obtain ⟨n, hn, h⟩ := Option.bind_eq_some_iff.mp h
  obtain ⟨k, hk, h⟩ := Option.bind_eq_some_iff.mp h
  obtain ⟨rfl, rfl⟩ := Prod.mk.inj (Option.some.inj h)
  obtain ⟨hlabel, hbehind⟩ := constraintLabel_spanOf t
  obtain ⟨hlist, hcolumns⟩ := columnList?_takes hl
  obtain ⟨htable, hrest⟩ := quotedName?_spanOf hn
  obtain ⟨htargets, htarget⟩ := columnList?_takes hk
  have hphrase : v <:+ t := ((isReader_phrase? _).suffix hv).trans hbehind
  have hreferences : w <:+ t :=
    (((isReader_keyword? _).bind isReader_dropBlanks1?).suffix hw).trans
      ((List.dropWhile_suffix isBlank).trans (hlist.suffix.trans hphrase))
  refine ⟨htargets.of_suffix (hrest.trans hreferences), fun p hp => ?_⟩
  simp only [ConstraintSpan.pieces, Option.elim_some, List.mem_cons, List.mem_append,
    List.not_mem_nil, or_false, Option.mem_toList] at hp
  rcases hp with rfl | (rfl | rfl) | hp
  · exact hcolumns.trans hphrase
  · exact htable.trans hreferences
  · exact htarget.trans (hrest.trans hreferences)
  · exact hlabel p hp

/-- The result of two readers is that of one of them. -/
theorem Text.eq_some_of_orElse {α : Type} {x y : Option α} {a : α} (h : (x <|> y) = some a) :
    x = some a ∨ y = some a := by
  cases x with
  | none => exact Or.inr h
  | some b => exact Or.inl h

theorem takes_of_uniqueSpan? {t r : Text} {s : ConstraintSpan}
    (h : uniqueSpan? t = some (s, r)) : s.Takes t r := by
  rw [uniqueSpan?] at h
  obtain ⟨v, hv, h⟩ := Option.bind_eq_some_iff.mp h
  obtain ⟨⟨name, columns, rest⟩, hlist, h⟩ := Option.bind_eq_some_iff.mp h
  obtain ⟨rfl, rfl⟩ := Prod.mk.inj (Option.some.inj h)
  obtain ⟨hlabel, hbehind⟩ := constraintLabel_spanOf t
  have hword : v <:+ t := ((isReader_keyword? _).suffix hv).trans hbehind
  have hkey : ∀ {w : Text}, ((dropBlanks1? v).bind fun s =>
      keyword? "key".toList s <|> keyword? "index".toList s) = some w → w <:+ v := fun hw =>
    (isReader_dropBlanks1?.bind
      ((isReader_keyword? _).orElse (isReader_keyword? _) (grows_keyword? _))).suffix hw
  -- Whichever of the four lists it is, it stands behind the word.
  obtain ⟨w, named, hw, hlist⟩ : ∃ w named, w <:+ v ∧
      namedList? named w = some (name, columns, rest) := by
    rcases eq_some_of_orElse hlist with hlist | hlist
    · obtain ⟨w, hw, hlist⟩ := Option.bind_eq_some_iff.mp hlist
      exact ⟨w, true, hkey hw, hlist⟩
    · rcases eq_some_of_orElse hlist with hlist | hlist
      · obtain ⟨w, hw, hlist⟩ := Option.bind_eq_some_iff.mp hlist
        exact ⟨w, false, hkey hw, hlist⟩
      · rcases eq_some_of_orElse hlist with hlist | hlist
        · exact ⟨v, true, List.suffix_rfl, hlist⟩
        · exact ⟨v, false, List.suffix_rfl, hlist⟩
  obtain ⟨htakes, hcolumns, hname⟩ := namedList?_takes hlist
  refine ⟨htakes.of_suffix (hw.trans hword), fun p hp => ?_⟩
  rcases List.mem_cons.mp hp with rfl | hp
  · exact hcolumns.trans (hw.trans hword)
  · have hp : (name <|> (constraintLabel t).1) = some p := Option.mem_toList.mp hp
    cases name with
    | some n => exact (hname p hp).trans (hw.trans hword)
    | none => exact hlabel p hp

theorem takes_of_indexSpan? {t r : Text} {s : Bool × ConstraintSpan}
    (h : indexSpan? t = some (s, r)) : s.2.Takes t r := by
  rw [indexSpan?] at h
  obtain ⟨v, hv, h⟩ := Option.bind_eq_some_iff.mp h
  obtain ⟨⟨name, columns, rest⟩, hlist, h⟩ := Option.bind_eq_some_iff.mp h
  obtain ⟨rfl, rfl⟩ := Prod.mk.inj (Option.some.inj h)
  have hqualified : ((["unique", "primary", "foreign"].findSome? fun w =>
      keyword? w.toList t).bind dropBlanks1?).getD t <:+ t := by
    cases hq : (["unique", "primary", "foreign"].findSome? fun w =>
        keyword? w.toList t).bind dropBlanks1? with
    | none => exact List.suffix_rfl
    | some q =>
      obtain ⟨w, hw, hblanks⟩ := Option.bind_eq_some_iff.mp hq
      obtain ⟨k, -, hk⟩ := List.exists_of_findSome?_eq_some hw
      exact (isReader_dropBlanks1?.suffix hblanks).trans ((isReader_keyword? _).suffix hk)
  have hword : v <:+ t :=
    (((isReader_keyword? _).orElse (isReader_keyword? _) (grows_keyword? _)).suffix hv).trans
      hqualified
  obtain ⟨htakes, hcolumns, hname⟩ := namedList?_takes hlist
  refine ⟨htakes.of_suffix hword, fun p hp => ?_⟩
  rcases List.mem_cons.mp hp with rfl | hp
  · exact hcolumns.trans hword
  · exact (hname p (Option.mem_toList.mp hp)).trans hword

/-! ### Texts without parentheses -/

/-- Where the reader succeeds nowhere in the text, nothing is found. -/
theorem findAllFrom_eq_nil {α : Type} {m : Option Char → Text → Option (α × Text)} {t : Text}
    (h : ∀ (before : Option Char) (s : Text), s <:+ t → m before s = none) :
    ∀ before, findAllFrom m 0 before t = [] := by
  induction t with
  | nil => exact fun before => rfl
  | cons c t ih =>
    intro before
    rw [findAllFrom, h before _ List.suffix_rfl]
    exact ih (fun b s hs => h b s (hs.trans (List.suffix_cons c t))) _

/-- A constraint begins within the text. -/
theorem suffix_of_mem_constraintStarts {before : Option Char} {t s : Text}
    (h : s ∈ constraintStarts before t) : s <:+ t := by
  unfold constraintStarts at h
  rcases List.mem_append.mp h with h | h
  · split at h
    · exact List.mem_singleton.mp h ▸ List.dropWhile_suffix isBlank
    · cases h
  · split at h
    · split at h
      · rw [List.mem_singleton.mp h]
        exact (List.dropWhile_suffix isBlank).trans (List.suffix_cons _ _)
      · cases h
    · cases h

/-- In a text without a parenthesis the search finds nothing, whatever stands before it. -/
theorem findAllFrom_constraintStarts_eq_nil {α : Type} {read : Text → Option (α × Text)}
    (hread : ∀ {t r : Text} {a : α}, read t = some (a, r) → TakesList t r) {masked : Text}
    (h : '(' ∉ masked) (before : Option Char) :
    findAllFrom (fun before s => (constraintStarts before s).findSome? read) 0 before masked =
      [] := by
  refine findAllFrom_eq_nil (fun before s hs => ?_) before
  rw [List.findSome?_eq_none_iff]
  intro start hstart
  cases hstarts : read start with
  | none => rfl
  | some p =>
    obtain ⟨u, hu, hparen⟩ := hread hstarts
    have hmem : '(' ∈ start := hu ▸ List.mem_append_left _ hparen
    exact absurd (((suffix_of_mem_constraintStarts hstart).trans hs).subset hmem) h

theorem constraintSpans_eq_nil {α : Type} {read : Text → Option (α × Text)}
    (hread : ∀ {t r : Text} {a : α}, read t = some (a, r) → TakesList t r) {masked : Text}
    (h : '(' ∉ masked) : constraintSpans read masked = [] :=
  findAllFrom_constraintStarts_eq_nil hread h none

theorem tableConstraints_eq_nil {t : Text} (h : '(' ∉ maskQuoted (maskComments t)) :
    tableConstraints t = [] := by
  rw [tableConstraints]
  simp only [constraintSpans_eq_nil (fun h => (takes_of_primaryKeySpan? h).list) h,
    constraintSpans_eq_nil (fun h => (takes_of_foreignKeySpan? h).list) h,
    constraintSpans_eq_nil (fun h => (takes_of_uniqueSpan? h).list) h,
    constraintSpans_eq_nil (fun h => (takes_of_indexSpan? h).list) h, List.filter_nil,
    List.filterMap_nil, List.append_nil]

end TableTypes
