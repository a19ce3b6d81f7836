import TableTypes.Proofs.Column.Decoding
import TableTypes.Proofs.Column.Sound

/-!
# Arguments of a type

The arguments of a type go on to the next closing parenthesis, quoted or not, and nothing that
belongs to a type behind its arguments has one.  So the type that is read has at most one closing
parenthesis (`count_type_le_one`), and arguments are read to their end exactly if they have none
(`Column.parse_arguments_iff`).
-/

namespace TableTypes

open Text

/-! ### Closing parentheses in a type -/

/-- What is left of the text `t` is `r`, and what was taken off it has at most `n` closing
parentheses. -/
def ClosesAtMost (n : Nat) (t r : Text) : Prop :=
  ∃ u, t = u ++ r ∧ u.count ')' ≤ n

namespace ClosesAtMost

variable {n k : Nat} {s t r : Text}

theorem refl (n : Nat) (t : Text) : ClosesAtMost n t t :=
  ⟨[], rfl, Nat.zero_le n⟩

theorem trans (h : ClosesAtMost n t s) (h' : ClosesAtMost k s r) : ClosesAtMost (n + k) t r := by
  obtain ⟨u, rfl, hu⟩ := h
  obtain ⟨v, rfl, hv⟩ := h'
  refine ⟨u ++ v, (List.append_assoc u v r).symm, ?_⟩
  rw [List.count_append]
  exact Nat.add_le_add hu hv

/-- A piece without a closing parenthesis. -/
theorem of_forall {u : Text} (hu : ∀ c ∈ u, c ≠ ')') (r : Text) : ClosesAtMost 0 (u ++ r) r :=
  ⟨u, rfl, Nat.le_of_eq (List.count_eq_zero.mpr fun h => hu _ h rfl)⟩

/-- A reader that may be left out. -/
theorem skip {f : Text → Option Text} (hf : ∀ {r}, f t = some r → ClosesAtMost n t r) :
    ClosesAtMost n t (skip f t) := by
  rw [TableTypes.skip]
  cases h : f t with
  | none => exact refl n t
  | some r => exact hf h

theorem manyUpTo {f : Text → Option Text} (hf : ∀ {t r}, f t = some r → ClosesAtMost 0 t r)
    (k : Nat) : ∀ t, ClosesAtMost 0 t (manyUpTo (fun s => (f s).map ((), ·)) k t).2 := by
  induction k with
  | zero => exact refl 0
  | succ k ih =>
    intro t
    rw [Text.manyUpTo]
    cases h : f t with
    | none => exact refl 0 t
    | some r =>
      dsimp only [Option.map_some]
      split_ifs
      · exact (hf h).trans (ih r)
      · exact refl 0 t

end ClosesAtMost

theorem closesAtMost_word? {t w r : Text} (h : word? t = some (w, r)) : ClosesAtMost 0 t r := by
  obtain ⟨rfl, -, hw⟩ := word?_eq_some h
  refine ClosesAtMost.of_forall (fun c hc => ?_) r
  rintro rfl
  exact absurd (hw _ hc) (by decide)

theorem closesAtMost_dropBlanks1? {t r : Text} (h : dropBlanks1? t = some r) :
    ClosesAtMost 0 t r := by
  obtain ⟨u, rfl, hu⟩ := exists_of_dropBlanks1? h
  exact ClosesAtMost.of_forall (fun c hc => ne_of_isBlank rfl (hu c hc)) r

theorem closesAtMost_spacedPhrase? (phrases : List (List Text))
    (hphrases : ∀ ws ∈ phrases, ∀ w ∈ ws, isKeyword w = true) {t r : Text}
    (h : spacedPhrase? phrases t = some r) : ClosesAtMost 0 t r := by
  obtain ⟨s, hs, h⟩ := Option.bind_eq_some_iff.mp h
  obtain ⟨ws, hws, h⟩ := List.exists_of_findSome?_eq_some h
  obtain ⟨u, rfl, hu⟩ := exists_of_phrase? (hphrases ws hws) (Option.filter_eq_some_iff.mp h).1
  have hne : ∀ c ∈ u, c ≠ ')' := by
    rintro c hc rfl
    rcases hu _ hc with hword | hblank
    · exact absurd hword (by decide)
    · exact absurd hblank (by decide)
  exact (closesAtMost_dropBlanks1? hs).trans (ClosesAtMost.of_forall hne r)

/-- A run of characters, none of which is a closing parenthesis. -/
theorem closesAtMost_dropWhile {p : Char → Bool} (hp : p ')' = false) (t : Text) :
    ClosesAtMost 0 t (t.dropWhile p) := by
  have hsplit := List.takeWhile_append_dropWhile (p := p) (l := t)
  have hrun : ∀ c ∈ t.takeWhile p, c ≠ ')' := by
    rintro c hc rfl
    rw [List.all_eq_true.mp List.all_takeWhile _ hc] at hp
    cases hp
  have h := ClosesAtMost.of_forall hrun (t.dropWhile p)
  rwa [hsplit] at h

theorem closesAtMost_arrayBounds? {t r : Text} (h : arrayBounds? t = some r) :
    ClosesAtMost 0 t r := by
  have hblanks : ClosesAtMost 0 t (dropBlanks t) := closesAtMost_dropWhile (by decide) t
  rw [arrayBounds?] at h
  split at h
  · rename_i s hs
    split at h
    · rename_i rest hrest
      obtain rfl := Option.some.inj h
      have hopen : ClosesAtMost 0 ('[' :: s) s := ClosesAtMost.of_forall (u := ['[']) (by simp) s
      have hdigits : ClosesAtMost 0 s (s.dropWhile isDecimal) :=
        closesAtMost_dropWhile (by decide) s
      have hclose : ClosesAtMost 0 (']' :: rest) rest :=
        ClosesAtMost.of_forall (u := [']']) (by simp) rest
      rw [hs] at hblanks
      rw [hrest] at hdigits
      exact hblanks.trans (hopen.trans (hdigits.trans hclose))
    · cases h
  · cases h

/-- The arguments of a type have one closing parenthesis, which ends them. -/
theorem closesAtMost_arguments? {t r : Text} (h : arguments? t = some r) : ClosesAtMost 1 t r := by
  unfold arguments? at h
  split at h
  · rename_i s
    have hopen : ClosesAtMost 0 ('(' :: s) s := ClosesAtMost.of_forall (u := ['(']) (by simp) s
    have hrun : ClosesAtMost 0 s (s.dropWhile (· ≠ ')')) := closesAtMost_dropWhile (by decide) s
    cases hc : s.dropWhile (· ≠ ')') with
    | nil => rw [hc] at h; cases h
    | cons c rest =>
      rw [hc] at h hrun
      obtain rfl : rest = r := Option.some.inj h
      have hclose : ClosesAtMost 1 (c :: rest) rest := ⟨[c], rfl, List.count_le_length⟩
      exact hopen.trans (hrun.trans hclose)
  · cases h

theorem closesAtMost_afterType? {t r : Text} (h : afterType? t = some r) : ClosesAtMost 1 t r := by
  obtain ⟨⟨w, s⟩, hword, h⟩ := Option.bind_eq_some_iff.mp h
  obtain rfl := Option.some.inj h
  have hsecond := ClosesAtMost.skip (t := s) (n := 0)
    (closesAtMost_spacedPhrase? [["precision".toList], ["varying".toList]] (by decide))
  have harguments := fun s => ClosesAtMost.skip (t := s) closesAtMost_arguments?
  have hzone := fun s => ClosesAtMost.skip (t := s) (n := 0) (closesAtMost_spacedPhrase?
    [["with".toList, "time".toList, "zone".toList],
      ["without".toList, "time".toList, "zone".toList]] (by decide))
  have hbounds := fun s : Text =>
    ClosesAtMost.manyUpTo (fun h => closesAtMost_arrayBounds? h) s.length s
  have hsigns := fun s : Text => ClosesAtMost.manyUpTo (fun h => closesAtMost_spacedPhrase?
    [["unsigned".toList], ["signed".toList], ["zerofill".toList]] (by decide) h)
    s.length s
  exact (closesAtMost_word? hword).trans (hsecond.trans ((harguments _).trans
    ((hzone _).trans ((hbounds _).trans (hsigns _)))))

/-- **The type of a column has at most one closing parenthesis**, whatever its definition is. -/
theorem Column.count_type_le_one {s : Source} {line : Option Nat} {c : Column}
    (h : Column.parse s line = .ok c) : c.type.count ')' ≤ 1 := by
  obtain ⟨t, d, -, hd, rfl⟩ := Column.exists_of_parse h
  obtain ⟨name, -, hd⟩ := Option.bind_eq_some_iff.mp hd
  obtain ⟨r, -, hd⟩ := Option.bind_eq_some_iff.mp hd
  obtain ⟨rest, hrest, hd⟩ := Option.bind_eq_some_iff.mp hd
  obtain rfl := Option.some.inj hd
  obtain ⟨u, rfl, hu⟩ := closesAtMost_afterType? hrest
  have htype : between (u ++ rest) (u ++ rest) rest = u :=
    between_append [] u rest List.length_append rfl
  show (between (u ++ rest) (u ++ rest) rest).count ')' ≤ 1
  rwa [htype]

/-! ### Definitions with arguments -/

variable {w : Bareword []} {cs : List Clause}

/-- A type as it is written: a word and its arguments in parentheses. -/
def typeWith (w : Bareword []) (args : Text) : Text :=
  w.text ++ '(' :: (args ++ [')'])

/-- A definition with a bare name, a type and clauses behind it. -/
def typedText (n : Bareword tableLevelWords) (type : Text) (cs : List Clause) : Text :=
  n.text ++ ' ' :: (type ++ clausesText cs)

/-- Where the clauses begin the type ends, if it is a word. -/
theorem afterType?_bareword (w : Bareword []) (cs : List Clause) :
    afterType? (w.text ++ clausesText cs) = some (clausesText cs) := by
  have hends := endsType_clausesText cs
  exact afterType?_of_word (word?_append w.ne_nil w.forall_word hends.word) hends.precision
    (skip_none hends.arguments) hends

/-- The type ends there as well behind arguments without a closing parenthesis. -/
theorem afterType?_typeWith (w : Bareword []) {args : Text} (hargs : ')' ∉ args)
    (cs : List Clause) : afterType? (typeWith w args ++ clausesText cs) = some (clausesText cs) := by
  have hsplit : typeWith w args ++ clausesText cs =
      w.text ++ '(' :: (args ++ ')' :: clausesText cs) := by
    rw [typeWith, List.append_assoc, List.cons_append, List.append_assoc]
    rfl
  have hskip := skip_arguments?_of_forall (fun c hc h => hargs (h ▸ hc)) (clausesText cs)
  rw [hsplit]
  exact afterType?_of_word (word?_append w.ne_nil w.forall_word rfl) rfl hskip
    (endsType_clausesText cs)

/-- A definition is read with its type, if the type ends where the clauses begin. -/
theorem parse_typedText (n : Bareword tableLevelWords) {type : Text} (cs : List Clause)
    (line : Option Nat) (hhead : dropBlanks (type ++ clausesText cs) = type ++ clausesText cs)
    (hlast : ∃ c, type.getLast? = some c ∧ isBlank c = false)
    (htype : afterType? (type ++ clausesText cs) = some (clausesText cs)) :
    Column.parse (.text (typedText n type cs)) line =
      .ok (ColumnDefinition.column ⟨n.text, type, attributesText cs⟩) := by
  have hsolid : (Source.text (typedText n type cs)).solid? = some (typedText n type cs) :=
    solid?_of_isAllBlank (isAllBlank_word n.ne_nil n.forall_word _)
  have hstrip : strip (typedText n type cs) = typedText n type cs := by
    apply strip_eq_self
    · exact isBlank_head?_word n.ne_nil n.forall_word _
    · have hsplit : typedText n type cs = (n.text ++ ' ' :: type) ++ clausesText cs := by
        rw [typedText, List.append_assoc]
        rfl
      obtain ⟨c, hc, hblank⟩ := hlast
      rw [hsplit]
      refine getLast?_clausesText _ (fun x hx => ?_) cs
      rw [List.getLast?_append, List.getLast?_cons, hc] at hx
      obtain rfl : c = x := Option.some.inj hx
      exact hblank
  have hcolumn : Column.read (typedText n type cs) =
      .ok (ColumnDefinition.column ⟨n.text, type, attributesText cs⟩) :=
    Column.read_bareword n ⟨hhead, htype⟩ (isTableLevel_bareword n rfl)
  rw [Column.parse, hsolid]
  simp only [hstrip, hcolumn]
  rfl

/-- **The arguments of a type are read to their end exactly if there is no closing parenthesis in
them**, be it in quotes or in a pair of its own.  Then the definition is read like that of the word
alone, but for the type. -/
theorem Column.parse_arguments_iff (n : Bareword tableLevelWords) (w : Bareword []) (args : Text)
    (cs : List Clause) (line : Option Nat) :
    (∃ c c', Column.parse (.text (typedText n (typeWith w args) cs)) line = .ok c ∧
      Column.parse (.text (typedText n w.text cs)) line = .ok c' ∧
      c.type = typeWith w args ∧ c.nullable = c'.nullable ∧ c.default = c'.default ∧
      c.constraints = c'.constraints) ↔ ')' ∉ args := by
  constructor
  · rintro ⟨c, -, hc, -, htype, -⟩ hmem
    have hcount := Column.count_type_le_one hc
    have hargs : 0 < args.count ')' := List.count_pos_iff.mpr hmem
    rw [htype, typeWith, List.count_append, List.count_cons, List.count_append,
      List.count_singleton_self] at hcount
    omega
  · intro hargs
    have hsolid : ∃ c, w.text.getLast? = some c ∧ isBlank c = false := by
      obtain ⟨c, hc⟩ := Option.ne_none_iff_exists'.mp
        (fun h => w.ne_nil (List.getLast?_eq_none_iff.mp h))
      exact ⟨c, hc, isBlank_of_isAsciiWord (w.forall_word c (List.mem_of_getLast? hc))⟩
    have hclose : (typeWith w args).getLast? = some ')' := by
      rw [typeWith, List.getLast?_append, List.getLast?_cons, List.getLast?_concat]
      rfl
    have hhead : dropBlanks (typeWith w args ++ clausesText cs) =
        typeWith w args ++ clausesText cs := by
      rw [typeWith, List.append_assoc]
      exact dropBlanks_word w.ne_nil w.forall_word _
    exact ⟨_, _, parse_typedText n cs line hhead ⟨_, hclose, rfl⟩ (afterType?_typeWith w hargs cs),
      parse_typedText n cs line (dropBlanks_word w.ne_nil w.forall_word _) hsolid
        (afterType?_bareword w cs), rfl, rfl, rfl, rfl⟩

/-- Two values in quotes, the first with a parenthesis inside. -/
def quotedArguments : Text :=
  "'a)','b'".toList

/-- The name and the type word of a column with these arguments. -/
def enumNames : Bareword tableLevelWords × Bareword [] :=
  (⟨"x".toList, by decide, rfl, by decide⟩, ⟨"ENUM".toList, by decide, rfl, by decide⟩)

/-- The parenthesis of these arguments that the scan finds closed is the last one, but their type
ends at the quoted one, and `NOT NULL` behind them is taken for a part of a literal. -/
theorem Column.parse_quotedArguments :
    closing? ('(' :: (quotedArguments ++ [')'])) = some (quotedArguments.length + 1) ∧
      (∀ m ∈ scan true ('(' :: (quotedArguments ++ [')'])), m.region ≠ .comment) ∧
      typedText enumNames.1 (typeWith enumNames.2 quotedArguments) [.notNull] =
        "x ENUM('a)','b') NOT NULL".toList ∧
      Column.parse (.text "x ENUM('a)','b') NOT NULL".toList) none =
        .ok ⟨"x".toList, "ENUM('a)".toList, true, none, [], none⟩ ∧
      Column.parse (.text "x ENUM NOT NULL".toList) none =
        .ok ⟨"x".toList, "ENUM".toList, false, none, [], none⟩ :=
  ⟨by decide, by decide, rfl, by decide +kernel, by decide +kernel⟩

end TableTypes
