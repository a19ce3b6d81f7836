import TableTypes.Proofs.TableConstraints.Layout
import TableTypes.Proofs.Text.Search

/-!
# Passing over segments

A search for constraints asks its reader behind every blank and every comma.  It passes over a text
at which the reader is asked in vain (`Quiet`, `findAfter_pass`), and goes on behind a piece that
the reader takes (`findAfter_hit`).  A reader of table constraints passes over every column
(`TableReader.quiet_column`): its clauses may begin like a constraint, but no column list follows.
-/

namespace TableTypes

open Text

variable {α : Type} {read : Text → Option (α × Text)}

/-! ### The search behind the first segment -/

/-- The matches of `read` in a text that does not stand at the start of the list. -/
def findAfter (read : Text → Option (α × Text)) (t : Text) : List α :=
  findAllFrom (fun before s => (constraintStarts before s).findSome? read) 0 (some ',') t

/-- Which character stands in front does not matter to the search. -/
theorem findAllFrom_some (x : Char) (t : Text) :
    findAllFrom (fun before s => (constraintStarts before s).findSome? read) 0 (some x) t =
      findAfter read t := by
  cases t <;> rfl

/-- Whether the search asks its reader behind `c`. -/
def isGap (c : Char) : Bool :=
  c = ',' || isBlank c

theorem constraintStarts_some (x c : Char) (t : Text) :
    constraintStarts (some x) (c :: t) = if isGap c then [dropBlanks t] else [] := by
  rfl

/-- In front of `s` the reader is asked in vain everywhere in the text. -/
def Quiet (read : Text → Option (α × Text)) (s : Text) : Text → Prop
  | [] => True
  | c :: u => (isGap c = true → read (dropBlanks (u ++ s)) = none) ∧ Quiet read s u

theorem findAfter_pass {s u : Text} (h : Quiet read s u) :
    findAfter read (u ++ s) = findAfter read s := by
  induction u with
  | nil => rfl
  | cons c u ih =>
    have hc : (constraintStarts (some ',') (c :: (u ++ s))).findSome? read = none := by
      rw [constraintStarts_some]
      by_cases hsep : isGap c = true
      · rw [if_pos hsep, List.findSome?_cons, h.1 hsep]
        rfl
      · rw [if_neg hsep]
        rfl
    rw [List.cons_append, findAfter, findAllFrom, hc]
    exact (findAllFrom_some c _).trans (ih h.2)

theorem findAfter_hit {a : α} {c : Char} {u s : Text} (hc : isGap c = true)
    (h : read (dropBlanks (u ++ s)) = some (a, s)) :
    findAfter read (c :: (u ++ s)) = a :: findAfter read s := by
  have hmatch : (constraintStarts (some ',') (c :: (u ++ s))).findSome? read = some (a, s) := by
    rw [constraintStarts_some, if_pos hc, List.findSome?_cons, h]
  rw [findAfter, findAllFrom_hit c u s hmatch]
  cases u.getLast? <;> exact congrArg (a :: ·) (findAllFrom_some _ s)

theorem findAfter_of_some {c : Char} {t r : Text} {a : α} (hc : isGap c = true)
    (h : read (dropBlanks t) = some (a, r)) (hr : r <:+ t) :
    findAfter read (c :: t) = a :: findAfter read r := by
  obtain ⟨u, rfl⟩ := hr
  exact findAfter_hit hc h

theorem findAfter_of_none {c : Char} {t : Text}
    (h : isGap c = true → read (dropBlanks t) = none) :
    findAfter read (c :: t) = findAfter read t :=
  findAfter_pass (u := [c]) ⟨h, trivial⟩

/-- Blanks are passed over if the reader finds nothing behind them. -/
theorem findAfter_blanks {b t : Text} (hb : ∀ c ∈ b, isBlank c = true)
    (h : read (dropBlanks t) = none) : findAfter read (b ++ t) = findAfter read t := by
  induction b with
  | nil => rfl
  | cons c b ih =>
    have hb' : ∀ d ∈ b, isBlank d = true := fun d hd => hb d (List.mem_cons_of_mem c hd)
    have hdrop : dropBlanks (b ++ t) = dropBlanks t :=
      dropBlanks_of_isAllBlank (isAllBlank_iff.mpr hb') t
    rw [List.cons_append, findAfter_of_none fun _ => hdrop ▸ h, ih hb']

/-- Blanks behind a comma do not matter. -/
theorem findAfter_comma_blanks {b t : Text} (hb : ∀ c ∈ b, isBlank c = true)
    (hread : ∀ a r, read (dropBlanks t) = some (a, r) → r <:+ t) :
    findAfter read (',' :: (b ++ t)) = findAfter read (',' :: t) := by
  have hdrop : dropBlanks (b ++ t) = dropBlanks t :=
    dropBlanks_of_isAllBlank (isAllBlank_iff.mpr hb) t
  cases h : read (dropBlanks t) with
  | some p =>
    obtain ⟨a, r⟩ := p
    have hr : r <:+ t := hread a r h
    rw [findAfter_of_some rfl h hr,
      findAfter_of_some rfl (hdrop ▸ h) (hr.trans (List.suffix_append b t))]
  | none =>
    rw [findAfter_of_none fun _ => hdrop ▸ h, findAfter_of_none fun _ => h, findAfter_blanks hb h]

/-- A list is searched as if it stood behind a comma, if the reader takes something or nothing where
it begins. -/
theorem constraintSpans_cons {c : Char} {t : Text}
    (hread : ∀ a r, read (dropBlanks (c :: t)) = some (a, r) → r <:+ t) :
    constraintSpans read (c :: t) = findAfter read (',' :: c :: t) := by
  have hstarts : constraintStarts none (c :: t) =
      dropBlanks (c :: t) :: constraintStarts (some ',') (c :: t) := rfl
  cases h : read (dropBlanks (c :: t)) with
  | some p =>
    obtain ⟨a, r⟩ := p
    have hr : r <:+ t := hread a r h
    rw [findAfter_of_some rfl h (hr.trans (List.suffix_cons c t))]
    obtain ⟨u, rfl⟩ := hr
    have hmatch : (constraintStarts none (c :: (u ++ r))).findSome? read = some (a, r) := by
      rw [hstarts, List.findSome?_cons, h]
    rw [constraintSpans, findAll, findAllFrom_hit c u r hmatch]
    cases u.getLast? <;> exact congrArg (a :: ·) (findAllFrom_some _ r)
  | none =>
    have hmatch : (constraintStarts none (c :: t)).findSome? read =
        (constraintStarts (some ',') (c :: t)).findSome? read := by
      rw [hstarts, List.findSome?_cons, h]
    rw [findAfter_of_none fun _ => h, constraintSpans, findAll, findAfter, findAllFrom,
      findAllFrom, hmatch]

/-- The first segment is searched as if it stood behind another one, if the reader takes all of it
or nothing. -/
theorem constraintSpans_eq {c : Char} {u s : Text} (hc : isGap c = false)
    (h : ∀ a r, read (c :: (u ++ s)) = some (a, r) → r = s) :
    constraintSpans read (c :: (u ++ s)) = findAfter read (',' :: ' ' :: (c :: (u ++ s))) := by
  have hblank : isBlank c = false := by
    rw [isGap, Bool.or_eq_false_iff] at hc
    exact hc.2
  have hread : ∀ a r, read (dropBlanks (c :: (u ++ s))) = some (a, r) → r <:+ u ++ s := by
    intro a r hr
    rw [dropBlanks_of_head _ hblank] at hr
    rw [h a r hr]
    exact List.suffix_append u s
  have hspace : ∀ d ∈ [' '], isBlank d = true := by
    intro d hd
    rw [List.mem_singleton.mp hd]
    rfl
  rw [constraintSpans_cons hread]
  exact (findAfter_comma_blanks hspace fun a r hr =>
    (hread a r hr).trans (List.suffix_cons c _)).symm

/-! ### Quiet pieces -/

theorem Quiet.append {s u v : Text} (hu : Quiet read (v ++ s) u) (hv : Quiet read s v) :
    Quiet read s (u ++ v) := by
  induction u with
  | nil => exact hv
  | cons c u ih =>
    refine ⟨?_, ih hu.2⟩
    intro hc
    show read (dropBlanks ((u ++ v) ++ s)) = none
    rw [List.append_assoc]
    exact hu.1 hc

/-- Where nothing separates words the reader is not asked. -/
theorem Quiet.of_solid {s u : Text} (h : ∀ c ∈ u, isGap c = false) : Quiet read s u := by
  induction u with
  | nil => trivial
  | cons c u ih =>
    refine ⟨fun hc => ?_, ih fun d hd => h d (List.mem_cons_of_mem c hd)⟩
    rw [h c List.mem_cons_self] at hc
    cases hc

theorem isGap_of_isAsciiWord {c : Char} (hc : isAsciiWord c = true) :
    isGap c = false := by
  have hcomma : c ≠ ',' := by rintro rfl; exact absurd hc (by decide)
  rw [isGap, isBlank_of_isAsciiWord hc, decide_eq_false hcomma]
  rfl

theorem Quiet.of_word {s w : Text} (hw : ∀ c ∈ w, isAsciiWord c = true) : Quiet read s w :=
  Quiet.of_solid fun c hc => isGap_of_isAsciiWord (hw c hc)

theorem Quiet.upper {s w u : Text} (hw : w.all isAsciiWord = true) (hu : Quiet read s u) :
    Quiet read s (w ++ u) :=
  Quiet.append (Quiet.of_word (List.all_eq_true.mp hw)) hu

/-- Behind a space the reader is asked once. -/
theorem Quiet.space {s u : Text} (hdrop : dropBlanks (u ++ s) = u ++ s) (h : read (u ++ s) = none)
    (hu : Quiet read s u) : Quiet read s (' ' :: u) :=
  ⟨fun _ => by rw [hdrop, h], hu⟩

/-- Behind a comma with a space the reader is asked for the same as behind the space. -/
theorem Quiet.comma {s u : Text} (h : Quiet read s (' ' :: u)) : Quiet read s (',' :: ' ' :: u) :=
  ⟨fun _ => h.1 rfl, h⟩

/-! ### Readers of table constraints -/

/-- The words, in lower case, that a constraint of the table begins with or goes on with up to its
columns. -/
def constraintWords : List Text :=
  ["constraint".toList, "primary".toList, "foreign".toList, "unique".toList, "key".toList,
    "index".toList]

theorem not_mem_constraintWords {w : Text} (h : w ∉ reservedWords) : w ∉ constraintWords :=
  fun h' => h ((by decide : constraintWords ⊆ reservedWords) h')

theorem ConstraintHead.dropBlanks_text (h : ConstraintHead) (x : Text) :
    dropBlanks (h.text ++ x) = h.text ++ x := by
  cases h <;> rfl

theorem ConstraintText.dropBlanks_body (c : ConstraintText) (s : Text) :
    dropBlanks (c.body ++ s) = c.body ++ s := by
  rw [body, List.append_assoc, c.head.dropBlanks_text]

theorem ConstraintText.text_of_label (c : ConstraintText) {n : Identifier}
    (hlabel : c.label = some n) :
    c.text = "CONSTRAINT".toList ++ (' ' :: n.text) ++ (' ' :: c.body) := by
  have htext : labelText c.label = "CONSTRAINT".toList ++ (' ' :: n.text) ++ [' '] := by
    rw [hlabel, List.append_assoc]
    rfl
  rw [text, htext, List.append_assoc]
  rfl

/-- A segment is followed by nothing or by a comma. -/
def Ends (s : Text) : Prop :=
  ∀ c ∈ s.head?, c = ','

/-- A reader of table constraints takes nothing at a word that begins no constraint, and nothing at
the clauses of a column that begin like one. -/
structure TableReader (read : Text → Option (α × Text)) : Prop where
  opens : Opens constraintWords read
  key_list : ∀ x : Text, read ("KEY (".toList ++ x) = none
  primaryKey_clause : ∀ (cs : List Clause) {s : Text}, Ends s →
    read ("PRIMARY KEY".toList ++ (clausesMasked cs ++ s)) = none
  key_clause : ∀ (cs : List Clause) {s : Text}, Ends s →
    read ("KEY".toList ++ (clausesMasked cs ++ s)) = none
  unique_clause : ∀ (cs : List Clause) {s : Text}, Ends s →
    read ("UNIQUE".toList ++ (clausesMasked cs ++ s)) = none

theorem Ends.eq_nil_or_comma {s : Text} (hs : Ends s) : s = [] ∨ ∃ r, s = ',' :: r := by
  cases s with
  | nil => exact Or.inl rfl
  | cons c s => exact Or.inr ⟨s, congrArg (· :: s) (hs c rfl)⟩

theorem Ends.atWordEnd {s : Text} (hs : Ends s) : atWordEnd s = true := by
  obtain rfl | ⟨r, rfl⟩ := hs.eq_nil_or_comma <;> rfl

theorem atWordEnd_clauses (cs : List Clause) {s : Text} (hs : Ends s) :
    atWordEnd (clausesMasked cs ++ s) = true := by
  cases cs with
  | nil => exact hs.atWordEnd
  | cons c cs => rfl

namespace Text.Opens

variable {ks : List Text} (hread : Opens ks read) {s u : Text}

include hread

/-- Behind a space the reader is asked in vain for a word that is no keyword. -/
theorem quiet_word {w : Text} (hne : w ≠ []) (hw : ∀ c ∈ w, isAsciiWord c = true)
    (hks : w.map Char.toLower ∉ ks) (hend : atWordEnd (u ++ s) = true) (hu : Quiet read s u) :
    Quiet read s (' ' :: (w ++ u)) := by
  have hdrop : dropBlanks (w ++ u ++ s) = w ++ u ++ s := by
    rw [List.append_assoc, dropBlanks_word hne hw]
  refine Quiet.space hdrop ?_ (Quiet.append (Quiet.of_word hw) hu)
  rw [List.append_assoc]
  exact hread.at_word w (u ++ s) hw hend hks

/-- A keyword that is not looked for. -/
theorem quiet_upper {w : Text} (hne : w ≠ []) (hw : w.all isAsciiWord = true)
    (hks : w.map Char.toLower ∉ ks) (hend : atWordEnd (u ++ s) = true) (hu : Quiet read s u) :
    Quiet read s (' ' :: (w ++ u)) :=
  hread.quiet_word hne (List.all_eq_true.mp hw) hks hend hu

/-- Behind a space the reader is asked in vain for a character outside words. -/
theorem quiet_nonword {c : Char} (hblank : isBlank c = false) (hc : isWord c = false)
    (hu : Quiet read s (c :: u)) : Quiet read s (' ' :: c :: u) :=
  Quiet.space (dropBlanks_of_head _ hblank) (hread.nonword hc _) hu

/-- A text in quotes is quiet if it is blank. -/
theorem quiet_enclose_blank (q : Quote) (n : Nat) (hu : Quiet read s u) :
    Quiet read s (q.enclose (List.replicate n ' ') ++ u) := by
  have hword : isWord q.char = false := by cases q <;> rfl
  have hblank : isBlank q.char = false := by cases q <;> rfl
  have hgap : ¬ isGap q.char = true := by cases q <;> decide
  have hclose : ∀ n, Quiet read s (List.replicate n ' ' ++ q.char :: u) := by
    intro n
    induction n with
    | zero => exact ⟨fun h => absurd h hgap, hu⟩
    | succ n ih =>
      refine ⟨fun _ => ?_, ih⟩
      -- Behind each blank there is nothing but blanks and the quote.
      have hdrop : ∀ m, dropBlanks (List.replicate m ' ' ++ q.char :: (u ++ s)) =
          q.char :: (u ++ s) := by
        intro m
        induction m with
        | zero => exact dropBlanks_of_head _ hblank
        | succ m ih => exact ih
      show read (dropBlanks (List.replicate n ' ' ++ q.char :: u ++ s)) = none
      rw [List.append_assoc, List.cons_append, hdrop]
      exact hread.nonword hword _
  have hsplit : q.enclose (List.replicate n ' ') ++ u =
      q.char :: (List.replicate n ' ' ++ q.char :: u) := by
    simp [Quote.enclose]
  rw [hsplit]
  exact ⟨fun h => absurd h hgap, hclose n⟩

end Text.Opens

namespace TableReader

variable (hread : TableReader read) {s : Text}

include hread

/-- Behind a space the reader is asked in vain for an identifier. -/
theorem quiet_identifier (b : Identifier) {u : Text} (hend : atWordEnd (u ++ s) = true)
    (hu : Quiet read s u) : Quiet read s (' ' :: (b.text ++ u)) :=
  hread.opens.quiet_word b.ne_nil b.forall_word (not_mem_constraintWords b.free) hend hu

theorem quiet_clause (c : Clause) (cs : List Clause) (hs : Ends s)
    (hcs : Quiet read s (clausesMasked cs)) : Quiet read s (clausesMasked (c :: cs)) := by
  have hend := atWordEnd_clauses cs hs
  cases c with
  | notNull =>
    have hnull := hread.opens.quiet_upper (w := "NULL".toList) (by decide) rfl (by decide) hend hcs
    exact hread.opens.quiet_upper (w := "NOT".toList) (by decide) rfl (by decide) rfl hnull
  | primaryKey =>
    have hkey : Quiet read s (' ' :: ("KEY".toList ++ clausesMasked cs)) :=
      Quiet.space rfl (hread.key_clause cs hs) (Quiet.upper rfl hcs)
    show Quiet read s (' ' :: ("PRIMARY".toList ++ (' ' :: ("KEY".toList ++ clausesMasked cs))))
    exact Quiet.space rfl (hread.primaryKey_clause cs hs) (Quiet.upper rfl hkey)
  | unique =>
    show Quiet read s (' ' :: ("UNIQUE".toList ++ clausesMasked cs))
    exact Quiet.space rfl (hread.unique_clause cs hs) (Quiet.upper rfl hcs)
  | autoIncrement =>
    exact hread.opens.quiet_upper (w := "AUTO_INCREMENT".toList) (by decide) rfl (by decide) hend
      hcs
  | default v =>
    have hvalue : Quiet read s (' ' :: (v.masked ++ clausesMasked cs)) := by
      cases v with
      | digits d =>
        exact hread.opens.quiet_word d.ne_nil d.forall_word
          (hread.opens.digits_not_mem d.ne_nil d.forall_digit) hend hcs
      | quoted t ht =>
        exact hread.opens.quiet_nonword rfl rfl (hread.opens.quiet_enclose_blank .single t.length hcs)
    have hdefault := hread.opens.quiet_upper (w := "DEFAULT".toList) (by decide) rfl (by decide)
      rfl hvalue
    show Quiet read s (' ' :: ("DEFAULT ".toList ++ v.masked ++ clausesMasked cs))
    rw [List.append_assoc]
    exact hdefault
  | comment c hc =>
    have hliteral := hread.opens.quiet_nonword (c := '\'') rfl rfl
      (hread.opens.quiet_enclose_blank .single c.length hcs)
    exact hread.opens.quiet_upper (w := "COMMENT".toList) (by decide) rfl (by decide) rfl hliteral

theorem quiet_clauses (cs : List Clause) (hs : Ends s) : Quiet read s (clausesMasked cs) := by
  induction cs with
  | nil => trivial
  | cons c cs ih => exact hread.quiet_clause c cs hs ih

/-- The arguments of a type are no constraint. -/
theorem quiet_arguments (a : TypeArguments) {u : Text} (hu : Quiet read s u) :
    Quiet read s (a.text ++ u) := by
  have hdigits : ∀ (d : Digits) {v : Text}, Quiet read s v → Quiet read s (d.text ++ v) :=
    fun d _ hv => Quiet.append (Quiet.of_word d.forall_word) hv
  have hclose : Quiet read s (')' :: u) := ⟨fun h => absurd h (by decide), hu⟩
  cases a with
  | none => exact hu
  | one d =>
    have hsplit : (TypeArguments.one d).text ++ u = '(' :: (d.text ++ ')' :: u) := by
      simp [TypeArguments.text]
    rw [hsplit]
    exact ⟨fun h => absurd h (by decide), hdigits d hclose⟩
  | two d e =>
    have hsplit : (TypeArguments.two d e).text ++ u =
        '(' :: (d.text ++ ',' :: (e.text ++ ')' :: u)) := by
      simp [TypeArguments.text]
    -- The comma between the arguments is followed by a numeral.
    have hcomma : Quiet read s (',' :: (e.text ++ ')' :: u)) := by
      refine ⟨fun _ => ?_, hdigits e hclose⟩
      have hdrop : dropBlanks (e.text ++ ')' :: u ++ s) = e.text ++ (')' :: u ++ s) := by
        rw [List.append_assoc, dropBlanks_word e.ne_nil e.forall_word]
      rw [hdrop]
      exact hread.opens.at_word e.text _ e.forall_word rfl
        (hread.opens.digits_not_mem e.ne_nil e.forall_digit)
    rw [hsplit]
    exact ⟨fun h => absurd h (by decide), hdigits d hcomma⟩

/-- **A column is no constraint of the table**, whatever its clauses. -/
theorem quiet_column (c : TableColumn) (hs : Ends s) :
    Quiet read s ([',', ' '] ++ (Segment.column c).masked) := by
  obtain ⟨d, hfree⟩ := c
  have hargs : Quiet read s (d.type.arguments.text ++ clausesMasked d.clauses) :=
    hread.quiet_arguments d.type.arguments (hread.quiet_clauses d.clauses hs)
  have hend : atWordEnd (d.type.arguments.text ++ clausesMasked d.clauses ++ s) = true := by
    cases d.type.arguments with
    | none => exact atWordEnd_clauses d.clauses hs
    | _ => rfl
  have htype := hread.opens.quiet_word d.type.ne_nil d.type.forall_word
    (not_mem_constraintWords hfree) hend hargs
  have hname := hread.quiet_identifier d.name rfl htype
  rw [← List.append_assoc] at hname
  exact Quiet.comma hname

/-- A column list is quiet. -/
theorem quiet_columns (l : ColumnList) {u : Text} (hend : atWordEnd (u ++ s) = true)
    (hu : Quiet read s u) : Quiet read s (l.text ++ u) := by
  have hrest : ∀ ns : List Identifier,
      atWordEnd ((ns.flatMap fun n => [',', ' '] ++ n.text) ++ u ++ s) = true ∧
        Quiet read s ((ns.flatMap fun n => [',', ' '] ++ n.text) ++ u) := by
    intro ns
    induction ns with
    | nil => exact ⟨hend, hu⟩
    | cons n ns ih =>
      refine ⟨rfl, ?_⟩
      rw [List.flatMap_cons, List.append_assoc, List.append_assoc]
      exact Quiet.comma (hread.quiet_identifier n ih.1 ih.2)
  rw [l.text_eq, List.append_assoc]
  exact Quiet.append (Quiet.of_word l.first.forall_word) (hrest l.rest).2

/-- A column list in parentheses is quiet. -/
theorem quiet_list (l : ColumnList) {u : Text} (hu : Quiet read s u) :
    Quiet read s ([' ', '('] ++ (l.text ++ ([')'] ++ u))) := by
  have hclose : Quiet read s (')' :: u) := ⟨fun h => absurd h (by decide), hu⟩
  refine hread.opens.quiet_nonword rfl rfl ⟨fun h => absurd h (by decide), ?_⟩
  exact hread.quiet_columns l rfl hclose

/-- The tail of a constraint is quiet. -/
theorem quiet_tail (h : ConstraintHead) : Quiet read s h.tail := by
  cases h with
  | foreignKey t l =>
    have hlist : Quiet read s ([' ', '('] ++ (l.text ++ ([')'] ++ []))) :=
      hread.quiet_list l trivial
    have htable := hread.quiet_identifier t rfl hlist
    exact hread.opens.quiet_upper (w := "REFERENCES".toList) (by decide) rfl (by decide) rfl htable
  | _ => trivial

/-- Behind its first word the head of a constraint is quiet if what follows it is, unless the reader
takes the word `KEY` that its name follows. -/
theorem quiet_head (h : ConstraintHead) {u : Text} (hu : Quiet read s ([' ', '('] ++ u))
    (hkey : ∀ n, h = .uniqueKey n → ∀ x : Text, read ("KEY ".toList ++ x) = none) :
    Quiet read s (h.text ++ ([' ', '('] ++ u)) := by
  have hname : ∀ n : Identifier, Quiet read s (' ' :: (n.text ++ ([' ', '('] ++ u))) :=
    fun n => hread.quiet_identifier n rfl hu
  cases h with
  | primaryKey =>
    show Quiet read s ("PRIMARY".toList ++ (' ' :: ("KEY".toList ++ _)))
    exact Quiet.upper rfl (Quiet.space rfl (hread.key_list _) (Quiet.upper rfl hu))
  | foreignKey t l =>
    show Quiet read s ("FOREIGN".toList ++ (' ' :: ("KEY".toList ++ _)))
    exact Quiet.upper rfl (Quiet.space rfl (hread.key_list _) (Quiet.upper rfl hu))
  | unique => exact Quiet.upper (w := "UNIQUE".toList) rfl hu
  | uniqueKey n =>
    show Quiet read s ("UNIQUE KEY ".toList ++ n.text ++ _)
    rw [List.append_assoc]
    show Quiet read s ("UNIQUE".toList ++ (' ' :: ("KEY".toList ++ (' ' :: (n.text ++ _)))))
    exact Quiet.upper rfl (Quiet.space rfl (hkey n rfl _) (Quiet.upper rfl (hname n)))
  | key n =>
    show Quiet read s ("KEY ".toList ++ n.text ++ _)
    rw [List.append_assoc]
    exact Quiet.upper (w := "KEY".toList) rfl (hname n)
  | index n =>
    show Quiet read s ("INDEX ".toList ++ n.text ++ _)
    rw [List.append_assoc]
    exact Quiet.upper (w := "INDEX".toList) rfl (hname n)

theorem quiet_body (c : ConstraintText)
    (hkey : ∀ n, c.head = .uniqueKey n → ∀ x : Text, read ("KEY ".toList ++ x) = none) :
    Quiet read s c.body :=
  hread.quiet_head c.head (hread.quiet_list c.columns (hread.quiet_tail c.head)) hkey

/-- A label is quiet if the reader does not take it. -/
theorem quiet_label (n : Identifier) (hend : atWordEnd s = true)
    (hstart : read ("CONSTRAINT".toList ++ (' ' :: n.text) ++ s) = none) :
    Quiet read s ([',', ' '] ++ ("CONSTRAINT".toList ++ (' ' :: n.text))) := by
  have hname : Quiet read s (' ' :: (n.text ++ [])) := hread.quiet_identifier n hend trivial
  rw [List.append_nil] at hname
  exact Quiet.comma (Quiet.space rfl hstart (Quiet.upper (w := "CONSTRAINT".toList) rfl hname))

/-- A constraint is quiet if the reader takes it neither where it begins nor behind its label. -/
theorem quiet_constraint (c : ConstraintText) (hstart : read (c.text ++ s) = none)
    (hbody : read (c.body ++ s) = none)
    (hkey : ∀ n, c.head = .uniqueKey n → ∀ x : Text, read ("KEY ".toList ++ x) = none) :
    Quiet read s ([',', ' '] ++ c.text) := by
  have hquiet : Quiet read s (' ' :: c.body) :=
    Quiet.space (c.dropBlanks_body s) hbody (hread.quiet_body c hkey)
  cases hlabel : c.label with
  | none =>
    have htext : c.text = c.body := by
      rw [ConstraintText.text, hlabel]
      rfl
    rw [htext]
    exact Quiet.comma hquiet
  | some n =>
    have htext := c.text_of_label hlabel
    rw [htext, List.append_assoc] at hstart
    rw [htext, ← List.append_assoc]
    exact Quiet.append (hread.quiet_label n rfl hstart) hquiet

end TableReader

end TableTypes
