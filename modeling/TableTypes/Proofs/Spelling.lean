import TableTypes.Proofs.Column.Decoding
import TableTypes.Proofs.Statement.Head
import TableTypes.Proofs.TableConstraints.Cutting

/-!
# The spellings of a name

A name is written bare, between backticks or between double quotes.  In each spelling it is read as
the same name, wherever a name is read (`Spelling.read?_write`) and in a list of names
(`SpelledName.isListedAs`).  With quoted text masked, a name in quotes is blank, and a bare one that
is no keyword is passed over by the searches for keywords and by the readers of table constraints
(`Text.Opens.findWord_masked`, `Text.Opens.quiet_masked`).
-/

namespace TableTypes

open Text

/-! ### Spellings -/

/-- The ways to write a name. -/
inductive Spelling where
  | bare
  | backticks
  | doubleQuotes
  deriving DecidableEq, Repr

namespace Spelling

/-- What stands on either side of the name. -/
def mark : Spelling → Text
  | bare => []
  | backticks => ['\x60']
  | doubleQuotes => ['"']

/-- The name as it is written. -/
def write (s : Spelling) (w : Text) : Text :=
  s.mark ++ (w ++ s.mark)

variable (s : Spelling) {w v y z : Text}

theorem write_append (w z : Text) : s.write w ++ z = s.mark ++ (w ++ (s.mark ++ z)) := by
  rw [write, List.append_assoc, List.append_assoc]

theorem write_bare (w : Text) : bare.write w = w :=
  List.append_nil w

theorem mem_write_iff {c : Char} : c ∈ s.write w ↔ c ∈ s.mark ∨ c ∈ w := by
  rw [write, List.mem_append, List.mem_append]
  tauto

theorem write_ne_nil (hne : w ≠ []) : s.write w ≠ [] := by
  intro h
  rw [write, List.append_eq_nil_iff, List.append_eq_nil_iff] at h
  exact hne h.2.1

/-- A mark is neither a blank nor a character of a word. -/
theorem of_mem_mark {c : Char} (hc : c ∈ s.mark) :
    isBlank c = false ∧ isWord c = false ∧ (c = '\x60' ∨ c = '"') := by
  cases s with
  | bare => cases hc
  | backticks =>
    obtain rfl := List.mem_singleton.mp hc
    exact ⟨rfl, rfl, Or.inl rfl⟩
  | doubleQuotes =>
    obtain rfl := List.mem_singleton.mp hc
    exact ⟨rfl, rfl, Or.inr rfl⟩

/-! ### Reading a name -/

/-- The text can be a name in this spelling: a bare name is a word, and no mark stands in a name. -/
structure Encloses (s : Spelling) (w : Text) : Prop where
  ne_nil : w ≠ []
  word : s = .bare → ∀ c ∈ w, isAsciiWord c = true
  mark : ∀ c ∈ s.mark, c ∉ w

/-- A written name at the front of a text, as it is read. -/
def span (s : Spelling) (w z : Text) : NameSpan :=
  ⟨w ++ (s.mark ++ z), s.mark ++ z, z⟩

/-- **A name is read in each spelling.** -/
theorem Encloses.read?_write {s : Spelling} (h : s.Encloses w) (hz : atWordEnd z = true) :
    NameSpan.read? (s.write w ++ z) = some (s.span w z) := by
  rw [write_append]
  cases s with
  | bare => exact NameSpan.read?_word h.ne_nil (h.word rfl) hz
  | backticks =>
    exact NameSpan.read?_eq_some_iff.mpr
      (.quoted (Or.inl rfl) h.ne_nil (h.mark _ List.mem_cons_self))
  | doubleQuotes =>
    exact NameSpan.read?_eq_some_iff.mpr
      (.quoted (Or.inr rfl) h.ne_nil (h.mark _ List.mem_cons_self))

/-- There is no blank in front of a written name. -/
theorem Encloses.dropBlanks_write {s : Spelling} (h : s.Encloses w) (z : Text) :
    dropBlanks (s.write w ++ z) = s.write w ++ z := by
  rw [write_append]
  cases s with
  | bare => exact dropBlanks_word h.ne_nil (h.word rfl) z
  | _ => rfl

theorem name_span (w z : Text) : (s.span w z).name = w :=
  NameSpan.name_word w (s.mark ++ z)

/-- At the place of a name stands the name without its marks. -/
theorem nameIn_span (p : Text) (hw : w.length = v.length) (hz : z.length = y.length) :
    (s.span w z).nameIn (p ++ (s.write v ++ y)) = v := by
  have hsplit : p ++ (s.write v ++ y) = (p ++ s.mark) ++ (v ++ (s.mark ++ y)) := by
    rw [write_append, List.append_assoc]
  rw [hsplit]
  exact between_like _ hw (by rw [List.length_append, List.length_append, hz])

end Spelling

/-! ### Names without their quotes -/

theorem unquoteIdentifier_enclose {q : Quote} {t w : Text} (ht : strip t = q.enclose w)
    (hw : strip w = w) : unquoteIdentifier t = w := by
  obtain ⟨c, v, hv⟩ : ∃ c v, w ++ [q.char] = c :: v :=
    List.exists_cons_of_ne_nil (List.append_ne_nil_of_right_ne_nil w (List.cons_ne_nil _ []))
  have hquote : isIdentifierQuote q.char = true := by cases q <;> rfl
  have hlast : (c :: v).getLast? = some q.char := by rw [← hv, List.getLast?_concat]
  have hdrop : (c :: v).dropLast = w := by rw [← hv, List.dropLast_concat]
  rw [unquoteIdentifier, ht, Quote.enclose, hv]
  simp only [hquote, hlast, hdrop, hw, decide_true, Bool.and_true, if_true]

theorem strip_enclose (q : Quote) (w : Text) : strip (q.enclose w) = q.enclose w := by
  have hblank : isBlank q.char = false := by cases q <;> rfl
  apply strip_eq_self
  · rintro c ⟨⟩
    exact hblank
  · intro c hc
    rw [Quote.enclose, ← List.cons_append, List.getLast?_concat] at hc
    obtain rfl := Option.some.inj hc
    exact hblank

theorem isListedAs_enclose (q : Quote) {w : Text} (hne : w ≠ []) (hstrip : strip w = w)
    (hcomma : ',' ∉ w) : IsListedAs (q.enclose w) w where
  comma_not_mem := by
    rw [Quote.enclose, List.mem_cons, List.mem_append, List.mem_singleton]
    cases q <;> simp [Quote.char, hcomma]
  ne_nil := hne
  first := unquoteIdentifier_enclose (strip_enclose q w) hstrip
  later := by
    have hspace : strip (' ' :: q.enclose w) = q.enclose w := strip_enclose q w
    exact unquoteIdentifier_enclose hspace hstrip

/-! ### Spelled names -/

/-- The words, in lower case, that declare a constraint by themselves or begin one of the table. -/
def constraintKeywords : List Text :=
  tableLevelWords ++ ["auto_increment".toList, "autoincrement".toList]

/-- A name that is no keyword, in one of its spellings. -/
structure SpelledName where
  word : Bareword constraintKeywords
  spelling : Spelling

namespace SpelledName

/-- The name as it is written. -/
def text (n : SpelledName) : Text :=
  n.spelling.write n.word.text

/-- What stands for the name itself when quoted text is masked. -/
def filler (n : SpelledName) : Text :=
  match n.spelling with
  | .bare => n.word.text
  | _ => List.replicate n.word.text.length ' '

/-- The name as it is written, with quoted text masked. -/
def masked (n : SpelledName) : Text :=
  n.spelling.write n.filler

/-- The name in its bare spelling. -/
def bare (n : SpelledName) : SpelledName :=
  ⟨n.word, .bare⟩

variable (n : SpelledName)

theorem text_bare : n.bare.text = n.word.text :=
  Spelling.write_bare n.word.text

theorem length_filler : n.filler.length = n.word.text.length := by
  rw [filler]
  split
  · rfl
  · exact List.length_replicate

theorem filler_ne_nil : n.filler ≠ [] := by
  rw [← List.length_pos_iff, n.length_filler, List.length_pos_iff]
  exact n.word.ne_nil

theorem mem_filler {c : Char} (hc : c ∈ n.filler) : isAsciiWord c = true ∨ c = ' ' := by
  rw [filler] at hc
  split at hc
  · exact Or.inl (n.word.forall_word c hc)
  · exact Or.inr (List.eq_of_mem_replicate hc)

/-- Only word characters, marks and blanks stand in a masked name. -/
theorem not_mem_masked {c : Char} (hword : isAsciiWord c = false)
    (hmark : ¬ (c = '\x60' ∨ c = '"')) (hspace : c ≠ ' ') : c ∉ n.masked := by
  intro hc
  rcases n.spelling.mem_write_iff.mp hc with hc | hc
  · exact hmark (n.spelling.of_mem_mark hc).2.2
  · rcases n.mem_filler hc with hc | hc
    · rw [hc] at hword
      cases hword
    · exact hspace hc

/-- There is no blank in a written name. -/
theorem forall_solid : ∀ c ∈ n.text, isBlank c = false := by
  intro c hc
  rcases n.spelling.mem_write_iff.mp hc with hc | hc
  · exact (n.spelling.of_mem_mark hc).1
  · exact n.word.forall_solid c hc

theorem text_ne_nil : n.text ≠ [] :=
  n.spelling.write_ne_nil n.word.ne_nil

theorem masked_ne_nil : n.masked ≠ [] :=
  n.spelling.write_ne_nil n.filler_ne_nil

/-- A name is written as its word only in its bare spelling. -/
theorem text_eq_word_iff : n.text = n.word.text ↔ n.spelling = .bare := by
  constructor
  · intro h
    have hmark : n.spelling.mark.length = 0 := by
      have hlength := congrArg List.length h
      rw [text, Spelling.write, List.length_append, List.length_append] at hlength
      omega
    cases hs : n.spelling with
    | bare => rfl
    | _ => rw [hs] at hmark; cases hmark
  · intro h
    rw [text, h, Spelling.write_bare]

/-! ### Reading -/

theorem encloses_word : n.spelling.Encloses n.word.text where
  ne_nil := n.word.ne_nil
  word := fun _ => n.word.forall_word
  mark := by
    intro c hc h
    have hword := isWord_of_isAsciiWord (n.word.forall_word c h)
    rw [(n.spelling.of_mem_mark hc).2.1] at hword
    cases hword

theorem encloses_filler : n.spelling.Encloses n.filler where
  ne_nil := n.filler_ne_nil
  word := by
    intro h
    rw [filler, h]
    exact n.word.forall_word
  mark := by
    intro c hc h
    obtain ⟨hblank, hword, -⟩ := n.spelling.of_mem_mark hc
    rcases n.mem_filler h with h | rfl
    · rw [isWord_of_isAsciiWord h] at hword
      cases hword
    · cases hblank

/-- Between the commas of a list a name is read without its marks. -/
theorem isListedAs : IsListedAs n.text n.word.text := by
  have hquoted : ∀ q : Quote, IsListedAs (q.enclose n.word.text) n.word.text :=
    fun q => isListedAs_enclose q n.word.ne_nil n.word.strip_text n.word.isListed.comma_not_mem
  obtain ⟨w, s⟩ := n
  cases s with
  | bare => exact text_bare ⟨w, .bare⟩ ▸ w.isListed.as
  | backticks => exact hquoted .backtick
  | doubleQuotes => exact hquoted .double

/-! ### Masks -/

theorem maskQuoted_append (z : Text) : maskQuoted (n.text ++ z) = n.masked ++ maskQuoted z := by
  have hquoted : ∀ q : Quote, maskQuoted (q.enclose n.word.text ++ z) =
      q.enclose (List.replicate n.word.text.length ' ') ++ maskQuoted z := fun q =>
    maskQuoted_enclose_append z
      (fun h => absurd (n.word.forall_word _ h) (by cases q <;> decide))
      (fun h => absurd (n.word.forall_word _ h) (by decide))
  obtain ⟨w, s⟩ := n
  cases s with
  | bare =>
    show maskQuoted (Spelling.bare.write w.text ++ z) = Spelling.bare.write w.text ++ maskQuoted z
    rw [Spelling.write_bare, maskQuoted_plain_append z (all_isPlain_of_forall w.forall_word)]
  | backticks => exact hquoted .backtick
  | doubleQuotes => exact hquoted .double

theorem maskComments_append (z : Text) : maskComments (n.text ++ z) = n.text ++ maskComments z := by
  have hquoted : ∀ q : Quote, maskComments (q.enclose n.word.text ++ z) =
      q.enclose n.word.text ++ maskComments z := fun q =>
    maskComments_enclose_append z
      (fun h => absurd (n.word.forall_word _ h) (by cases q <;> decide))
      (fun h => absurd (n.word.forall_word _ h) (by decide))
  obtain ⟨w, s⟩ := n
  cases s with
  | bare =>
    show maskComments (Spelling.bare.write w.text ++ z) =
      Spelling.bare.write w.text ++ maskComments z
    rw [Spelling.write_bare, maskComments_plain_append z (all_isPlain_of_forall w.forall_word)]
  | backticks => exact hquoted .backtick
  | doubleQuotes => exact hquoted .double

theorem length_masked : n.masked.length = n.text.length := by
  simp only [masked, text, Spelling.write, List.length_append, n.length_filler]

end SpelledName

/-! ### Lists of names -/

section

variable (n m : SpelledName) (ns : List SpelledName) (write : SpelledName → Text)

/-- The names as they are written in a list. -/
def namesText (write : SpelledName → Text) (ns : List SpelledName) : Text :=
  join [',', ' '] (ns.map write)

theorem namesText_singleton : namesText write [n] = write n := by
  rw [namesText, List.map_singleton, join_cons, List.flatMap_nil, List.append_nil]

theorem namesText_cons_cons :
    namesText write (n :: m :: ns) = write n ++ (',' :: ' ' :: namesText write (m :: ns)) := by
  rw [namesText, List.map_cons, List.map_cons, join_cons_cons]
  rfl

theorem maskQuoted_names_append (z : Text) :
    maskQuoted (namesText SpelledName.text (n :: ns) ++ z) =
      namesText SpelledName.masked (n :: ns) ++ maskQuoted z := by
  induction ns generalizing n with
  | nil => rw [namesText_singleton, namesText_singleton, n.maskQuoted_append]
  | cons m ns ih =>
    rw [namesText_cons_cons, namesText_cons_cons, List.append_assoc, List.append_assoc,
      n.maskQuoted_append]
    show _ ++ maskQuoted ([',', ' '] ++ (namesText _ (m :: ns) ++ z)) = _
    rw [maskQuoted_plain_append _ rfl, ih]
    rfl

theorem maskComments_names_append (z : Text) :
    maskComments (namesText SpelledName.text (n :: ns) ++ z) =
      namesText SpelledName.text (n :: ns) ++ maskComments z := by
  induction ns generalizing n with
  | nil => rw [namesText_singleton, n.maskComments_append]
  | cons m ns ih =>
    rw [namesText_cons_cons, List.append_assoc, List.append_assoc, n.maskComments_append]
    show _ ++ maskComments ([',', ' '] ++ (namesText _ (m :: ns) ++ z)) = _
    rw [maskComments_plain_append _ rfl, ih]
    rfl

theorem length_namesText : (namesText SpelledName.masked (n :: ns)).length =
    (namesText SpelledName.text (n :: ns)).length := by
  have h := congrArg List.length (maskQuoted_names_append n ns [])
  rw [List.append_nil, maskQuoted_nil, List.append_nil, length_maskQuoted] at h
  exact h.symm

theorem close_not_mem_namesText : ')' ∉ namesText SpelledName.masked ns := by
  intro h
  rcases mem_of_mem_join h with h | ⟨w, hw, h⟩
  · exact absurd h (by decide)
  · obtain ⟨n, -, rfl⟩ := List.mem_map.mp hw
    exact n.not_mem_masked (by decide) (by decide) (by decide) h

theorem namesText_ne_nil (hwrite : write n ≠ []) : namesText write (n :: ns) ≠ [] := by
  rw [namesText, List.map_cons, join_cons]
  exact List.append_ne_nil_of_left_ne_nil hwrite _

/-- There are no blanks around a list of names. -/
theorem strip_namesText : strip (namesText SpelledName.text (n :: ns)) =
    namesText SpelledName.text (n :: ns) := by
  apply strip_eq_self
  · obtain ⟨c, v, hv⟩ := List.exists_cons_of_ne_nil n.text_ne_nil
    rw [namesText, List.map_cons, join_cons, hv]
    rintro d ⟨⟩
    exact n.forall_solid c (hv ▸ List.mem_cons_self)
  · induction ns generalizing n with
    | nil =>
      rw [namesText_singleton]
      exact fun c hc => n.forall_solid c (List.mem_of_mem_getLast? hc)
    | cons m ns ih =>
      intro c hc
      have hd := List.getLast?_eq_some_getLast (namesText_ne_nil m ns _ m.text_ne_nil)
      rw [namesText_cons_cons, List.getLast?_append, List.getLast?_cons, List.getLast?_cons,
        hd] at hc
      exact ih m c (hd.trans hc)

/-- **A list is read as its names, whatever their spellings.** -/
theorem identifierList_namesText :
    identifierList (namesText SpelledName.text (n :: ns)) = (n :: ns).map (·.word.text) :=
  identifierList_join_as (List.cons_ne_nil n ns) fun m _ => m.isListedAs

/-- A list is written alike in the bare spellings only if its names are bare. -/
theorem namesText_bare_iff : namesText SpelledName.text (n :: ns) =
    namesText SpelledName.text ((n :: ns).map SpelledName.bare) ↔
      ∀ m ∈ n :: ns, m.spelling = .bare := by
  have hcomma : ∀ ms : List SpelledName, ∀ x ∈ ms.map SpelledName.text, ',' ∉ x := by
    intro ms x hx
    obtain ⟨m, -, rfl⟩ := List.mem_map.mp hx
    exact m.isListedAs.comma_not_mem
  rw [namesText, namesText, join_inj (by simp) (by simp) (hcomma _) (hcomma _), List.map_map,
    List.map_inj_left]
  refine forall₂_congr fun m _ => ?_
  show m.text = m.bare.text ↔ _
  rw [m.text_bare, m.text_eq_word_iff]

end

end TableTypes
