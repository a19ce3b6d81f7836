import TableTypes.Column
import TableTypes.Proofs.Scan.Piece
import TableTypes.Proofs.Text.Find

/-!
# Column definitions as they are written

A `ColumnText` is a name, a type and clauses in any order; `ColumnText.text` writes them with single
spaces between them and `ColumnText.column` says which column that declares.  With quoted text
masked, a clause is made of its keywords, its numerals and blanks in quotes (`maskQuoted_clauses`),
so a search for another keyword finds nothing in it.
-/

namespace TableTypes

open Text

/-! ### Names and types -/

/-- A word of ASCII letters, digits and underscores that is, in any mixture of cases, none of the
reserved ones. -/
structure Bareword (reserved : List Text) where
  text : Text
  ne_nil : text ≠ []
  word : text.all isAsciiWord = true
  free : text.map Char.toLower ∉ reserved

/-- A numeral of ASCII digits. -/
structure Digits where
  text : Text
  ne_nil : text ≠ []
  digit : text.all isAsciiDigit = true

/-- The arguments of a type. -/
inductive TypeArguments where
  | none
  | one (d : Digits)
  | two (d e : Digits)

/-- The arguments as they are written, directly behind the word of the type. -/
def TypeArguments.text : TypeArguments → Text
  | none => []
  | one d => '(' :: (d.text ++ [')'])
  | two d e => '(' :: (d.text ++ ',' :: (e.text ++ [')']))

/-- A type: a word of ASCII letters and its arguments. -/
structure TypeText where
  letters : Text
  ne_nil : letters ≠ []
  letter : letters.all isAsciiLetter = true
  arguments : TypeArguments

/-- The type as it is written. -/
def TypeText.text (t : TypeText) : Text :=
  t.letters ++ t.arguments.text

/-! ### Clauses -/

/-- Whether `c` may stand in the quotes of a default value. -/
def isDefaultChar (c : Char) : Bool :=
  !isBlank c && (Quote.ofChar? c).isNone && c ≠ '\\'

/-- Whether `c` may stand in the quotes of a comment. -/
def isCommentChar (c : Char) : Bool :=
  c ≠ '\'' && c ≠ '\\'

/-- A default value: a numeral, or a text in single quotes. -/
inductive DefaultText where
  | digits (d : Digits)
  | quoted (s : Text) (free : s.all isDefaultChar = true)

namespace DefaultText

/-- The value as it is written. -/
def text : DefaultText → Text
  | digits d => d.text
  | quoted s _ => Quote.single.enclose s

/-- The value without its quotes. -/
def value : DefaultText → Text
  | digits d => d.text
  | quoted s _ => s

/-- The value with its quoted text masked. -/
def masked : DefaultText → Text
  | digits d => d.text
  | quoted s _ => Quote.single.enclose (List.replicate s.length ' ')

end DefaultText

/-- The kinds of clauses behind the type of a column. -/
inductive ClauseKind where
  | notNull
  | primaryKey
  | unique
  | autoIncrement
  | default
  | comment
  deriving DecidableEq, Repr

/-- A clause behind the type of a column. -/
inductive Clause where
  | notNull
  | primaryKey
  | unique
  | autoIncrement
  | default (v : DefaultText)
  | comment (c : Text) (free : c.all isCommentChar = true)

namespace Clause

/-- The kind of a clause. -/
def kind : Clause → ClauseKind
  | notNull => .notNull
  | primaryKey => .primaryKey
  | unique => .unique
  | autoIncrement => .autoIncrement
  | default _ => .default
  | comment _ _ => .comment

/-- The clause as it is written. -/
def text : Clause → Text
  | notNull => "NOT NULL".toList
  | primaryKey => "PRIMARY KEY".toList
  | unique => "UNIQUE".toList
  | autoIncrement => "AUTO_INCREMENT".toList
  | default v => "DEFAULT ".toList ++ v.text
  | comment c _ => "COMMENT ".toList ++ Quote.single.enclose c

/-- The clause with its quoted text masked. -/
def masked : Clause → Text
  | default v => "DEFAULT ".toList ++ v.masked
  | comment c _ => "COMMENT ".toList ++ Quote.single.enclose (List.replicate c.length ' ')
  | c => c.text

/-- The first keyword of a kind of clause, in lower case. -/
def keyword : ClauseKind → Text
  | .notNull => "not".toList
  | .primaryKey => "primary".toList
  | .unique => "unique".toList
  | .autoIncrement => "auto_increment".toList
  | .default => "default".toList
  | .comment => "comment".toList

/-- The keywords of a kind of clause, in lower case. -/
def keywords (kind : ClauseKind) : List Text :=
  keyword kind ::
    match kind with
    | .notNull => ["null".toList]
    | .primaryKey => ["key".toList]
    | _ => []

/-- The default value that the clause gives. -/
def default? : Clause → Option DefaultText
  | default v => some v
  | _ => none

/-- The comment that the clause gives. -/
def comment? : Clause → Option Text
  | comment c _ => some c
  | _ => none

end Clause

/-- Clauses as they stand behind a type, each with a space in front. -/
def clausesText (cs : List Clause) : Text :=
  cs.flatMap fun c => ' ' :: c.text

/-- Clauses behind a type, with their quoted text masked. -/
def clausesMasked (cs : List Clause) : Text :=
  cs.flatMap fun c => ' ' :: c.masked

/-! ### Columns -/

/-- A column definition in its parts. -/
structure ColumnText (reserved : List Text) where
  name : Bareword reserved
  type : TypeText
  clauses : List Clause

namespace ColumnText

variable {reserved : List Text}

/-- The definition as it is written, with single spaces between its parts. -/
def text (d : ColumnText reserved) : Text :=
  join [' '] (d.name.text :: d.type.text :: d.clauses.map Clause.text)

/-- Whether there is a clause of the kind. -/
def has (d : ColumnText reserved) (k : ClauseKind) : Bool :=
  d.clauses.any (·.kind = k)

/-- The column that the definition declares, whatever the order of its clauses.  An empty comment
is no comment. -/
def column (d : ColumnText reserved) : Column where
  name := d.name.text
  type := d.type.text
  nullable := !(d.has .notNull || d.has .primaryKey)
  default := (d.clauses.findSome? Clause.default?).map DefaultText.value
  constraints :=
    (if d.has .primaryKey then [⟨.primaryKey, none⟩] else []) ++
      (if d.has .unique then [⟨.unique, none⟩] else []) ++
      (if d.has .autoIncrement then [⟨.autoIncrement, none⟩] else [])
  comment := (d.clauses.findSome? Clause.comment?).filter (!·.isEmpty)

end ColumnText

theorem ColumnText.text_eq {reserved : List Text} (d : ColumnText reserved) :
    d.text = d.name.text ++ ' ' :: (d.type.text ++ clausesText d.clauses) := by
  rw [text, join_cons, List.flatMap_cons, List.flatMap_map]
  rfl

/-! ### Words and characters -/

theorem Bareword.forall_word {reserved : List Text} (b : Bareword reserved) :
    ∀ c ∈ b.text, isAsciiWord c = true :=
  List.all_eq_true.mp b.word

/-- There is no blank in a bare word. -/
theorem Bareword.forall_solid {reserved : List Text} (b : Bareword reserved) :
    ∀ c ∈ b.text, isBlank c = false :=
  fun c hc => isBlank_of_isAsciiWord (b.forall_word c hc)

theorem Bareword.strip_text {reserved : List Text} (b : Bareword reserved) : strip b.text = b.text :=
  strip_of_forall b.forall_solid

theorem Digits.forall_digit (d : Digits) : ∀ c ∈ d.text, isAsciiDigit c = true :=
  List.all_eq_true.mp d.digit

theorem Digits.forall_word (d : Digits) : ∀ c ∈ d.text, isAsciiWord c = true :=
  fun c hc => isAsciiWord_of_isAsciiDigit (d.forall_digit c hc)

theorem TypeText.forall_word (t : TypeText) : ∀ c ∈ t.letters, isAsciiWord c = true :=
  fun c hc => isAsciiWord_of_isAsciiLetter (List.all_eq_true.mp t.letter c hc)

theorem Digits.plain (d : Digits) : d.text.all isPlain = true :=
  all_isPlain_of_forall d.forall_word

theorem TypeText.plain (t : TypeText) : t.text.all isPlain = true := by
  rw [text, List.all_append, all_isPlain_of_forall t.forall_word]
  cases t.arguments with
  | none => rfl
  | one d =>
    show (_ && (d.text ++ _).all isPlain) = true
    rw [List.all_append, d.plain]
    rfl
  | two d e =>
    show (_ && (d.text ++ ([','] ++ (e.text ++ _))).all isPlain) = true
    rw [List.all_append, List.all_append, List.all_append, d.plain, e.plain]
    rfl

theorem not_mem_of_isCommentChar {c : Text} (h : c.all isCommentChar = true) :
    '\'' ∉ c ∧ '\\' ∉ c :=
  ⟨fun hc => absurd (List.all_eq_true.mp h _ hc) (by decide),
    fun hc => absurd (List.all_eq_true.mp h _ hc) (by decide)⟩

theorem not_mem_of_isDefaultChar {s : Text} (h : s.all isDefaultChar = true) :
    '\'' ∉ s ∧ '\\' ∉ s :=
  ⟨fun hc => absurd (List.all_eq_true.mp h _ hc) (by decide),
    fun hc => absurd (List.all_eq_true.mp h _ hc) (by decide)⟩

/-! ### Clauses under the masks -/

theorem maskQuoted_defaultText (v : DefaultText) (t : Text) :
    maskQuoted (v.text ++ t) = v.masked ++ maskQuoted t := by
  cases v with
  | digits d => exact maskQuoted_plain_append t d.plain
  | quoted s hs =>
    obtain ⟨hquote, hescape⟩ := not_mem_of_isDefaultChar hs
    exact maskQuoted_enclose_append t hquote hescape

theorem maskComments_defaultText (v : DefaultText) (t : Text) :
    maskComments (v.text ++ t) = v.text ++ maskComments t := by
  cases v with
  | digits d => exact maskComments_plain_append t d.plain
  | quoted s hs =>
    obtain ⟨hquote, hescape⟩ := not_mem_of_isDefaultChar hs
    exact maskComments_enclose_append t hquote hescape

theorem maskQuoted_clause (c : Clause) (t : Text) :
    maskQuoted (' ' :: (c.text ++ t)) = ' ' :: (c.masked ++ maskQuoted t) := by
  cases c with
  | notNull => exact maskQuoted_plain_append (a := " NOT NULL".toList) t rfl
  | primaryKey => exact maskQuoted_plain_append (a := " PRIMARY KEY".toList) t rfl
  | unique => exact maskQuoted_plain_append (a := " UNIQUE".toList) t rfl
  | autoIncrement => exact maskQuoted_plain_append (a := " AUTO_INCREMENT".toList) t rfl
  | default v =>
    show maskQuoted (" DEFAULT ".toList ++ (v.text ++ t)) =
      " DEFAULT ".toList ++ (v.masked ++ maskQuoted t)
    rw [maskQuoted_plain_append _ rfl, maskQuoted_defaultText]
  | comment c hc =>
    obtain ⟨hquote, hescape⟩ := not_mem_of_isCommentChar hc
    show maskQuoted (" COMMENT ".toList ++ (Quote.single.enclose c ++ t)) =
      " COMMENT ".toList ++ (Quote.single.enclose (List.replicate c.length ' ') ++ maskQuoted t)
    rw [maskQuoted_plain_append _ rfl, maskQuoted_enclose_append t hquote hescape]

theorem maskComments_clause (c : Clause) (t : Text) :
    maskComments (' ' :: (c.text ++ t)) = ' ' :: (c.text ++ maskComments t) := by
  cases c with
  | notNull => exact maskComments_plain_append (a := " NOT NULL".toList) t rfl
  | primaryKey => exact maskComments_plain_append (a := " PRIMARY KEY".toList) t rfl
  | unique => exact maskComments_plain_append (a := " UNIQUE".toList) t rfl
  | autoIncrement => exact maskComments_plain_append (a := " AUTO_INCREMENT".toList) t rfl
  | default v =>
    show maskComments (" DEFAULT ".toList ++ (v.text ++ t)) =
      " DEFAULT ".toList ++ (v.text ++ maskComments t)
    rw [maskComments_plain_append _ rfl, maskComments_defaultText]
  | comment c hc =>
    obtain ⟨hquote, hescape⟩ := not_mem_of_isCommentChar hc
    show maskComments (" COMMENT ".toList ++ (Quote.single.enclose c ++ t)) =
      " COMMENT ".toList ++ (Quote.single.enclose c ++ maskComments t)
    rw [maskComments_plain_append _ rfl, maskComments_enclose_append t hquote hescape]

/-- The mask of clauses, whatever stands behind them. -/
theorem maskQuoted_clauses (cs : List Clause) (t : Text) :
    maskQuoted (clausesText cs ++ t) = clausesMasked cs ++ maskQuoted t := by
  induction cs with
  | nil => rfl
  | cons c cs ih =>
    rw [clausesText, clausesMasked, List.flatMap_cons, List.flatMap_cons, List.append_assoc,
      List.append_assoc, List.cons_append, List.cons_append, ← clausesText, ← clausesMasked,
      maskQuoted_clause, ih]

theorem maskComments_clauses (cs : List Clause) (t : Text) :
    maskComments (clausesText cs ++ t) = clausesText cs ++ maskComments t := by
  induction cs with
  | nil => rfl
  | cons c cs ih =>
    rw [clausesText, List.flatMap_cons, List.append_assoc, List.append_assoc, List.cons_append,
      List.cons_append, ← clausesText, maskComments_clause, ih]

theorem DefaultText.length_masked (v : DefaultText) : v.masked.length = v.text.length := by
  have h := congrArg List.length (maskQuoted_defaultText v [])
  rw [List.append_nil, length_maskQuoted, maskQuoted_nil, List.append_nil] at h
  exact h.symm

theorem length_clausesMasked (cs : List Clause) :
    (clausesMasked cs).length = (clausesText cs).length := by
  have h := congrArg List.length (maskQuoted_clauses cs [])
  rw [List.append_nil, length_maskQuoted, maskQuoted_nil, List.append_nil] at h
  exact h.symm

end TableTypes
