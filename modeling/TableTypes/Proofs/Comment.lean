import TableTypes.Proofs.Column.Decoding
import TableTypes.Proofs.Literal
import TableTypes.Proofs.Statement.Extraction

/-!
# Comments round-trip

A comment is written as a literal in one of the two escapings and read as what it was: from the
attributes of a column in either quote (`columnComment?_literal`), and from the options of a table
in single quotes (`tableOptions_literal`).  The statement with the option is one statement up to its
semicolon, whatever its comment holds (`Statement.parse_options`).
-/

namespace TableTypes

open Text

variable {q : Quote} {c : Text}

/-! ### The comment of a column -/

/-- The attribute that gives a column a comment. -/
def commentClause (e : Escaping) (q : Quote) (c : Text) : Text :=
  "COMMENT ".toList ++ e.literal q c

theorem columnComment?_literal (e : Escaping) (hq : q = .single ∨ q = .double) (hne : c ≠ [])
    (hescape : '\\' ∉ c) : columnComment? (commentClause e q c) = some c := by
  have hread : commentLiteral? (commentClause e q c) =
      (columnLiteral? q.char (e.write q c ++ [q.char])).map (q.char, ·) := by
    rcases hq with rfl | rfl <;> rfl
  have hliteral : columnLiteral? q.char (e.write q c ++ [q.char]) = some (e.write q c) :=
    Escaping.columnLiteral?_write e hescape nofun
  have hbacktick : q ≠ .backtick := by rcases hq with rfl | rfl <;> decide
  rw [hliteral, Option.map_some] at hread
  have hempty : (e.write q c).isEmpty = false := by
    rw [← Bool.not_eq_true, List.isEmpty_iff]
    exact Escaping.write_ne_nil hne
  rw [columnComment?_eq, findWord_of_eq_some hread]
  show (if (e.write q c).isEmpty then none else some (unescape q.char (e.write q c))) = some c
  rw [hempty, Escaping.unescape_write e hbacktick hescape]
  rfl

theorem Column.parse_commentClause (n : Bareword tableLevelWords) (t : TypeText) (e : Escaping)
    (hq : q = .single ∨ q = .double) (c : Text) (line : Option Nat) :
    Column.parse (.text (columnText n t (commentClause e q c))) line =
      .ok (ColumnDefinition.column ⟨n.text, t.text, commentClause e q c⟩) := by
  apply Column.parse_columnText
  · exact ⟨rfl, rfl, rfl, rfl, rfl, rfl⟩
  · rintro d ⟨⟩
    rfl
  · refine ⟨q.char, ?_, by rcases hq with rfl | rfl <;> rfl⟩
    show ("COMMENT ".toList ++ q.char :: (e.write q c ++ [q.char])).getLast? = some q.char
    rw [List.getLast?_append, List.getLast?_cons, List.getLast?_concat]
    rfl

/-! ### The comment of a table -/

/-- The option that gives a table a comment. -/
def commentOption (e : Escaping) (c : Text) : Text :=
  " COMMENT=".toList ++ e.literal .single c

theorem commentOption_append (e : Escaping) (c s : Text) :
    commentOption e c ++ s = " COMMENT='".toList ++ (e.write .single c ++ '\'' :: s) :=
  (List.append_assoc _ _ s).trans
    (congrArg (" COMMENT=".toList ++ ·) (e.literal_append .single c s))

theorem tableOption?_literal (e : Escaping) (hescape : '\\' ∉ c) {s : Text}
    (hs : s.head? ≠ some '\'') :
    tableOption? (commentOption e c ++ s) = some (some (e.write .single c), s) := by
  set u := "COMMENT='".toList ++ (e.write .single c ++ '\'' :: s)
  have hplain : plainOption? u = none := rfl
  have hread : commentOption? u = optionLiteral? (e.write .single c ++ '\'' :: s) := rfl
  rw [Escaping.optionLiteral?_write e hescape hs] at hread
  have hmark : dropMark ',' (" COMMENT='".toList ++ (e.write .single c ++ '\'' :: s)) = u := rfl
  rw [commentOption_append, tableOption?_eq, hmark, bareOption?, hplain, hread]
  rfl

/-- **The comment that a table option holds is read**, and the semicolon ends the options. -/
theorem tableOptions_literal (e : Escaping) (hne : c ≠ []) (hescape : '\\' ∉ c) :
    tableOptions (commentOption e c ++ [';']) = (some c, []) := by
  obtain ⟨n, hn⟩ : ∃ n, (commentOption e c ++ [';']).length = n + 1 :=
    ⟨(commentOption e c).length, List.length_append⟩
  have hread : tableOption? (commentOption e c ++ [';']) = some (some (e.write .single c), [';']) :=
    tableOption?_literal e hescape (by decide)
  have hshort : [';'].length < (commentOption e c ++ [';']).length := by
    rw [commentOption_append]
    simp
  have hend : manyUpTo tableOption? n [';'] = ([], [';']) :=
    manyUpTo_stuck (fun p hp => absurd hp.symm (Option.some_ne_none p)) n
  have hempty : (e.write .single c).isEmpty = false := by
    rw [← Bool.not_eq_true, List.isEmpty_iff]
    exact Escaping.write_ne_nil hne
  have hunescape : unescape '\'' (e.write .single c) = c :=
    Escaping.unescape_write (q := .single) e (by decide) hescape
  rw [tableOptions, many, hn, manyUpTo_succ hread hshort, hend]
  show (Option.map (unescape '\'') (Option.filter (!·.isEmpty) (some (e.write .single c))),
    dropSemicolon [';']) = _
  rw [Option.filter_some, hempty, Bool.not_false, if_pos rfl, Option.map_some, hunescape]
  rfl

/-- **A statement with options is read as one statement**, if its options end with the text. -/
theorem Statement.parse_options (s : CreateTable) {o : Text} {comment : Option Text}
    (ho : isClean o = true) (hoptions : tableOptions o = (comment, [])) :
    Statement.parse (.text (s.head ++ '(' :: (s.body ++ ')' :: o))) =
      .ok [⟨s.name, strip s.body, 1, s.head ++ '(' :: (s.body ++ ')' :: o), comment⟩] := by
  set t := s.head ++ '(' :: (s.body ++ ')' :: o) with ht
  have hclean : isClean t = true := by
    show isClean ((_ ++ (s.name ++ _)) ++ (['('] ++ (s.body ++ ([')'] ++ o)))) = true
    simp only [isClean_append, s.body_clean, isClean_of_isAsciiWord s.name_word, ho]
    rfl
  have hsolid : t.isAllBlank = false := isAllBlank_of_solid (c := 'C') rfl [] _
  have hat := Statement.at?_options [] s (o := o) (b := []) (by rwa [List.append_nil])
  have hmask : maskComments t = s.head ++ '(' :: maskComments (s.body ++ ')' :: o) :=
    s.maskComments_head_append _
  have hrest : suffixLike (maskComments t) [] = [] := List.drop_length
  have hline : newlines ([] ++ "CREATE TABLE ".toList) + 1 = 1 := rfl
  rw [hline, List.append_nil, List.nil_append, ← ht, ← hmask, hrest] at hat
  obtain ⟨u, hu⟩ : ∃ u, maskComments t = 'C' :: (u ++ []) :=
    ⟨_, by rw [hmask, List.append_nil]; rfl⟩
  have hall : findAll (fun _ => Statement.at? t) (maskComments t) =
      [.ok ⟨s.name, strip s.body, 1, t, comment⟩] := by
    rw [hu] at hat ⊢
    exact findAllFrom_hit 'C' u [] hat
  rw [Statement.parse, hsolid, cleaned_eq_self hclean, Statement.readAll, hall]
  rfl

theorem isClean_commentOption (e : Escaping) (hc : isClean c = true) :
    isClean (commentOption e c ++ [';']) = true := by
  have hwrite : isClean (e.write .single c) = true := by
    rw [isClean, List.all_eq_true] at hc ⊢
    intro d hd
    rcases Escaping.mem_write hd with hd | rfl | rfl
    · exact hc d hd
    · rfl
    · rfl
  rw [commentOption_append, isClean_append, isClean_append, hwrite]
  rfl

/-! ### Comments -/

/-- **Comments round-trip.**  A comment without backslashes is read from a column as it was, however
the quotes in it are escaped and whichever quotes it stands in; and if cleaning leaves it alone, it
is read so from the options of a table, too, in a statement that ends with its semicolon. -/
theorem comment_roundTrip (e : Escaping) (c : Text) (hne : c ≠ []) (hescape : '\\' ∉ c) :
    (∀ q ∈ [Quote.single, .double], ∀ (n : Bareword tableLevelWords) (t : TypeText)
      (line : Option Nat), ∃ d,
        Column.parse (.text (columnText n t ("COMMENT ".toList ++ e.literal q c))) line = .ok d ∧
          d.comment = some c) ∧
      (isClean c = true → ∀ s : CreateTable, ∃ d,
        Statement.parse (.text (s.head ++ '(' :: (s.body ++ ')' ::
          (" COMMENT=".toList ++ e.literal .single c ++ [';'])))) = .ok [d] ∧
            d.comment = some c ∧ d.source = s.head ++ '(' :: (s.body ++ ')' ::
              (" COMMENT=".toList ++ e.literal .single c ++ [';']))) := by
  constructor
  · intro q hq n t line
    have hquote : q = .single ∨ q = .double := by simpa using hq
    exact ⟨_, Column.parse_commentClause n t e hquote c line,
      columnComment?_literal e hquote hne hescape⟩
  · intro hclean s
    exact ⟨_, Statement.parse_options s (isClean_commentOption e hclean)
      (tableOptions_literal e hne hescape), rfl, rfl⟩

/-- A comment with quotes of both kinds, a comma and a semicolon. -/
theorem comment_roundTrip_quotes :
    "'it''s;\", x".toList ≠ [] ∧ '\\' ∉ "'it''s;\", x".toList ∧
      isClean "'it''s;\", x".toList = true ∧
      (∃ d, Column.parse (.text "n INT COMMENT \"'it''s;\\\", x\"".toList) none = .ok d ∧
        d.comment = some "'it''s;\", x".toList) ∧
      ∃ d, Statement.parse
          (.text "CREATE TABLE t (id INT) COMMENT='''it''''s;\", x';".toList) = .ok [d] ∧
        d.comment = some "'it''s;\", x".toList ∧
        d.source = "CREATE TABLE t (id INT) COMMENT='''it''''s;\", x';".toList := by
  have hne : "'it''s;\", x".toList ≠ [] := by decide
  have hescape : '\\' ∉ "'it''s;\", x".toList := by decide
  have hclean : isClean "'it''s;\", x".toList = true := rfl
  refine ⟨hne, hescape, hclean, ?_, ?_⟩
  · exact (comment_roundTrip .backslash _ hne hescape).1 .double (by decide)
      ⟨"n".toList, by decide, rfl, by decide⟩ ⟨"INT".toList, by decide, rfl, .none⟩ none
  · exact (comment_roundTrip .doubled _ hne hescape).2 hclean
      ⟨"t".toList, "id INT".toList, by decide, List.all_eq_true.mp rfl, rfl, rfl,
        ⟨by decide +kernel, by decide +kernel⟩⟩

end TableTypes
