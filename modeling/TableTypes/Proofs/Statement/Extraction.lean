import TableTypes.Proofs.Identifier
import TableTypes.Proofs.Statement.Layout
import TableTypes.Proofs.Text.Search
import Mathlib.Data.List.TakeWhile

/-!
# Extracting statements

A text made of statements and gaps is read as exactly these statements (`Statement.parse_script`).
The step is `Statement.at?_text`: where a statement begins, it is read to its semicolon, and what
follows it in the masked text is the mask of what follows it in the text itself.
-/

namespace TableTypes

open Text

/-! ### The head of a statement -/

namespace CreateTable

/-- A name that spells `IF` is not taken for the beginning of `IF NOT EXISTS`. -/
theorem skipIfNotExists_name (s : CreateTable) (r : Text) :
    skipIfNotExists (s.name ++ ' ' :: '(' :: r) = s.name ++ ' ' :: '(' :: r := by
  have hnone : phrase? ["if".toList, "not".toList, "exists".toList] (s.name ++ ' ' :: '(' :: r) =
      none := by
    by_cases hname : s.name.map Char.toLower = "if".toList
    · have hif := (keyword?_eq_some_nil_iff (k := "if".toList) (by decide) s.name_word).mpr hname
      rw [phrase?, keyword?_append rfl _ (by decide), hif]
      · rfl
      · exact List.cons_ne_nil _ _
    · exact phrase?_eq_none (by decide) s.name_word rfl hname
  rw [skipIfNotExists, hnone]
  rfl

theorem read?_head (s : CreateTable) (r : Text) :
    StatementHead.read? (s.head ++ '(' :: r) =
      some ⟨⟨s.name ++ ' ' :: '(' :: r, ' ' :: '(' :: r, ' ' :: '(' :: r⟩, '(' :: r⟩ := by
  have hphrase : phrase? ["create".toList, "table".toList] (s.head ++ '(' :: r) =
      some (' ' :: (s.name ++ ' ' :: '(' :: r)) := by
    rw [head, List.append_assoc, List.append_assoc]
    rfl
  have hblank : dropBlanks1? (' ' :: (s.name ++ ' ' :: '(' :: r)) =
      some (s.name ++ ' ' :: '(' :: r) :=
    congrArg some (dropBlanks_word s.name_ne_nil s.name_word _)
  have hname : NameSpan.read? (s.name ++ ' ' :: '(' :: r) =
      some ⟨s.name ++ ' ' :: '(' :: r, ' ' :: '(' :: r, ' ' :: '(' :: r⟩ :=
    NameSpan.read?_word s.name_ne_nil s.name_word rfl
  rw [StatementHead.read?, hphrase, Option.bind_eq_bind, Option.bind_some, hblank,
    Option.bind_eq_bind, Option.bind_some, skipIfNotExists_name, hname]
  rfl

end CreateTable

/-! ### One statement -/

/-- Nothing that stands behind a semicolon belongs to the options in front of it. -/
theorem tableOptions_semicolon (b : Text) : tableOptions (';' :: b) = (none, b) := rfl

namespace CreateTable

/-- The line of the name of a statement that stands behind the text `before`. -/
theorem lineAt_name (before : Text) (s : CreateTable) (t start : Text)
    (hstart : start.length = s.name.length + 1 + t.length) :
    lineAt (before ++ (s.head ++ t)) (((before ++ (s.head ++ t)).length : Int) - start.length) =
      newlines (before ++ "CREATE TABLE ".toList) + 1 := by
  have hsplit : before ++ (s.head ++ t) =
      (before ++ "CREATE TABLE ".toList) ++ (s.name ++ ' ' :: t) := by
    simp [head]
  have hlength : (before ++ (s.head ++ t)).length =
      (before ++ "CREATE TABLE ".toList).length + start.length := by
    rw [hsplit, List.length_append, hstart]
    simp only [List.length_append, List.length_cons]
    omega
  have hposition : ((before ++ (s.head ++ t)).length : Int) - (start.length : Int) =
      ((before ++ "CREATE TABLE ".toList).length : Int) := by
    rw [hlength]; omega
  have hinside : ¬ ((((before ++ "CREATE TABLE ".toList).length : Int) < 0 ∨
      ((before ++ (s.head ++ t)).length : Int) ≤
        ((before ++ "CREATE TABLE ".toList).length : Int))) := by
    rw [hlength]; omega
  rw [lineAt, hposition]
  simp only [Bool.or_eq_true, decide_eq_true_eq]
  rw [if_neg hinside, Int.toNat_natCast, hsplit, List.take_left]

/-- The parenthesis of the body is closed at the same place when comments are masked. -/
theorem closing?_masked (s : CreateTable) (tail : Text) :
    closing? ('(' :: maskComments (s.body ++ ')' :: tail)) = some (s.body.length + 1) := by
  have hopen : maskComments ('(' :: (s.body ++ ')' :: tail)) =
      '(' :: maskComments (s.body ++ ')' :: tail) :=
    maskComments_plain_append (a := ['(']) _ rfl
  rw [← hopen, closing?_maskComments]
  exact s.body_closed.closing?_enclosed tail

end CreateTable

/-- **A statement is read where it begins, with the options behind its body**, whatever stands
around it. -/
theorem Statement.at?_options (before : Text) (s : CreateTable) {o b : Text}
    {comment : Option Text} (hoptions : tableOptions (o ++ b) = (comment, b)) :
    Statement.at? (before ++ (s.head ++ '(' :: (s.body ++ ')' :: (o ++ b))))
        (s.head ++ '(' :: maskComments (s.body ++ ')' :: (o ++ b))) =
      some (.ok ⟨s.name, strip s.body, newlines (before ++ "CREATE TABLE ".toList) + 1,
          s.head ++ '(' :: (s.body ++ ')' :: o), comment⟩,
        suffixLike (s.head ++ '(' :: maskComments (s.body ++ ')' :: (o ++ b))) b) := by
  set r := maskComments (s.body ++ ')' :: (o ++ b))
  have hlength : r.length = (s.body ++ ')' :: (o ++ b)).length := length_maskComments _
  have hclosing : closing? ('(' :: r) = some (s.body.length + 1) := s.closing?_masked (o ++ b)
  -- The head is read in the masked text; the body and the statement are cut from the text itself.
  have hsource : suffixLike (before ++ (s.head ++ '(' :: (s.body ++ ')' :: (o ++ b)))) ('(' :: r) =
      '(' :: (s.body ++ ')' :: (o ++ b)) := by
    rw [← List.append_assoc]
    apply suffixLike_append
    rw [List.length_cons, List.length_cons, hlength]
  have hbody : slice ('(' :: (s.body ++ ')' :: (o ++ b))) 1 (s.body.length + 1) = s.body :=
    slice_append ['('] s.body _ rfl (Nat.add_comm _ _)
  have hafter : ('(' :: (s.body ++ ')' :: (o ++ b))).drop (s.body.length + 1 + 1) = o ++ b := by
    rw [List.drop_succ_cons, ← List.drop_drop, List.drop_left]
    rfl
  have htext : between (before ++ (s.head ++ '(' :: (s.body ++ ')' :: (o ++ b))))
      (s.head ++ '(' :: r) b = s.head ++ '(' :: (s.body ++ ')' :: o) := by
    have hsplit : before ++ (s.head ++ '(' :: (s.body ++ ')' :: (o ++ b))) =
        before ++ (s.head ++ '(' :: (s.body ++ ')' :: o)) ++ b := by
      simp
    rw [hsplit]
    apply between_append
    · rw [List.length_append, List.length_cons, hlength]
      simp only [List.length_append, List.length_cons]
      omega
    · rfl
  have hline := s.lineAt_name before ('(' :: (s.body ++ ')' :: (o ++ b)))
    (s.name ++ ' ' :: '(' :: r) (by
      rw [List.length_append, List.length_cons, List.length_cons, List.length_cons, hlength]
      omega)
  have hstrip : strip s.name = s.name :=
    strip_of_forall fun c hc => isBlank_of_isAsciiWord (s.name_word c hc)
  rw [Statement.at?, s.read?_head, Option.map_some]
  simp only [hclosing, hsource, hbody, hafter, hoptions, htext, hline, NameSpan.name_word, hstrip,
    strip_isEmpty s.body_solid, Bool.false_eq_true, if_false]

/-- **A statement is read where it begins**, whatever stands around it. -/
theorem Statement.at?_text (before : Text) (s : CreateTable) (b : Text) :
    Statement.at? (before ++ (s.text ++ b))
        (s.head ++ '(' :: (maskComments s.body ++ ')' :: ';' :: maskComments b)) =
      some (.ok ⟨s.name, strip s.body, newlines (before ++ "CREATE TABLE ".toList) + 1, s.text,
        none⟩, maskComments b) := by
  have hmask : s.head ++ '(' :: maskComments (s.body ++ ')' :: ([';'] ++ b)) =
      (s.head ++ '(' :: (maskComments s.body ++ [')', ';'])) ++ maskComments b := by
    rw [List.singleton_append, s.maskComments_body_append]
    simp
  have hsplit : s.text ++ b = s.head ++ '(' :: (s.body ++ ')' :: ([';'] ++ b)) := by
    simp [CreateTable.text]
  have hat := Statement.at?_options before s (o := [';']) (tableOptions_semicolon b)
  rw [hmask, suffixLike_append _ _ (length_maskComments b).symm, ← hsplit] at hat
  have happend : (s.head ++ '(' :: (maskComments s.body ++ [')', ';'])) ++ maskComments b =
      s.head ++ '(' :: (maskComments s.body ++ ')' :: ';' :: maskComments b) := by
    simp
  rw [happend] at hat
  exact hat

/-! ### All statements -/

/-- No statement begins at a blank. -/
theorem Statement.at?_gapBlank (t : Text) {c : Char} (hc : isGapBlank c = true) (r : Text) :
    Statement.at? t (c :: r) = none := by
  simp only [isGapBlank, Bool.or_eq_true, decide_eq_true_eq] at hc
  rcases hc with (rfl | rfl) | rfl
  · rfl
  · rfl
  · rfl

theorem Script.head?_text (script : Script) : script.text.head? ≠ some '*' := by
  cases script with
  | nil => decide
  | cons p script => simp [Script.text, CreateTable.text, CreateTable.head]

/-- The statements of a script are found one after the other.  The induction is on the script, with
the text in front of it growing by one statement and its gap. -/
theorem Script.findAllFrom_text (script : Script) : ∀ (before : Text) (last : Option Char),
    findAllFrom (fun _ => Statement.at? (before ++ Script.text script)) 0 last
        (maskComments (Script.text script)) =
      (Script.statements before script).map .ok := by
  induction script with
  | nil => intro before last; rfl
  | cons p script ih =>
    obtain ⟨s, g⟩ := p
    intro before last
    have htext : Script.text ((s, g) :: script) = s.text ++ (g.text ++ Script.text script) := by
      rw [Script.text, List.flatMap_cons, List.append_assoc]
      rfl
    obtain ⟨hblank, hgap⟩ := g.maskComments_text
    have hmask : maskComments (s.text ++ (g.text ++ Script.text script)) =
        s.head ++ '(' :: (maskComments s.body ++
          ')' :: ';' :: maskComments (g.text ++ Script.text script)) :=
      s.maskComments_text_append _
    have hat := Statement.at?_text before s (g.text ++ Script.text script)
    have hhead : s.head = 'C' :: s.head.tail := rfl
    have hsplit : s.head ++ '(' :: (maskComments s.body ++
          ')' :: ';' :: maskComments (g.text ++ Script.text script)) =
        'C' :: ((s.head.tail ++ '(' :: (maskComments s.body ++ [')', ';'])) ++
          maskComments (g.text ++ Script.text script)) := by
      rw [hhead]; simp
    rw [hsplit] at hat
    rw [htext, hmask, hsplit, findAllFrom_hit 'C' _ _ hat, hgap _ (Script.head?_text script),
      findAllFrom_pass _ _ fun c hc _ r => Statement.at?_gapBlank _ (hblank c hc) r]
    have hrest := ih (before ++ s.text ++ g.text)
    rw [List.append_assoc, List.append_assoc] at hrest
    rw [hrest, Script.statements, List.map_cons, List.append_assoc]

theorem mapM_id_map_ok {ε α : Type} (l : List α) :
    (l.map (Except.ok : α → Except ε α)).mapM id = .ok l := by
  rw [List.mapM_map]
  exact List.mapM_pure.trans (congrArg Except.ok (List.map_id' l))

theorem Statement.readAll_script (lead : Gap) (script : Script) :
    Statement.readAll (lead.text ++ Script.text script) =
      .ok (Script.statements lead.text script) := by
  obtain ⟨hblank, hgap⟩ := lead.maskComments_text
  rw [Statement.readAll, hgap _ (Script.head?_text script), findAll,
    findAllFrom_pass _ _ fun c hc _ r => Statement.at?_gapBlank _ (hblank c hc) r,
    Script.findAllFrom_text, mapM_id_map_ok]

/-- **Extraction is complete and exact**: a text made of statements and gaps is read as these
statements, each with its name, its stripped body, its line and its own text. -/
theorem Statement.parse_script (lead : Gap) (s : CreateTable) (g : Gap) (script : Script) :
    Statement.parse (.text (lead.text ++ Script.text ((s, g) :: script))) =
      .ok (Script.statements lead.text ((s, g) :: script)) := by
  have hclean : isClean (lead.text ++ Script.text ((s, g) :: script)) = true := by
    rw [isClean_append, lead.isClean_text, Script.isClean_text]
    rfl
  have hsolid : (lead.text ++ Script.text ((s, g) :: script)).isAllBlank = false := by
    have hC : 'C' ∈ lead.text ++ Script.text ((s, g) :: script) := by
      simp [Script.text, CreateTable.text, CreateTable.head]
    rw [← Bool.not_eq_true, isAllBlank, List.all_eq_true]
    intro hall
    exact absurd (hall 'C' hC) (by decide)
  rw [Statement.parse, hsolid, cleaned_eq_self hclean, Statement.readAll_script]
  rfl

end TableTypes
