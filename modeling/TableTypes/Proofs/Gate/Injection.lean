import TableTypes.Proofs.Gate.Token.Lexer
import TableTypes.Gate.Injection

/-!
# Suspicious statements and line ends

What makes a text suspicious are words, and no word has a line end in it.  So the search for a
suspicious statement does not tell a token from itself without its text, if there is a line end in
the text (`suspectWord?_map_flat`), and ends alike in a text that is stripped and has its line ends
written as newlines (`findInjection_relined`).
-/

namespace TableTypes

open Text

namespace Token

theorem statements_map_flat (toks : List Token) :
    statements (toks.map flat) = (statements toks).map (List.map flat) := by
  induction toks with
  | nil => rfl
  | cons tok toks ih =>
    rw [List.map_cons, statements, statements, ih]
    have hkind : tok.flat.kind = tok.kind := rfl
    rw [hkind]
    split
    · rfl
    · cases statements toks <;> rfl

theorem dropArgument_map_flat (mayBegin : Bool) (toks : List Token) :
    dropArgument mayBegin (toks.map flat) = (dropArgument mayBegin toks).map flat := by
  induction toks generalizing mayBegin with
  | nil => rfl
  | cons tok toks ih =>
    rw [List.map_cons, dropArgument, dropArgument, isCommand_flat, isBlockStart_flat, ih]
    split <;> rfl

end Token

open Token

theorem isPlainInsert_map_flat (toks : List Token) :
    isPlainInsert (toks.map flat) = isPlainInsert toks := by
  rcases toks with _ | ⟨into, _ | ⟨name, _ | ⟨bracket, toks⟩⟩⟩
  case cons.cons.cons =>
    have hinto := upper_flat_eq_iff (w := "INTO".toList) (by decide) into
    simp only [List.map_cons, isPlainInsert, decide_eq_decide.mpr hinto]
    rfl
  all_goals rfl

theorem suspectStatement?_map_flat (s : List Token) :
    suspectStatement? (s.map flat) = suspectStatement? s := by
  cases s with
  | nil => rfl
  | cons first rest =>
    have hwords : ∀ w ∈ dangerousWords, '\n' ∉ w := by decide
    have hinsert := upper_flat_eq_iff (w := "INSERT".toList) (by decide) first
    rw [List.map_cons, suspectStatement?, suspectStatement?, isPlainInsert_map_flat,
      contains_upper_flat hwords, decide_eq_decide.mpr hinsert]
    split
    · rename_i hword
      rw [(upper_flat_eq_iff (hwords _ (List.contains_iff_mem.mp hword)) first).mpr rfl]
    split
    · rename_i hword
      rw [Bool.and_eq_true, decide_eq_true_eq] at hword
      rw [hinsert.mpr hword.1, hword.1]
    · rfl

theorem hasUnionSelect_eq (ss : List (List Token)) : hasUnionSelect ss =
    (((ss.flatten.filter fun tok => tok.kind ≠ .string && tok.kind ≠ .identifier).dropWhile
      fun tok => upper tok.text ≠ "UNION".toList).any fun tok =>
        upper tok.text = "SELECT".toList) := by
  rw [hasUnionSelect, List.dropWhile_map, List.contains_eq_any_beq, List.any_map]
  congr 1
  funext tok
  rw [Function.comp_apply, Bool.eq_iff_iff, beq_iff_eq, decide_eq_true_eq, eq_comm]

theorem hasUnionSelect_map_flat (ss : List (List Token)) :
    hasUnionSelect (ss.map (List.map flat)) = hasUnionSelect ss := by
  have hunion := upper_flat_eq_iff (w := "UNION".toList) (by decide)
  have hselect := upper_flat_eq_iff (w := "SELECT".toList) (by decide)
  rw [hasUnionSelect_eq, hasUnionSelect_eq, ← List.map_flatten, List.filter_map,
    List.dropWhile_map, List.any_map]
  simp only [Function.comp_def, ne_eq, hunion, hselect]
  rfl

/-- The word that makes a text suspicious, from its tokens. -/
def suspectWord? (toks : List Token) : Option Text :=
  let ss := (statements toks).map (dropArgument true)
  (ss.tail.findSome? suspectStatement?) <|> if hasUnionSelect ss then some "UNION".toList else none

theorem findInjection_eq (t : Text) : findInjection t = (lex? t).map suspectWord? := rfl

theorem suspectWord?_map_flat (toks : List Token) :
    suspectWord? (toks.map flat) = suspectWord? toks := by
  have hstatements : (statements (toks.map flat)).map (dropArgument true) =
      ((statements toks).map (dropArgument true)).map (List.map flat) := by
    rw [statements_map_flat, List.map_map, List.map_map]
    exact List.map_congr_left fun s _ => dropArgument_map_flat true s
  rw [suspectWord?, suspectWord?, hstatements]
  simp only [hasUnionSelect_map_flat, ← List.map_tail, List.findSome?_map, Function.comp_def,
    suspectStatement?_map_flat]

/-- **Blanks around a text and the way its line ends are written do not make it suspicious.** -/
theorem findInjection_relined {l t r : Text} (hl : ∀ c ∈ l, isBlank c = true)
    (h : Relined false isAllBlank t r) {word : Option Text}
    (ht : findInjection (l ++ t) = some word) : findInjection r = some word := by
  rw [findInjection_eq] at ht ⊢
  obtain ⟨toks, hlex, rfl⟩ := Option.map_eq_some_iff.mp ht
  obtain ⟨toks', hlex', heq⟩ := lex?_relined hl h hlex
  rw [hlex', Option.map_some, ← suspectWord?_map_flat toks', heq, suspectWord?_map_flat]

end TableTypes
