import TableTypes.Gate.Token.Lexer

/-!
# Statements that do not belong

A text is suspicious if a statement behind a semicolon changes or removes data or definitions, if
it inserts in any other form than `INSERT INTO table (`, or if `UNION` is followed anywhere by
`SELECT`.  The words may be in any case; strings and quoted identifiers are not searched for
`UNION`.
-/

namespace TableTypes

open Text

/-- The words that may not begin a statement behind a semicolon. -/
def dangerousWords : List Text :=
  ["DROP", "DELETE", "UPDATE", "ALTER", "TRUNCATE"].map String.toList

/-- Whether the tokens behind `INSERT` begin `INTO table (`. -/
def isPlainInsert : List Token → Bool
  | into :: _ :: bracket :: _ =>
    upper into.text = "INTO".toList && bracket.kind = .openParenthesis
  | _ => false

/-- The word that makes a statement behind a semicolon suspicious. -/
def suspectStatement? : List Token → Option Text
  | [] => none
  | first :: rest =>
    let word := upper first.text
    if dangerousWords.contains word then some word
    else if word = "INSERT".toList && !isPlainInsert rest then some word
    else none

/-- Whether `UNION` is followed by `SELECT`. -/
def hasUnionSelect (statements : List (List Token)) : Bool :=
  let words := (statements.flatten.filter fun tok =>
    tok.kind ≠ .string && tok.kind ≠ .identifier).map fun tok => upper tok.text
  (words.dropWhile (· ≠ "UNION".toList)).contains "SELECT".toList

/-- The word that makes a text suspicious; `none` on the outside if it cannot be cut into
tokens. -/
def findInjection (sql : Text) : Option (Option Text) :=
  (Token.lex? sql).map fun toks =>
    let statements := (Token.statements toks).map (Token.dropArgument true)
    (statements.tail.findSome? suspectStatement?) <|>
      (if hasUnionSelect statements then some "UNION".toList else none)

end TableTypes
