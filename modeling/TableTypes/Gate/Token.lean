import TableTypes.Text.Case

/-!
# Tokens of SQL

The tokens of MySQL, as far as they have to be told apart to tell statements apart.  A *command* is
a statement whose first word takes all that follows, up to the next semicolon, as its argument.
-/

namespace TableTypes

open Text

/-- The kinds of tokens that are told apart. -/
inductive TokenKind where
  /-- A text in single or double quotes. -/
  | string
  /-- A name in backticks. -/
  | identifier
  /-- A quoted text behind a letter that tells its kind. -/
  | literal
  | hint
  | semicolon
  | openParenthesis
  /-- The sign `@` in front of a variable. -/
  | variableSign
  /-- Any other character of punctuation, or several that belong together. -/
  | operator
  | word
  /-- A word behind the sign of a variable. -/
  | variable
  deriving DecidableEq, Repr

/-- A token.  The text of a string or an identifier is what stands between its quotes. -/
structure Token where
  kind : TokenKind
  text : Text
  deriving DecidableEq, Repr

namespace Token

/-! ### Keywords -/

/-- Whether the token is one of the keywords, which are written in upper case. -/
def isAnyKeyword (keywords : List String) (tok : Token) : Bool :=
  tok.kind = .word && (keywords.map String.toList).contains (upper tok.text)

/-- Whether the token begins a command where one may begin. -/
def isCommand (tok : Token) : Bool :=
  tok.isAnyKeyword ["CALL", "EXECUTE", "FETCH", "RENAME", "REPLACE", "OPTIMIZE", "PREPARE",
    "VACUUM", "LOCK TABLES", "UNLOCK TABLES"]

/-- Whether a command may begin behind the token, as it may at the start of a statement. -/
def isBlockStart (tok : Token) : Bool :=
  tok.isAnyKeyword ["BEGIN", "START"]

/-- Whether a hint may stand behind the token. -/
def takesHint (tok : Token) : Bool :=
  tok.isAnyKeyword ["SELECT", "INSERT", "UPDATE", "DELETE"]

/-! ### Statements -/

/-- The statements between semicolons; there is always at least one, which may be empty. -/
def statements : List Token → List (List Token)
  | [] => [[]]
  | tok :: toks =>
    if tok.kind = .semicolon then [] :: statements toks
    else
      match statements toks with
      | [] => [[tok]]
      | s :: ss => (tok :: s) :: ss

/-- The tokens of a statement without the argument of its command; `mayBegin` tells whether a
command may begin with the first of them. -/
def dropArgument (mayBegin : Bool) : List Token → List Token
  | [] => []
  | tok :: toks =>
    if mayBegin && tok.isCommand then [tok] else tok :: dropArgument tok.isBlockStart toks

end Token

end TableTypes
