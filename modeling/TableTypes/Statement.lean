import TableTypes.Fault
import TableTypes.Identifier
import TableTypes.Literal
import TableTypes.Scan.Delimiters
import TableTypes.Scan.Mask
import TableTypes.Source
import TableTypes.Text.Clean
import TableTypes.Text.Keyword

/-!
# `CREATE TABLE` statements

A statement is found by its head, `CREATE TABLE [IF NOT EXISTS] name (`, in the text with its
comments masked.  Its column definitions go on to the matching parenthesis; the table options that
follow belong to the statement, and a `COMMENT` among them is the comment of the table.
-/

namespace TableTypes

open Text

/-- A `CREATE TABLE` statement as it stands in the text. -/
structure Statement where
  name : Text
  /-- The column definitions, without blanks around them. -/
  body : Text
  /-- The line of the table name, counted from one. -/
  line : Nat
  /-- The whole statement with the options behind it. -/
  source : Text
  comment : Option Text
  deriving DecidableEq, Repr

/-! ### Table options -/

/-- What follows an equals sign that may be missing, with blanks around it. -/
def dropEquals (t : Text) : Text :=
  match dropBlanks t with
  | '=' :: r => dropBlanks r
  | r => r

/-- What follows an equals sign with blanks around it. -/
def equals? (t : Text) : Option Text :=
  match dropBlanks t with
  | '=' :: r => some (dropBlanks r)
  | _ => none

/-- What follows the nonempty run of characters satisfying `p` at the front of the text. -/
def run? (p : Char → Bool) : Text → Option Text
  | [] => none
  | c :: t => if p c then some (t.dropWhile p) else none

/-- What follows the word `DEFAULT`, if it stands at the front of the text. -/
def skipDefault (t : Text) : Text :=
  ((keyword? "default".toList t).bind dropBlanks1?).getD t

/-- Whether `c` may occur in the name of a character set or a collation. -/
def isCharsetChar (c : Char) : Bool :=
  isWord c || c = '-'

/-- What follows one of the options that are not a comment. -/
def plainOption? (t : Text) : Option Text :=
  ((keyword? "engine".toList t).bind equals?).bind (run? isWord) <|>
    (((keyword? "charset".toList (skipDefault t)) <|>
        phrase? ["character".toList, "set".toList] (skipDefault t)).bind
      fun r => run? isCharsetChar (dropEquals r)) <|>
    ((keyword? "collate".toList (skipDefault t)).bind
      fun r => run? isCharsetChar (dropEquals r)) <|>
    ((keyword? "auto_increment".toList t).bind equals?).bind (run? isDecimal)

/-- What follows one of the options without a value. -/
def flagOption? (t : Text) : Option Text :=
  phrase? ["without".toList, "rowid".toList] t <|> keyword? "strict".toList t

/-- The body of the literal that a `COMMENT` option gives, and what follows it. -/
def commentOption? (t : Text) : Option (Text × Text) :=
  (keyword? "comment".toList t).bind fun r =>
    match dropEquals r with
    | '\'' :: r => optionLiteral? r
    | _ => none

/-- One table option at the front of the text, behind blanks and at most one comma: the literal
body if it is a comment, and what follows it. -/
def tableOption? (t : Text) : Option (Option Text × Text) :=
  let r :=
    match dropBlanks t with
    | ',' :: r => dropBlanks r
    | r => r
  ((plainOption? r).map fun rest => (none, rest)) <|>
    ((commentOption? r).map fun (body, rest) => (some body, rest)) <|>
    ((flagOption? r).map fun rest => (none, rest))

/-- What follows the semicolon that may end a statement, with the blanks before it. -/
def dropSemicolon (t : Text) : Text :=
  match dropBlanks t with
  | ';' :: r => r
  | r => r

/-- The comment among the table options at the front of the text, the last if there are several,
and what follows the options and a semicolon.  An empty comment is no comment. -/
def tableOptions (t : Text) : Option Text × Text :=
  let options := many tableOption? t
  let comment := (options.1.filterMap id).getLast?.filter (!·.isEmpty)
  (comment.map (unescape '\''), dropSemicolon options.2)

/-! ### The head of a statement -/

/-- The head of a statement: the span of its name, and the text that begins with the parenthesis
behind it. -/
structure StatementHead where
  name : NameSpan
  opening : Text

/-- What follows `IF NOT EXISTS`, if it stands at the front of the text. -/
def skipIfNotExists (t : Text) : Text :=
  ((phrase? ["if".toList, "not".toList, "exists".toList] t).bind dropBlanks1?).getD t

/-- The head of a statement at the front of the text. -/
def StatementHead.read? (t : Text) : Option StatementHead := do
  let r ← phrase? ["create".toList, "table".toList] t
  let r ← dropBlanks1? r
  let name ← NameSpan.read? (skipIfNotExists r)
  match dropBlanks name.rest with
  | '(' :: r => some ⟨name, '(' :: r⟩
  | _ => none

/-! ### Statements -/

/-- The statement that begins at the front of `masked`, a suffix of `t` with its comments masked,
and what follows it in `masked`. -/
def Statement.at? (t masked : Text) : Option (Except ParseError Statement × Text) :=
  (StatementHead.read? masked).map fun head =>
    let name := strip head.name.name
    let line := lineAt t (t.length - head.name.start.length)
    match closing? head.opening with
    | none => (.error ((ParseCause.unbalancedParentheses name).onLine line), head.opening)
    | some width =>
      let source := suffixLike t head.opening
      let body := strip (slice source 1 width)
      let options := tableOptions (source.drop (width + 1))
      if body.isEmpty then (.error ((ParseCause.noColumns name).onLine line), head.opening)
      else
        (.ok ⟨name, body, line, between t masked options.2, options.1⟩,
          suffixLike masked options.2)

/-- The statements of a cleaned text in order, up to the first fault. -/
def Statement.readAll (t : Text) : Except ParseError (List Statement) :=
  (findAll (fun _ => Statement.at? t) (maskComments t)).mapM id

/-- The statements of a source, of which there must be one. -/
def Statement.parse (sql : Source) : Except ParseError (List Statement) :=
  match sql with
  | .text t =>
    if t.isAllBlank then .error ParseCause.emptyText.error
    else
      match Statement.readAll (cleaned t) with
      | .ok [] => .error ParseCause.noStatements.error
      | r => r
  | _ => .error ParseCause.notText.error

/-- Whether the head of a statement stands anywhere in the source, outside comments. -/
def Statement.occursIn (sql : Source) : Bool :=
  match sql.solid? with
  | none => false
  | some t => (find? (fun _ => StatementHead.read?) (maskComments (cleaned t))).isSome

end TableTypes
