import TableTypes.Text.Basic

/-!
# Scanning SQL text

Every reading of delimiters in this library is a view of one scan.  The scan gives each character
a *mark*: the region it leaves the text in (plain code, one of three kinds of quotes, or a comment)
and the depth of parentheses after it.

* An opening quote is already reported as quoted, a closing quote as code again.
* A quote character behind a backslash neither opens nor closes anything.
* Comments run from `--` to the end of the line and from `/*` through `*/`; they are recognised
  only where the scan is asked to, and only outside quotes.
* Only parentheses in code count, so the depth is the number of `(` less the number of `)` marked
  as code so far.
-/

namespace TableTypes

/-! ### Regions and marks -/

/-- The three quotes of SQL. -/
inductive Quote where
  | single
  | double
  | backtick
  deriving DecidableEq, Repr

namespace Quote

/-- The character that opens and closes the quote. -/
def char : Quote → Char
  | single => '\''
  | double => '"'
  | backtick => '\x60'

/-- The quote that a character opens. -/
def ofChar? (c : Char) : Option Quote :=
  if c = '\'' then some single
  else if c = '"' then some double
  else if c = '\x60' then some backtick
  else none

end Quote

/-- What a character of SQL text belongs to. -/
inductive Region where
  | code
  | quoted (q : Quote)
  | comment
  deriving DecidableEq, Repr

/-- A scanned character with the region and the depth of parentheses that it leaves behind. -/
structure Mark where
  char : Char
  region : Region
  depth : Int
  deriving DecidableEq, Repr

/-- By how much a character moves the depth: an opening parenthesis up, a closing one down, and
only in code. -/
def Region.weight (r : Region) (c : Char) : Int :=
  if r = .code then if c = '(' then 1 else if c = ')' then -1 else 0 else 0

/-! ### The scan -/

/-- Where in the text the scan stands. -/
inductive Place where
  | code
  | quoted (q : Quote)
  | lineComment
  /-- Between the two characters that open a block comment. -/
  | blockOpening
  | block
  /-- Between the two characters that close a block comment. -/
  | blockClosing
  deriving DecidableEq, Repr

/-- The region of `c` and the place behind it, for a character in code.  `before` is the character
before it and `next` the one after it. -/
def Place.enter (comments : Bool) (before : Option Char) (c : Char) (next : Option Char) :
    Region × Place :=
  if comments && c = '-' && next = some '-' then (.comment, .lineComment)
  else if comments && c = '/' && next = some '*' then (.comment, .blockOpening)
  else
    match Quote.ofChar? c with
    | some q => if before = some '\\' then (.code, .code) else (.quoted q, .quoted q)
    | none => (.code, .code)

/-- The region of `c` and the place behind it. -/
def Place.step (comments : Bool) (before : Option Char) (c : Char) (next : Option Char) :
    Place → Region × Place
  | .code => enter comments before c next
  | .quoted q => if c = q.char && before ≠ some '\\' then (.code, .code) else (.quoted q, .quoted q)
  | .lineComment => if c = '\n' then (.code, .code) else (.comment, .lineComment)
  | .blockOpening => (.comment, .block)
  | .block =>
    if c = '*' && next = some '/' then (.comment, .blockClosing) else (.comment, .block)
  | .blockClosing => (.comment, .code)

/-- The marks of a text that follows the character `before` at a place and a depth. -/
def scanFrom (comments : Bool) (before : Option Char) (place : Place) (depth : Int) :
    Text → List Mark
  | [] => []
  | c :: t =>
    let step := place.step comments before c t.head?
    let depth := depth + step.1.weight c
    ⟨c, step.1, depth⟩ :: scanFrom comments (some c) step.2 depth t

/-- The marks of a text, one for each character.  Comments are told apart from code if `comments`
is set. -/
def scan (comments : Bool) (t : Text) : List Mark :=
  scanFrom comments none .code 0 t

/-! ### Questions to a mark -/

/-- Whether the mark is of a comment. -/
def Mark.isComment (m : Mark) : Bool :=
  m.region = .comment

/-- Whether the mark is of code outside all parentheses. -/
def Mark.isTopLevel (m : Mark) : Bool :=
  m.region = .code && m.depth = 0

end TableTypes
