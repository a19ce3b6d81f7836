import TableTypes.Gate.Token
import TableTypes.Gate.Token.Quoted

/-!
# The lexer of SQL

Cuts a text into tokens and leaves out blanks and comments.  It fails on what is opened and not
closed, and on binary and hexadecimal literals that are none.
-/

namespace TableTypes.Token

open Text

/-- What the lexer finds at the front of a text: nothing that counts, a token, or a mistake. -/
inductive Step where
  | skip (rest : Text)
  | token (tok : Token) (rest : Text)
  | mistake

/-! ### Comments -/

/-- The text up to the characters `a` and `b`, and what follows them. -/
def upTo? (a b : Char) : Text → Option (Text × Text)
  | [] => none
  | [_] => none
  | c :: d :: t =>
    if c = a && d = b then some ([], t) else (upTo? a b (d :: t)).map fun r => (c :: r.1, r.2)

/-- Whether a comment may begin with two dashes in front of the text. -/
def endsDashes (t : Text) : Bool :=
  t.head?.all fun c => isBlank c || c.toNat < 0x20 || c.toNat = 0x7f

/-- The text from the end of its line. -/
def dropLine (t : Text) : Text :=
  t.dropWhile (· ≠ '\n')

/-- The step over a block comment from what stands before its end and what follows. -/
def Step.ofComment : Option (Text × Text) → Step
  | some (_, rest) => .skip rest
  | none => .mistake

/-- The step over a comment that begins with `/*+`, which is a hint behind the token `before` or
else like any other. -/
def Step.ofHint (before : Option Token) : Option (Text × Text) → Step
  | some (content, rest) =>
    if before.any takesHint then
      .token ⟨.hint, "/*+".toList ++ content ++ "*/".toList⟩ rest
    else .skip rest
  | none => .mistake

/-- The step over the comment at the front of the text, behind the token `before`. -/
def comment? (before : Option Token) : Text → Option Step
  | '#' :: t => if t.head? = some '>' then none else some (.skip (dropLine t))
  | '-' :: '-' :: t => if endsDashes t then some (.skip (dropLine t)) else none
  | '\x7b' :: '#' :: t => some (.ofComment (upTo? '#' '\x7d' t))
  | '/' :: '*' :: '+' :: t => some (.ofHint before (upTo? '*' '/' t))
  | '/' :: '*' :: t => some (.ofComment (upTo? '*' '/' t))
  | _ => none

/-! ### Quoted text -/

/-- The step over a quoted text behind its opening quote. -/
def Step.ofQuoted (kind : TokenKind) : Option (Text × Text) → Step
  | some (text, rest) => .token ⟨kind, text⟩ rest
  | none => .mistake

/-- The step over a literal behind its letter and its opening quote. -/
def Step.ofLiteral (letter : Char) : Option (Text × Text) → Step
  | some (text, rest) =>
    if isLiteralContent letter text then .token ⟨.literal, text⟩ rest else .mistake
  | none => .mistake

/-- Whether the letter `c` in front of the quote `q` begins a literal. -/
def beginsLiteral (c q : Char) : Bool :=
  (q = '\'' && "nNbBxX".toList.contains c) || (q = '"' && "nN".toList.contains c)

/-- The step over the quoted text at the front of the text. -/
def quotation? : Text → Option Step
  | '\'' :: t => some (.ofQuoted .string (quoted? '\'' true t))
  | '"' :: t => some (.ofQuoted .string (quoted? '"' true t))
  | '\x60' :: t => some (.ofQuoted .identifier (quoted? '\x60' false t))
  | c :: q :: t => if beginsLiteral c q then some (.ofLiteral c (quoted? q true t)) else none
  | _ => none

/-! ### Punctuation -/

/-- The characters that are tokens by themselves. -/
def isPunctuation (c : Char) : Bool :=
  "()[]\x7b\x7d&^:,.-=><%!|+;/\\*~?@#'\"\x60".toList.contains c

/-- The operators of several characters, the longer ones first. -/
def operators : List Text :=
  ["?::", "<=>", "->>", "#>>", "<->", "~~~", "~~*", "-|-", "\x7b%+", "\x7b%-", "+%\x7d", "-%\x7d",
    "\x7b\x7b+", "\x7b\x7b-", "+\x7d\x7d", "-\x7d\x7d", "==", "::", "||", "|>", ">=", "<=", "<>",
    "!=", ":=", "->", "=>", "#>", "&&", "&<", "&>", "??", "~~", "~*", "@@", "\x7b%",
    "%\x7d"].map String.toList

/-- The operator of several characters at the front of the text, and what follows it. -/
def operator? (t : Text) : Option (Text × Text) :=
  operators.findSome? fun o => (after? o t).map (o, ·)

/-- The kind of a character of punctuation. -/
def punctuationKind (c : Char) : TokenKind :=
  if c = ';' then .semicolon
  else if c = '(' then .openParenthesis
  else if c = '@' then .variableSign
  else .operator

/-! ### Words and numbers -/

/-- Whether `c` belongs to a word. -/
def isWordPart (c : Char) : Bool :=
  !isBlank c && !isPunctuation c

/-- What follows the word `w`, which is written in upper case, at the front of a text in any mixture
of cases. -/
def upperWord? (w : Text) : Text → Option Text
  | [] => if w.isEmpty then some [] else none
  | c :: t => if w.isEmpty then some (c :: t) else (after? (upperChar c) w).bind (upperWord? · t)

/-- The pairs of words that make one token. -/
def wordPairs : List (String × String) :=
  [("PRIMARY", "KEY"), ("FOREIGN", "KEY"), ("ORDER", "BY"), ("GROUP", "BY"), ("SORT", "BY"),
    ("CLUSTER", "BY"), ("DISTRIBUTE", "BY"), ("PARTITION", "BY"), ("PARTITIONED", "BY"),
    ("CONNECT", "BY"), ("START", "WITH"), ("CHARACTER", "SET"), ("CHARACTER", "VARYING"),
    ("CHAR", "VARYING"), ("DOUBLE", "PRECISION"), ("GROUPING", "SETS"), ("SIMILAR", "TO"),
    ("SOUNDS", "LIKE"), ("MEMBER", "OF"), ("SIGNED", "INTEGER"), ("UNSIGNED", "INTEGER"),
    ("FOR", "VERSION"), ("FOR", "TIMESTAMP"), ("SQL", "SECURITY"), ("LOCK", "TABLES"),
    ("UNLOCK", "TABLES")]

/-- The pair of words at the front of the text as one token, and what follows it. -/
def wordPair? (t : Text) : Option (Token × Text) :=
  wordPairs.findSome? fun (first, second) =>
    match ((upperWord? first.toList t).bind dropBlanks1?).bind (upperWord? second.toList) with
    | some rest =>
      if rest.head?.all (!isWordPart ·) then
        some (⟨.word, first.toList ++ [' '] ++ second.toList⟩, rest)
      else none
    | none => none

/-- The one word with a dash in it, at the front of the text, and what follows it. -/
def dashedWord? (t : Text) : Option (Token × Text) :=
  (upperWord? "USER-DEFINED".toList t).map (⟨.word, "USER-DEFINED".toList⟩, ·)

/-- The word at the front of the text, behind the token `before`, and what follows it. -/
def plainWord (before : Option Token) (t : Text) : Token × Text :=
  let kind := if before.any (·.kind = .variableSign) then .variable else .word
  (⟨kind, t.takeWhile isWordPart⟩, t.dropWhile isWordPart)

/-- How far a number has been read: whether a point may still come, whether an exponent may, and
whether its sign may. -/
structure NumberState where
  point : Bool
  exponent : Bool
  sign : Bool

/-- The rest of a number at the front of the text, and what follows it.  A letter other than that of
an exponent makes the number a word. -/
def numberRest (s : NumberState) : Text → Text × Text
  | [] => ([], [])
  | c :: t =>
    let goOn (s : NumberState) : Text × Text :=
      let r := numberRest s t
      (c :: r.1, r.2)
    if isAsciiDigit c then goOn s
    else if c = '.' && s.point then goOn { s with point := false }
    else if (c = '+' || c = '-') && s.sign && t.head?.any isAsciiDigit then
      goOn { s with sign := false }
    else if (c = 'e' || c = 'E') && s.exponent then goOn { s with exponent := false, sign := true }
    else if isInitial c then ((c :: t).takeWhile isWordPart, (c :: t).dropWhile isWordPart)
    else ([], c :: t)

/-- Whether the text begins with `0` and the letter of a radix. -/
def startsRadix : Text → Bool
  | '0' :: c :: _ => "bBxX".toList.contains c
  | _ => false

/-- The number at the front of the text, behind the token `before`, and what follows it.  There is
no point in it behind the sign of a variable. -/
def number (before : Option Token) (t : Text) : Token × Text :=
  let r :=
    if startsRadix t then (t.takeWhile isWordPart, t.dropWhile isWordPart)
    else numberRest ⟨!before.any (·.kind = .variableSign), true, false⟩ t
  (⟨.word, r.1⟩, r.2)

/-! ### The lexer -/

/-- The step over a token. -/
def Step.ofToken (r : Token × Text) : Step :=
  .token r.1 r.2

/-- The step over the characters at the front of the text, behind the token `before`. -/
def step (before : Option Token) (c : Char) (t : Text) : Step :=
  if isBlank c then .skip t
  else if isAsciiDigit c then .ofToken (number before (c :: t))
  else
    (comment? before (c :: t) <|> quotation? (c :: t)).getD <|
      if isPunctuation c then
        match operator? (c :: t) with
        | some (o, rest) => .token ⟨.operator, o⟩ rest
        | none => .token ⟨punctuationKind c, [c]⟩ t
      else
        .ofToken ((wordPair? (c :: t) <|> dashedWord? (c :: t)).getD (plainWord before (c :: t)))

/-- The tokens of a text behind the token `before`, in at most `n` steps. -/
def lexUpTo : Nat → Option Token → Text → Option (List Token)
  | _, _, [] => some []
  | 0, _, _ => none
  | n + 1, before, c :: t =>
    match step before c t with
    | .skip rest => lexUpTo n before rest
    | .token tok rest => (lexUpTo n (some tok) rest).map (tok :: ·)
    | .mistake => none

/-- The tokens of a text, unless there is a mistake in it.  Every step takes a character, so there
are no more steps than characters. -/
def lex? (t : Text) : Option (List Token) :=
  lexUpTo t.length none t

end TableTypes.Token
