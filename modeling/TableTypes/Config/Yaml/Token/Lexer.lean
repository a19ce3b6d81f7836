import TableTypes.Config.Yaml.Token.Property
import TableTypes.Config.Yaml.Token.Scalar

/-!
# The lexer of YAML

Cuts a document into tokens.  Outside of flow collections the lexer knows how deep the open blocks
are indented.  At every depth of flow collections it remembers the place of the last token that may
turn out to begin a key, which a colon on the same line decides.
-/

namespace TableTypes.Yaml

open Text

/-- A place where a key may begin. -/
structure PossibleKey where
  /-- The number of tokens before it. -/
  tokens : Nat
  /-- Whether nothing but a key may stand there. -/
  isRequired : Bool
  index : Nat
  line : Nat
  column : Nat
  deriving DecidableEq, Repr

/-- The state of the lexer. -/
structure Lexer where
  cursor : Cursor
  /-- The tokens so far, the last first. -/
  tokens : List Token
  /-- How many flow collections are open. -/
  flow : Nat
  /-- The columns of the open blocks, the innermost first. -/
  indents : List Nat
  /-- Whether a key may begin here. -/
  allowsKey : Bool
  /-- The places where keys may begin, with the number of flow collections that are open there. -/
  keys : List (Nat × PossibleKey)

namespace Lexer

/-! ### Indentation -/

/-- The column of the innermost open block, or -1. -/
def indent (l : Lexer) : Int :=
  match l.indents with
  | [] => -1
  | column :: _ => column

/-- The lexer behind a token that is not written. -/
def push (tok : Token) (l : Lexer) : Lexer :=
  { l with tokens := tok :: l.tokens }

/-- Closes the open blocks whose columns satisfy `p`, from the inside. -/
def closeBlocks (p : Nat → Bool) (l : Lexer) : Lexer :=
  if 0 < l.flow then l
  else
    { l with
      indents := l.indents.dropWhile p
      tokens := (l.indents.takeWhile p).map (fun _ => Token.blockEnd) ++ l.tokens }

/-- Opens a block at the column, unless one is open there. -/
def openBlock (tok : Token) (column : Nat) (l : Lexer) : Lexer :=
  if 0 < l.flow || (column : Int) ≤ l.indent then l
  else { l.push tok with indents := column :: l.indents }

/-! ### Possible keys -/

/-- Forgets the possible key of this depth of flow collections, which must not be required. -/
def dropKey? (l : Lexer) : Option Lexer :=
  if (l.keys.lookup l.flow).any PossibleKey.isRequired then none
  else some { l with keys := l.keys.filter (·.1 ≠ l.flow) }

/-- Remembers that a key may begin here. -/
def saveKey? (l : Lexer) : Option Lexer :=
  if !l.allowsKey then some l
  else
    l.dropKey?.map fun l =>
      let c := l.cursor
      let isRequired := l.flow = 0 && l.indent = c.column
      let key : PossibleKey := ⟨l.tokens.length, isRequired, c.index, c.line, c.column⟩
      { l with keys := (l.flow, key) :: l.keys }

/-- The greatest length of a key without a mark in front. -/
def maxKeyLength : Nat := 1024

/-- Forgets the possible keys of lines before this one and those that are too long, none of which
must be required. -/
def dropStaleKeys? (l : Lexer) : Option Lexer :=
  let isStale (k : PossibleKey) : Bool :=
    k.line ≠ l.cursor.line || maxKeyLength < l.cursor.index - k.index
  if l.keys.any fun k => isStale k.2 && k.2.isRequired then none
  else some { l with keys := l.keys.filter (!isStale ·.2) }

/-! ### Tokens -/

/-- The lexer behind a token of one character. -/
def pass (tok : Token) (l : Lexer) : Lexer :=
  { l.push tok with cursor := l.cursor.next }

/-- The lexer behind a token that ends at the place. -/
def passTo (tok : Token) (c : Cursor) (l : Lexer) : Lexer :=
  { l.push tok with cursor := c }

/-- The step over the beginning of a flow collection. -/
def openFlow? (tok : Token) (l : Lexer) : Option Lexer :=
  l.saveKey?.map fun l => { l.pass tok with flow := l.flow + 1, allowsKey := true }

/-- The step over the end of a flow collection. -/
def closeFlow? (tok : Token) (l : Lexer) : Option Lexer := do
  let l ← l.dropKey?
  if l.flow = 0 then none
  some { l.pass tok with flow := l.flow - 1, allowsKey := false }

/-- The step over the comma behind an entry of a flow collection. -/
def flowEntry? (l : Lexer) : Option Lexer :=
  l.dropKey?.map fun l => { l.pass .flowEntry with allowsKey := true }

/-- The step over the dash in front of an item. -/
def blockEntry? (l : Lexer) : Option Lexer :=
  if l.flow = 0 && !l.allowsKey then none
  else
    (l.openBlock .blockSequence l.cursor.column).dropKey?.map fun l =>
      { l.pass .blockEntry with allowsKey := true }

/-- The step over the question mark in front of a key. -/
def key? (l : Lexer) : Option Lexer :=
  if l.flow = 0 && !l.allowsKey then none
  else
    (l.openBlock .blockMapping l.cursor.column).dropKey?.map fun l =>
      { l.pass .key with allowsKey := l.flow = 0 }

/-- The tokens with a mark for the key that begins at the place. -/
def markKey (k : PossibleKey) (l : Lexer) : Lexer :=
  let since := l.tokens.take (l.tokens.length - k.tokens)
  let before := { l with tokens := l.tokens.drop since.length }
  let marked := (before.openBlock .blockMapping k.column).push .key
  { marked with tokens := since ++ marked.tokens }

/-- The step over the colon in front of a value. -/
def value? (l : Lexer) : Option Lexer :=
  match l.keys.lookup l.flow with
  | some k =>
    let l := { l with keys := l.keys.filter (·.1 ≠ l.flow) }.markKey k
    some { l.pass .value with allowsKey := false }
  | none =>
    if l.flow = 0 && !l.allowsKey then none
    else
      let l := l.openBlock .blockMapping l.cursor.column
      some { l.pass .value with allowsKey := l.flow = 0 }

/-- The step over a token that may begin a key, from what stands there. -/
def content? (r : Option (Token × Cursor)) (l : Lexer) : Option Lexer := do
  let l ← l.saveKey?
  let (tok, c) ← r
  some { l.passTo tok c with allowsKey := false }

/-- The step over a plain scalar. -/
def plain? (l : Lexer) : Option Lexer :=
  l.saveKey?.map fun l =>
    let s := plain (0 < l.flow) l.indent l.cursor
    { l.passTo (.scalar true s.text) s.after with allowsKey := s.isBroken }

/-- The step over a block scalar. -/
def blockScalar? (isFolded : Bool) (l : Lexer) : Option Lexer := do
  let l ← l.dropKey?
  let (text, c) ← block? isFolded l.indent l.cursor.next
  some { l.passTo (.scalar false text) c with allowsKey := true }

/-- The step over a token that stands outside of documents, up to the place. -/
def outside? (r : Option (Token × Cursor)) (l : Lexer) : Option Lexer := do
  let l ← (l.closeBlocks fun _ => true).dropKey?
  let (tok, c) ← r
  some { l.passTo tok c with allowsKey := false }

/-- The step over the token at the front of the rest `c :: t`. -/
def step? (c : Char) (t : Text) (l : Lexer) : Option Lexer :=
  let inFlow : Bool := 0 < l.flow
  let endsMark := inFlow || endsWord t
  if l.cursor.column = 0 && c = '%' then l.outside? (directive? l.cursor.next)
  else if l.cursor.column = 0 && atMarker (c :: t) then
    l.outside? (some (if c = '-' then .documentStart else .documentEnd, l.cursor.drop 3))
  else if c = '[' then l.openFlow? .flowSequence
  else if c = '\x7b' then l.openFlow? .flowMapping
  else if c = ']' then l.closeFlow? .flowSequenceEnd
  else if c = '\x7d' then l.closeFlow? .flowMappingEnd
  else if c = ',' then l.flowEntry?
  else if c = '-' && endsWord t then l.blockEntry?
  else if c = '?' && endsMark then l.key?
  else if c = ':' && endsMark then l.value?
  else if c = '*' then
    l.content? ((anchorName? l.cursor.next).map fun r => (.reference r.1, r.2))
  else if c = '&' then l.content? ((anchorName? l.cursor.next).map fun r => (.anchor r.1, r.2))
  else if c = '!' then l.content? (tag? l.cursor)
  else if (c = '|' || c = '>') && !inFlow then l.blockScalar? (c = '>')
  else if c = '\'' || c = '"' then
    l.content? ((quoted? c l.cursor.next).map fun r => (.scalar false r.1, r.2))
  else if startsPlain inFlow (c :: t) then l.plain?
  else none

/-! ### The whole document -/

/-- The lexer in front of the next token, in at most `n` lines.  Spaces, comments and line breaks
are passed over; behind a line break a key may begin. -/
def dropGap : Nat → Lexer → Lexer
  | 0, l => l
  | n + 1, l =>
    let c := l.cursor.dropSpaces
    let c := if c.rest.head? = some '#' then c.dropLine else c
    match c.rest with
    | [] => { l with cursor := c }
    | a :: _ =>
      if isBreak a then
        dropGap n { l with cursor := c.next, allowsKey := l.allowsKey || l.flow = 0 }
      else { l with cursor := c }

/-- The tokens of the document in at most `n` steps. -/
def tokensUpTo? : Nat → Lexer → Option (List Token)
  | 0, _ => none
  | n + 1, l => do
    let l ← (l.dropGap (l.cursor.rest.length + 1)).dropStaleKeys?
    let l := l.closeBlocks fun column => l.cursor.column < column
    match l.cursor.rest with
    | [] => (l.closeBlocks fun _ => true).dropKey?.map (·.tokens.reverse)
    | c :: t => tokensUpTo? n (← l.step? c t)

end Lexer

/-- The tokens of a document, unless there is a mistake in it.  Every step takes a character. -/
def tokens? (t : Text) : Option (List Token) :=
  let start : Cursor := ⟨t, 0, 0, 0⟩
  let cursor := if t.head? = some '\ufeff' then start.next else start
  Lexer.tokensUpTo? (t.length + 1) ⟨cursor, [], 0, [], true, []⟩

end TableTypes.Yaml
