import TableTypes.Config.Yaml.Cursor

/-!
# Scalars as they are written

The texts of scalars: plain, between quotes, and as blocks.  A single line break inside a scalar
stands for a space, and of several the first is left out; a block that begins with `|` keeps them.
-/

namespace TableTypes.Yaml

open Text

/-! ### Line breaks inside scalars -/

/-- The character that a line break is read as. -/
def breakChar (c : Char) : Char :=
  if c = '\u0085' then '\n' else c

/-- What a line break and those behind it stand for. -/
def folded (first : Char) (more : Text) : Text :=
  if breakChar first ≠ '\n' then breakChar first :: more
  else if more.isEmpty then [' ']
  else more

/-! ### Plain scalars -/

/-- Whether a plain scalar may begin with the text.  A dash may stand in front if a word goes on
behind it, and outside of flow collections so may a question mark or a colon. -/
def startsPlain (inFlow : Bool) : Text → Bool
  | [] => false
  | c :: t =>
    (!endsWord (c :: t) && !"-?:,[]\x7b\x7d#&*!|>'\"%@\x60".toList.contains c) ||
      (!endsWord t && (c = '-' || (!inFlow && (c = '?' || c = ':'))))

/-- The part of a plain scalar that stands at the front of the text, up to a gap. -/
def plainRun (inFlow : Bool) : Text → Text
  | [] => []
  | c :: t =>
    let endsKey := c = ':' &&
      (endsWord t || (inFlow && t.head?.any (",[]\x7b\x7d".toList.contains ·)))
    let endsFlow := inFlow && ",?[]\x7b\x7d".toList.contains c
    if endsWord (c :: t) || endsKey || endsFlow then [] else c :: plainRun inFlow t

/-- The line breaks in a gap of a plain scalar, unless a document ends there, and the place behind
the gap; `n` bounds its length. -/
def gapBreaks : Nat → Cursor → Option Text × Cursor
  | 0, c => (some [], c)
  | n + 1, c =>
    match c.rest with
    | [] => (some [], c)
    | a :: _ =>
      if a = ' ' then gapBreaks n c.next
      else if !isBreak a then (some [], c)
      else if atMarker c.next.rest then (none, c.next)
      else
        let r := gapBreaks n c.next
        (r.1.map (breakChar a :: ·), r.2)

/-- A gap in a plain scalar. -/
structure PlainGap where
  /-- What the gap stands for; it is empty if the scalar ends here. -/
  text : Text
  /-- Whether there is a line break in it. -/
  isBroken : Bool
  /-- The place behind it. -/
  after : Cursor

/-- The gap of a plain scalar at a place. -/
def PlainGap.read (c : Cursor) : PlainGap :=
  let (spaces, c) := c.span (· = ' ')
  match c.rest with
  | [] => ⟨spaces, false, c⟩
  | a :: t =>
    if !isBreak a then ⟨spaces, false, c⟩
    else if atMarker t then ⟨[], true, c.next⟩
    else
      match gapBreaks t.length c.next with
      | (some more, c) => ⟨folded a more, true, c⟩
      | (none, c) => ⟨[], true, c⟩

/-- A scalar behind which the document is read on. -/
structure PlainScalar where
  text : Text
  /-- Whether the scalar has been left at the end of a line. -/
  isBroken : Bool
  after : Cursor

/-- The plain scalar behind a gap, in at most `n` parts.  Outside of flow collections its lines are
indented deeper than the block that it stands in. -/
def plainUpTo (inFlow : Bool) (indent : Int) : Nat → PlainGap → PlainScalar
  | 0, gap => ⟨[], gap.isBroken, gap.after⟩
  | n + 1, gap =>
    match plainRun inFlow gap.after.rest with
    | [] => ⟨[], gap.isBroken, gap.after⟩
    | run =>
      let next := PlainGap.read (gap.after.drop run.length)
      if next.text.isEmpty || next.after.rest.head? = some '#' ||
          (!inFlow && (next.after.column : Int) ≤ indent) then
        ⟨gap.text ++ run, next.isBroken, next.after⟩
      else
        let more := plainUpTo inFlow indent n next
        { more with text := gap.text ++ run ++ more.text }

/-- The plain scalar at a place. -/
def plain (inFlow : Bool) (indent : Int) (c : Cursor) : PlainScalar :=
  plainUpTo inFlow indent c.rest.length ⟨[], false, c⟩

/-! ### Quoted scalars -/

/-- The line breaks of a quoted scalar from the front of a line on, and the place behind them and
the blanks between them, in at most `n` lines.  No document may end there. -/
def quotedBreaks? : Nat → Cursor → Option (Text × Cursor)
  | 0, _ => none
  | n + 1, c =>
    if atMarker c.rest then none
    else
      let c := (c.span isGap).2
      match c.rest with
      | [] => some ([], c)
      | a :: _ =>
        if isBreak a then (quotedBreaks? n c.next).map fun r => (breakChar a :: r.1, r.2)
        else some ([], c)

/-- The character that a letter behind a backslash stands for. -/
def escape? (c : Char) : Option Char :=
  ([('0', '\x00'), ('a', '\x07'), ('b', '\x08'), ('t', '\t'), ('\t', '\t'), ('n', '\n'),
    ('v', '\x0b'), ('f', '\x0c'), ('r', '\r'), ('e', '\x1b'), (' ', ' '), ('"', '"'), ('\\', '\\'),
    ('/', '/'), ('N', '\u0085'), ('_', '\u00a0'), ('L', '\u2028'), ('P', '\u2029')]).lookup c

/-- How many hexadecimal digits follow a letter behind a backslash. -/
def codeLength (c : Char) : Nat :=
  if c = 'x' then 2 else if c = 'u' then 4 else if c = 'U' then 8 else 0

/-- The character whose code is written at the front of the text in `n` hexadecimal digits. -/
def codeChar? (n : Nat) (t : Text) : Option Char :=
  let digits := t.take n
  let code := digits.foldl (fun m c => 16 * m + hexValue c) 0
  if n = 0 || digits.length < n || !digits.all isHexDigit || 0x110000 ≤ code then none
  else some (Char.ofNat code)

/-- What a backslash and the characters behind it stand for, and the place behind them, from the
place behind the backslash. -/
def escaped? (c : Cursor) : Option (Text × Cursor) :=
  match c.rest with
  | [] => none
  | a :: t =>
    if isBreak a then quotedBreaks? c.rest.length c.next
    else
      match escape? a, codeChar? (codeLength a) t with
      | some e, _ => some ([e], c.next)
      | none, some e => some ([e], c.drop (codeLength a + 1))
      | none, none => none

/-- What stands up to the quote `q`, and the place behind it, in at most `n` parts. -/
def quotedUpTo? (q : Char) : Nat → Cursor → Option (Text × Cursor)
  | 0, _ => none
  | n + 1, c =>
    let goOn (part : Text) (c : Cursor) : Option (Text × Cursor) :=
      (quotedUpTo? q n c).map fun r => (part ++ r.1, r.2)
    match c.rest with
    | [] => none
    | a :: t =>
      if a = q then
        if q = '\'' && t.head? = some '\'' then goOn ['\''] (c.drop 2) else some ([], c.next)
      else if a = '\\' && q = '"' then (escaped? c.next).bind fun r => goOn r.1 r.2
      else if isGap a || isBreak a then
        let (blanks, c) := c.span isGap
        match c.rest with
        | [] => none
        | b :: t =>
          if isBreak b then
            (quotedBreaks? (t.length + 1) c.next).bind fun r => goOn (folded b r.1) r.2
          else goOn blanks c
      else goOn [a] c.next

/-- The quoted scalar behind its opening quote, and the place behind it. -/
def quoted? (q : Char) (c : Cursor) : Option (Text × Cursor) :=
  quotedUpTo? q (c.rest.length + 1) c

/-! ### Block scalars -/

/-- What becomes of the line breaks at the end of a block. -/
inductive BlockEnding where
  | stripped
  | clipped
  | kept
  deriving DecidableEq, Repr

/-- What is written behind the sign that begins a block: what becomes of its end, and how much
deeper it is indented, if that is told. -/
structure BlockHeader where
  ending : BlockEnding
  depth : Option Nat

/-- The ending that a sign stands for. -/
def BlockEnding.ofSign? (c : Char) : Option BlockEnding :=
  if c = '-' then some .stripped else if c = '+' then some .kept else none

/-- The depth that a digit stands for. -/
def depthOfDigit? (c : Char) : Option Nat :=
  if isAsciiDigit c && c ≠ '0' then some (c.toNat - 48) else none

/-- The header of a block at the front of the text, and its length. -/
def BlockHeader.read (t : Text) : BlockHeader × Nat :=
  match t with
  | a :: b :: _ =>
    match BlockEnding.ofSign? a, depthOfDigit? a with
    | some ending, _ =>
      match depthOfDigit? b with
      | some depth => (⟨ending, some depth⟩, 2)
      | none => (⟨ending, none⟩, 1)
    | none, some depth =>
      match BlockEnding.ofSign? b with
      | some ending => (⟨ending, some depth⟩, 2)
      | none => (⟨.clipped, some depth⟩, 1)
    | none, none => (⟨.clipped, none⟩, 0)
  | [a] =>
    match BlockEnding.ofSign? a, depthOfDigit? a with
    | some ending, _ => (⟨ending, none⟩, 1)
    | none, some depth => (⟨.clipped, some depth⟩, 1)
    | none, none => (⟨.clipped, none⟩, 0)
  | [] => (⟨.clipped, none⟩, 0)

/-- The place behind the spaces from here on, up to a column. -/
def Cursor.dropIndent (indent : Nat) (c : Cursor) : Cursor :=
  c.drop (min (indent - c.column) (c.rest.takeWhile (· = ' ')).length)

/-- The line breaks from here on with no more than the indentation between them, and the place
behind them, in at most `n` lines. -/
def blockBreaks (indent : Nat) : Nat → Cursor → Text × Cursor
  | 0, c => ([], c)
  | n + 1, c =>
    let c := c.dropIndent indent
    match c.rest with
    | [] => ([], c)
    | a :: _ =>
      if isBreak a then
        let r := blockBreaks indent n c.next
        (breakChar a :: r.1, r.2)
      else ([], c)

/-- The line breaks from here on with spaces between them, the greatest column that the spaces lead
to, and the place behind them, in at most `n` lines. -/
def leadingBreaks : Nat → Cursor → Text × Nat × Cursor
  | 0, c => ([], c.column, c)
  | n + 1, c =>
    let c := c.dropSpaces
    match c.rest with
    | [] => ([], c.column, c)
    | a :: _ =>
      if isBreak a then
        let (breaks, indent, after) := leadingBreaks n c.next
        (breakChar a :: breaks, max c.column indent, after)
      else ([], c.column, c)

/-- The lines of a block. -/
structure BlockLines where
  text : Text
  /-- The break of the last line that holds something. -/
  lastBreak : Text
  /-- The breaks behind it. -/
  breaks : Text
  after : Cursor

/-- The lines of a block behind the breaks, at most `n` of them. -/
def blockLines (isFolded : Bool) (indent : Nat) : Nat → Text → Cursor → BlockLines
  | 0, breaks, c => ⟨[], [], breaks, c⟩
  | n + 1, breaks, c =>
    if c.column ≠ indent || c.rest.isEmpty then ⟨[], [], breaks, c⟩
    else
      let (line, c) := c.span (!isBreak ·)
      let lastBreak := (c.rest.head?.map breakChar).toList
      let (next, c) := blockBreaks indent (c.rest.length + 1) c.next
      if c.column ≠ indent || c.rest.isEmpty then ⟨breaks ++ line, lastBreak, next, c⟩
      else
        let isFlush (t : Text) : Bool := !t.head?.any isGap
        let glue :=
          if isFolded && lastBreak = ['\n'] && isFlush line && isFlush c.rest then
            if next.isEmpty then [' '] else []
          else lastBreak
        let more := blockLines isFolded indent n next c
        { more with text := breaks ++ line ++ glue ++ more.text }

/-- The block behind the sign that begins it, inside a block at an indentation, and the place behind
it. -/
def block? (isFolded : Bool) (outer : Int) (c : Cursor) : Option (Text × Cursor) :=
  let (header, length) := BlockHeader.read c.rest
  let c := c.drop length
  if !endsField c.rest then none
  else
    c.nextLine?.map fun c =>
      let least := (max (outer + 1) 1).toNat
      let n := c.rest.length + 1
      let (indent, breaks, c) :=
        match header.depth with
        | some depth =>
          let indent := least + depth - 1
          (indent, blockBreaks indent n c)
        | none =>
          let (breaks, indent, c) := leadingBreaks n c
          (max least indent, breaks, c)
      let lines := blockLines isFolded indent n breaks c
      let ending :=
        match header.ending with
        | .stripped => []
        | .clipped => lines.lastBreak
        | .kept => lines.lastBreak ++ lines.breaks
      (lines.text ++ ending, lines.after)

end TableTypes.Yaml
