import TableTypes.Config.Yaml.Cursor
import TableTypes.Config.Yaml.Token
import TableTypes.Text.Encoding

/-!
# Names, tags and directives

What may stand in front of a value, an anchor or a tag, and in front of a document, its directives.
-/

namespace TableTypes.Yaml

open Text

/-! ### Names -/

/-- The name at a place, which must not be empty, and the place behind it. -/
def name? (c : Cursor) : Option (Text × Cursor) :=
  let r := c.span isNameChar
  if r.1.isEmpty then none else some r

/-- The name of an anchor at a place, and the place behind it. -/
def anchorName? (c : Cursor) : Option (Text × Cursor) := do
  let r ← name? c
  if endsWord r.2.rest || r.2.rest.head?.any ("?:,]\x7d%@\x60".toList.contains ·) then some r
  else none

/-! ### Tags -/

/-- Whether `c` may stand in a tag. -/
def isTagChar (c : Char) : Bool :=
  isAsciiLetter c || isAsciiDigit c || "-;/?:@&=+$,_.!~*'()[]".toList.contains c

/-- The bytes that stand at a place in hexadecimal digits behind percent signs, at most `n` of them,
and the place behind them. -/
def tagBytes? : Nat → Cursor → Option (List UInt8 × Cursor)
  | 0, c => some ([], c)
  | n + 1, c =>
    match c.rest with
    | '%' :: a :: b :: _ =>
      if isHexDigit a && isHexDigit b then
        (tagBytes? n (c.drop 3)).map fun r => ((16 * hexValue a + hexValue b).toUInt8 :: r.1, r.2)
      else none
    | '%' :: _ => none
    | _ => some ([], c)

/-- The text of a tag at a place and the place behind it, in at most `n` parts. -/
def tagTextUpTo? : Nat → Cursor → Option (Text × Cursor)
  | 0, c => some ([], c)
  | n + 1, c =>
    match c.rest with
    | [] => some ([], c)
    | a :: _ =>
      if a = '%' then do
        let (bytes, c) ← tagBytes? (n + 1) c
        let part ← (decodeUtf8 bytes).toOption
        (tagTextUpTo? n c).map fun r => (part ++ r.1, r.2)
      else if isTagChar a then (tagTextUpTo? n c.next).map fun r => (a :: r.1, r.2)
      else some ([], c)

/-- The text of a tag at a place, which must not be empty, and the place behind it. -/
def tagText? (c : Cursor) : Option (Text × Cursor) :=
  (tagTextUpTo? c.rest.length c).filter (!·.1.isEmpty)

/-- The handle of a tag at a place, and the place behind it: one exclamation mark, or a name between
two, which may be empty. -/
def tagHandle? (c : Cursor) : Option (Text × Cursor) :=
  match c.rest with
  | '!' :: ' ' :: _ => some (['!'], c.next)
  | '!' :: _ =>
    let (name, after) := c.next.span isNameChar
    if after.rest.head? = some '!' then some ('!' :: name ++ ['!'], after.next) else none
  | _ => none

/-- The tag at a place, which begins with an exclamation mark, and the place behind it. -/
def tag? (c : Cursor) : Option (Token × Cursor) := do
  let r ←
    match c.next.rest with
    | '<' :: _ => do
      let (text, after) ← tagText? (c.drop 2)
      if after.rest.head? = some '>' then some (.tag none text, after.next) else none
    | rest =>
      if endsWord rest then some (.tag none ['!'], c.next)
      else if (rest.takeWhile fun a => a ≠ ' ' && !isBreak a).contains '!' then do
        let (handle, after) ← tagHandle? c
        let (text, after) ← tagText? after
        some (.tag (some handle) text, after)
      else do
        let (text, after) ← tagText? c.next
        some (.tag (some ['!']) text, after)
  if endsField r.2.rest then some r else none

/-! ### Directives -/

/-- The digits at a place, of which there must be one, and the place behind them. -/
def digits? (c : Cursor) : Option (Text × Cursor) :=
  let r := c.span isAsciiDigit
  if r.1.isEmpty then none else some r

/-- The version that a directive tells, and the place behind it. -/
def version? (c : Cursor) : Option (Token × Cursor) := do
  let (major, c) ← digits? c.dropSpaces
  if c.rest.head? ≠ some '.' then none
  let (_, c) ← digits? c.next
  some (.version (digitsToNat major), c)

/-- The handle that a directive explains, and the place behind it. -/
def handle? (c : Cursor) : Option (Token × Cursor) := do
  let (name, c) ← tagHandle? c.dropSpaces
  if c.rest.head? ≠ some ' ' then none
  let (expansion, c) ← tagText? c.dropSpaces
  some (.handle name expansion, c)

/-- The directive behind its percent sign, and the beginning of the next line. -/
def directive? (c : Cursor) : Option (Token × Cursor) := do
  let (name, c) ← name? c
  if !endsField c.rest then none
  let (tok, c) ←
    if name = "YAML".toList then version? c
    else if name = "TAG".toList then handle? c
    else some (.otherDirective, c.dropLine)
  if !endsField c.rest then none
  let c ← c.nextLine?
  some (tok, c)

end TableTypes.Yaml
