import TableTypes.Config.Yaml.Tag
import TableTypes.Config.Yaml.Token.Lexer

/-!
# Nodes of YAML

The tree of values that a document is, read from its tokens.  A node may be given a name by an
anchor, once, and what refers to the name afterwards is the node again.
-/

namespace TableTypes.Yaml

open Text

/-- A value with its tag. -/
inductive Node where
  | scalar (tag text : Text)
  | sequence (tag : Text) (items : List Node)
  | mapping (tag : Text) (entries : List (Node × Node))
  /-- A reference to a node that it stands in itself. -/
  | enclosing
  deriving Inhabited, Repr

/-- The node where nothing is written. -/
def Node.empty : Node :=
  .scalar (coreTag "null") []

/-- What is known while a document is read. -/
structure Reading where
  /-- The tokens that are left. -/
  tokens : List Token
  /-- The nodes that have a name, `enclosing` as long as they are not complete. -/
  anchors : List (Text × Node)
  /-- What the handles of tags stand for. -/
  handles : List (Text × Text)

namespace Reading

/-- The reading behind its first token. -/
def next (r : Reading) : Reading :=
  { r with tokens := r.tokens.tail }

/-- Whether the next token is one of the given. -/
def meets (r : Reading) (toks : List Token) : Bool :=
  r.tokens.head?.any toks.contains

/-! ### Properties -/

/-- What may stand in front of a node. -/
structure Properties where
  anchor : Option Text
  tag : Option Text

/-- The tag that is written with a handle. -/
def tag? (r : Reading) (handle : Option Text) (suffix : Text) : Option Text :=
  match handle with
  | none => some suffix
  | some h => (r.handles.lookup h).map (· ++ suffix)

/-- The properties in front of a node, in either order, and the reading behind them. -/
def properties? (r : Reading) : Option (Properties × Reading) :=
  match r.tokens with
  | .anchor name :: .tag h s :: _ => (r.tag? h s).map fun tag => (⟨name, tag⟩, r.next.next)
  | .tag h s :: .anchor name :: _ => (r.tag? h s).map fun tag => (⟨name, tag⟩, r.next.next)
  | .anchor name :: _ => some (⟨name, none⟩, r.next)
  | .tag h s :: _ => (r.tag? h s).map fun tag => (⟨none, tag⟩, r.next)
  | _ => some (⟨none, none⟩, r)

/-- The tag of a collection. -/
def Properties.collectionTag (p : Properties) (name : String) : Text :=
  (p.tag.filter (· ≠ openTag)).getD (coreTag name)

/-- The tag of a scalar. -/
def Properties.scalarTag (p : Properties) (isPlain : Bool) (text : Text) : Text :=
  match p.tag with
  | some tag => if tag = openTag then plainTag text else tag
  | none => if isPlain then plainTag text else coreTag "str"

/-- The node of properties with nothing behind them, of which there must be one. -/
def Properties.emptyNode? (p : Properties) : Option Node :=
  if p.anchor.isSome || p.tag.isSome then some (.scalar (p.scalarTag true []) []) else none

/-- The reading with a name for the node that begins; no name is given twice. -/
def name? (r : Reading) (name : Option Text) : Option Reading :=
  match name with
  | none => some r
  | some a =>
    if (r.anchors.lookup a).isSome then none
    else some { r with anchors := (a, .enclosing) :: r.anchors }

/-- The reading with the complete node under its name. -/
def complete (r : Reading) (name : Option Text) (node : Node) : Reading :=
  match name with
  | none => r
  | some a => { r with anchors := r.anchors.map fun e => if e.1 = a then (a, node) else e }

/-! ### Nodes -/

/-- What may stand in some place: block collections or only flow collections, and items without an
indentation of their own. -/
inductive Place where
  | flow
  | block
  | blockValue
  deriving DecidableEq, Repr

mutual

/-- The node at a place, and the reading behind it, in at most `n` steps. -/
def node? : Nat → Place → Reading → Option (Node × Reading)
  | 0, _, _ => none
  | n + 1, place, r =>
    match r.tokens with
    | .reference name :: _ => (r.anchors.lookup name).map (·, r.next)
    | _ => do
      let (p, r) ← r.properties?
      let r ← r.name? p.anchor
      let (node, r) ←
        match r.tokens with
        | .scalar isPlain text :: _ => some (.scalar (p.scalarTag isPlain text) text, r.next)
        | .flowSequence :: _ =>
          (flowItems? n true r.next).map fun s => (.sequence (p.collectionTag "seq") s.1, s.2)
        | .flowMapping :: _ =>
          (flowEntries? n true r.next).map fun s => (.mapping (p.collectionTag "map") s.1, s.2)
        | tok :: _ =>
          if tok = .blockEntry && place = .blockValue then
            (plainItems? n r).map fun s => (.sequence (p.collectionTag "seq") s.1, s.2)
          else if tok = .blockSequence && place ≠ .flow then
            (blockItems? n r.next).map fun s => (.sequence (p.collectionTag "seq") s.1, s.2)
          else if tok = .blockMapping && place ≠ .flow then
            (blockEntries? n r.next).map fun s => (.mapping (p.collectionTag "map") s.1, s.2)
          else (p.emptyNode?).map (·, r)
        | [] => (p.emptyNode?).map (·, r)
      some (node, r.complete p.anchor node)

/-- The node at a place, or the empty one if one of the given tokens stands there. -/
def nodeBefore? : Nat → Place → List Token → Reading → Option (Node × Reading)
  | 0, _, _, _ => none
  | n + 1, place, stops, r => if r.meets stops then some (.empty, r) else node? n place r

/-- The node behind the token for a value, if there is one, or else the empty one. -/
def valueBefore? : Nat → Place → List Token → Reading → Option (Node × Reading)
  | 0, _, _, _ => none
  | n + 1, place, stops, r =>
    if r.meets [.value] then nodeBefore? n place stops r.next else some (.empty, r)

/-- The items of a block list up to its end. -/
def blockItems? : Nat → Reading → Option (List Node × Reading)
  | 0, _ => none
  | n + 1, r =>
    if r.meets [.blockEnd] then some ([], r.next)
    else if r.meets [.blockEntry] then do
      let (item, r) ← nodeBefore? n .block [.blockEntry, .blockEnd] r.next
      let (items, r) ← blockItems? n r
      some (item :: items, r)
    else none

/-- The items of a list that is not indented deeper than the mapping it stands in. -/
def plainItems? : Nat → Reading → Option (List Node × Reading)
  | 0, _ => none
  | n + 1, r =>
    if r.meets [.blockEntry] then do
      let (item, r) ← nodeBefore? n .block [.blockEntry, .key, .value, .blockEnd] r.next
      let (items, r) ← plainItems? n r
      some (item :: items, r)
    else some ([], r)

/-- The entries of a block mapping up to its end. -/
def blockEntries? : Nat → Reading → Option (List (Node × Node) × Reading)
  | 0, _ => none
  | n + 1, r =>
    if r.meets [.blockEnd] then some ([], r.next)
    else if r.meets [.key] then do
      let stops := [.key, .value, .blockEnd]
      let (key, r) ← nodeBefore? n .blockValue stops r.next
      let (value, r) ← valueBefore? n .blockValue stops r
      let (entries, r) ← blockEntries? n r
      some ((key, value) :: entries, r)
    else none

/-- The items of a flow list up to its end.  A key with its value is an item by itself. -/
def flowItems? : Nat → Bool → Reading → Option (List Node × Reading)
  | 0, _, _ => none
  | n + 1, isFirst, r =>
    if r.meets [.flowSequenceEnd] then some ([], r.next)
    else if !isFirst && !r.meets [.flowEntry] then none
    else
      let r := if isFirst then r else r.next
      if r.meets [.flowSequenceEnd] then some ([], r.next)
      else do
        let (item, r) ←
          if r.meets [.key] then do
            let (key, r) ← nodeBefore? n .flow [.value, .flowEntry, .flowSequenceEnd] r.next
            let (value, r) ← valueBefore? n .flow [.flowEntry, .flowSequenceEnd] r
            some (.mapping (coreTag "map") [(key, value)], r)
          else node? n .flow r
        let (items, r) ← flowItems? n false r
        some (item :: items, r)

/-- The entries of a flow mapping up to its end. -/
def flowEntries? : Nat → Bool → Reading → Option (List (Node × Node) × Reading)
  | 0, _, _ => none
  | n + 1, isFirst, r =>
    if r.meets [.flowMappingEnd] then some ([], r.next)
    else if !isFirst && !r.meets [.flowEntry] then none
    else
      let r := if isFirst then r else r.next
      if r.meets [.flowMappingEnd] then some ([], r.next)
      else do
        let (key, value, r) ←
          if r.meets [.key] then do
            let (key, r) ← nodeBefore? n .flow [.value, .flowEntry, .flowMappingEnd] r.next
            let (value, r) ← valueBefore? n .flow [.flowEntry, .flowMappingEnd] r
            some (key, value, r)
          else (node? n .flow r).map fun s => (s.1, .empty, s.2)
        let (entries, r) ← flowEntries? n false r
        some ((key, value) :: entries, r)

end

/-! ### Documents -/

/-- The handles that need no directive. -/
def standardHandles : List (Text × Text) :=
  [(['!'], ['!']), (['!', '!'], coreHandle)]

/-- The reading behind the directives; there is one version at most, which begins with 1, and no
handle is explained twice. -/
def directives? (hasVersion : Bool) (handles : List (Text × Text)) :
    List Token → Option Reading
  | .version major :: toks =>
    if hasVersion || major ≠ 1 then none else directives? true handles toks
  | .handle name expansion :: toks =>
    if (handles.lookup name).isSome then none
    else directives? hasVersion ((name, expansion) :: handles) toks
  | .otherDirective :: toks => directives? hasVersion handles toks
  | toks => some ⟨toks, [], handles ++ standardHandles⟩

/-- The reading at the beginning of the document, and whether its beginning is marked. -/
def start? (toks : List Token) : Option (Reading × Bool) :=
  (directives? false [] toks).bind fun r =>
    if r.meets [.documentStart] then some (r.next, true)
    else if r.tokens.length = toks.length then some (r, false)
    else none

end Reading

/-- The node that the tokens of a stream are, if they are one document and there is something in
it; `none` on the outside if they are no document. -/
def Node.ofTokens? (toks : List Token) : Option (Option Node) :=
  if toks.isEmpty then some none
  else do
    let (r, isMarked) ← Reading.start? toks
    let n := 3 * toks.length + 3
    let stops : List Token := [.documentStart, .documentEnd]
    let (node, r) ←
      if isMarked && (r.tokens.isEmpty || r.meets stops) then some (Node.empty, r)
      else Reading.node? n .block r
    if r.tokens.all (· = .documentEnd) then some (some node) else none

end TableTypes.Yaml
