import TableTypes.Config.Yaml.Node
import TableTypes.Options.Setting
import TableTypes.Text.Case

/-!
# YAML

The settings that a YAML document holds: scalars of the types that every document knows, lists, and
mappings.  A key that is repeated keeps its place and has the last of its values.  Under the key
`<<` stand mappings whose entries are taken over.
-/

namespace TableTypes.Yaml

open Text

/-! ### Scalars -/

/-- The decimal number that a scalar spells which is tagged as one; an integer will do. -/
def decimalSetting? (text : Text) : Option Setting :=
  if isNotFinite text then some .notFinite
  else
    match decimal? text, integer? text with
    | some (digits, exponent), _ => some (.decimal ⟨digits, exponent⟩)
    | none, some n => some (.decimal ⟨n, 0⟩)
    | none, none => none

/-- The truth value that a scalar spells, in any mixture of cases. -/
def boolSetting? (text : Text) : Option Setting :=
  if trueWords.contains (lower text) then some (.bool true)
  else if falseWords.contains (lower text) then some (.bool false)
  else none

/-- The value of a scalar; `none` if its tag is no type of scalars. -/
def scalarSetting? (tag text : Text) : Option Setting :=
  if tag = coreTag "str" then some (.text text)
  else if tag = coreTag "null" then some .null
  else if tag = coreTag "bool" then boolSetting? text
  else if tag = coreTag "int" then (integer? text).map .int
  else if tag = coreTag "float" then decimalSetting? text
  else if tag = coreTag "timestamp" || tag = coreTag "binary" then some .other
  else none

/-! ### Mappings -/

/-- What a key is shown as that is no text; `none` if it can be no key. -/
def shownKey? : Setting → Option Text
  | .null => some "None".toList
  | .bool b => some (if b then ['1'] else ['0'])
  | .int n => some (ofInt n)
  | .decimal d => some d.shown
  | .notFinite => some "inf".toList
  | .other => some "date".toList
  | _ => none

/-- The entry of a key and a value; `none` if the key can be none. -/
def entry? (key value : Setting) : Option (Text × Setting) :=
  match key with
  | .text t => some (t, value)
  | key => (shownKey? key).map (·, .misplaced)

/-- The entries with one more.  A text and another value are different keys even if they are shown
alike. -/
def insertEntry (e : Text × Setting) : List (Text × Setting) → List (Text × Setting)
  | [] => [e]
  | f :: fs =>
    if f.1 = e.1 && f.2.isMisplaced = e.2.isMisplaced then (f.1, e.2) :: fs
    else f :: insertEntry e fs

/-- The entries of the mappings in a list, those of the last first. -/
def mergedEntries? : List Setting → Option (List (Text × Setting))
  | [] => some []
  | .mapping entries :: more => (mergedEntries? more).map (· ++ entries)
  | _ :: _ => none

/-- The entries that are taken over from a value. -/
def takenEntries? : Setting → Option (List (Text × Setting))
  | .mapping entries => some entries
  | .list items => mergedEntries? items
  | _ => none

/-! ### Nodes -/

/-- Whether the node is the key under which mappings stand whose entries are taken over. -/
def Node.isMergeKey : Node → Bool
  | .scalar tag _ => tag = coreTag "merge"
  | _ => false

/-- Whether the tag is that of a list of pairs. -/
def isPairsTag (tag : Text) : Bool :=
  tag = coreTag "omap" || tag = coreTag "pairs"

/-- Whether the node is a mapping with one entry. -/
def Node.isPair : Node → Bool
  | .mapping _ [_] => true
  | _ => false

mutual

/-- The value of a node, if it has one. -/
def Node.setting? : Node → Option Setting
  | .scalar tag text => scalarSetting? tag text
  | .sequence tag items =>
    if tag = coreTag "seq" || (isPairsTag tag && items.all Node.isPair) then
      (settings? items).map .list
    else none
  | .mapping tag entries =>
    (entries? entries).bind fun r =>
      if tag = coreTag "map" then
        some (.mapping ((r.1 ++ r.2).foldl (fun m e => insertEntry e m) []))
      else if tag = coreTag "set" then some .other
      else none
  | .enclosing => some .other

/-- The values of nodes. -/
def settings? : List Node → Option (List Setting)
  | [] => some []
  | node :: nodes => do
    let s ← node.setting?
    let more ← settings? nodes
    some (s :: more)

/-- The entries that are taken over, and those of the mapping itself. -/
def entries? : List (Node × Node) → Option (List (Text × Setting) × List (Text × Setting))
  | [] => some ([], [])
  | e :: more => do
    let own ← entrySettings? e
    let rest ← entries? more
    some (own.1 ++ rest.1, own.2 ++ rest.2)

/-- The entries that an entry stands for: those that are taken over, and those of the mapping. -/
def entrySettings? : Node × Node → Option (List (Text × Setting) × List (Text × Setting))
  | (key, value) => do
    let s ← value.setting?
    if key.isMergeKey then (takenEntries? s).map (·, [])
    else
      match key with
      | .scalar tag text =>
        let key ← if tag = coreTag "value" then some (.text text) else scalarSetting? tag text
        let e ← entry? key s
        some ([], [e])
      | _ => none

end

/-! ### Documents -/

/-- Whether `c` may stand in a document. -/
def isDocumentChar (c : Char) : Bool :=
  let n := c.toNat
  n = 0x09 || n = 0x0a || n = 0x0d || (0x20 ≤ n && n ≤ 0x7e) || n = 0x85 ||
    (0xa0 ≤ n && n ≤ 0xfffd) || 0x10000 ≤ n

/-- The value of a document, if it can be read.  A document without a node has the value null. -/
def read? (t : Text) : Option Setting :=
  if !t.all isDocumentChar then none
  else
    match (tokens? t).bind Node.ofTokens? with
    | none => none
    | some none => some .null
    | some (some node) => node.setting?

end TableTypes.Yaml
