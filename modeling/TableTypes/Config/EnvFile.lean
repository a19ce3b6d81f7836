import TableTypes.OrderedMap
import TableTypes.Text.Blank

/-!
# Environment files

A file of variables, one on a line as `NAME=value`:

* `export` in front of the name, blanks around the equals sign and lines that begin with `#` are
  allowed;
* a value is plain up to the end of the line or to a `#` behind a blank, or it is in single or
  double quotes, with escapes;
* `${NAME}` and `${NAME:-default}` stand for the value of another variable;
* a line that cannot be read is left out, and of several lines for one name the last counts.
-/

namespace TableTypes.EnvFile

open Text

/-- A variable with its value; a name alone has none. -/
structure Binding where
  name : Text
  value : Option Text
  deriving DecidableEq, Repr

/-! ### Values -/

/-- Whether `c` is a blank other than the end of a line. -/
def isGap (c : Char) : Bool :=
  isBlank c && c ≠ '\n' && c ≠ '\r'

/-- Whether `c` ends a line. -/
def isLineEnd (c : Char) : Bool :=
  c = '\n' || c = '\r'

/-- The text from the end of its line. -/
def dropLine (t : Text) : Text :=
  t.dropWhile (!isLineEnd ·)

/-- The text up to the quote `q` that closes it, and what follows.  A backslash takes the character
after it along. -/
def quoted? (q : Char) : Text → Option (Text × Text)
  | [] => none
  | [c] => if c = q then some ([], []) else none
  | c :: d :: t =>
    if c = q then some ([], d :: t)
    else if c = '\\' then (quoted? q t).map fun r => (c :: d :: r.1, r.2)
    else (quoted? q (d :: t)).map fun r => (c :: r.1, r.2)

/-- The characters that a letter behind a backslash stands for, between quotes `q`. -/
def escapes (q : Char) : List (Char × Char) :=
  [('\\', '\\'), ('\'', '\'')] ++
    if q = '"' then
      [('"', '"'), ('a', '\x07'), ('b', '\x08'), ('f', '\x0c'), ('n', '\n'), ('r', '\r'),
        ('t', '\t'), ('v', '\x0b')]
    else []

/-- The text that is spelled with escapes between quotes `q`. -/
def unescaped (q : Char) : Text → Text
  | [] => []
  | [c] => [c]
  | c :: d :: t =>
    if c = '\\' then
      match (escapes q).lookup d with
      | some e => e :: unescaped q t
      | none => c :: unescaped q (d :: t)
    else c :: unescaped q (d :: t)

/-- The plain value that a line spells: up to a `#` behind a blank, without blanks at its ends. -/
def plainValue (t : Text) : Text :=
  strip (upToComment false t)
where
  upToComment (gap : Bool) : Text → Text
    | [] => []
    | c :: t => if c = '#' && gap then [] else c :: upToComment (isBlank c) t

/-- The value behind an equals sign, and what follows it. -/
def value? (t : Text) : Option (Text × Text) :=
  match t.dropWhile isGap with
  | [] => some ([], [])
  | c :: r =>
    if c = '\'' || c = '"' then (quoted? c r).map fun r => (unescaped c r.1, r.2)
    else some (plainValue (t.takeWhile (!isLineEnd ·)), dropLine (c :: r))

/-! ### Lines -/

/-- The name at the front of the text, and what follows it. -/
def name? : Text → Option (Text × Text)
  | '\'' :: t =>
    match t.takeWhile (· ≠ '\''), t.dropWhile (· ≠ '\'') with
    | c :: name, _ :: rest => some (c :: name, rest)
    | _, _ => none
  | t =>
    let isPart (c : Char) := c ≠ '=' && c ≠ '#' && !isBlank c
    match t.takeWhile isPart with
    | [] => none
    | name => some (name, t.dropWhile isPart)

/-- What follows the word `export` and blanks, if they stand at the front of the text. -/
def skipExport (t : Text) : Text :=
  match after? "export".toList t with
  | some (c :: r) => if isGap c then r.dropWhile isGap else t
  | _ => t

/-- Whether the rest of the line holds at most a comment. -/
def endsLine (t : Text) : Bool :=
  (t.dropWhile isGap).head?.all fun c => c = '#' || isLineEnd c

/-- What follows the rest of the line. -/
def nextLine (t : Text) : Text :=
  (dropLine t).tail

/-- The variable at the front of a text that begins with no blank, if there is one, and what follows
its line. -/
def binding (t : Text) : Option Binding × Text :=
  match name? (skipExport t) with
  | none => (none, nextLine (skipExport t))
  | some (name, r) =>
    match r.dropWhile isGap with
    | '=' :: r =>
      match value? r with
      | none => (none, nextLine r)
      | some (value, rest) =>
        (if endsLine rest then some ⟨name, some value⟩ else none, nextLine rest)
    | r => (if endsLine r then some ⟨name, none⟩ else none, nextLine r)

/-- The variables of a text in at most `n` lines. -/
def bindingsUpTo : Nat → Text → List Binding
  | 0, _ => []
  | n + 1, t =>
    match dropBlanks t with
    | [] => []
    | c :: r =>
      let line := binding (c :: r)
      line.1.toList ++ bindingsUpTo n line.2

/-- The variables of a text in order; a byte order mark at its start is no part of it. -/
def bindings (t : Text) : List Binding :=
  bindingsUpTo (t.length + 1) ((after? ['\ufeff'] t).getD t)

/-! ### References to variables -/

/-- A reference at the front of the text: its name, its default, and what follows it. -/
def reference? (t : Text) : Option (Text × Option Text × Text) := do
  let r ← after? ['$', '\x7b'] t
  let isName (c : Char) := c ≠ '\x7d' && c ≠ ':'
  let name := r.takeWhile isName
  match r.dropWhile isName with
  | '\x7d' :: rest => some (name, none, rest)
  | ':' :: '-' :: r =>
    match r.dropWhile (· ≠ '\x7d') with
    | _ :: rest => some (name, some (r.takeWhile (· ≠ '\x7d')), rest)
    | [] => none
  | _ => none

/-- The text with its references replaced, `valueOf` giving the value of a variable that is known,
after `skip` characters are left out. -/
def resolveFrom (valueOf : Text → Option Text) : Nat → Text → Text
  | _, [] => []
  | skip + 1, _ :: t => resolveFrom valueOf skip t
  | 0, c :: t =>
    match reference? (c :: t) with
    | some (name, default, rest) =>
      ((valueOf name <|> default).getD []) ++ resolveFrom valueOf (t.length - rest.length) t
    | none => c :: resolveFrom valueOf 0 t

/-- The variables of a text with their values.  A reference means a variable of the environment, or
else one that stands before it in the text. -/
def read (environment : OrderedMap Text) (t : Text) : OrderedMap (Option Text) :=
  (bindings t).foldl (fun known b =>
    let valueOf (name : Text) : Option Text :=
      OrderedMap.get? name environment <|> (OrderedMap.get? name known).map (·.getD [])
    OrderedMap.insert b.name (b.value.map (resolveFrom valueOf 0)) known) []

end TableTypes.EnvFile
