import TableTypes.Options
import TableTypes.Text.Search
import TableTypes.Text.Word

/-!
# Naming conventions

Names of tables and columns in camel, Pascal or snake case, and the identifiers that TypeScript
accepts.
-/

namespace TableTypes

open Text

/-! ### Camel and Pascal case -/

/-- Whether `c` separates the parts of a name. -/
def isSeparator (c : Char) : Bool :=
  c = '_' || c = '-'

/-- The name without its separators, with the character behind each run of them in upper case;
a newline stays what it is.  `raised` tells whether a separator stands before the text. -/
def joinParts (raised : Bool) : Text → Text
  | [] => []
  | c :: t =>
    if isSeparator c then joinParts true t
    else (if raised && c ≠ '\n' then upperChar c else [c]) ++ joinParts false t

/-- The text with its first letter in lower case; a letter in title case stays. -/
def lowerFirst : Text → Text
  | [] => []
  | c :: t => (if isTitle c then [c] else lowerChar c) ++ t

/-- The text with its first letter in upper case; a letter in title case stays. -/
def raiseFirst : Text → Text
  | [] => []
  | c :: t => (if isTitle c then [c] else upperChar c) ++ t

/-- The text with its first letter in upper case. -/
def capitalize : Text → Text
  | [] => []
  | c :: t => upperChar c ++ t

/-- The name in camel case. -/
def toCamelCase (name : Text) : Text :=
  lowerFirst (joinParts false name)

/-- The name in Pascal case. -/
def toPascalCase (name : Text) : Text :=
  raiseFirst (joinParts false name)

/-! ### Snake case -/

/-- The text with each run of characters outside words written as one space. -/
def spaceOut : Text → Text
  | [] => []
  | [c] => if isWord c then [c] else [' ']
  | c :: d :: t =>
    if isWord c then c :: spaceOut (d :: t)
    else if isWord d then ' ' :: spaceOut (d :: t)
    else spaceOut (d :: t)

/-- Whether `c` is an upper-case ASCII letter. -/
def isAsciiUpper (c : Char) : Bool :=
  'A' ≤ c && c ≤ 'Z'

/-- The words of a spaced text: cut at each space, and before each upper-case ASCII letter behind a
word character.  There is always at least one word. -/
def humps (before : Option Char) : Text → List Text
  | [] => [[]]
  | c :: t =>
    if c = ' ' then [] :: humps (some c) t
    else
      let more :=
        match humps (some c) t with
        | [] => [[c]]
        | w :: ws => (c :: w) :: ws
      if isAsciiUpper c && before.any isWord then [] :: more else more

/-- The name in snake case. -/
def toSnakeCase (name : Text) : Text :=
  join ['_'] ((humps none (spaceOut name)).map lower)

/-- The name written by a convention. -/
def Naming.apply (naming : Naming) (name : Text) : Text :=
  match naming with
  | camelCase => toCamelCase name
  | pascalCase => toPascalCase name
  | snakeCase => toSnakeCase name
  | preserve => name

/-! ### Identifiers -/

/-- The name without quotes of any kind and without blanks around it. -/
def dropQuotes (name : Text) : Text :=
  strip (name.filter fun c => c ≠ '\x60' && c ≠ '\'' && c ≠ '"')

/-- Whether an identifier may begin with `c`. -/
def isIdentifierStart (c : Char) : Bool :=
  isAsciiLetter c || c = '_' || c = '$'

/-- Whether `c` may stand in an identifier. -/
def isIdentifierChar (c : Char) : Bool :=
  isIdentifierStart c || isAsciiDigit c

/-- Whether the text is an identifier. -/
def isIdentifier : Text → Bool
  | [] => false
  | c :: t => isIdentifierStart c && t.all isIdentifierChar

/-- Whether the name can stand unquoted: it is an identifier, or one with a newline behind it. -/
def isPlainName (name : Text) : Bool :=
  isIdentifier name || (name.getLast? = some '\n' && isIdentifier name.dropLast)

/-- The name as an identifier: what an identifier cannot hold becomes an underscore, and one is put
in front of a digit. -/
def toIdentifier (name : Text) : Text :=
  match (dropQuotes name).map fun c => if isIdentifierChar c then c else '_' with
  | [] => ['_']
  | c :: t => if isAsciiDigit c then '_' :: c :: t else c :: t

end TableTypes
