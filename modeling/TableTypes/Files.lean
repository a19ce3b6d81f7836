import TableTypes.Fault
import TableTypes.Limits
import TableTypes.Text.Case
import TableTypes.Text.Clean
import TableTypes.Text.Encoding
import TableTypes.Gate

/-!
# Files

A file tree holds files and directories under relative paths; every directory on the way to an
entry exists.  SQL files are read from it with checks on the path, on the size and on the content.
-/

namespace TableTypes

open Text

/-! ### File trees -/

/-- An entry of a file tree. -/
inductive FileEntry where
  | file (bytes : List UInt8)
  | directory
  deriving DecidableEq, Repr

/-- The entries of a tree with their paths. -/
abbrev FileTree := List (Text × FileEntry)

/-- The names on a path, without the current directory and without empty ones. -/
def pathNames (path : Text) : List Text :=
  (splitOnChar '/' path).filter fun name => !name.isEmpty && name ≠ ['.']

/-- The greatest number of bytes of a name. -/
def maxNameSize : Nat := 255

/-- The greatest number of bytes of a path. -/
def maxPathSize : Nat := 4095

namespace FileTree

/-- The entry that the names lead to from the root of the tree.  The root and every directory on the
way to an entry are directories. -/
def resolve? (tree : FileTree) (names : List Text) : Option FileEntry :=
  if names.isEmpty then some .directory
  else
    match tree.find? fun e => pathNames e.1 = names with
    | some e => some e.2
    | none =>
      if tree.any fun e => names.isPrefixOf (pathNames e.1) then some .directory else none

/-- The place that names lead to from the place `here`.  A place is given by its names, the last
first, or by none if it lies outside of the tree, where steps up lead to directories and nothing
else is known. -/
def walk (tree : FileTree) (here : Option (List Text)) :
    List Text → Except OpenFault (Option (List Text))
  | [] => .ok here
  | name :: names =>
    if name = "..".toList then walk tree (here.bind fun before => before.tail?) names
    else if maxNameSize < utf8Size name then .error .nameTooLong
    else
      match here.map (name :: ·) with
      | none => .error .missing
      | some there =>
        match tree.resolve? there.reverse with
        | none => .error .missing
        | some (.file _) => if names.isEmpty then .ok (some there) else .error .notDirectory
        | some .directory => walk tree (some there) names

/-- The place that a path leads to. -/
def locate (tree : FileTree) (path : Text) : Except OpenFault (Option (List Text)) :=
  if path.isEmpty || path.contains '\x00' then .error .missing
  else if maxPathSize < utf8Size path then .error .nameTooLong
  else tree.walk (if path.head? = some '/' then none else some []) (pathNames path)

/-- The entry at a path.  A path whose last name is empty or the current directory leads to a
directory only. -/
def entryAt (tree : FileTree) (path : Text) : Except OpenFault FileEntry := do
  match (← tree.locate path).bind fun place => tree.resolve? place.reverse with
  | some (.file bytes) =>
    if [[], ['.']].contains ((splitOnChar '/' path).getLast?.getD []) then throw .notDirectory
    return .file bytes
  | _ => return .directory

/-- The entry at a path, if there is one. -/
def at? (tree : FileTree) (path : Text) : Option FileEntry :=
  (tree.entryAt path).toOption

/-- The names in the directory at a path, if there is one. -/
def list? (tree : FileTree) (path : Text) : Option (List Text) :=
  if tree.at? path = some .directory then
    (tree.locate path).toOption.map fun place =>
      match place with
      | none => []
      | some before =>
        (tree.filterMap fun e =>
          let names := pathNames e.1
          if before.reverse.isPrefixOf names then names[before.length]? else none).eraseDups
  else none

end FileTree

/-! ### Paths -/

/-- A path as it is given: a text, or another value, which is shown as a text. -/
inductive PathInput where
  | path (t : Text)
  | other (shown : Text)
  deriving DecidableEq, Repr

/-- The text that a path is shown as. -/
def PathInput.shown : PathInput → Text
  | path t => t
  | other t => t

/-- The entry of a tree that a path leads to. -/
def PathInput.entry? (tree : FileTree) : PathInput → Option FileEntry
  | path t => tree.at? t
  | other _ => none

/-- The parts of paths, in lower case and with slashes, that lead to system directories. -/
def restrictedPaths : List Text :=
  ["/etc/", "/proc/", "/sys/", "/dev/", "c:/windows/", "c:/system32/", "/system/",
    "/library/"].map String.toList

/-- The path in lower case with slashes for backslashes. -/
def normalPath (path : Text) : Text :=
  (lower path).map fun c => if c = '\\' then '/' else c

/-- The greatest length of a path. -/
def maxPathLength : Nat := 260

/-- Whether `c` may not stand in a path. -/
def isInvalidInPath (c : Char) : Bool :=
  "<>\"|?*".toList.contains c

/-- Why a path is not safe. -/
def pathFault? (path : Text) : Option FileCause :=
  if path.isEmpty then some .emptyPath
  else if path.contains '\x00' then some .nullInPath
  else if (splitOnChar '/' path).contains "..".toList then some .pathTraversal
  else if restrictedPaths.any (occursIn · (normalPath path)) then some .restrictedPath
  else if maxPathLength < path.length then some .pathTooLong
  else if path.any isInvalidInPath then some .invalidPathCharacters
  else none

/-- Checks a path. -/
def checkPath : PathInput → Except FileError Unit
  | .other t => .error ⟨.emptyPath, t⟩
  | .path t =>
    match pathFault? t with
    | some cause => .error ⟨cause, t⟩
    | none => .ok ()

/-! ### Contents -/

/-- Checks the content of a file: it is not empty and has few null characters. -/
def checkContent (content path : Text) : Except FileError Unit :=
  if content.isEmpty then .error ⟨.emptyFile, path⟩
  else if exceedsOnePercent (· = '\x00') content then .error ⟨.binary, path⟩
  else .ok ()

/-- The text of bytes in an encoding, with newlines only. -/
def readBytes (encoding : Encoding) (bytes : List UInt8) : Except DecodeFault Text :=
  (decode encoding bytes).map unifyNewlines

/-- The text of the SQL file at a path.  The path is checked for safety if `safe` is set. -/
def FileTree.readSql (tree : FileTree) (path : PathInput) (l : Limits) (safe : Bool)
    (encoding : Encoding) : Except FileError Text := do
  if safe then checkPath path
  match path.entry? tree with
  | none => throw ⟨.missing, path.shown⟩
  | some .directory => throw ⟨.notFile, path.shown⟩
  | some (.file bytes) =>
    l.checkFileSize (some bytes.length) path.shown
    match readBytes encoding bytes with
    | .error fault => throw ⟨.undecodable encoding.name fault.message, path.shown⟩
    | .ok content =>
      checkContent content path.shown
      return content

/-- The texts of the SQL files at the paths, of which there must be one; the first fault counts. -/
def FileTree.readSqlAll (tree : FileTree) (paths : List PathInput) (l : Limits) :
    Except FileError (List Text) :=
  if paths.isEmpty then .error ⟨.noPaths, []⟩
  else paths.mapM fun path => tree.readSql path l true .utf8

/-- Whether a name is that of an SQL file. -/
def isSqlName (name : Text) : Bool :=
  endsWith ".sql".toList (lower name) || endsWith ".ddl".toList (lower name)

/-- The path of a name in the directory at a path. -/
def joinPath (directory name : Text) : Text :=
  if directory.getLast? = some '/' then directory ++ name else directory ++ ['/'] ++ name

/-- The paths of the SQL files in the directory at a path, in the order of their characters. -/
def FileTree.sqlFiles (tree : FileTree) (path : Text) : List Text :=
  ((((tree.list? path).getD []).filter isSqlName).map (joinPath path)).mergeSort precedes

end TableTypes
