import TableTypes.Scan.Mask
import TableTypes.Text.Keyword

/-!
# Default values

The value behind `DEFAULT` goes on over quoted text and parentheses.  It ends at a blank outside
them behind which another clause or nothing follows, and behind the parenthesis that closes its
first one when a clause or nothing follows there.  An `ON UPDATE` behind such a blank is taken along
with one word.
-/

namespace TableTypes

open Text

/-- The clauses that may follow a default value. -/
def clausePhrases : List (List Text) :=
  [["comment".toList], ["not".toList, "null".toList], ["null".toList],
    ["primary".toList, "key".toList], ["unique".toList], ["auto_increment".toList]]

/-- Whether another clause, a comma or nothing stands at the front of the text. -/
def startsClause (t : Text) : Bool :=
  t.isEmpty || t.head? = some ',' || clausePhrases.any fun ws => (phrase? ws t).isSome

/-- What an `ON UPDATE` clause at the front of the text adds to the value. -/
def onUpdate (t : Text) : Text :=
  match (phrase? ["on".toList, "update".toList] t).bind dropBlanks1? with
  | none => []
  | some r =>
    match r.takeWhile (!isBlank ·) with
    | [] => []
    | w => " ON UPDATE ".toList ++ w

/-- The default value at the front of the text.  `before` is the character before it, `quote` the
quote it stands in, `depth` the number of parentheses that are open, and `opened` tells whether the
value has one already. -/
def defaultRun (before : Char) (quote : Option Char) (depth : Int) (opened : Bool) : Text → Text
  | [] => []
  | c :: t =>
    match quote with
    | some q =>
      c :: defaultRun c (if c = q && before ≠ '\\' then none else quote) depth
        (opened || c = '(') t
    | none =>
      if c = '"' || c = '\'' then c :: defaultRun c (some c) depth opened t
      else if c = '(' then c :: defaultRun c none (depth + 1) true t
      else if c = ')' then
        if depth = 1 && opened && startsClause (strip t) then [c]
        else c :: defaultRun c none (depth - 1) opened t
      else if depth = 0 && isBlank c then
        let remaining := strip (c :: t)
        if startsClause remaining then []
        else if (phrase? ["on".toList, "update".toList] remaining).isSome then onUpdate remaining
        else c :: defaultRun c none depth opened t
      else c :: defaultRun c none depth opened t

/-- The value without the pair of equal quotes around it, unless there is a space between them. -/
def unquoteSimple (t : Text) : Text :=
  match t with
  | q :: c :: rest =>
    if (q = '"' || q = '\'') && (c :: rest).getLast? = some q &&
        !(c :: rest).dropLast.contains ' ' then
      (c :: rest).dropLast
    else t
  | _ => t

/-- The text behind the first `DEFAULT` that stands outside quotes. -/
def afterDefault? (attributes : Text) : Option Text :=
  (find? (fun before s =>
      if atWordStart before then (keyword? "default".toList s).bind dropBlanks1? else none)
    (maskQuoted attributes)).map (suffixLike attributes)

/-- The default value among the attributes of a column. -/
def defaultValue? (attributes : Text) : Option Text :=
  (afterDefault? attributes).map fun t => unquoteSimple (strip (defaultRun ' ' none 0 false t))

end TableTypes
