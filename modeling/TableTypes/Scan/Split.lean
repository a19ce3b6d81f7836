import TableTypes.Scan
import TableTypes.Text.Blank

/-!
# Splitting at the top level

A text is cut at the separators that stand in code outside all parentheses.  Each part is written
without its comments, a run of which counts as one space, and without the blanks around it.  Parts
between separators may be empty; an empty part behind the last separator is no part.
-/

namespace TableTypes

/-- The runs of marks between those that satisfy `p`; there is always at least one run. -/
def cutMarks (p : Mark → Bool) : List Mark → List (List Mark)
  | [] => [[]]
  | m :: ms =>
    if p m then [] :: cutMarks p ms
    else
      match cutMarks p ms with
      | [] => [[m]]
      | run :: runs => (m :: run) :: runs

/-- The text of the marks, with each run of comment marks written as one space. -/
def uncomment : List Mark → Text
  | [] => []
  | m :: ms =>
    if m.isComment then
      if (ms.head?.map Mark.isComment).getD false then uncomment ms else ' ' :: uncomment ms
    else m.char :: uncomment ms

/-- The list without an empty text at its end. -/
def dropEmptyLast : List Text → List Text
  | [] => []
  | [p] => if p.isEmpty then [] else [p]
  | p :: q :: ps => p :: dropEmptyLast (q :: ps)

/-- The parts of a text between the separators outside quotes, comments and parentheses. -/
def splitTopLevel (isSeparator : Char → Bool) (t : Text) : List Text :=
  dropEmptyLast
    ((cutMarks (fun m => isSeparator m.char && m.isTopLevel) (scan true t)).map
      fun run => (uncomment run).strip)

/-- The parts of a text between its top-level commas. -/
def splitCommas (t : Text) : List Text :=
  splitTopLevel (· = ',') t

end TableTypes
