import TableTypes.Scan

/-!
# Matching delimiters

Where the parenthesis that opens a text is closed, and whether a whole text closes what it opens.
-/

namespace TableTypes

/-- The position of the parenthesis that closes the one at the front of the text. -/
def closing? : Text → Option Nat
  | '(' :: t => (scan true ('(' :: t)).findIdx? fun m => m.char = ')' && m.isTopLevel
  | _ => none

/-- The position of the parenthesis that closes the one at position `start`. -/
def matchingParen? (t : Text) (start : Int) : Option Nat :=
  if start < 0 then none
  else (closing? (t.drop start.toNat)).map (start.toNat + ·)

/-- Whether a scan that ends with this mark has left a quote open. -/
def Mark.leavesQuote (m : Mark) : Bool :=
  match m.region with
  | .quoted _ => true
  | _ => false

/-- Whether the marks close every quote and every parenthesis they open, and no other. -/
def isBalanced (ms : List Mark) : Bool :=
  ms.all (fun m => 0 ≤ m.depth) &&
    match ms.getLast? with
    | none => true
    | some m => m.depth = 0 && !m.leavesQuote

/-- Whether the text has a parenthesis or a quote without its partner. -/
def hasUnmatchedDelimiters (t : Text) : Bool :=
  !isBalanced (scan true t)

end TableTypes
