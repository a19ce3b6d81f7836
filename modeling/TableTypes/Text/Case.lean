import TableTypes.Text.CaseTable

/-!
# Letter case

`lower` and `upper` are the full case mappings of Unicode: a letter may change into several
characters, and a capital sigma becomes the final form `ς` behind a letter when no letter follows.
-/

namespace TableTypes.Text

/-- The upper case of one character. -/
def upperChar (c : Char) : Text :=
  if c.toNat < 0x80 then [c.toUpper]
  else
    match expansion? c.toNat upperExpansions with
    | some ns => ns.map Char.ofNat
    | none => [Char.ofNat (shiftBy c.toNat upperRuns)]

/-- The lower case of one character away from its context. -/
def lowerChar (c : Char) : Text :=
  if c.toNat < 0x80 then [c.toLower]
  else
    match expansion? c.toNat lowerExpansions with
    | some ns => ns.map Char.ofNat
    | none => [Char.ofNat (shiftBy c.toNat lowerRuns)]

/-- Whether `c` is passed over when the context of a sigma is looked at. -/
def isCaseIgnorable (c : Char) : Bool :=
  inRanges c.toNat caseIgnorableRanges

/-- Whether `c` has a case. -/
def isCased (c : Char) : Bool :=
  inRanges c.toNat casedRanges

/-- Whether the first character of `t` that is not ignorable has a case. -/
def meetsCased (t : Text) : Bool :=
  ((t.dropWhile isCaseIgnorable).head?.map isCased).getD false

/-- The lower case of a text that stands behind the characters `before`, the nearest first. -/
def lowerAfter : Text → Text → Text
  | _, [] => []
  | before, c :: t =>
    (if c = 'Σ' then [if meetsCased before && !meetsCased t then 'ς' else 'σ']
      else lowerChar c) ++ lowerAfter (c :: before) t

/-- The lower case of a text. -/
def lower (t : Text) : Text :=
  lowerAfter [] t

/-- The upper case of a text. -/
def upper (t : Text) : Text :=
  t.flatMap upperChar

/-- Whether `c` is a letter in title case, such as `ǅ`. -/
def isTitle (c : Char) : Bool :=
  inRanges c.toNat titleRanges

end TableTypes.Text
