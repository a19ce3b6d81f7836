import TableTypes.Text.Basic

/-!
# Searching and repeating

A *matcher* looks at the front of a text and returns what is left after it.  The functions here
apply a matcher at every position from the left: `find?` stops at the first success, `findAll`
goes on behind each success, `replaceAll` writes something else in its place, and `many` repeats a
matcher from where it stopped.  A matcher that has to know what stands before it is given that
character.
-/

namespace TableTypes.Text

variable {α : Type}

/-! ### The first match -/

/-- Every suffix of a text, the longest first, with the character before it. -/
def suffixes (before : Option Char) : Text → List (Option Char × Text)
  | [] => [(before, [])]
  | c :: t => (before, c :: t) :: suffixes (some c) t

/-- The result of `m` at the leftmost position where it succeeds. -/
def find? (m : Option Char → Text → Option α) (t : Text) : Option α :=
  (suffixes none t).findSome? fun s => m s.1 s.2

/-! ### All matches -/

/-- The matches of `m` from left to right, none overlapping the one before it, after `skip`
characters are passed over. -/
def findAllFrom (m : Option Char → Text → Option (α × Text)) : Nat → Option Char → Text → List α
  | _, _, [] => []
  | skip + 1, _, c :: t => findAllFrom m skip (some c) t
  | 0, before, c :: t =>
    match m before (c :: t) with
    | some (a, rest) => a :: findAllFrom m (t.length - rest.length) (some c) t
    | none => findAllFrom m 0 (some c) t

/-- The matches of `m` in a text from left to right, none overlapping the one before it. -/
def findAll (m : Option Char → Text → Option (α × Text)) (t : Text) : List α :=
  findAllFrom m 0 none t

/-! ### Replacement -/

/-- The text with every match of `m` written as `new`, after `skip` characters are left out. -/
def replaceFrom (m : Text → Option Text) (new : Text) : Nat → Text → Text
  | _, [] => []
  | skip + 1, _ :: t => replaceFrom m new skip t
  | 0, c :: t =>
    match m (c :: t) with
    | some rest => new ++ replaceFrom m new (t.length - rest.length) t
    | none => c :: replaceFrom m new 0 t

/-- The text with every match of `m`, from the left, written as `new`. -/
def replaceAll (m : Text → Option Text) (new t : Text) : Text :=
  replaceFrom m new 0 t

/-- The text with every occurrence of the literal `old`, from the left, written as `new`. -/
def replace (old new t : Text) : Text :=
  replaceAll (after? old) new t

/-! ### Repetition -/

/-- At most `n` repetitions of `m`, each of which must shorten the text. -/
def manyUpTo (m : Text → Option (α × Text)) : Nat → Text → List α × Text
  | 0, t => ([], t)
  | n + 1, t =>
    match m t with
    | none => ([], t)
    | some (a, rest) =>
      if rest.length < t.length then
        let more := manyUpTo m n rest
        (a :: more.1, more.2)
      else ([], t)

/-- The results of `m` repeated as often as it succeeds, and the text that is left. -/
def many (m : Text → Option (α × Text)) (t : Text) : List α × Text :=
  manyUpTo m t.length t

end TableTypes.Text
