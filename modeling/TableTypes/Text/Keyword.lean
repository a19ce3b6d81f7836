import TableTypes.Text.Search
import TableTypes.Text.Word

/-!
# Keywords

A keyword is written here in lower case and read in any mixture of cases.  Besides its two ASCII
forms, an `i` is also read from `İ` and `ı`, an `s` from `ſ` and a `k` from the Kelvin sign, the
characters that share their case with an ASCII letter.  The words of a phrase are separated by
blanks.
-/

namespace TableTypes.Text

/-- Whether `c` is read as the keyword character `k`. -/
def matchesLetter (k c : Char) : Bool :=
  c = k || c.toLower = k || (k = 'i' && (c = '\u0130' || c = '\u0131')) ||
    (k = 's' && c = '\u017f') || (k = 'k' && c = '\u212a')

/-- What follows the keyword at the front of the text, when it stands there. -/
def keyword? : Text → Text → Option Text
  | [], t => some t
  | _ :: _, [] => none
  | k :: ks, c :: t => if matchesLetter k c then keyword? ks t else none

/-- What follows the phrase at the front of the text: its words in order, with blanks between
them. -/
def phrase? : List Text → Text → Option Text
  | [], t => some t
  | [w], t => keyword? w t
  | w :: ws, t => (keyword? w t).bind fun r => (dropBlanks1? r).bind (phrase? ws)

/-- What follows the phrase at the front of the text, when its last word ends there. -/
def wholePhrase? (ws : List Text) (t : Text) : Option Text :=
  (phrase? ws t).filter atWordEnd

/-- What follows one of the phrases at the front of the text, the first that stands there as
whole words. -/
def anyPhrase? (phrases : List (List Text)) (t : Text) : Option Text :=
  phrases.findSome? (wholePhrase? · t)

/-- Whether the phrase occurs in the text as whole words. -/
def hasPhrase (ws : List Text) (t : Text) : Bool :=
  (find? (fun before s => if atWordStart before then wholePhrase? ws s else none) t).isSome

end TableTypes.Text
