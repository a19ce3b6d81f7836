import TableTypes.Gate.Token.Lexer
import TableTypes.Proofs.Scan.Compose

/-!
# Comments under the scan

The scan goes on by one character at a time and looks at the next one only.  All the same it marks
comments as a whole: where it stands in code, all of the text from `--` up to the next newline, or
from `/*` through the next `*/`, is marked as a comment at the depth in front of it, and code goes
on behind (`Spot.marks_leadingComment`).

So the scan is a walk over the text that looks ahead for the end of a comment and steps over it, and
that takes what is no comment character by character (`walk_eq_zipIdx_scan`).  The walk counts the
positions as it goes, and gives each one once.
-/

namespace TableTypes

open Text Token

/-! ### Whole comments -/

/-- The comment at the front of a text, if there is one, and what follows it.  The newline behind a
line comment is not a part of it, and a block comment that is not closed goes on to the end. -/
def leadingComment? : Text → Option (Text × Text)
  | '-' :: '-' :: t => some ('-' :: '-' :: t.takeWhile (· ≠ '\n'), dropLine t)
  | '/' :: '*' :: t =>
    match upTo? '*' '/' t with
    | some (u, r) => some ('/' :: '*' :: (u ++ ['*', '/']), r)
    | none => some ('/' :: '*' :: t, [])
  | _ => none

example : leadingComment? "/*/ (*/)".toList = some ("/*/ (*/".toList, [')']) := by decide

theorem eq_append_of_upTo? {a b : Char} {t u r : Text} (h : upTo? a b t = some (u, r)) :
    t = u ++ a :: b :: r := by
  fun_induction upTo? a b t generalizing u with
  | case1 => cases h
  | case2 => cases h
  | case3 c d t hcd =>
    obtain ⟨rfl, rfl⟩ := Prod.mk.inj (Option.some.inj h)
    simp only [Bool.and_eq_true, decide_eq_true_eq] at hcd
    rw [hcd.1, hcd.2]
    rfl
  | case4 c d t _ ih =>
    obtain ⟨⟨v, s⟩, hv, hr⟩ := Option.map_eq_some_iff.mp h
    obtain ⟨rfl, rfl⟩ := Prod.mk.inj hr
    rw [ih hv]
    rfl

theorem eq_append_of_leadingComment? {t u r : Text} (h : leadingComment? t = some (u, r)) :
    t = u ++ r ∧ u ≠ [] := by
  unfold leadingComment? at h
  split at h
  · rename_i s
    obtain ⟨rfl, rfl⟩ := Prod.mk.inj (Option.some.inj h)
    refine ⟨?_, List.cons_ne_nil _ _⟩
    rw [dropLine, List.cons_append, List.cons_append, List.takeWhile_append_dropWhile]
  · rename_i s
    split at h
    · rename_i v s' hv
      obtain ⟨rfl, rfl⟩ := Prod.mk.inj (Option.some.inj h)
      refine ⟨?_, List.cons_ne_nil _ _⟩
      rw [eq_append_of_upTo? hv]
      simp
    · obtain ⟨rfl, rfl⟩ := Prod.mk.inj (Option.some.inj h)
      exact ⟨(List.append_nil _).symm, List.cons_ne_nil _ _⟩
  · cases h

namespace Spot

variable {d : Int}

/-- A character of a comment leaves the depth as it is. -/
theorem marks_cons_comment {before : Option Char} {place p : Place} {c : Char} {t : Text}
    (h : place.step true before c (t.head?.or none) = (.comment, p)) :
    (Spot.mk before place d).marks true none (c :: t) =
      ⟨c, .comment, d⟩ :: (Spot.mk (some c) p d).marks true none t := by
  have hweight : d + Region.comment.weight c = d := Int.add_zero d
  rw [marks, mark, move, h, hweight]

/-- Inside a line comment everything up to the next newline is marked as a comment. -/
theorem marks_lineComment (t : Text) : ∀ before : Option Char,
    (Spot.mk before .lineComment d).marks true none t =
      (t.takeWhile (· ≠ '\n')).map (⟨·, .comment, d⟩) ++
        (Spot.mk ((t.takeWhile (· ≠ '\n')).getLast?.or before) .code d).marks true none
          (dropLine t) := by
  induction t with
  | nil => intro before; rfl
  | cons c t ih =>
    intro before
    by_cases hc : c = '\n'
    · -- A newline is code, whether it ends a comment or not.
      rw [hc]
      rfl
    · have hstep : Place.step true before c (t.head?.or none) .lineComment =
          (.comment, .lineComment) := if_neg hc
      have htake : (c :: t).takeWhile (· ≠ '\n') = c :: t.takeWhile (· ≠ '\n') :=
        List.takeWhile_cons_of_pos (decide_eq_true hc)
      have hdrop : dropLine (c :: t) = dropLine t :=
        List.dropWhile_cons_of_pos (decide_eq_true hc)
      rw [marks_cons_comment hstep, ih, htake, hdrop, Text.getLast?_cons_or]
      rfl

/-- Inside a block comment everything through the next `*/` is marked as a comment, or all the rest
if there is none. -/
theorem marks_block (t : Text) : ∀ before : Option Char,
    (Spot.mk before .block d).marks true none t =
      match upTo? '*' '/' t with
      | some (u, r) => (u ++ ['*', '/']).map (⟨·, .comment, d⟩) ++
          (Spot.mk (some '/') .code d).marks true none r
      | none => t.map (⟨·, .comment, d⟩) := by
  fun_induction upTo? '*' '/' t with
  | case1 => intro before; rfl
  | case2 c =>
    intro before
    have hstep : Place.step true before c none .block = (.comment, .block) := by
      simp [Place.step]
    rw [marks_cons_comment hstep]
    rfl
  | case3 c e t hce =>
    intro before
    simp only [Bool.and_eq_true, decide_eq_true_eq] at hce
    obtain ⟨rfl, rfl⟩ := hce
    rw [marks_cons_comment (p := .blockClosing) rfl, marks_cons_comment (p := .code) rfl]
    rfl
  | case4 c e t hce ih =>
    intro before
    have hstep : Place.step true before c (some e) .block = (.comment, .block) := by
      rw [Bool.and_eq_true, decide_eq_true_eq, decide_eq_true_eq] at hce
      simp [Place.step, hce]
    rw [marks_cons_comment hstep, ih]
    cases upTo? '*' '/' (e :: t) with
    | none => rfl
    | some ur => rfl

/-- **Comments are marked as a whole**, at the depth in front of them, and code goes on behind. -/
theorem marks_leadingComment {t u r : Text} (h : leadingComment? t = some (u, r))
    (before : Option Char) : (Spot.mk before .code d).marks true none t =
      u.map (⟨·, .comment, d⟩) ++ (Spot.mk u.getLast? .code d).marks true none r := by
  unfold leadingComment? at h
  split at h
  · rename_i s
    obtain ⟨rfl, rfl⟩ := Prod.mk.inj (Option.some.inj h)
    rw [marks_cons_comment (p := .lineComment) rfl,
      marks_cons_comment (p := .lineComment) rfl, marks_lineComment, List.getLast?_cons_cons,
      List.getLast?_cons]
    cases (s.takeWhile (· ≠ '\n')).getLast? <;> rfl
  · rename_i s
    rw [marks_cons_comment (p := .blockOpening) rfl, marks_cons_comment (p := .block) rfl,
      marks_block]
    split at h
    · rename_i v r' _
      obtain ⟨rfl, rfl⟩ := Prod.mk.inj (Option.some.inj h)
      have hlast : ('/' :: '*' :: (v ++ ['*', '/'])).getLast? = some '/' := by
        simp [List.getLast?_cons]
      rw [hlast]
      rfl
    · obtain ⟨rfl, rfl⟩ := Prod.mk.inj (Option.some.inj h)
      simp [marks]
  · cases h

end Spot

/-! ### The walk -/

/-- The quotes that a character of no comment leaves the text in.  A quote character behind a
backslash changes nothing, nor does a quote of another kind inside quotes. -/
def quotesBehind (before : Option Char) (c : Char) : Option Quote → Option Quote
  | none => if before = some '\\' then none else Quote.ofChar? c
  | some q => if before ≠ some '\\' ∧ Quote.ofChar? c = some q then none else some q

/-- The region of a text that is in no comment. -/
def Region.ofQuotes : Option Quote → Region
  | none => .code
  | some q => .quoted q

/-- The marks of a text with their positions.  The text follows the character `before` at position
`i`, inside `quotes` if these are some, at a depth.  A comment is gone over at once. -/
def walkFrom (comments : Bool) (i : Nat) (before : Option Char) (quotes : Option Quote)
    (depth : Int) : Text → List (Mark × Nat)
  | [] => []
  | c :: t =>
    match h : if comments && quotes.isNone then leadingComment? (c :: t) else none with
    | some (u, r) =>
      (u.map (⟨·, .comment, depth⟩)).zipIdx i ++
        walkFrom comments (i + u.length) u.getLast? none depth r
    | none =>
      let quotes := quotesBehind before c quotes
      let region := Region.ofQuotes quotes
      let depth := depth + region.weight c
      (⟨c, region, depth⟩, i) :: walkFrom comments (i + 1) (some c) quotes depth t
termination_by t => t.length
decreasing_by
  · split at h
    · obtain ⟨hu, hne⟩ := eq_append_of_leadingComment? h
      have := List.length_pos_iff.mpr hne
      rw [hu, List.length_append]
      omega
    · cases h
  · exact Nat.lt_succ_self _

/-- The marks of a whole text with their positions. -/
def walk (comments : Bool) (t : Text) : List (Mark × Nat) :=
  walkFrom comments 0 none none 0 t

/-- The place of the scan where the walk stands between two comments. -/
def Place.ofQuotes : Option Quote → Place
  | none => .code
  | some q => .quoted q

/-- Where no comment begins, the two characters in front do not open one. -/
theorem opensComment_of_leadingComment? {c : Char} {t : Text}
    (h : leadingComment? (c :: t) = none) : Spot.opensComment (some c) t.head? = false := by
  cases t with
  | nil => simp [Spot.opensComment]
  | cons e t =>
    by_contra hopen
    simp only [Spot.opensComment, List.head?_cons, Bool.not_eq_false, Bool.or_eq_true,
      Bool.and_eq_true, decide_eq_true_eq, Option.some.injEq] at hopen
    rcases hopen with ⟨rfl, rfl⟩ | ⟨rfl, rfl⟩
    · cases h
    · rw [leadingComment?] at h
      split at h <;> cases h

/-- A character in code that opens no comment is taken as where comments are not told apart. -/
theorem enter_of_opensComment {before : Option Char} {c : Char} {next : Option Char}
    (h : Spot.opensComment (some c) next = false) :
    Place.enter true before c next = Place.enter false before c none := by
  simp only [Spot.opensComment, Option.some.injEq, Bool.or_eq_false_iff] at h
  rw [Place.enter, Bool.true_and, Bool.true_and, h.1, h.2]
  rfl

theorem enter_false (before : Option Char) (c : Char) (next : Option Char) :
    Place.enter false before c next = (Region.ofQuotes (quotesBehind before c none),
      Place.ofQuotes (quotesBehind before c none)) := by
  rw [Place.enter, quotesBehind]
  by_cases hb : before = some '\\'
  · cases hq : Quote.ofChar? c <;> simp [hb, Region.ofQuotes, Place.ofQuotes]
  · cases hq : Quote.ofChar? c <;> simp [hb, Region.ofQuotes, Place.ofQuotes]

theorem step_quotedBehind (comments : Bool) (before : Option Char) (c : Char)
    (next : Option Char) (q : Quote) : Place.step comments before c next (.quoted q) =
      (Region.ofQuotes (quotesBehind before c (some q)),
        Place.ofQuotes (quotesBehind before c (some q))) := by
  have hiff : (c = q.char && before ≠ some '\\') = true ↔
      before ≠ some '\\' ∧ Quote.ofChar? c = some q := by
    rw [Bool.and_eq_true, decide_eq_true_eq, decide_eq_true_eq, Quote.ofChar?_eq_some_iff,
      and_comm, eq_comm]
  rw [Place.step, quotesBehind]
  by_cases hc : before ≠ some '\\' ∧ Quote.ofChar? c = some q
  · rw [if_pos hc, if_pos (hiff.mpr hc)]
    rfl
  · rw [if_neg hc, if_neg (mt hiff.mp hc)]
    rfl

/-- Where no comment begins, the scan and the walk take the same step. -/
theorem step_ofQuotes {comments : Bool} {before : Option Char} {c : Char} {t : Text}
    {quotes : Option Quote}
    (h : (if comments && quotes.isNone then leadingComment? (c :: t) else none) = none) :
    (Place.ofQuotes quotes).step comments before c t.head? =
      (Region.ofQuotes (quotesBehind before c quotes),
        Place.ofQuotes (quotesBehind before c quotes)) := by
  cases quotes with
  | some q => exact step_quotedBehind comments before c t.head? q
  | none =>
    cases comments with
    | false => exact enter_false before c t.head?
    | true =>
      have hopen := opensComment_of_leadingComment? h
      exact (enter_of_opensComment hopen).trans (enter_false before c none)

theorem walkFrom_eq (comments : Bool) (t : Text) (i : Nat) (before : Option Char)
    (quotes : Option Quote) (depth : Int) : walkFrom comments i before quotes depth t =
      ((Spot.mk before (.ofQuotes quotes) depth).marks comments none t).zipIdx i := by
  fun_induction walkFrom comments i before quotes depth t with
  | case1 => rfl
  | case2 i before quotes depth c t u r h ih =>
    split at h
    · rename_i hcode
      obtain ⟨rfl, hquotes⟩ := (Bool.and_eq_true _ _).mp hcode
      obtain rfl := Option.isNone_iff_eq_none.mp hquotes
      rw [Place.ofQuotes, Spot.marks_leadingComment h, List.zipIdx_append, List.length_map, ih]
      rfl
    · cases h
  | case3 i before quotes depth c t h quotes' region depth' ih =>
    have hstep : (Place.ofQuotes quotes).step comments before c t.head? =
        (region, .ofQuotes quotes') := step_ofQuotes h
    rw [Spot.marks, List.zipIdx_cons, Spot.mark, Spot.move, Option.or_none, hstep, ih]

/-- **The scan steps over comments.** -/
theorem walk_eq_zipIdx_scan (comments : Bool) (t : Text) :
    walk comments t = (scan comments t).zipIdx := by
  rw [walk, walkFrom_eq, scan_eq_marks]
  rfl

end TableTypes
