import TableTypes.Proofs.Scan.Delimiters
import TableTypes.Proofs.Text.Clean
import TableTypes.Proofs.Text.Reader
import TableTypes.Statement

/-!
# Texts made of statements

A `CreateTable` is a statement `CREATE TABLE name (body);` with an arbitrary closed body, a `Gap` is
what may stand around statements: blanks and comments.  `Script.text` writes statements and gaps one
after the other, `Script.statements` says what there is to be read from it.
-/

namespace TableTypes

open Text

/-! ### Gaps -/

/-- A piece of the text between two statements. -/
inductive Filler where
  | space
  | tab
  | newline
  /-- The comment from `--` to the end of the line. -/
  | line (t : Text)
  /-- The comment between `/*` and `*/`. -/
  | block (t : Text)
  deriving DecidableEq, Repr

namespace Filler

/-- The piece as it is written. -/
def text : Filler → Text
  | space => [' ']
  | tab => ['\t']
  | newline => ['\n']
  | line t => ['-', '-'] ++ (t ++ ['\n'])
  | block t => ['/', '*'] ++ (t ++ ['*', '/'])

/-- Whether a comment ends where it is meant to and is left alone by cleaning. -/
def isValid : Filler → Bool
  | line t => isClean t && !t.contains '\n'
  | block t => isClean t && !occursIn ['*', '/'] t
  | _ => true

end Filler

/-- Blanks and comments in any order. -/
structure Gap where
  fillers : List Filler
  valid : ∀ f ∈ fillers, f.isValid = true

/-- The gap as it is written. -/
def Gap.text (g : Gap) : Text :=
  g.fillers.flatMap Filler.text

/-! ### Statements -/

/-- A statement with a name of ASCII letters, digits and underscores and a closed body. -/
structure CreateTable where
  name : Text
  body : Text
  name_ne_nil : name ≠ []
  name_word : ∀ c ∈ name, isAsciiWord c = true
  body_solid : body.isAllBlank = false
  body_clean : isClean body = true
  body_closed : IsClosed body

namespace CreateTable

/-- What stands in front of the body. -/
def head (s : CreateTable) : Text :=
  ['C', 'R', 'E', 'A', 'T', 'E', ' ', 'T', 'A', 'B', 'L', 'E', ' '] ++ (s.name ++ [' '])

/-- The statement as it is written. -/
def text (s : CreateTable) : Text :=
  s.head ++ ('(' :: (s.body ++ [')', ';']))

end CreateTable

/-- Statements, each with the gap behind it. -/
abbrev Script := List (CreateTable × Gap)

/-- The statements and gaps one after the other. -/
def Script.text (script : Script) : Text :=
  script.flatMap fun p => p.1.text ++ p.2.text

/-- The statements to be read from a script that stands behind the text `before`. -/
def Script.statements (before : Text) : Script → List Statement
  | [] => []
  | (s, g) :: script =>
    ⟨s.name, strip s.body, newlines (before ++ "CREATE TABLE ".toList) + 1, s.text, none⟩ ::
      statements (before ++ s.text ++ g.text) script

/-! ### Gaps under the scan -/

/-- Whether `c` is one of the blanks that a gap is masked to. -/
def isGapBlank (c : Char) : Bool :=
  c = ' ' || c = '\t' || c = '\n'

theorem keeps_lineComment (next : Option Char) {t : Text} (ht : '\n' ∉ t) :
    Spot.Keeps true .lineComment .comment next t := by
  intro c v hv before
  have hc : c ≠ '\n' := fun h => ht (h ▸ hv.subset List.mem_cons_self)
  simp [Place.step, hc]

theorem keeps_block {next : Option Char} (hnext : next ≠ some '/') {t : Text}
    (ht : occursIn ['*', '/'] t = false) : Spot.Keeps true .block .comment next t := by
  intro c v hv before
  have hopen : ¬ (c = '*' ∧ v.head?.or next = some '/') := by
    rintro ⟨rfl, h⟩
    cases v with
    | nil => exact hnext h
    | cons d v =>
      obtain rfl : d = '/' := Option.some.inj h
      have hends : ['*', '/'] <:+: t := (List.infix_append [] ['*', '/'] v).trans hv.isInfix
      rw [occursIn_eq_true_iff.mpr hends] at ht
      cases ht
  simp only [Place.step, Bool.and_eq_true, decide_eq_true_eq, if_neg hopen]

/-- A comment is put together from its opening, what is inside, and its end. -/
theorem scan_comment {o t e : Text} {place : Place}
    (hopen : ∀ next, (∀ m ∈ Spot.start.marks true next o, m.region = .comment) ∧
      (Spot.start.behind true next o).place = place)
    (hkeeps : Spot.Keeps true place .comment e.head? t)
    (hend : ∀ s : Spot, s.place = place →
      (∀ m ∈ s.marks true none e, m.region = .comment ∨ isGapBlank m.char = true) ∧
        (s.behind true none e).place = .code) :
    (∀ m ∈ scan true (o ++ (t ++ e)), m.region = .comment ∨ isGapBlank m.char = true) ∧
      (spotBehind true (o ++ (t ++ e))).place = .code := by
  obtain ⟨hmarks, hplace⟩ := hopen (t ++ e).head?
  obtain ⟨hmarks', hplace'⟩ := hkeeps.marks _ hplace
  rw [scan_eq_marks, spotBehind]
  simp only [Spot.marks_append, Spot.behind_append, Option.or_none]
  obtain ⟨hmarks'', hplace''⟩ := hend _ hplace'
  refine ⟨?_, hplace''⟩
  intro m hm
  rw [List.mem_append, List.mem_append] at hm
  rcases hm with hm | hm | hm
  · exact Or.inl (hmarks m hm)
  · exact Or.inl (hmarks' m hm)
  · exact hmarks'' m hm

/-- A filler is made of comments and blanks, and behind it the scan is in code again. -/
theorem scan_filler {f : Filler} (hf : f.isValid = true) :
    (∀ m ∈ scan true f.text, m.region = .comment ∨ isGapBlank m.char = true) ∧
      (spotBehind true f.text).place = .code := by
  cases f with
  | space => exact ⟨by decide, rfl⟩
  | tab => exact ⟨by decide, rfl⟩
  | newline => exact ⟨by decide, rfl⟩
  | line t =>
    simp only [Filler.isValid, Bool.and_eq_true, Bool.not_eq_true', List.contains_eq_mem,
      decide_eq_false_iff_not] at hf
    refine scan_comment ?_ (keeps_lineComment _ hf.2) ?_
    · intro next
      simp [Spot.marks, Spot.behind, Spot.mark, Spot.move, Spot.start, Place.step, Place.enter]
    · intro s hs
      simp [Spot.marks, Spot.behind, Spot.mark, Spot.move, hs, Place.step, isGapBlank]
  | block t =>
    simp only [Filler.isValid, Bool.and_eq_true, Bool.not_eq_true'] at hf
    refine scan_comment ?_ (keeps_block (by decide) hf.2) ?_
    · intro next
      simp [Spot.marks, Spot.behind, Spot.mark, Spot.move, Spot.start, Place.step, Place.enter]
    · intro s hs
      simp [Spot.marks, Spot.behind, Spot.mark, Spot.move, hs, Place.step]

/-! ### Masked gaps -/

theorem Filler.seals {f : Filler} (hf : f.isValid = true) {b : Text} (hb : b.head? ≠ some '*') :
    Seals true f.text b := by
  have hplace := (scan_filler hf).2
  cases f with
  | space => exact Seals.of_last hplace rfl (by decide)
  | tab => exact Seals.of_last hplace rfl (by decide)
  | newline => exact Seals.of_last hplace rfl (by decide)
  | line t =>
    refine Seals.of_last (c := '\n') hplace ?_ (by decide)
    rw [Filler.text, ← List.append_assoc, List.getLast?_concat]
  | block t =>
    have hlast : (Filler.block t).text.getLast? = some '/' := by
      rw [Filler.text, ← List.append_assoc, List.getLast?_append]
      rfl
    refine ⟨hplace, ?_, ?_⟩
    · rw [hlast]; intro h; exact absurd h (by decide)
    · rw [hlast]; simp [Spot.opensComment, hb]

theorem maskComments_filler {f : Filler} (hf : f.isValid = true) :
    ∀ c ∈ maskComments f.text, isGapBlank c = true := by
  intro c hc
  rw [maskComments_eq_map] at hc
  obtain ⟨m, hm, rfl⟩ := List.mem_map.mp hc
  by_cases hr : m.region = .comment
  · rcases (blanked_of_comment hr).2.2 with h | h <;> rw [h] <;> rfl
  · rw [blanked_of_not_comment hr]
    exact ((scan_filler hf).1 m hm).resolve_left hr

/-- No filler goes on with a star, so none opens a block comment together with what stands before
it. -/
theorem head?_fillers (fs : List Filler) {b : Text} (hb : b.head? ≠ some '*') :
    (fs.flatMap Filler.text ++ b).head? ≠ some '*' := by
  cases fs with
  | nil => exact hb
  | cons f fs => cases f <;> simp [Filler.text]

namespace Gap

/-- Comments masked, a gap is blank and what stands behind it is masked by itself. -/
theorem maskComments_text (g : Gap) : (∀ c ∈ maskComments g.text, isGapBlank c = true) ∧
    ∀ b : Text, b.head? ≠ some '*' →
      maskComments (g.text ++ b) = maskComments g.text ++ maskComments b := by
  obtain ⟨fs, hfs⟩ := g
  show (∀ c ∈ maskComments (fs.flatMap Filler.text), isGapBlank c = true) ∧
    ∀ b : Text, b.head? ≠ some '*' → maskComments (fs.flatMap Filler.text ++ b) =
      maskComments (fs.flatMap Filler.text) ++ maskComments b
  induction fs with
  | nil => exact ⟨by simp, fun b _ => rfl⟩
  | cons f fs ih =>
    have hf := hfs f List.mem_cons_self
    obtain ⟨hblank, happend⟩ := ih fun x hx => hfs x (List.mem_cons_of_mem f hx)
    have hhead : (fs.flatMap Filler.text).head? ≠ some '*' := by
      have h := head?_fillers fs (b := []) (by decide)
      rwa [List.append_nil] at h
    rw [List.flatMap_cons, maskComments_append (Filler.seals hf hhead)]
    constructor
    · intro c hc
      rcases List.mem_append.mp hc with hc | hc
      · exact maskComments_filler hf c hc
      · exact hblank c hc
    · intro b hb
      rw [List.append_assoc, maskComments_append (Filler.seals hf (head?_fillers fs hb)),
        happend b hb, List.append_assoc]

end Gap

/-! ### Masked statements -/

namespace CreateTable

theorem plain_head (s : CreateTable) : (s.head ++ ['(']).all isPlain = true := by
  rw [head, List.all_append, List.all_append, List.all_append, all_isPlain_of_forall s.name_word]
  rfl

/-- Comments masked, a body is masked by itself. -/
theorem maskComments_body_append (s : CreateTable) (b : Text) :
    maskComments (s.body ++ ')' :: ';' :: b) =
      maskComments s.body ++ ')' :: ';' :: maskComments b := by
  rw [maskComments_append (s.body_closed.seals (';' :: b) (by decide))]
  congr 1
  exact maskComments_plain_append (a := [')', ';']) b rfl

theorem maskComments_head_append (s : CreateTable) (t : Text) :
    maskComments (s.head ++ '(' :: t) = s.head ++ '(' :: maskComments t := by
  rw [List.append_cons, maskComments_plain_append _ s.plain_head, List.append_assoc,
    List.singleton_append]

/-- Comments masked, only the body of a statement changes. -/
theorem maskComments_text_append (s : CreateTable) (b : Text) :
    maskComments (s.text ++ b) =
      s.head ++ '(' :: (maskComments s.body ++ ')' :: ';' :: maskComments b) := by
  have htext : s.text ++ b = s.head ++ '(' :: (s.body ++ ')' :: ';' :: b) := by
    simp [text]
  rw [htext, maskComments_head_append, maskComments_body_append]

end CreateTable

/-! ### Clean texts -/

theorem Gap.isClean_text (g : Gap) : isClean g.text = true := by
  rw [Gap.text, isClean, List.all_flatMap, List.all_eq_true]
  intro f hf
  have hvalid := g.valid f hf
  cases f with
  | line t =>
    simp only [Filler.isValid, Bool.and_eq_true] at hvalid
    show isClean (_ ++ (t ++ _)) = true
    rw [isClean_append, isClean_append, hvalid.1]
    rfl
  | block t =>
    simp only [Filler.isValid, Bool.and_eq_true] at hvalid
    show isClean (_ ++ (t ++ _)) = true
    rw [isClean_append, isClean_append, hvalid.1]
    rfl
  | _ => rfl

theorem CreateTable.isClean_text (s : CreateTable) : isClean s.text = true := by
  show isClean ((_ ++ (s.name ++ _)) ++ (['('] ++ (s.body ++ _))) = true
  simp only [isClean_append, s.body_clean, isClean_of_isAsciiWord s.name_word]
  rfl

theorem Script.isClean_text (script : Script) : isClean script.text = true := by
  rw [Script.text, isClean, List.all_flatMap, List.all_eq_true]
  intro p _
  exact (isClean_append _ _).trans (by rw [p.1.isClean_text, p.2.isClean_text]; rfl)

end TableTypes
