import TableTypes.Proofs.Gate.Token.Reader

/-!
# The lexer and line ends

A text is cut into the same tokens when it is stripped and its line ends are written as newlines
(`lex?_relined`), up to the line ends inside quotes, hints and literals.  Each step takes the same
off both texts (`step_alike`), except that a carriage return in front of a newline is a step of its
own.
-/

namespace TableTypes.Token

open Text

/-! ### Tokens with line ends in them -/

/-- A token without its text, if there is a line end in the text. -/
def flat (tok : Token) : Token :=
  { tok with text := if '\n' ∈ tok.text then ['\n'] else tok.text }

theorem flat_eq_of_respelled (kind : TokenKind) {x y : Text} (h : Respelled x y) :
    flat ⟨kind, x⟩ = flat ⟨kind, y⟩ := by
  rcases eq_or_mem_of_respelled h with rfl | ⟨hx, hy⟩
  · rfl
  · rw [flat, flat, if_pos hx, if_pos hy]

/-- No word has a line end in it, so a token that has one is no word in upper case either. -/
theorem upper_flat_eq_iff {w : Text} (hw : '\n' ∉ w) (tok : Token) :
    upper tok.flat.text = w ↔ upper tok.text = w := by
  by_cases htext : '\n' ∈ tok.text
  · have hflat : tok.flat.text = ['\n'] := if_pos htext
    have hupper : '\n' ∈ upper tok.text := List.mem_flatMap.mpr ⟨'\n', htext, by decide⟩
    rw [hflat]
    constructor
    · rintro rfl
      exact absurd (by decide) hw
    · rintro rfl
      exact absurd hupper hw
  · have hflat : tok.flat.text = tok.text := if_neg htext
    rw [hflat]

theorem contains_upper_flat {ws : List Text} (h : ∀ w ∈ ws, '\n' ∉ w) (tok : Token) :
    ws.contains (upper tok.flat.text) = ws.contains (upper tok.text) := by
  have hmem : ∀ a : Text, a ∈ ws ↔ ∃ w ∈ ws, a = w := fun a => by simp
  rw [Bool.eq_iff_iff, List.contains_iff_mem, List.contains_iff_mem, hmem, hmem]
  exact exists_congr fun w => and_congr_right fun hw => upper_flat_eq_iff (h w hw) tok

theorem isAnyKeyword_flat {keywords : List String} (h : ∀ k ∈ keywords.map String.toList, '\n' ∉ k)
    (tok : Token) : tok.flat.isAnyKeyword keywords = tok.isAnyKeyword keywords := by
  rw [isAnyKeyword, isAnyKeyword, contains_upper_flat h]
  rfl

theorem isCommand_flat (tok : Token) : tok.flat.isCommand = tok.isCommand :=
  isAnyKeyword_flat (by decide) tok

theorem isBlockStart_flat (tok : Token) : tok.flat.isBlockStart = tok.isBlockStart :=
  isAnyKeyword_flat (by decide) tok

theorem takesHint_flat (tok : Token) : tok.flat.takesHint = tok.takesHint :=
  isAnyKeyword_flat (by decide) tok

/-! ### Steps -/

namespace Step

/-- Two steps over the same, which leave over the same. -/
inductive Alike : Step → Step → Prop
  | skip {t r : Text} (h : Relined false isAllBlank t r) : Alike (.skip t) (.skip r)
  | token {a b : Token} {t r : Text} (htok : a.flat = b.flat) (h : Relined false isAllBlank t r) :
      Alike (.token a t) (.token b r)
  | mistake : Alike .mistake .mistake

/-- The step leaves over a suffix of the text. -/
def LeavesSuffix (t : Text) : Step → Prop
  | skip rest => rest <:+ t
  | token _ rest => rest <:+ t
  | mistake => True

variable {a b : Option (Text × Text)} {t : Text}

theorem ofComment_alike (h : Option.Rel SameCut a b) : Alike (ofComment a) (ofComment b) := by
  cases h with
  | some h => exact .skip h.2
  | none => exact .mistake

theorem ofQuoted_alike (kind : TokenKind) (h : Option.Rel SameCut a b) :
    Alike (ofQuoted kind a) (ofQuoted kind b) := by
  cases h with
  | some h => exact .token (flat_eq_of_respelled kind h.1) h.2
  | none => exact .mistake

theorem ofLiteral_alike (letter : Char) (h : Option.Rel SameCut a b) :
    Alike (ofLiteral letter a) (ofLiteral letter b) := by
  cases h with
  | none => exact .mistake
  | @some x y h =>
    rw [ofLiteral, ofLiteral, isLiteralContent_respelled letter h.1]
    split
    · exact .token (flat_eq_of_respelled .literal h.1) h.2
    · exact .mistake

theorem ofHint_alike {before before' : Option Token}
    (hbefore : before.any takesHint = before'.any takesHint) (h : Option.Rel SameCut a b) :
    Alike (ofHint before a) (ofHint before' b) := by
  cases h with
  | none => exact .mistake
  | @some x y h =>
    rw [ofHint, ofHint, hbefore]
    split
    · refine .token (flat_eq_of_respelled .hint ?_) h.2
      exact (h.1.append_left _).append_right _
    · exact .skip h.2

theorem ofToken_alike {x y : Token × Text} (h : SameRest x y) : Alike (ofToken x) (ofToken y) :=
  .token (congrArg flat h.1) h.2

end Step

theorem comment?_eq (before : Option Token) (t : Text) : comment? before t =
    (((after? ['#'] t).bind fun t =>
      if t.head? = some '>' then none else some (.skip (dropLine t))) <|>
    ((after? ['-', '-'] t).bind fun t =>
      if endsDashes t then some (.skip (dropLine t)) else none) <|>
    ((after? ['\x7b', '#'] t).map fun t => .ofComment (upTo? '#' '\x7d' t)) <|>
    ((after? ['/', '*', '+'] t).map fun t => .ofHint before (upTo? '*' '/' t)) <|>
    ((after? ['/', '*'] t).map fun t => .ofComment (upTo? '*' '/' t))) := by
  fun_cases comment? before t
  case case7 t hplus =>
    have hhint : after? ['/', '*', '+'] ('/' :: '*' :: t) = none :=
      after?_eq_none fun r h => hplus r (by simpa using h)
    simp_all [after?]
  case case8 =>
    rename_i h₁ h₂ h₃ h₄ h₅
    rw [after?_eq_none h₁, after?_eq_none h₂, after?_eq_none h₃, after?_eq_none h₄,
      after?_eq_none h₅]
    rfl
  all_goals simp_all [after?]

section

variable {before before' : Option Token} {t r : Text}

theorem comment?_alike (hbefore : before.any takesHint = before'.any takesHint)
    (h : Relined false isAllBlank t r) :
    Option.Rel Step.Alike (comment? before t) (comment? before' r) := by
  rw [comment?_eq, comment?_eq]
  refine rel_orElse (rel_bind (h.after? (by decide)) fun {u v} h => ?_) <|
    rel_orElse (rel_bind (h.after? (by decide)) fun {u v} h => ?_) <|
    rel_orElse (rel_map (h.after? (by decide)) fun h => ?_) <|
    rel_orElse (rel_map (h.after? (by decide)) fun h => ?_) <|
    rel_map (h.after? (by decide)) fun h => ?_
  · -- A sign that begins a comment, unless it begins the operator `#>`.
    rcases h.head_cases (b := '>') rfl with ⟨u, v, rfl, rfl, -⟩ | ⟨hu, hv⟩
    · exact .none
    · rw [if_neg hu, if_neg hv]
      exact .some (.skip (dropLine_relined h))
  · -- Two dashes, which count only in front of a blank, a control character or the end.
    rw [endsDashes_relined h]
    split
    · exact .some (.skip (dropLine_relined h))
    · exact .none
  · exact Step.ofComment_alike (upTo?_relined rfl rfl h)
  · exact Step.ofHint_alike hbefore (upTo?_relined rfl rfl h)
  · exact Step.ofComment_alike (upTo?_relined rfl rfl h)

theorem quotation?_cons (c : Char) (t : Text) : quotation? (c :: t) =
    if c = '\'' then some (.ofQuoted .string (quoted? '\'' true t))
    else if c = '"' then some (.ofQuoted .string (quoted? '"' true t))
    else if c = '\x60' then some (.ofQuoted .identifier (quoted? '\x60' false t))
    else t.head?.bind fun q =>
      if beginsLiteral c q then some (.ofLiteral c (quoted? q true t.tail)) else none := by
  split_ifs with hsingle hdouble hbacktick
  · rw [hsingle, quotation?]
  · rw [hdouble, quotation?]
  · rw [hbacktick, quotation?]
  · cases t <;> simp [quotation?, hsingle, hdouble, hbacktick]

theorem beginsLiteral_of_isBlank (c : Char) {q : Char} (hq : isBlank q = true) :
    beginsLiteral c q = false := by
  have hsingle : q ≠ '\'' := ne_of_isBlank rfl hq
  have hdouble : q ≠ '"' := ne_of_isBlank rfl hq
  simp [beginsLiteral, hsingle, hdouble]

theorem quotation?_alike (c : Char) (h : Relined false isAllBlank t r) :
    Option.Rel Step.Alike (quotation? (c :: t)) (quotation? (c :: r)) := by
  rw [quotation?_cons, quotation?_cons]
  split
  · exact .some (Step.ofQuoted_alike _ (quoted?_relined rfl h))
  split
  · exact .some (Step.ofQuoted_alike _ (quoted?_relined rfl h))
  split
  · exact .some (Step.ofQuoted_alike _ (quoted?_relined rfl h))
  cases h with
  | stop hz =>
    cases t with
    | nil => exact .none
    | cons q t =>
      rw [List.head?_cons, Option.bind_some,
        beginsLiteral_of_isBlank c (List.all_eq_true.mp hz q List.mem_cons_self)]
      exact .none
  | keep q h =>
    rw [List.head?_cons, Option.bind_some, List.head?_cons, Option.bind_some]
    split
    · rename_i hq
      have hsolid := isBlank_eq_false_of (fun q => beginsLiteral_of_isBlank c) hq
      exact .some (Step.ofLiteral_alike c (quoted?_relined hsolid h))
    · exact .none
  | pair =>
    rw [List.head?_cons, Option.bind_some, List.head?_cons, Option.bind_some,
      beginsLiteral_of_isBlank c rfl, beginsLiteral_of_isBlank c rfl]
    exact .none
  | single hlone => cases hlone

theorem any_of_flat {p : Token → Bool} (hp : ∀ tok, p tok.flat = p tok)
    (hbefore : before.map flat = before'.map flat) : before.any p = before'.any p := by
  have hflat : ∀ o : Option Token, o.any p = (o.map flat).any p := by
    rintro (_ | tok)
    · rfl
    · exact (hp tok).symm
  rw [hflat, hbefore, ← hflat]

theorem startsRadix_cons (c : Char) (t : Text) :
    startsRadix (c :: t) = (c = '0' && t.head?.any fun d => "bBxX".toList.contains d) := by
  by_cases hc : c = '0'
  · rw [hc]
    cases t <;> rfl
  · simp [startsRadix, hc]

theorem number_relined (hbefore : before.map flat = before'.map flat) (c : Char)
    (h : Relined false isAllBlank t r) :
    SameRest (number before (c :: t)) (number before' (c :: r)) := by
  have hword := h.keep c
  have hradix : startsRadix (c :: t) = startsRadix (c :: r) := by
    rw [startsRadix_cons, startsRadix_cons, h.head?_any]
    exact fun d => eq_false_of_isBlank (by decide +kernel)
  rw [number, number, hradix, any_of_flat (fun _ => rfl) hbefore]
  split
  · exact ⟨congrArg (Token.mk .word) (hword.takeWhile_eq fun d => isWordPart_of_isBlank),
      hword.dropWhile isAllBlank_dropWhile (by decide)⟩
  · have hnumber := numberRest_relined
      ⟨!before'.any (·.kind = .variableSign), true, false⟩ hword
    exact ⟨congrArg (Token.mk .word) hnumber.1, hnumber.2⟩

theorem plainWord_relined (hbefore : before.map flat = before'.map flat)
    (h : Relined false isAllBlank t r) : SameRest (plainWord before t) (plainWord before' r) := by
  rw [plainWord, plainWord, any_of_flat (fun _ => rfl) hbefore,
    h.takeWhile_eq fun d => isWordPart_of_isBlank]
  exact ⟨rfl, h.dropWhile isAllBlank_dropWhile (by decide)⟩

theorem step_alike (hbefore : before.map flat = before'.map flat) (c : Char)
    (h : Relined false isAllBlank t r) : Step.Alike (step before c t) (step before' c r) := by
  have hkeep := h.keep c
  -- The first character alone decides which of the readers are tried.
  rw [step, step]
  split
  · exact .skip h
  split
  · exact Step.ofToken_alike (number_relined hbefore c h)
  refine rel_getD (rel_orElse (comment?_alike (any_of_flat takesHint_flat hbefore) hkeep)
    (quotation?_alike c h)) ?_
  split
  · have hoperator := operator?_relined hkeep
    generalize operator? (c :: t) = a at hoperator
    generalize operator? (c :: r) = b at hoperator
    cases hoperator with
    | none => exact .token rfl h
    | some h => exact .token (by rw [h.1]) h.2
  · exact Step.ofToken_alike (rel_getD (rel_orElse (wordPair?_relined hkeep)
      (dashedWord?_relined hkeep)) (plainWord_relined hbefore hkeep))

end

/-! ### Progress -/

/-- What holds of the results of two readers holds of the result of the first of them that
succeeds. -/
theorem forall_mem_orElse {α : Type} {p : α → Prop} {a b : Option α} (ha : ∀ x ∈ a, p x)
    (hb : ∀ x ∈ b, p x) : ∀ x ∈ (a <|> b), p x := by
  cases a with
  | none => exact hb
  | some y => exact ha

namespace Step

variable {t : Text} {o : Option (Text × Text)} (h : Leaves t o)
include h

theorem ofComment_leavesSuffix : (ofComment o).LeavesSuffix t := by
  cases o with
  | none => trivial
  | some p => exact h p rfl

theorem ofHint_leavesSuffix (before : Option Token) : (ofHint before o).LeavesSuffix t := by
  cases o with
  | none => trivial
  | some p =>
    rw [ofHint]
    split
    · exact h p rfl
    · exact h p rfl

theorem ofQuoted_leavesSuffix (kind : TokenKind) : (ofQuoted kind o).LeavesSuffix t := by
  cases o with
  | none => trivial
  | some p => exact h p rfl

theorem ofLiteral_leavesSuffix (letter : Char) : (ofLiteral letter o).LeavesSuffix t := by
  cases o with
  | none => trivial
  | some p =>
    rw [ofLiteral]
    split
    · exact h p rfl
    · trivial

end Step

theorem Step.LeavesSuffix.trans {u t : Text} {s : Step} (h : s.LeavesSuffix u) (hu : u <:+ t) :
    s.LeavesSuffix t := by
  cases s with
  | skip => exact List.IsSuffix.trans h hu
  | token => exact List.IsSuffix.trans h hu
  | mistake => trivial

theorem comment?_leavesSuffix (before : Option Token) (c : Char) (t : Text) :
    ∀ s ∈ comment? before (c :: t), s.LeavesSuffix t := by
  rw [comment?_eq]
  refine forall_mem_orElse ?_ <| forall_mem_orElse ?_ <| forall_mem_orElse ?_ <|
    forall_mem_orElse ?_ ?_ <;> intro s hs
  · obtain ⟨u, hu, hs⟩ := Option.bind_eq_some_iff.mp hs
    split at hs
    · cases hs
    · obtain rfl := Option.some.inj hs
      exact (List.dropWhile_suffix _).trans (suffix_of_after? (by decide) hu)
  · obtain ⟨u, hu, hs⟩ := Option.bind_eq_some_iff.mp hs
    split at hs
    · obtain rfl := Option.some.inj hs
      exact (List.dropWhile_suffix _).trans (suffix_of_after? (by decide) hu)
    · cases hs
  · obtain ⟨u, hu, rfl⟩ := Option.map_eq_some_iff.mp hs
    exact (Step.ofComment_leavesSuffix (upTo?_leaves u)).trans (suffix_of_after? (by decide) hu)
  · obtain ⟨u, hu, rfl⟩ := Option.map_eq_some_iff.mp hs
    exact (Step.ofHint_leavesSuffix (upTo?_leaves u) before).trans
      (suffix_of_after? (by decide) hu)
  · obtain ⟨u, hu, rfl⟩ := Option.map_eq_some_iff.mp hs
    exact (Step.ofComment_leavesSuffix (upTo?_leaves u)).trans (suffix_of_after? (by decide) hu)

theorem quotation?_leavesSuffix (c : Char) (t : Text) :
    ∀ s ∈ quotation? (c :: t), s.LeavesSuffix t := by
  rw [quotation?_cons]
  intro s hs
  split_ifs at hs
  · exact Option.some.inj hs ▸ Step.ofQuoted_leavesSuffix (quoted?_leaves t) _
  · exact Option.some.inj hs ▸ Step.ofQuoted_leavesSuffix (quoted?_leaves t) _
  · exact Option.some.inj hs ▸ Step.ofQuoted_leavesSuffix (quoted?_leaves t) _
  · obtain ⟨q, -, hs⟩ := Option.bind_eq_some_iff.mp hs
    split at hs
    · obtain rfl := Option.some.inj hs
      exact (Step.ofLiteral_leavesSuffix (quoted?_leaves t.tail) c).trans (List.tail_suffix t)
    · cases hs

theorem isAsciiDigit_of_isPunctuation {c : Char} (h : isPunctuation c = true) :
    isAsciiDigit c = false := by
  unfold isPunctuation at h
  generalize hsigns : String.toList _ = signs at h
  have hnone : signs.any isAsciiDigit = false := by
    rw [← hsigns]
    decide
  exact forall_eq_false hnone c (List.contains_iff_mem.mp h)

theorem number_leavesSuffix (before : Option Token) {c : Char} (hc : isAsciiDigit c = true)
    (t : Text) : (Step.ofToken (number before (c :: t))).LeavesSuffix t := by
  have hblank : isBlank c = false := isBlank_of_isAsciiWord (isAsciiWord_of_isAsciiDigit hc)
  have hpunctuation : isPunctuation c = false := by
    rw [← Bool.not_eq_true]
    intro h
    rw [isAsciiDigit_of_isPunctuation h] at hc
    cases hc
  have hword : isWordPart c = true := by simp [isWordPart, hblank, hpunctuation]
  show (number before (c :: t)).2 <:+ t
  rw [number]
  split
  · rw [List.dropWhile_cons_of_pos hword]
    exact List.dropWhile_suffix _
  · rw [numberRest, if_pos hc]
    exact numberRest_suffix _ t

/-- **Every step takes a character off the text.** -/
theorem step_leavesSuffix (before : Option Token) (c : Char) (t : Text) :
    (step before c t).LeavesSuffix t := by
  rw [step]
  split
  · exact List.suffix_rfl
  split
  · rename_i hc
    exact number_leavesSuffix before hc t
  rename_i hblank _
  cases hopen : comment? before (c :: t) <|> quotation? (c :: t) with
  | some s =>
    exact forall_mem_orElse (comment?_leavesSuffix before c t) (quotation?_leavesSuffix c t) s hopen
  | none =>
    rw [Option.getD_none]
    split
    · cases hoperator : operator? (c :: t) with
      | some p => exact operator?_leaves c t p hoperator
      | none => exact List.suffix_rfl
    · rename_i hpunctuation
      cases hword : wordPair? (c :: t) <|> dashedWord? (c :: t) with
      | some p => exact forall_mem_orElse (wordPair?_leaves c t) (dashedWord?_leaves c t) p hword
      | none =>
        have hc : isWordPart c = true := by
          simp [isWordPart, hblank, hpunctuation]
        show List.dropWhile isWordPart (c :: t) <:+ t
        rw [List.dropWhile_cons_of_pos hc]
        exact List.dropWhile_suffix _

/-! ### Runs -/

theorem lexUpTo_nil (n : Nat) (before : Option Token) : lexUpTo n before [] = some [] := by
  cases n <;> rfl

theorem lexUpTo_cons (n : Nat) (before : Option Token) (c : Char) (t : Text) :
    lexUpTo (n + 1) before (c :: t) =
      match step before c t with
      | .skip rest => lexUpTo n before rest
      | .token tok rest => (lexUpTo n (some tok) rest).map (tok :: ·)
      | .mistake => none :=
  lexUpTo.eq_def (n + 1) before (c :: t)

theorem lexUpTo_blank {c : Char} (hc : isBlank c = true) (n : Nat) (before : Option Token)
    (t : Text) : lexUpTo (n + 1) before (c :: t) = lexUpTo n before t := by
  have hstep : step before c t = .skip t := if_pos hc
  rw [lexUpTo_cons, hstep]

theorem lexUpTo_blanks {l : Text} (hl : ∀ c ∈ l, isBlank c = true) (n : Nat)
    (before : Option Token) (t : Text) :
    lexUpTo (l.length + n) before (l ++ t) = lexUpTo n before t := by
  induction l with
  | nil => rw [List.length_nil, Nat.zero_add, List.nil_append]
  | cons c l ih =>
    rw [List.length_cons, Nat.add_right_comm, List.cons_append,
      lexUpTo_blank (hl c List.mem_cons_self)]
    exact ih fun d hd => hl d (List.mem_cons_of_mem c hd)

/-- The induction is on the steps over the longer text; over the other there are no more of them,
and there are enough if there are as many as characters. -/
theorem lexUpTo_relined (n : Nat) : ∀ {before before' : Option Token} {t r : Text} {m : Nat}
    {toks : List Token}, before.map flat = before'.map flat → Relined false isAllBlank t r →
      r.length ≤ m → lexUpTo n before t = some toks →
        ∃ toks', lexUpTo m before' r = some toks' ∧ toks'.map flat = toks.map flat := by
  induction n with
  | zero =>
    intro before before' t r m toks _ h _ hlex
    cases t with
    | cons c t => cases hlex
    | nil =>
      obtain rfl := Option.some.inj hlex
      cases h
      exact ⟨[], lexUpTo_nil m before', rfl⟩
  | succ n ih =>
    intro before before' t r m toks hbefore h hm hlex
    cases h with
    | stop hz =>
      cases t with
      | nil =>
        obtain rfl := Option.some.inj hlex
        exact ⟨[], lexUpTo_nil m before', rfl⟩
      | cons c t =>
        obtain ⟨hc, hz⟩ := Bool.and_eq_true _ _ ▸ hz
        rw [lexUpTo_blank hc] at hlex
        exact ih hbefore (.stop hz) hm hlex
    | @keep c t r h =>
      -- There is a step left for the character.
      obtain ⟨m, rfl⟩ : ∃ k, m = k + 1 := ⟨m - 1, by simp at hm; omega⟩
      have hsuffix := step_leavesSuffix before' c r
      have halike := step_alike hbefore c h
      rw [lexUpTo_cons] at hlex ⊢
      generalize step before c t = s at halike hlex
      generalize step before' c r = s' at halike hsuffix
      cases halike with
      | mistake => cases hlex
      | skip h => exact ih hbefore h (hsuffix.length_le.trans (Nat.le_of_succ_le_succ hm)) hlex
      | @token a b t r htok h =>
        have hlength : r.length ≤ m := hsuffix.length_le.trans (Nat.le_of_succ_le_succ hm)
        have htokens : (some a).map flat = (some b).map flat := congrArg some htok
        obtain ⟨toks, hrest, rfl⟩ := Option.map_eq_some_iff.mp hlex
        obtain ⟨toks', hrest', heq⟩ := ih htokens h hlength hrest
        refine ⟨b :: toks', ?_, by rw [List.map_cons, List.map_cons, heq, htok]⟩
        exact Option.map_eq_some_iff.mpr ⟨toks', hrest', rfl⟩
    | pair h =>
      -- The step over the carriage return leaves a newline in front of both texts.
      exact ih hbefore (h.keep '\n') hm hlex
    | single hlone => cases hlone

/-- **Blanks around a text and the way its line ends are written make no difference to its tokens**,
but for the line ends inside them. -/
theorem lex?_relined {l t r : Text} (hl : ∀ c ∈ l, isBlank c = true)
    (h : Relined false isAllBlank t r) {toks : List Token} (hlex : lex? (l ++ t) = some toks) :
    ∃ toks', lex? r = some toks' ∧ toks'.map flat = toks.map flat := by
  rw [lex?, List.length_append, lexUpTo_blanks hl] at hlex
  exact lexUpTo_relined _ rfl h (Nat.le_refl _) hlex

end TableTypes.Token
