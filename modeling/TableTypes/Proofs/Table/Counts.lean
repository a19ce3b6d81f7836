import TableTypes.Proofs.Gate.Mentions
import TableTypes.Proofs.Scan.Transparent
import TableTypes.Proofs.Statement.Quoted
import TableTypes.Proofs.Table.Sound
import Mathlib.Data.List.Nodup

/-!
# The two counts of tables

The gate counts the places with `CREATE TABLE` in the text as it is given, the extraction the
statements that are read.  The first count is an estimate of the second: it misses a statement with
a comment between its words, and it has too many where the words begin no statement (`Counts`).  The
limit on tables is kept in the same way by both exactly if they err by the same number
(`tableCounts_of_parse`).
-/

namespace TableTypes

open Text

/-! ### Places and statements -/

/-- The statements that are not counted, since no place that is counted is their start. -/
def uncounted (sql : Text) (ps : List PlacedStatement) : List PlacedStatement :=
  ps.filter fun p => p.start ∉ cleanedMentions sql

/-- The positions of the places that are counted where no statement starts. -/
def stray (sql : Text) (ps : List PlacedStatement) : List Nat :=
  (cleanedMentions sql).filter fun k => k ∉ ps.map PlacedStatement.start

/-- How the places that are counted in a text compare with its statements. -/
structure Counts (sql : Text) (ps : List PlacedStatement) : Prop where
  balance : countCreateTable sql + (uncounted sql ps).length = ps.length + (stray sql ps).length
  /-- Where no statement starts, one that starts in front of the place reaches over it, or no head
  is read there once the comments are masked. -/
  stray : ∀ k ∈ stray sql ps, (∃ p ∈ ps, p.start < k ∧ k < p.stop) ∨
    StatementHead.read? ((maskComments (cleaned sql)).drop k) = none
  /-- Without control characters only a statement with a comment in front of its name is not
  counted. -/
  uncounted : (∀ c ∈ sql, isControl c = false) → ∀ p ∈ uncounted sql ps,
    ∃ k, p.start < k ∧ k < p.name ∧ regionAt (cleaned sql) k = some .comment

/-- Two lists without repetitions differ in length as what they do not share does. -/
theorem length_add_length_filter {xs ys : List Nat} (hxs : xs.Nodup) (hys : ys.Nodup) :
    xs.length + (ys.filter fun y => y ∉ xs).length =
      ys.length + (xs.filter fun x => x ∉ ys).length := by
  -- What they share is the same in both, in whatever order.
  have hshared : (xs.filter fun x => x ∈ ys).length = (ys.filter fun y => y ∈ xs).length := by
    refine List.Perm.length_eq ((List.perm_ext_iff_of_nodup (hxs.filter _) (hys.filter _)).mpr ?_)
    intro n
    simp only [List.mem_filter, decide_eq_true_eq]
    exact and_comm
  have hsplit : ∀ as bs : List Nat, as.length =
      (as.filter fun a => a ∈ bs).length + (as.filter fun a => a ∉ bs).length := by
    intro as bs
    have h := List.length_eq_length_filter_add (l := as) fun a => decide (a ∈ bs)
    simpa using h
  rw [hsplit xs ys, hsplit ys xs, hshared]
  omega

namespace PlacedStatement

variable {sql : Text} {ps : List PlacedStatement}

theorem nodup_start (h : readAll sql = .ok ps) : (ps.map start).Nodup := by
  rw [List.Nodup, List.pairwise_map]
  refine (pairwise_of_readAll h).imp_of_mem fun {p q} hp _ hle => ?_
  have hlt := (standsIn_of_readAll h hp).start_lt_stop
  omega

/-- Where no comment stands in front of the name, the words stand in the text itself. -/
theorem StandsIn.isSome_createTable {t : Text} {p : PlacedStatement} (hp : p.StandsIn t)
    (hplain : ∀ k, p.start < k → k < p.name → regionAt t k ≠ some .comment) :
    (phrase? createTable (t.drop p.start)).isSome = true := by
  obtain ⟨head, hread, hname, -⟩ := hp.head
  obtain ⟨r, s, hr, hs, hspells, -⟩ := StatementHead.read?_eq_some_iff.mp hread
  have hsuffix : head.name.start <:+ r :=
    (hspells.suffix.1.trans (StatementHead.isReader_skipIfNotExists.suffix rfl)).trans
      (isReader_dropBlanks1?.suffix hs)
  obtain ⟨w, hw⟩ := (isReader_phrase? createTable).suffix hr
  -- The words end in front of the name, so the text is not masked there.
  have hlength : p.start + w.length ≤ p.name := by
    have hle := hsuffix.length_le
    have hsplit := congrArg List.length hw
    have h₁ := hp.name_lt
    have h₂ := hp.opening_lt
    have h₃ := hp.closing_lt
    have h₄ := hp.stop_le
    rw [hname, List.length_drop, length_maskComments] at hle
    rw [List.length_append, List.length_drop, length_maskComments] at hsplit
    omega
  have hprefix : w <+: t.drop p.start := by
    rw [List.prefix_iff_getElem?]
    intro i hi
    have hregion : regionAt t (p.start + i) ≠ some .comment := by
      cases i with
      | zero =>
        rcases hp.regionAt_start with h | ⟨q, h⟩ <;> rw [Nat.add_zero, h] <;> simp
      | succ i => exact hplain _ (by omega) (by omega)
    rw [List.getElem?_drop, ← getElem?_maskComments_of_ne hregion, ← List.getElem?_drop, ← hw,
      List.getElem?_append_left hi, List.getElem?_eq_getElem hi]
  obtain ⟨z, hz⟩ := hprefix
  have hwords : phrase? createTable w = some [] :=
    (isReader_phrase? createTable).cut (z := r) (by rw [hw]; exact hr)
  rw [← hz, phrase?_append_right (by decide) z hwords]
  rfl

/-- What is counted and what is read, compared place by place. -/
theorem counts_of_readAll (h : readAll (cleaned sql) = .ok ps) : Counts sql ps where
  balance := by
    have hcounted : (cleanedMentions sql).Nodup :=
      (pairwise_cleanedMentions sql).imp fun hlt => Nat.ne_of_lt hlt
    have hfilter : (ps.map start).filter (fun k => k ∉ cleanedMentions sql) =
        (uncounted sql ps).map start := by
      rw [uncounted, List.filter_map]
      rfl
    have hlengths := length_add_length_filter hcounted (nodup_start h)
    rw [hfilter, List.length_map, List.length_map, length_cleanedMentions] at hlengths
    exact hlengths
  stray := by
    intro k hk
    cases hread : StatementHead.read? ((maskComments (cleaned sql)).drop k) with
    | none => exact Or.inr rfl
    | some head =>
      have hstart := of_decide_eq_true (List.mem_filter.mp hk).2
      refine Or.inl (exists_reaching h hread fun p hp heq => hstart ?_)
      exact heq ▸ List.mem_map_of_mem hp
  uncounted := by
    intro hcontrol p hp
    obtain ⟨hp, hnot⟩ := List.mem_filter.mp hp
    by_contra hplain
    have hwords := (standsIn_of_readAll h hp).isSome_createTable fun k hstart hname hcomment =>
      hplain ⟨k, hstart, hname, hcomment⟩
    exact of_decide_eq_true hnot ((mem_cleanedMentions_iff hcontrol).mpr hwords)

end PlacedStatement

/-! ### The limit on tables -/

variable {o : ExtractorOptions} {l : Limits}

/-- The limit is kept in the same way by two numbers only if they are the same. -/
theorem forall_checkTableCount_iff {m n : Nat} :
    (∀ l : Limits, l.checkTableCount (some m) = .ok () ↔ l.checkTableCount (some n) = .ok ()) ↔
      m = n := by
  constructor
  · intro h
    have hm := h { Limits.standard with maxTableCount := m }
    have hn := h { Limits.standard with maxTableCount := n }
    simp only [Limits.checkTableCount_eq, lt_irrefl, if_false, true_iff, iff_true] at hm hn
    split_ifs at hm hn
    omega
  · rintro rfl l
    exact Iff.rfl

/-- Text that passes the other checks of the gate is held against the limits with the number of
places that are counted. -/
theorem checkForProcessing_outcome {t : Text} (h : (checkSql (.text t) l).outcome = .ok ()) :
    (checkForProcessing (.text t) l).outcome =
      if l.maxTableCount < countCreateTable t then
        .error (.parse (ParseCause.tooManyTables (countCreateTable t) l.maxTableCount).error)
      else (l.checkMemory (estimateMemory t.length (countCreateTable t))).mapError .input := by
  rw [checkForProcessing, Report.bind_of_ok h]
  dsimp only
  rw [Limits.checkTableCount_eq]
  split_ifs
  · rfl
  · rfl

/-- A fault in a table is told as one of that table. -/
theorem exists_of_checkedTable_error {s : Statement} {e : Fault}
    (h : (Report.ofExcept .parse (s.checkedTable o l)).outcome = .error e) :
    ∃ cause position, e = .parse ⟨.inTable s.name cause, s.line, position⟩ := by
  rw [Statement.checkedTable] at h
  generalize (do
    let table ← s.table o
    l.checkFieldCount (some table.columns.length) table.name
    return table) = read at h
  cases read with
  | error e' => exact ⟨e'.cause, e'.position, (Except.error.inj h).symm⟩
  | ok table => cases h

theorem exists_of_readTables_error {ss : List Statement} {e : Fault} :
    ∀ {seen : List (Text × Text)}, (readTables o l seen ss).outcome = .error e →
      ∃ s ∈ ss, ∃ cause position, e = .parse ⟨.inTable s.name cause, s.line, position⟩ := by
  induction ss with
  | nil => intro seen h; cases h
  | cons s ss ih =>
    intro seen h
    rw [readTables_cons_outcome] at h
    rcases Report.bind_eq_error_iff.mp h with htable | ⟨table, -, hrest⟩
    · obtain ⟨cause, position, he⟩ := exists_of_checkedTable_error htable
      exact ⟨s, List.mem_cons_self, cause, position, he⟩
    · rcases Report.bind_eq_error_iff.mp hrest with hmore | ⟨_, -, hpure⟩
      · obtain ⟨s', hs', hfault⟩ := ih hmore
        exact ⟨s', List.mem_cons_of_mem s hs', hfault⟩
      · cases hpure

/-- The extraction fails for the number of tables exactly if there are more statements than the
limit allows. -/
theorem extractTables_tooManyTables_iff {sql : Source} {ss : List Statement}
    (h : Statement.parse sql = .ok ss) :
    (extractTables sql o l).outcome =
        .error (.parse (ParseCause.tooManyTables ss.length l.maxTableCount).error) ↔
      l.maxTableCount < ss.length := by
  rw [extractTables_of_solid (solid_of_parse h), h, Report.ofExcept_ok, Report.pure_bind,
    Limits.checkTableCount_eq]
  split_ifs with hmany
  · exact ⟨fun _ => hmany, fun _ => rfl⟩
  · refine ⟨fun hfault => ?_, fun hmany' => absurd hmany' hmany⟩
    rw [Report.ofExcept_ok, Report.pure_bind] at hfault
    obtain ⟨s, -, cause, position, he⟩ := exists_of_readTables_error hfault
    cases he

/-- A text with a statement that is not counted and a place that is counted in a comment. -/
def evenText : Text :=
  "CREATE /* new */ TABLE t (a INT); -- CREATE TABLE u (b INT)".toList

/-- The statement of that text. -/
def evenStatement : Statement :=
  ⟨['t'], "a INT".toList, 1, "CREATE /* new */ TABLE t (a INT);".toList, none⟩

end TableTypes
