import TableTypes.Proofs.TableConstraints.Decoding
import TableTypes.Proofs.TableConstraints.Parts

/-!
# One constraint, up to its first closing parenthesis

A constraint that stands at the front of a text is found first (`constraintSpans_of_read`).  Its
reader takes the list up to the first closing parenthesis, whatever this closes
(`exists_constraintsOf_textWith`).  If the text ends behind the list and the list opens no parenthesis
of its own, the readers of the other kinds find nothing (`tableConstraints_textWith`).
-/

namespace TableTypes

open Text

variable {α : Type}

/-! ### A search at the front of a text -/

section

variable {read : Text → Option (α × Text)}
  (hread : ∀ {t r : Text} {a : α}, read t = some (a, r) → TakesList t r)

include hread

theorem read_nil_of_takesList : read [] = none := by
  cases h : read [] with
  | none => rfl
  | some p =>
    obtain ⟨u, hu, hparen⟩ := hread h
    obtain ⟨rfl, -⟩ := List.append_eq_nil_iff.mp hu.symm
    exact absurd hparen List.not_mem_nil

theorem findAfter_eq_nil {t : Text} (ht : '(' ∉ t) : findAfter read t = [] :=
  findAllFrom_constraintStarts_eq_nil hread ht (some ',')

/-- What is read at the front is found first. -/
theorem constraintSpans_of_read {t r : Text} {a : α} (hdrop : dropBlanks t = t)
    (h : read t = some (a, r)) : constraintSpans read t = a :: findAfter read r := by
  rw [constraintSpans_eq_findAfter hread (read_nil_of_takesList hread)]
  exact findAfter_of_some rfl (hdrop.symm ▸ h) (hread h).suffix

end

namespace KindReader

variable {k : KindReader α}

theorem constraints_of_spans {t : Text} {as : List α} (hmask : maskQuoted t = t)
    (h : constraintSpans k.read t = as) : k.constraints t =
      (as.filter k.counts).filterMap fun a => (k.span a).constraint? k.kind t := by
  rw [constraints, hmask, h]

variable (htakes : ∀ {t r : Text} {a : α}, k.read t = some (a, r) → TakesList t r)

include htakes

/-- What is read at the front is the first constraint, and the only one if no list follows. -/
theorem exists_constraints_cons {t r : Text} {a : α} {c : TableConstraint}
    (hmask : maskQuoted t = t) (hdrop : dropBlanks t = t) (hread : k.read t = some (a, r))
    (hcounts : k.counts a = true) (hc : (k.span a).constraint? k.kind t = some c) :
    ∃ cs, k.constraints t = c :: cs ∧ ('(' ∉ r → cs = []) := by
  refine ⟨((findAfter k.read r).filter k.counts).filterMap fun a =>
    (k.span a).constraint? k.kind t, ?_, fun hr => ?_⟩
  · rw [constraints_of_spans hmask (constraintSpans_of_read htakes hdrop hread),
      List.filter_cons_of_pos hcounts, List.filterMap_cons, hc]
  · rw [findAfter_eq_nil htakes hr]
    rfl

/-- If the only thing that is read does not count, there is no constraint. -/
theorem constraints_eq_nil {t r : Text} {a : α} (hmask : maskQuoted t = t)
    (hdrop : dropBlanks t = t) (hread : k.read t = some (a, r)) (hcounts : k.counts a = false)
    (hr : '(' ∉ r) : k.constraints t = [] := by
  have hspans := constraintSpans_of_read htakes hdrop hread
  rw [findAfter_eq_nil htakes hr] at hspans
  rw [constraints_of_spans hmask hspans, List.filter_cons_of_neg (by rw [hcounts]; decide)]
  rfl

end KindReader

/-! ### The readers at the head of a constraint -/

namespace ConstraintHead

variable (h : ConstraintHead)

/-- The constraint with `list` between its parentheses, and the rest behind them. -/
def textWith (list rest : Text) : Text :=
  h.text ++ ([' ', '('] ++ (list ++ ([')'] ++ rest)))

/-- The constraint on the columns that the head begins. -/
def on (columns : List Text) : TableConstraint where
  kind := h.kind
  columns := columns
  reference := none
  name := h.name?.map Bareword.text

variable {h}

/-- What is found is cut out as a constraint on the names of the list. -/
theorem constraint?_span {u r : Text} (hnames : identifierList u ≠ []) :
    (h.span none (u ++ ')' :: r, ')' :: r) ([' ', '('] ++ (u ++ ([')'] ++ r)))).constraint? h.kind
      (h.textWith u r) = some (h.on (identifierList u)) := by
  have hcolumns : between (h.textWith u r) (u ++ ')' :: r) (')' :: r) = u := by
    have hsplit : h.textWith u r = (h.text ++ [' ', '(']) ++ u ++ (')' :: r) := by
      simp only [textWith, List.append_assoc, List.cons_append, List.nil_append]
    rw [hsplit]
    exact between_append _ u _ List.length_append rfl
  have hname : (h.span none (u ++ ')' :: r, ')' :: r) ([' ', '('] ++ (u ++ ([')'] ++ r)))).name.map
      (fun p => unquoteIdentifier (between (h.textWith u r) p.1 p.2)) =
        h.name?.map Bareword.text := by
    rw [span]
    cases hname : h.name? with
    | none => rfl
    | some n =>
      obtain ⟨k, hk⟩ := exists_text_eq hname
      have hcut : between (h.textWith u r) (n.text ++ ([' ', '('] ++ (u ++ ([')'] ++ r))))
          ([' ', '('] ++ (u ++ ([')'] ++ r))) = n.text := by
        rw [textWith, hk]
        exact between_append k n.text _ List.length_append rfl
      show some (unquoteIdentifier (between (h.textWith u r) _ _)) = some n.text
      rw [hcut, n.isListed.unquoteIdentifier.1]
  rw [ConstraintSpan.constraint?]
  simp only [hname]
  rw [span]
  simp only [hcolumns, List.isEmpty_eq_false_iff.mpr hnames]
  rfl

end ConstraintHead

/-! ### The constraints of a key -/

section

variable {h : ConstraintHead} {u r : Text}

/-- **The list ends at the first closing parenthesis**, whatever this closes; where no list follows
there is no other constraint of the kind. -/
theorem exists_constraintsOf_textWith (hkind : h.kind ≠ .foreignKey) (hu : ')' ∉ u)
    (hnames : identifierList u ≠ []) (hmask : maskQuoted (h.textWith u r) = h.textWith u r) :
    ∃ cs, constraintsOf h.kind (h.textWith u r) = h.on (identifierList u) :: cs ∧
      ('(' ∉ r → cs = []) := by
  have hne : u ≠ [] := by
    rintro rfl
    exact hnames rfl
  have hlist := columnList?_paren hne hu r
  have hlabel := h.constraintLabel_text ([' ', '('] ++ (u ++ ([')'] ++ r)))
  have hdrop := h.dropBlanks_text ([' ', '('] ++ (u ++ ([')'] ++ r)))
  have hcut := h.constraint?_span (r := r) hnames
  cases hkey : h.kind with
  | primaryKey =>
    have hread := ConstraintHead.primaryKeySpan?_eq_some hlabel hlist hkey
    rw [hkey] at hcut
    exact (plainReader .primaryKey primaryKeySpan?).exists_constraints_cons
      (fun h => (takes_of_primaryKeySpan? h).list) hmask hdrop hread rfl hcut
  | foreignKey => exact absurd hkey hkind
  | unique =>
    have hread := ConstraintHead.uniqueSpan?_eq_some hlabel hlist hkey
    rw [hkey] at hcut
    exact (plainReader .unique uniqueSpan?).exists_constraints_cons
      (fun h => (takes_of_uniqueSpan? h).list) hmask hdrop hread rfl hcut
  | index =>
    obtain ⟨n, hname⟩ := ConstraintHead.exists_name_of_index hkey
    have hread := ConstraintHead.indexSpan?_eq_some hlist hname none
    rw [hkey] at hread hcut
    exact indexReader.exists_constraints_cons (fun h => (takes_of_indexSpan? h).list) hmask hdrop
      hread rfl hcut

/-- A reader that takes nothing at a constraint finds nothing in it, if its columns have no list of
their own. -/
theorem TableReader.constraintSpans_textWith {read : Text → Option (α × Text)}
    (hread : TableReader read)
    (htakes : ∀ {t r : Text} {a : α}, read t = some (a, r) → TakesList t r)
    (hstart : read (h.textWith u r) = none)
    (hkey : ∀ n, h = .uniqueKey n → ∀ x : Text, read ("KEY ".toList ++ x) = none)
    (hrest : '(' ∉ u ++ ([')'] ++ r)) : constraintSpans read (h.textWith u r) = [] := by
  -- Up to the list the reader is asked in vain, and behind that nothing opens a list.
  have hparen : Quiet read (u ++ ([')'] ++ r)) ([' ', '('] ++ []) :=
    hread.opens.quiet_nonword rfl rfl ⟨fun h => absurd h (by decide), trivial⟩
  have hquiet := hread.quiet_head h hparen hkey
  have hpass := findAfter_pass hquiet
  rw [List.append_nil, List.append_assoc] at hpass
  have hdrop : dropBlanks (h.textWith u r) = h.textWith u r := h.dropBlanks_text _
  calc constraintSpans read (h.textWith u r)
      = findAfter read (',' :: h.textWith u r) :=
        constraintSpans_eq_findAfter htakes (read_nil_of_takesList htakes) _
    _ = findAfter read (h.textWith u r) := findAfter_of_none fun _ => hdrop.symm ▸ hstart
    _ = findAfter read (u ++ ([')'] ++ r)) := hpass
    _ = [] := findAfter_eq_nil htakes hrest

/-- A key of columns is no constraint of another kind. -/
theorem constraintsOf_textWith_eq_nil {kind : TableConstraintKind} (hkind : h.kind ≠ kind)
    (hne : u ≠ []) (hclose : ')' ∉ u) (hopen : '(' ∉ u)
    (hmask : maskQuoted (h.textWith u []) = h.textWith u []) :
    constraintsOf kind (h.textWith u []) = [] := by
  have hrest : '(' ∉ u ++ ([')'] ++ []) := by
    rw [List.append_nil, List.mem_append, not_or]
    exact ⟨hopen, by decide⟩
  have hlabel := h.constraintLabel_text ([' ', '('] ++ (u ++ ([')'] ++ [])))
  cases kind with
  | primaryKey =>
    have hspans := tableReader_primaryKey.constraintSpans_textWith
      (fun h => (takes_of_primaryKeySpan? h).list)
      (ConstraintHead.primaryKeySpan?_eq_none hlabel hkind) (fun _ _ _ => rfl) hrest
    exact (plainReader .primaryKey primaryKeySpan?).constraints_of_spans hmask hspans
  | foreignKey =>
    have hspans := tableReader_foreignKey.constraintSpans_textWith
      (fun h => (takes_of_foreignKeySpan? h).list)
      (ConstraintHead.foreignKeySpan?_eq_none hlabel hkind) (fun _ _ _ => rfl) hrest
    exact (plainReader .foreignKey foreignKeySpan?).constraints_of_spans hmask hspans
  | unique =>
    have hspans := tableReader_unique.constraintSpans_textWith
      (fun h => (takes_of_uniqueSpan? h).list)
      (ConstraintHead.uniqueSpan?_eq_none hlabel hkind) (fun n hn => absurd (hn ▸ rfl) hkind) hrest
    exact (plainReader .unique uniqueSpan?).constraints_of_spans hmask hspans
  | index =>
    cases hname : h.name? with
    | none =>
      have hspans := tableReader_index.constraintSpans_textWith
        (fun h => (takes_of_indexSpan? h).list) (ConstraintHead.indexSpan?_eq_none hname _)
        (fun n hn => by rw [hn] at hname; cases hname) hrest
      exact indexReader.constraints_of_spans hmask hspans
    | some n =>
      -- A unique key is read as an index that does not count.
      have hread := ConstraintHead.indexSpan?_eq_some (columnList?_paren hne hclose []) hname none
      rw [decide_eq_true (ConstraintHead.kind_of_name hname hkind)] at hread
      exact indexReader.constraints_eq_nil (fun h => (takes_of_indexSpan? h).list) hmask
        (h.dropBlanks_text _) hread rfl List.not_mem_nil

/-- **A key of columns is read as the constraint that it declares**, and nothing else is. -/
theorem tableConstraints_textWith (hkind : h.kind ≠ .foreignKey) (hclose : ')' ∉ u)
    (hopen : '(' ∉ u) (hnames : identifierList u ≠ []) (hplain : (h.textWith u []).all isPlain = true) :
    tableConstraints (h.textWith u []) = [h.on (identifierList u)] := by
  have hne : u ≠ [] := by
    rintro rfl
    exact hnames rfl
  have hmask := maskQuoted_plain hplain
  -- Each kind by itself: the own one has the constraint, and no other kind has any.
  obtain ⟨cs, hcs, hnil⟩ := exists_constraintsOf_textWith hkind hclose hnames hmask
  rw [hnil List.not_mem_nil] at hcs
  have hkinds : ∀ kind, constraintsOf kind (h.textWith u []) =
      if kind = h.kind then [h.on (identifierList u)] else [] := by
    intro kind
    split
    · rename_i heq
      rw [heq, hcs]
    · rename_i hne'
      exact constraintsOf_textWith_eq_nil (Ne.symm hne') hne hclose hopen hmask
  rw [tableConstraints_eq_kinds, maskComments_plain hplain]
  simp only [hkinds]
  cases h.kind <;> rfl

end

end TableTypes
