import TableTypes.Declaration
import TableTypes.Proofs.Declaration.Layout
import TableTypes.Proofs.Report

/-!
# Declarations one by one

Each declaration is a block of code by itself (`isBlock_of_declaration`), and so are several of them
with blank lines between.  Hence without comments the declarations of two lists of tables are those of
the first and those of the second, with a blank line between, and the reports add up
(`generate_append_eq`, `Generator.generate_append`).
-/

namespace TableTypes

open Text

/-! ### Joined blocks -/

theorem join_append (separator : Text) {xs ys : List Text} (hx : xs ≠ []) (hy : ys ≠ []) :
    join separator (xs ++ ys) = join separator xs ++ (separator ++ join separator ys) := by
  obtain ⟨x, xs, rfl⟩ := List.exists_cons_of_ne_nil hx
  obtain ⟨y, ys, rfl⟩ := List.exists_cons_of_ne_nil hy
  rw [List.cons_append, join_cons, join_cons, join_cons, List.flatMap_append, List.flatMap_cons]
  simp only [List.append_assoc]

theorem isBlock_join {ds : List Text} (hne : ds ≠ []) (hds : ∀ d ∈ ds, IsBlock d) :
    IsBlock (join ['\n', '\n'] ds) := by
  induction ds with
  | nil => exact absurd rfl hne
  | cons d ds ih =>
    have hd := hds d List.mem_cons_self
    cases ds with
    | nil =>
      rw [join_cons, List.flatMap_nil, List.append_nil]
      exact hd
    | cons e ds =>
      rw [join_cons_cons]
      exact hd.append (ih (List.cons_ne_nil e ds) fun x hx => hds x (List.mem_cons_of_mem d hx))

namespace Generator

/-! ### One declaration -/

/-- The line of a property, behind the comment on it. -/
def propertyLine (g : Generator) (c : Column) (tsType : Text) : Text :=
  "  ".toList ++ g.options.propertyName c.name ++
    (if g.options.isOptional c then ['?'] else []) ++ ": ".toList ++ tsType ++
    (if c.nullable && !g.options.isOptional c then " | null".toList else []) ++ [';']

/-- The first line of a declaration, behind the comment on it. -/
def openingLine (g : Generator) (t : Table) : Text :=
  match g.options.exportType with
  | .interface => "export interface ".toList ++ g.options.declarationName t.name ++ " \x7b".toList
  | .type => "export type ".toList ++ g.options.declarationName t.name ++ " = \x7b".toList

/-- The last line of a declaration. -/
def closingLine (g : Generator) : Text :=
  match g.options.exportType with
  | .interface => "\x7d".toList
  | .type => "\x7d;".toList

variable {g : Generator}

theorem property_eq (c : Column) : g.property c = g.mapper.map c.type g.dialect >>= fun ts =>
    pure ((if g.options.includeComments then c.commentBlock else []) ++ g.propertyLine c ts) := by
  simp only [property, propertyLine, List.append_assoc]

theorem declaration_eq (t : Table) : g.declaration t = t.columns.mapM g.property >>= fun ps =>
    pure ((if g.options.includeComments then TableTypes.commentBlock [] t.commentLines else []) ++
      (g.openingLine t ++ '\n' :: (join ['\n'] ps ++ '\n' :: g.closingLine))) := by
  simp only [declaration, openingLine, closingLine, List.append_assoc]
  rfl

/-- A declaration begins with `export` or the comment on it and ends with its closing brace or a
semicolon. -/
theorem isBlock_of_declaration {t : Table} {d : Text} (h : (g.declaration t).outcome = .ok d) :
    IsBlock d := by
  obtain ⟨properties, -, h⟩ := Report.bind_eq_ok h
  obtain rfl := Except.ok.inj h
  constructor
  · cases g.options.includeComments with
    | true => exact ⟨'/', _, rfl, by decide⟩
    | false => cases g.options.exportType <;> exact ⟨'e', _, rfl, by decide⟩
  · cases g.options.exportType with
    | interface => exact ⟨_, '\x7d', rfl, by decide⟩
    | type => exact ⟨_ ++ ['\x7d'], ';', (List.append_assoc _ ['\x7d'] [';']).symm, by decide⟩

/-! ### All declarations -/

theorem isBlock_join_of_mapM {tables : List Table} (hne : tables ≠ []) {ds : List Text}
    (h : (tables.mapM g.declaration).outcome = .ok ds) :
    ds ≠ [] ∧ IsBlock (join ['\n', '\n'] ds) := by
  have hds := Report.forall₂_of_mapM h
  have hds_ne : ds ≠ [] := by
    rintro rfl
    exact hne (List.forall₂_nil_right_iff.mp hds)
  refine ⟨hds_ne, isBlock_join hds_ne fun d hd => ?_⟩
  obtain ⟨t, -, ht⟩ := Report.exists_of_forall₂ hds hd
  exact isBlock_of_declaration ht

theorem generate_of_ne_nil (now : Text) {tables : List Table} (hne : tables ≠ []) :
    g.generate now tables = tables.mapM g.declaration >>= fun ds =>
      pure (formatCode ((if g.options.includeComments then fileComment now tables.length else []) ++
        join ['\n', '\n'] ds)) := by
  rw [generate, if_neg (by rwa [List.isEmpty_iff])]
  rfl

section

variable (hplain : g.options.includeComments = false)
include hplain

theorem generate_eq (now : Text) {tables : List Table} (hne : tables ≠ []) :
    g.generate now tables = tables.mapM g.declaration >>= fun declarations =>
      pure (formatCode (join ['\n', '\n'] declarations)) := by
  rw [generate_of_ne_nil now hne, hplain]
  rfl

/-- Without comments the time of writing is not written. -/
theorem generate_timestamp (now now' : Text) (tables : List Table) :
    g.generate now tables = g.generate now' tables := by
  cases tables with
  | nil => rw [generate, generate, if_pos List.isEmpty_nil, if_pos List.isEmpty_nil]
  | cons t tables =>
    rw [generate_eq hplain now (List.cons_ne_nil t tables),
      generate_eq hplain now' (List.cons_ne_nil t tables)]

/-- The report on two lists of tables is that on the first and then that on the second. -/
theorem generate_append_eq (now : Text) {a b : List Table} (ha : a ≠ []) (hb : b ≠ []) :
    g.generate now (a ++ b) = g.generate now a >>= fun x =>
      g.generate now b >>= fun y => pure (x ++ ['\n'] ++ y) := by
  have hab : a ++ b ≠ [] := fun h => ha (List.append_eq_nil_iff.mp h).1
  -- Both sides write the declarations of `a` and then those of `b`; only the layout is left.
  rw [generate_eq hplain now hab, generate_eq hplain now ha, generate_eq hplain now hb,
    List.mapM_append, bind_assoc, bind_assoc]
  refine Report.bind_congr_ok fun xs hxs => ?_
  rw [bind_assoc, Report.pure_bind, bind_assoc]
  refine Report.bind_congr_ok fun ys hys => ?_
  obtain ⟨hxs_ne, hx⟩ := isBlock_join_of_mapM ha hxs
  obtain ⟨hys_ne, hy⟩ := isBlock_join_of_mapM hb hys
  rw [Report.pure_bind, Report.pure_bind, join_append _ hxs_ne hys_ne, formatCode_append hx hy]

/-- **Without comments the code of two lists of tables is the code of the first, a newline and the
code of the second**, with the warnings of the first before those of the second; and it cannot be
written exactly if that of one of them cannot. -/
theorem generate_append {a b : List Table} (ha : a ≠ []) (hb : b ≠ []) (now now₁ now₂ : Text) :
    (∀ x y, (g.generate now₁ a).outcome = .ok x → (g.generate now₂ b).outcome = .ok y →
      g.generate now (a ++ b) = ⟨(g.generate now₁ a).warnings ++ (g.generate now₂ b).warnings,
        .ok (x ++ ['\n'] ++ y)⟩) ∧
    ((∃ e, (g.generate now (a ++ b)).outcome = .error e) ↔
      (∃ e, (g.generate now₁ a).outcome = .error e) ∨
        ∃ e, (g.generate now₂ b).outcome = .error e) := by
  rw [generate_append_eq hplain now ha hb, generate_timestamp hplain now now₁ a,
    generate_timestamp hplain now now₂ b]
  cases hx : (g.generate now₁ a).outcome with
  | error e =>
    rw [Report.bind_of_error hx]
    exact ⟨fun _ _ h => (nomatch h), fun _ => .inl ⟨e, rfl⟩, fun _ => ⟨e, rfl⟩⟩
  | ok x =>
    rw [Report.bind_of_ok hx]
    cases hy : (g.generate now₂ b).outcome with
    | error e =>
      rw [Report.bind_of_error hy]
      exact ⟨fun _ _ _ h => (nomatch h), fun _ => .inr ⟨e, rfl⟩, fun _ => ⟨e, rfl⟩⟩
    | ok y =>
      rw [Report.bind_of_ok hy]
      constructor
      · intro _ _ hx' hy'
        obtain rfl := Except.ok.inj hx'
        obtain rfl := Except.ok.inj hy'
        show (⟨_ ++ (_ ++ []), .ok (x ++ ['\n'] ++ y)⟩ : Report Text) = _
        rw [List.append_nil]
      · exact ⟨fun ⟨_, h⟩ => (nomatch h), fun h => h.elim (nomatch ·) (nomatch ·)⟩

end

/-- A table without columns before one with a column of an unknown type. -/
theorem generate_append_unknownType :
    let g : Generator :=
      ⟨.plain, "mysql".toList, { GeneratorOptions.standard with includeComments := false }⟩
    let a : List Table := [⟨['t'], [], [], none⟩]
    let b : List Table := [⟨['u'], [⟨['c'], "shape".toList, false, none, [], none⟩], [], none⟩]
    (g.options.includeComments = false ∧ a ≠ [] ∧ b ≠ []) ∧
      g.generate [] (a ++ b) = ⟨[.unrecognizedType "shape".toList .mysql],
        .ok "export interface t \x7b\x7d\n\nexport interface u \x7b\n  c: any;\n\x7d\n".toList⟩ := by
  intro g a b
  have hwarnings : (g.generate [] a).warnings ++ (g.generate [] b).warnings =
      [.unrecognizedType "shape".toList .mysql] := by
    decide +kernel
  refine ⟨⟨rfl, List.cons_ne_nil _ _, List.cons_ne_nil _ _⟩, ?_⟩
  rw [(generate_append rfl (List.cons_ne_nil _ _) (List.cons_ne_nil _ _) [] [] []).1
    "export interface t \x7b\x7d\n".toList "export interface u \x7b\n  c: any;\n\x7d\n".toList
    (by decide +kernel) (by decide +kernel), hwarnings]
  rfl

end Generator

end TableTypes
