import TableTypes.Fault
import Mathlib.Data.List.Forall2

/-!
# Computations with reports

A report that ends well ends well at every step (`Report.bind_eq_ok`), and a step that reports
nothing leaves the report to what follows it.  Reports are a lawful monad: it does not matter how
the steps of a computation are grouped, neither for its result nor for its warnings.
-/

namespace TableTypes.Report

variable {α β : Type}

@[simp] theorem pure_bind (a : α) (f : α → Report β) : (pure a : Report α) >>= f = f a := rfl

@[simp] theorem ofExcept_ok {ε : Type} (kind : ε → Fault) (a : α) :
    ofExcept kind (.ok a) = pure a := rfl

theorem bind_eq_ok {r : Report α} {f : α → Report β} {b : β}
    (h : (r >>= f).outcome = .ok b) : ∃ a, r.outcome = .ok a ∧ (f a).outcome = .ok b := by
  have hbind : (r.andThen f).outcome = .ok b := h
  rw [andThen] at hbind
  cases hr : r.outcome with
  | error e => rw [hr] at hbind; cases hbind
  | ok a => rw [hr] at hbind; exact ⟨a, rfl, hbind⟩

theorem ofExcept_eq_ok {ε : Type} {kind : ε → Fault} {r : Except ε α} {a : α}
    (h : (Report.ofExcept kind r).outcome = .ok a) : r = .ok a := by
  cases r with
  | error e => cases h
  | ok b => exact congrArg Except.ok (Except.ok.inj h)

/-- A computation fails where one of its steps fails. -/
theorem bind_eq_error_iff {r : Report α} {f : α → Report β} {e : Fault} :
    (r >>= f).outcome = .error e ↔
      r.outcome = .error e ∨ ∃ a, r.outcome = .ok a ∧ (f a).outcome = .error e := by
  show (r.andThen f).outcome = .error e ↔ _
  rw [andThen]
  cases hr : r.outcome with
  | error e' => simp
  | ok a => simp

/-- Steps that tell nothing fail as the first of them fails. -/
theorem outcome_ofExcept_bind {ε : Type} {kind : ε → Fault} {r : Except ε α} {f : α → Report β}
    {g : α → Except ε β} (h : ∀ a, (f a).outcome = (g a).mapError kind) :
    (ofExcept kind r >>= f).outcome = (r.bind g).mapError kind := by
  cases r with
  | error e => rfl
  | ok a => exact h a

/-! ### Steps -/

theorem bind_of_ok {r : Report α} {a : α} (h : r.outcome = .ok a) (f : α → Report β) :
    r >>= f = ⟨r.warnings ++ (f a).warnings, (f a).outcome⟩ := by
  show r.andThen f = _
  rw [andThen, h]

theorem bind_of_error {r : Report α} {e : Fault} (h : r.outcome = .error e) (f : α → Report β) :
    r >>= f = ⟨r.warnings, .error e⟩ := by
  show r.andThen f = _
  rw [andThen, h]

/-- What is made of a result tells nothing. -/
theorem warnings_bind_pure (r : Report α) (f : α → β) :
    (r >>= fun a => pure (f a)).warnings = r.warnings := by
  obtain ⟨warnings, outcome⟩ := r
  cases outcome with
  | error e => rfl
  | ok a => exact List.append_nil warnings

/-- Only what is done with the result of a step matters. -/
theorem bind_congr_ok {r : Report α} {f g : α → Report β}
    (h : ∀ a, r.outcome = .ok a → f a = g a) : r >>= f = r >>= g := by
  cases hr : r.outcome with
  | error e => rw [bind_of_error hr, bind_of_error hr]
  | ok a => rw [bind_of_ok hr, bind_of_ok hr, h a hr]

theorem bind_pure_self (r : Report α) : r >>= pure = r := by
  obtain ⟨warnings, outcome⟩ := r
  cases outcome with
  | error e => rfl
  | ok a =>
    show (⟨warnings ++ [], .ok a⟩ : Report α) = _
    rw [List.append_nil]

theorem bind_assoc_self {γ : Type} (r : Report α) (f : α → Report β) (g : β → Report γ) :
    r >>= f >>= g = r >>= fun a => f a >>= g := by
  cases hr : r.outcome with
  | error e =>
    have hrf : (r >>= f).outcome = .error e := by rw [bind_of_error hr]
    rw [bind_of_error hrf, bind_of_error hr, bind_of_error hr]
  | ok a =>
    have hrf : (r >>= f).outcome = (f a).outcome := by rw [bind_of_ok hr]
    cases hf : (f a).outcome with
    | error e =>
      rw [bind_of_error (hrf.trans hf), bind_of_ok hr, bind_of_ok hr, bind_of_error hf]
    | ok b =>
      rw [bind_of_ok (hrf.trans hf), bind_of_ok hr, bind_of_ok hr, bind_of_ok hf,
        List.append_assoc]

instance : LawfulMonad Report :=
  LawfulMonad.mk' Report (fun r => bind_pure_self r) (fun _ _ => rfl) bind_assoc_self

/-- The results of a computation over a list are those of its members. -/
theorem forall₂_of_mapM {f : α → Report β} {as : List α} {bs : List β}
    (h : (as.mapM f).outcome = .ok bs) : List.Forall₂ (fun a b => (f a).outcome = .ok b) as bs := by
  induction as generalizing bs with
  | nil =>
    obtain rfl : [] = bs := Except.ok.inj h
    exact .nil
  | cons a as ih =>
    rw [List.mapM_cons] at h
    obtain ⟨b, hb, h⟩ := bind_eq_ok h
    obtain ⟨bs', hbs, h⟩ := bind_eq_ok h
    obtain rfl : b :: bs' = bs := Except.ok.inj h
    exact .cons hb (ih hbs)

theorem map_eq_of_mapM {γ : Type} {f : α → Report β} {as : List α} {bs : List β}
    (h : (as.mapM f).outcome = .ok bs) {v : β → γ} {w : α → γ}
    (hf : ∀ a ∈ as, ∀ b, (f a).outcome = .ok b → v b = w a) : bs.map v = as.map w := by
  replace h := forall₂_of_mapM h
  induction h with
  | nil => rfl
  | cons hab _ ih =>
    rw [List.map_cons, List.map_cons, hf _ List.mem_cons_self _ hab,
      ih fun a ha => hf a (List.mem_cons_of_mem _ ha)]

theorem forall₂_of_mapM_ok {ε : Type} {f : α → Except ε β} {as : List α} {bs : List β}
    (h : as.mapM f = .ok bs) : List.Forall₂ (fun a b => f a = .ok b) as bs := by
  induction as generalizing bs with
  | nil =>
    obtain rfl : [] = bs := Except.ok.inj h
    exact .nil
  | cons a as ih =>
    rw [List.mapM_cons] at h
    cases ha : f a with
    | error e => rw [ha] at h; cases h
    | ok b =>
      rw [ha] at h
      cases has : as.mapM f with
      | error e => rw [has] at h; cases h
      | ok bs' =>
        rw [has] at h
        obtain rfl : b :: bs' = bs := Except.ok.inj h
        exact .cons ha (ih has)

theorem mapM_of_forall₂ {ε : Type} {f : α → Except ε β} {as : List α} {bs : List β}
    (h : List.Forall₂ (fun a b => f a = .ok b) as bs) : as.mapM f = .ok bs := by
  induction h with
  | nil => rfl
  | cons hab _ ih =>
    rw [List.mapM_cons, hab, ih]
    rfl

/-- The first member with a property is the one in front, or the first one behind it. -/
theorem exists_first_cons {a : α} {as : List α} {Q R : α → Prop} :
    (∃ (i : Nat) (x : α), (a :: as)[i]? = some x ∧ Q x ∧
      ∀ j y, j < i → (a :: as)[j]? = some y → R y) ↔
      Q a ∨ R a ∧ ∃ (i : Nat) (x : α), as[i]? = some x ∧ Q x ∧
        ∀ j y, j < i → as[j]? = some y → R y := by
  constructor
  · rintro ⟨i, x, hx, hQ, hR⟩
    cases i with
    | zero =>
      obtain rfl := Option.some.inj hx
      exact .inl hQ
    | succ i =>
      refine .inr ⟨hR 0 a (Nat.succ_pos i) rfl, i, x, hx, hQ, fun j y hj hy => ?_⟩
      exact hR (j + 1) y (Nat.succ_lt_succ hj) hy
  · rintro (hQ | ⟨hRa, i, x, hx, hQ, hR⟩)
    · exact ⟨0, a, rfl, hQ, fun j _ hj => absurd hj (Nat.not_lt_zero j)⟩
    · refine ⟨i + 1, x, hx, hQ, fun j y hj hy => ?_⟩
      cases j with
      | zero =>
        obtain rfl := Option.some.inj hy
        exact hRa
      | succ j => exact hR j y (Nat.lt_of_succ_lt_succ hj) hy

/-- A computation over some members of a list fails at the first of them where it does. -/
theorem mapM_filter_eq_error_iff {ε : Type} {f : α → Except ε β} {p : α → Bool} {as : List α}
    {e : ε} : (as.filter p).mapM f = .error e ↔
      ∃ (i : Nat) (a : α), as[i]? = some a ∧ (p a = true ∧ f a = .error e) ∧
        ∀ j b, j < i → as[j]? = some b → p b = true → ∃ c, f b = .ok c := by
  induction as with
  | nil =>
    refine ⟨fun h => (nomatch h), ?_⟩
    rintro ⟨i, a, ha, -⟩
    cases ha
  | cons a as ih =>
    rw [exists_first_cons, ← ih, List.filter_cons]
    by_cases ha : p a = true
    · rw [if_pos ha]
      cases hfa : f a with
      | error e' =>
        have hfail : (a :: as.filter p).mapM f = .error e' := by
          rw [List.mapM_cons, hfa]
          rfl
        rw [hfail]
        constructor
        · exact fun h => .inl ⟨ha, congrArg Except.error (Except.error.inj h)⟩
        · rintro (⟨-, h⟩ | ⟨h, -⟩)
          · exact congrArg Except.error (Except.error.inj h)
          · obtain ⟨c, hc⟩ := h ha
            cases hc
      | ok b =>
        have hgo : (a :: as.filter p).mapM f = ((as.filter p).mapM f).map (b :: ·) := by
          rw [List.mapM_cons, hfa]
          cases (as.filter p).mapM f <;> rfl
        rw [hgo]
        constructor
        · intro h
          refine .inr ⟨fun _ => ⟨b, rfl⟩, ?_⟩
          cases hrest : (as.filter p).mapM f with
          | error e' =>
            rw [hrest] at h
            exact h
          | ok bs =>
            rw [hrest] at h
            cases h
        · rintro (⟨-, h⟩ | ⟨-, h⟩)
          · cases h
          · rw [h]
            rfl
    · rw [if_neg ha]
      exact ⟨fun h => .inr ⟨fun h' => absurd h' ha, h⟩, fun h => h.elim (fun h' => absurd h'.1 ha)
        fun h' => h'.2⟩

/-- A computation over a list fails at the first member where it does. -/
theorem mapM_eq_error_iff {ε : Type} {f : α → Except ε β} {as : List α} {e : ε} :
    as.mapM f = .error e ↔ ∃ (i : Nat) (a : α), as[i]? = some a ∧ f a = .error e ∧
      ∀ j b, j < i → as[j]? = some b → ∃ c, f b = .ok c := by
  have hall : as.filter (fun _ => true) = as := List.filter_eq_self.mpr fun _ _ => rfl
  have h := @mapM_filter_eq_error_iff α β ε f (fun _ => true) as e
  simpa only [hall, true_and, forall_const] using h

/-- A list of outcomes ends well with as many results, or with an error that is in it. -/
theorem mapM_id_cases {ε : Type} (l : List (Except ε α)) :
    (∃ as, l.mapM id = .ok as ∧ as.length = l.length) ∨
      ∃ e, l.mapM id = .error e ∧ .error e ∈ l := by
  cases h : l.mapM id with
  | ok as => exact Or.inl ⟨as, rfl, (forall₂_of_mapM_ok h).length_eq.symm⟩
  | error e =>
    obtain ⟨i, r, hr, hfail, -⟩ := mapM_eq_error_iff.mp h
    obtain rfl : r = .error e := hfail
    exact Or.inr ⟨e, rfl, List.mem_of_getElem? hr⟩

theorem error_mem_of_mapM {ε : Type} {l : List (Except ε α)} {e : ε}
    (h : l.mapM id = .error e) : .error e ∈ l := by
  obtain ⟨as, hok, -⟩ | ⟨e', herror, hmem⟩ := mapM_id_cases l
  · cases hok.symm.trans h
  · cases herror.symm.trans h
    exact hmem

theorem exists_of_forall₂ {R : α → β → Prop} {as : List α} {bs : List β}
    (h : List.Forall₂ R as bs) {b : β} (hb : b ∈ bs) : ∃ a ∈ as, R a b := by
  obtain ⟨i, rfl⟩ := List.mem_iff_get.mp hb
  have hi : i.val < as.length := h.length_eq.symm ▸ i.isLt
  exact ⟨as.get ⟨i, hi⟩, List.get_mem as _, h.get hi i.isLt⟩

/-! ### Two computations -/

/-- Two outcomes with the same error or with related results. -/
inductive EndAlike {ε : Type} (R : α → β → Prop) : Except ε α → Except ε β → Prop
  | ok {a : α} {b : β} : R a b → EndAlike R (.ok a) (.ok b)
  | error {e : ε} : EndAlike R (.error e) (.error e)

namespace EndAlike

variable {γ δ ε ζ : Type} {R : α → β → Prop} {S : γ → δ → Prop} {r : Except ε α} {s : Except ε β}

theorem refl (r : Except ε α) : EndAlike Eq r r := by
  cases r with
  | ok a => exact .ok rfl
  | error e => exact .error

theorem bind {f : α → Except ε γ} {g : β → Except ε δ} (h : EndAlike R r s)
    (hfg : ∀ a b, R a b → EndAlike S (f a) (g b)) : EndAlike S (r.bind f) (s.bind g) := by
  cases h with
  | ok hab => exact hfg _ _ hab
  | error => exact .error

theorem mapError (h : EndAlike R r s) (kind : ε → ζ) :
    EndAlike R (r.mapError kind) (s.mapError kind) := by
  cases h with
  | ok hab => exact .ok hab
  | error => exact .error

theorem mapM {ι : Type} {f : ι → Except ε α} {g : ι → Except ε β} {is : List ι}
    (h : ∀ i, EndAlike R (f i) (g i)) : EndAlike (List.Forall₂ R) (is.mapM f) (is.mapM g) := by
  induction is with
  | nil => exact .ok .nil
  | cons i is ih =>
    rw [List.mapM_cons, List.mapM_cons]
    exact (h i).bind fun a b hab => ih.bind fun as bs habs => .ok (.cons hab habs)

end EndAlike

/-- Two reports with the same warnings that end with the same fault or with related results. -/
inductive Agrees (R : α → β → Prop) : Report α → Report β → Prop
  | ok {ws : List Warning} {a : α} {b : β} : R a b → Agrees R ⟨ws, .ok a⟩ ⟨ws, .ok b⟩
  | error {ws : List Warning} {e : Fault} : Agrees R ⟨ws, .error e⟩ ⟨ws, .error e⟩

namespace Agrees

variable {γ δ : Type} {R : α → β → Prop} {S : γ → δ → Prop}

theorem refl (r : Report α) : Agrees Eq r r := by
  obtain ⟨ws, outcome⟩ := r
  cases outcome with
  | error e => exact .error
  | ok a => exact .ok rfl

/-- The related results are those of the reports. -/
theorem outcome {r : Report α} {s : Report β} (h : Agrees R r s) :
    Agrees (fun a b => R a b ∧ r.outcome = .ok a ∧ s.outcome = .ok b) r s := by
  cases h with
  | ok hab => exact .ok ⟨hab, rfl, rfl⟩
  | error => exact .error

theorem bind {r : Report α} {s : Report β} {f : α → Report γ} {g : β → Report δ}
    (h : Agrees R r s) (hfg : ∀ a b, R a b → Agrees S (f a) (g b)) :
    Agrees S (r >>= f) (s >>= g) := by
  cases h with
  | error => exact .error
  | @ok ws a b hab =>
    show Agrees S ⟨ws ++ (f a).warnings, (f a).outcome⟩ ⟨ws ++ (g b).warnings, (g b).outcome⟩
    have hstep := hfg a b hab
    generalize f a = r, g b = s at hstep
    cases hstep with
    | ok hcd => exact .ok hcd
    | error => exact .error

theorem mapM {ι : Type} {f : ι → Report α} {g : ι → Report β} {is : List ι}
    (h : ∀ i ∈ is, Agrees R (f i) (g i)) : Agrees (List.Forall₂ R) (is.mapM f) (is.mapM g) := by
  induction is with
  | nil => exact .ok .nil
  | cons i is ih =>
    rw [List.forall_mem_cons] at h
    rw [List.mapM_cons, List.mapM_cons]
    exact h.1.bind fun a b hab => (ih h.2).bind fun as bs habs => .ok (.cons hab habs)

end Agrees

end TableTypes.Report
