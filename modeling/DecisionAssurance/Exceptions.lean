import Mathlib.Tactic.SplitIfs

/-!
# Computations that raise

Inversion of the successful runs of an `Except` computation.
-/

namespace DecisionAssurance

variable {ε α β : Type}

theorem bind_ok_cases {x : Except ε α} {f : α → Except ε β} {b : β}
    (h : (x >>= f) = .ok b) : ∃ a, x = .ok a ∧ f a = .ok b := by
  cases x with
  | error e => cases h
  | ok a => exact ⟨a, rfl, h⟩

theorem bind_error_cases {x : Except ε α} {f : α → Except ε β} {e : ε}
    (h : (x >>= f) = .error e) : x = .error e ∨ ∃ a, x = .ok a ∧ f a = .error e := by
  cases x with
  | error e' => exact .inl (congrArg Except.error (Except.error.inj h))
  | ok a => exact .inr ⟨a, rfl, h⟩

@[simp] theorem ok_bind (a : α) (f : α → Except ε β) : ((.ok a : Except ε α) >>= f) = f a := rfl

@[simp] theorem error_bind (e : ε) (f : α → Except ε β) :
    ((.error e : Except ε α) >>= f) = .error e := rfl

theorem mapError_ok {ε' : Type} {x : Except ε α} {f : ε → ε'} {a : α}
    (h : x.mapError f = .ok a) : x = .ok a := by
  cases x with
  | error e => cases h
  | ok b =>
    cases h
    rfl

/-- The value of an option; raising `e` where there is none. -/
def orRaise (e : ε) : Option α → Except ε α
  | some a => .ok a
  | none => .error e

theorem orRaise_ok {e : ε} {x : Option α} {a : α} : orRaise e x = .ok a ↔ x = some a := by
  cases x with
  | none => simp only [orRaise, reduceCtorEq]
  | some b => simp only [orRaise, Except.ok.injEq, Option.some.injEq]

theorem orRaise_error {e e' : ε} {x : Option α} : orRaise e x = .error e' ↔ x = none ∧ e = e' := by
  cases x with
  | none => simp only [orRaise, Except.error.injEq, true_and]
  | some b => simp only [orRaise, reduceCtorEq, false_and]

/-- The value a computation returns, or another one where it raises. -/
def valueOr (x : Except ε α) (a : α) : α :=
  match x with
  | .ok b => b
  | .error _ => a

@[simp] theorem valueOr_ok (a b : α) : valueOr (.ok b : Except ε α) a = b := rfl

/-- The value of a computation that does not raise. -/
def toOption : Except ε α → Option α
  | .ok a => some a
  | .error _ => none

theorem toOption_eq_some {x : Except ε α} {a : α} : toOption x = some a ↔ x = .ok a := by
  cases x with
  | error e => simp only [toOption, reduceCtorEq]
  | ok b => simp only [toOption, Option.some.injEq, Except.ok.injEq]

theorem mapM_ok_iff {f : α → Except ε β} {xs : List α} {ys : List β} :
    xs.mapM f = .ok ys ↔ xs.map f = ys.map .ok := by
  induction xs generalizing ys with
  | nil => cases ys <;> simp [pure, Except.pure]
  | cons x xs ih =>
    rw [List.mapM_cons]
    constructor
    · intro h
      obtain ⟨y, hy, h⟩ := bind_ok_cases h
      obtain ⟨ys', hys, h⟩ := bind_ok_cases h
      cases h
      rw [List.map_cons, List.map_cons, hy, ih.mp hys]
    · intro h
      cases ys with
      | nil => cases h
      | cons y ys =>
        obtain ⟨hy, hys⟩ := List.cons.inj h
        rw [hy, ih.mpr hys]
        rfl

theorem mapM_error_cases {f : α → Except ε β} {xs : List α} {e : ε}
    (h : xs.mapM f = .error e) : ∃ x ∈ xs, f x = .error e := by
  induction xs with
  | nil => cases h
  | cons x xs ih =>
    rw [List.mapM_cons] at h
    rcases bind_error_cases h with h | ⟨y, -, h⟩
    · exact ⟨x, List.mem_cons_self, h⟩
    · rcases bind_error_cases h with h | ⟨ys, -, h⟩
      · obtain ⟨x', hx', hfx'⟩ := ih h
        exact ⟨x', List.mem_cons_of_mem _ hx', hfx'⟩
      · cases h

end DecisionAssurance
