import DecisionAssurance.Exceptions

/-!
# Computations that fail

A computation fails if it raises an exception of a kind. A sequence of computations fails where
the first of them that does not return fails.
-/

namespace DecisionAssurance

variable {ε ε' α β : Type}

/-- A computation raises an exception of a kind. -/
def Fails (P : ε → Prop) (x : Except ε α) : Prop := ∃ e, x = .error e ∧ P e

variable {P : ε → Prop}

@[simp] theorem not_fails_ok (a : α) : ¬Fails P (.ok a : Except ε α) := by
  rintro ⟨e, he, -⟩
  cases he

@[simp] theorem not_fails_pure (a : α) : ¬Fails P (pure a : Except ε α) := not_fails_ok a

@[simp] theorem fails_error (e : ε) : Fails P (.error e : Except ε α) ↔ P e := by
  constructor
  · rintro ⟨e', he, h⟩
    cases he
    exact h
  · intro h
    exact ⟨e, rfl, h⟩

theorem fails_bind {x : Except ε α} {f : α → Except ε β} :
    Fails P (x >>= f) ↔ Fails P x ∨ ∃ a, x = .ok a ∧ Fails P (f a) := by
  cases x with
  | error e => simp
  | ok a => simp

theorem fails_orRaise {e : ε} {x : Option α} : Fails P (orRaise e x) ↔ x = none ∧ P e := by
  cases x with
  | none => simp [orRaise]
  | some a => simp [orRaise]

theorem fails_mapError {x : Except ε' α} {f : ε' → ε} :
    Fails P (x.mapError f) ↔ Fails (fun e => P (f e)) x := by
  cases x with
  | error e => simp [Except.mapError]
  | ok a => simp [Except.mapError]

/-- One element fails, and those before it return. -/
theorem fails_mapM {f : α → Except ε β} {xs : List α} :
    Fails P (xs.mapM f) ↔ ∃ before x after, xs = before ++ x :: after ∧
      (∀ y ∈ before, ∃ b, f y = .ok b) ∧ Fails P (f x) := by
  induction xs with
  | nil => simp [pure, Except.pure]
  | cons x xs ih =>
    rw [List.mapM_cons, fails_bind]
    constructor
    · rintro (h | ⟨b, hb, h⟩)
      · exact ⟨[], x, xs, rfl, by simp, h⟩
      · rcases fails_bind.mp h with h | ⟨bs, -, h⟩
        · obtain ⟨before, y, after, rfl, hbefore, hy⟩ := ih.mp h
          refine ⟨x :: before, y, after, rfl, ?_, hy⟩
          intro z hz
          rcases List.mem_cons.mp hz with rfl | hz
          · exact ⟨b, hb⟩
          · exact hbefore z hz
        · exact absurd h (not_fails_ok _)
    · rintro ⟨before, y, after, hxs, hbefore, hy⟩
      cases before with
      | nil =>
        obtain ⟨rfl, rfl⟩ := List.cons.inj hxs
        exact .inl hy
      | cons z before =>
        obtain ⟨rfl, rfl⟩ := List.cons.inj hxs
        obtain ⟨b, hb⟩ := hbefore x List.mem_cons_self
        refine .inr ⟨b, hb, fails_bind.mpr (.inl (ih.mpr ⟨before, y, after, rfl, ?_, hy⟩))⟩
        intro w hw
        exact hbefore w (List.mem_cons_of_mem _ hw)

end DecisionAssurance
