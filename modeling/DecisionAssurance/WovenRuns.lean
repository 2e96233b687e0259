import Mathlib.Logic.Function.Basic
import DecisionAssurance.Exceptions
import DecisionAssurance.Runs

/-!
# Interleaved procedures over a shared store

A procedure is a finite program of atomic steps: it reads the store, reads a clock, or makes
one atomic write that commits or raises. Any number of clients run procedures against one
store, interleaved step by step. `Guarantees` is the rely/guarantee logic for procedures:
what the procedure saw stays true only as far as the rely relation keeps it, and each of its
writes satisfies the guarantee.
-/

namespace DecisionAssurance.Interleaving

open Runs

/-- Procedures over stores `σ` with clock readings `τ`, errors `ε`, write replies `ρ`. -/
inductive Proc (σ τ ε ρ α : Type)
  | done (result : Except ε α)
  | clock (k : τ → Proc σ τ ε ρ α)
  | read (k : σ → Proc σ τ ε ρ α)
  | write (w : σ → Except ε (ρ × σ)) (k : Except ε ρ → Proc σ τ ε ρ α)

variable {σ τ ε ρ α β : Type}

namespace Proc

def bind : Proc σ τ ε ρ α → (α → Proc σ τ ε ρ β) → Proc σ τ ε ρ β
  | .done (.ok a), f => f a
  | .done (.error e), _ => .done (.error e)
  | .clock k, f => .clock fun t => (k t).bind f
  | .read k, f => .read fun s => (k s).bind f
  | .write w k, f => .write w fun r => (k r).bind f

instance : Monad (Proc σ τ ε ρ) where
  pure a := .done (.ok a)
  bind := bind

/-- One read of the store. -/
def get (f : σ → α) : Proc σ τ ε ρ α := .read fun s => .done (.ok (f s))

def now : Proc σ τ ε ρ τ := .clock fun t => .done (.ok t)

def raise (e : ε) : Proc σ τ ε ρ α := .done (.error e)

/-- One write whose error is raised by the procedure. -/
def commit (w : σ → Except ε (ρ × σ)) : Proc σ τ ε ρ ρ := .write w .done

/-- One write whose error the procedure handles. -/
def attempt (w : σ → Except ε (ρ × σ)) : Proc σ τ ε ρ (Except ε ρ) :=
  .write w fun r => .done (.ok r)

/-- A procedure run on its own, with the clock readings it makes. -/
def run : Proc σ τ ε ρ α → (ℕ → τ) → σ → Except ε α × σ
  | .done r, _, s => (r, s)
  | .clock k, c, s => (k (c 0)).run (fun n => c (n + 1)) s
  | .read k, c, s => (k s).run c s
  | .write w k, c, s =>
    match w s with
    | .ok (r, s') => (k (.ok r)).run c s'
    | .error e => (k (.error e)).run c s

/-- One atomic step: the store after it and the procedure that remains. -/
def advance (t : τ) (s : σ) : Proc σ τ ε ρ α → σ × Option (Proc σ τ ε ρ α)
  | .done _ => (s, none)
  | .clock k => (s, some (k t))
  | .read k => (s, some (k s))
  | .write w k =>
    match w s with
    | .ok (r, s') => (s', some (k (.ok r)))
    | .error e => (s, some (k (.error e)))

theorem run_get_bind (f : σ → α) (k : α → Proc σ τ ε ρ β) (c : ℕ → τ) (s : σ) :
    (get f >>= k).run c s = (k (f s)).run c s := rfl

theorem run_now_bind (k : τ → Proc σ τ ε ρ β) (c : ℕ → τ) (s : σ) :
    (now >>= k).run c s = (k (c 0)).run (fun n => c (n + 1)) s := rfl

theorem run_commit_ok {w : σ → Except ε (ρ × σ)} {s s' : σ} {r : ρ} (h : w s = .ok (r, s'))
    (k : ρ → Proc σ τ ε ρ β) (c : ℕ → τ) : (commit w >>= k).run c s = (k r).run c s' := by
  change run (.write w fun r => (Proc.done r).bind k) c s = _
  simp only [run, h, bind]

theorem run_commit_error {w : σ → Except ε (ρ × σ)} {s : σ} {e : ε} (h : w s = .error e)
    (k : ρ → Proc σ τ ε ρ β) (c : ℕ → τ) : (commit w >>= k).run c s = (.error e, s) := by
  change run (.write w fun r => (Proc.done r).bind k) c s = _
  simp only [run, h, bind]

theorem run_attempt_ok {w : σ → Except ε (ρ × σ)} {s s' : σ} {r : ρ} (h : w s = .ok (r, s'))
    (k : Except ε ρ → Proc σ τ ε ρ β) (c : ℕ → τ) :
    (attempt w >>= k).run c s = (k (.ok r)).run c s' := by
  change run (.write w k) c s = _
  simp only [run, h]

theorem run_attempt_error {w : σ → Except ε (ρ × σ)} {s : σ} {e : ε} (h : w s = .error e)
    (k : Except ε ρ → Proc σ τ ε ρ β) (c : ℕ → τ) :
    (attempt w >>= k).run c s = (k (.error e)).run c s := by
  change run (.write w k) c s = _
  simp only [run, h]

/-! ## Rely and guarantee -/

section Logic

variable (R G : σ → σ → Prop)

/-- From a store satisfying `P`, with other writes bounded by `R`, every write satisfies `G`
and every end satisfies `Q`. -/
def Guarantees (Q : Except ε α → σ → Prop) : Proc σ τ ε ρ α → (σ → Prop) → Prop
  | .done r, P => ∀ s, P s → Q r s
  | .clock k, P => ∀ t, (k t).Guarantees Q P
  | .read k, P => ∀ s, P s → (k s).Guarantees Q (R s)
  | .write w k, P => ∀ s, P s →
    match w s with
    | .ok (r, s') => G s s' ∧ (k (.ok r)).Guarantees Q (R s')
    | .error e => (k (.error e)).Guarantees Q (R s)

def Stable (P : σ → Prop) : Prop := ∀ s s', P s → R s s' → P s'

variable {R G} {Q : Except ε α → σ → Prop}

theorem Guarantees.mono {p : Proc σ τ ε ρ α} {P P' : σ → Prop} (h : p.Guarantees R G Q P)
    (hP : ∀ s, P' s → P s) : p.Guarantees R G Q P' := by
  induction p with
  | done r => exact fun s hs => h s (hP s hs)
  | clock k ih => exact fun t => ih t (h t)
  | read k ih => exact fun s hs => h s (hP s hs)
  | write w k ih => exact fun s hs => h s (hP s hs)

theorem Guarantees.post {p : Proc σ τ ε ρ α} {P : σ → Prop} {Q' : Except ε α → σ → Prop}
    (h : p.Guarantees R G Q P) (hQ : ∀ r s, Q r s → Q' r s) : p.Guarantees R G Q' P := by
  induction p generalizing P with
  | done r => exact fun s hs => hQ r s (h s hs)
  | clock k ih => exact fun t => ih t (h t)
  | read k ih => exact fun s hs => ih s (h s hs)
  | write w k ih =>
    intro s hs
    have hw := h s hs
    cases hws : w s with
    | ok r =>
      simp only [hws] at hw ⊢
      exact ⟨hw.1, ih _ hw.2⟩
    | error e =>
      simp only [hws] at hw ⊢
      exact ih _ hw

theorem Guarantees.bind {p : Proc σ τ ε ρ α} {f : α → Proc σ τ ε ρ β} {P : σ → Prop}
    {Q' : Except ε β → σ → Prop} (h : p.Guarantees R G Q P)
    (hok : ∀ a, (f a).Guarantees R G Q' (Q (.ok a)))
    (herror : ∀ e s, Q (.error e) s → Q' (.error e) s) :
    (p >>= f).Guarantees R G Q' P := by
  change (p.bind f).Guarantees R G Q' P
  induction p generalizing P with
  | done r =>
    cases r with
    | ok a => exact (hok a).mono h
    | error e => exact fun s hs => herror e s (h s hs)
  | clock k ih => exact fun t => ih t (h t)
  | read k ih => exact fun s hs => ih s (h s hs)
  | write w k ih =>
    intro s hs
    have hw := h s hs
    cases hws : w s with
    | ok r =>
      simp only [hws] at hw ⊢
      exact ⟨hw.1, ih _ hw.2⟩
    | error e =>
      simp only [hws] at hw ⊢
      exact ih _ hw

/-- A fact that does not depend on the store is at hand in the whole procedure. -/
theorem Guarantees.assume {p : Proc σ τ ε ρ α} {P : σ → Prop} {a : Prop}
    (h : a → p.Guarantees R G Q P) : p.Guarantees R G Q fun s => P s ∧ a := by
  by_cases ha : a
  · exact (h ha).mono fun s hs => hs.1
  · clear h
    induction p with
    | done r => exact fun s hs => absurd hs.2 ha
    | clock k ih => exact fun t => ih t
    | read k => exact fun s hs => absurd hs.2 ha
    | write w k => exact fun s hs => absurd hs.2 ha

theorem guarantees_raise {e : ε} {P : σ → Prop} (h : ∀ s, P s → Q (.error e) s) :
    (raise e : Proc σ τ ε ρ α).Guarantees R G Q P := h

theorem guarantees_pure {a : α} {P : σ → Prop} (h : ∀ s, P s → Q (.ok a) s) :
    (pure a : Proc σ τ ε ρ α).Guarantees R G Q P := h

theorem guarantees_get {f : σ → α} {k : α → Proc σ τ ε ρ β} {P : σ → Prop}
    {Q : Except ε β → σ → Prop} (h : ∀ s, P s → (k (f s)).Guarantees R G Q (R s)) :
    (get f >>= k).Guarantees R G Q P := h

theorem guarantees_now {k : τ → Proc σ τ ε ρ β} {P : σ → Prop} {Q : Except ε β → σ → Prop}
    (h : ∀ t, (k t).Guarantees R G Q P) : (now >>= k).Guarantees R G Q P := h

theorem guarantees_commit {w : σ → Except ε (ρ × σ)} {P : σ → Prop}
    {Q : Except ε ρ → σ → Prop}
    (hok : ∀ s r s', P s → w s = .ok (r, s') → G s s' ∧ ∀ u, R s' u → Q (.ok r) u)
    (herror : ∀ s e, P s → w s = .error e → ∀ u, R s u → Q (.error e) u) :
    (commit w : Proc σ τ ε ρ ρ).Guarantees R G Q P := by
  intro s hs
  cases hw : w s with
  | ok r => exact hok s r.1 r.2 hs hw
  | error e => exact herror s e hs hw

theorem guarantees_attempt {w : σ → Except ε (ρ × σ)} {k : Except ε ρ → Proc σ τ ε ρ β}
    {P : σ → Prop} {Q : Except ε β → σ → Prop}
    (hok : ∀ s r s', P s → w s = .ok (r, s') → G s s' ∧ (k (.ok r)).Guarantees R G Q (R s'))
    (herror : ∀ s e, P s → w s = .error e → (k (.error e)).Guarantees R G Q (R s)) :
    (attempt w >>= k).Guarantees R G Q P := by
  intro s hs
  cases hw : w s with
  | ok r => exact hok s r.1 r.2 hs hw
  | error e => exact herror s e hs hw

/-- Run alone, a procedure that guarantees a postcondition against no interference ends in it. -/
theorem Guarantees.run {p : Proc σ τ ε ρ α} {P : σ → Prop} {s : σ}
    (h : p.Guarantees (fun s s' => s = s') G Q P) (hs : P s) (c : ℕ → τ) :
    Q (p.run c s).1 (p.run c s).2 := by
  induction p generalizing P c s with
  | done r => exact h s hs
  | clock k ih => exact ih (c 0) (h (c 0)) hs fun n => c (n + 1)
  | read k ih => exact ih s (h s hs) rfl c
  | write w k ih =>
    have hw := h s hs
    cases hws : w s with
    | ok r =>
      simp only [hws] at hw
      simp only [Proc.run, hws]
      exact ih _ hw.2 rfl c
    | error e =>
      simp only [hws] at hw
      simp only [Proc.run, hws]
      exact ih _ hw rfl c

end Logic

end Proc

/-! ## Systems -/

/-- A store and the procedures the clients are in the middle of. -/
structure System (σ τ ε ρ α : Type) where
  shared : σ
  procs : ℕ → Option (Proc σ τ ε ρ α)

inductive Action (σ τ ε ρ α : Type)
  | spawn (client : ℕ) (p : Proc σ τ ε ρ α)
  | advance (client : ℕ) (t : τ)

/-- A client that is idle starts a procedure of the system, or a client takes one step. -/
def SystemStep (startable : Proc σ τ ε ρ α → Prop) (sys : System σ τ ε ρ α) :
    Action σ τ ε ρ α → System σ τ ε ρ α → Prop
  | .spawn c p, sys' => sys.procs c = none ∧ startable p ∧
      sys' = ⟨sys.shared, Function.update sys.procs c (some p)⟩
  | .advance c t, sys' => ∃ p, sys.procs c = some p ∧
      sys' = ⟨(p.advance t sys.shared).1,
        Function.update sys.procs c (p.advance t sys.shared).2⟩

abbrev SystemTrace (σ τ ε ρ α : Type) := Trace (System σ τ ε ρ α) (Action σ τ ε ρ α)

/-- A store no client works on. -/
def System.idle (s : σ) : System σ τ ε ρ α := ⟨s, fun _ => none⟩

@[simp] theorem System.idle_shared (s : σ) : (System.idle s : System σ τ ε ρ α).shared = s := rfl

/-- The steps of one client from the middle of a procedure to its end. -/
theorem run_client (startable : Proc σ τ ε ρ α → Prop) (client : ℕ) (p : Proc σ τ ε ρ α)
    (c : ℕ → τ) (s : σ) : ∃ tr, Run (SystemStep startable)
      ⟨s, Function.update (fun _ => none) client (some p)⟩ tr (System.idle (p.run c s).2) := by
  have hstep : ∀ (p : Proc σ τ ε ρ α) s t, SystemStep startable
      ⟨s, Function.update (fun _ => none) client (some p)⟩ (.advance client t)
      ⟨(p.advance t s).1, Function.update (fun _ => none) client (p.advance t s).2⟩ :=
    fun p s t => ⟨p, by simp only [Function.update_self], by rw [Function.update_idem]⟩
  induction p generalizing c s with
  | done r =>
    have h := hstep (.done r) s (c 0)
    simp only [Proc.advance, Function.update_eq_self] at h
    exact ⟨_, Run.single h⟩
  | clock k ih =>
    obtain ⟨tr, hr⟩ := ih (c 0) (fun n => c (n + 1)) s
    exact ⟨_, (Run.single (hstep (.clock k) s (c 0))).append hr⟩
  | read k ih =>
    obtain ⟨tr, hr⟩ := ih s c s
    exact ⟨_, (Run.single (hstep (.read k) s (c 0))).append hr⟩
  | write w k ih =>
    have h := hstep (.write w k) s (c 0)
    cases hw : w s with
    | ok r =>
      simp only [Proc.advance, hw] at h
      obtain ⟨tr, hr⟩ := ih (.ok r.1) c r.2
      simp only [Proc.run, hw]
      exact ⟨_, (Run.single h).append hr⟩
    | error e =>
      simp only [Proc.advance, hw] at h
      obtain ⟨tr, hr⟩ := ih (.error e) c s
      simp only [Proc.run, hw]
      exact ⟨_, (Run.single h).append hr⟩

/-- A procedure run on its own is a run of the system. -/
theorem run_alone (startable : Proc σ τ ε ρ α → Prop) (client : ℕ) {p : Proc σ τ ε ρ α}
    (hp : startable p) (c : ℕ → τ) (s : σ) :
    ∃ tr, Run (SystemStep startable) (System.idle s) tr (System.idle (p.run c s).2) := by
  have hspawn : SystemStep startable (System.idle s) (.spawn client p)
      ⟨s, Function.update (fun _ => none) client (some p)⟩ := ⟨rfl, hp, rfl⟩
  obtain ⟨tr, hr⟩ := run_client startable client p c s
  exact ⟨_, (Run.single hspawn).append hr⟩

section Results

/-- What a client ended with in a transition. -/
def ended (x : Transition (System σ τ ε ρ α) (Action σ τ ε ρ α)) : Option (Except ε α) :=
  match x.label with
  | .advance c _ =>
    match x.before.procs c with
    | some (.done r) => some r
    | _ => none
  | .spawn _ _ => none

/-- The values that clients returned, in the order in which they ended. -/
def returned (tr : SystemTrace σ τ ε ρ α) : List α := tr.filterMap fun x => (ended x).bind toOption

theorem returned_snoc (tr : SystemTrace σ τ ε ρ α)
    (x : Transition (System σ τ ε ρ α) (Action σ τ ε ρ α)) :
    returned (tr ++ [x]) = returned tr ++ ((ended x).bind toOption).toList := by
  unfold returned
  rw [List.filterMap_append]
  cases h : (ended x).bind toOption <;> simp [h]

theorem ended_advance {sys sys' : System σ τ ε ρ α} {c : ℕ} {t : τ} {p : Proc σ τ ε ρ α}
    (hc : sys.procs c = some p) (hp : ∀ r, p ≠ .done r) :
    ended ⟨sys, .advance c t, sys'⟩ = none := by
  cases p with
  | done r => exact absurd rfl (hp r)
  | _ => simp only [ended, hc]

theorem ended_done {sys sys' : System σ τ ε ρ α} {c : ℕ} {t : τ} {r : Except ε α}
    (hc : sys.procs c = some (.done r)) : ended ⟨sys, .advance c t, sys'⟩ = some r := by
  simp only [ended, hc]

/-- The state an action leads to, where it can be taken. -/
def System.next (sys : System σ τ ε ρ α) : Action σ τ ε ρ α → System σ τ ε ρ α
  | .spawn c p => ⟨sys.shared, Function.update sys.procs c (some p)⟩
  | .advance c t =>
    match sys.procs c with
    | none => sys
    | some p => ⟨(p.advance t sys.shared).1, Function.update sys.procs c (p.advance t sys.shared).2⟩

/-- Every procedure that is under way is at a place that `Q` allows in the store. -/
def Everywhere (Q : σ → Proc σ τ ε ρ α → Prop) (sys : System σ τ ε ρ α) : Prop :=
  ∀ c p, sys.procs c = some p → Q sys.shared p

theorem everywhere_idle (Q : σ → Proc σ τ ε ρ α → Prop) (s : σ) :
    Everywhere Q (System.idle s) := by
  intro c p hp
  cases hp

theorem everywhere_step {startable : Proc σ τ ε ρ α → Prop} {Q : σ → Proc σ τ ε ρ α → Prop}
    {sys sys' : System σ τ ε ρ α} {a : Action σ τ ε ρ α}
    (hstart : ∀ s p, startable p → Q s p)
    (hadvance : ∀ s p t, Q s p → (∀ p', (p.advance t s).2 = some p' → Q (p.advance t s).1 p') ∧
      ∀ p', Q s p' → Q (p.advance t s).1 p')
    (h : Everywhere Q sys) (hstep : SystemStep startable sys a sys') : Everywhere Q sys' := by
  intro c' p' hp'
  cases a with
  | spawn c p =>
    obtain ⟨-, hs, rfl⟩ := hstep
    by_cases hc : c' = c
    · subst hc
      simp only [Function.update_self, Option.some.injEq] at hp'
      subst hp'
      exact hstart _ _ hs
    · simp only [Function.update_of_ne hc] at hp'
      exact h c' p' hp'
  | advance c t =>
    obtain ⟨p, hp, rfl⟩ := hstep
    obtain ⟨hnext, hothers⟩ := hadvance _ _ t (h c p hp)
    by_cases hc : c' = c
    · subst hc
      simp only [Function.update_self] at hp'
      exact hnext p' hp'
    · simp only [Function.update_of_ne hc] at hp'
      exact hothers p' (h c' p' hp')

end Results

section Soundness

variable {R G : σ → σ → Prop} {Q : Except ε α → σ → Prop} {I : σ → Prop}
  {startable : Proc σ τ ε ρ α → Prop}

/-- Every client is in a procedure that guarantees `G` from what it knows of the store. -/
def Supervised (R G : σ → σ → Prop) (Q : Except ε α → σ → Prop) (I : σ → Prop)
    (sys : System σ τ ε ρ α) : Prop :=
  I sys.shared ∧ ∀ c p, sys.procs c = some p →
    ∃ P : σ → Prop, P sys.shared ∧ Proc.Stable R P ∧ p.Guarantees R G Q P

/-- One step of a supervised client: the store is kept or changed within the guarantee, and
what remains is supervised again. -/
theorem advance_guarantees (hrefl : ∀ s, R s s)
    (htrans : ∀ s t u, R s t → R t u → R s u) {p : Proc σ τ ε ρ α} {P : σ → Prop} {s : σ}
    (hs : P s) (hP : Proc.Stable R P) (h : p.Guarantees R G Q P) (t : τ) :
    ((p.advance t s).1 = s ∨ G s (p.advance t s).1) ∧
      ∀ p', (p.advance t s).2 = some p' →
        ∃ P' : σ → Prop, P' (p.advance t s).1 ∧ Proc.Stable R P' ∧ p'.Guarantees R G Q P' := by
  have hfuture : ∀ u, Proc.Stable R (R u) := fun u v w huv hvw => htrans u v w huv hvw
  cases p with
  | done r => exact ⟨.inl rfl, nofun⟩
  | clock k => exact ⟨.inl rfl, fun p' hp' => by cases hp'; exact ⟨P, hs, hP, h t⟩⟩
  | read k =>
    exact ⟨.inl rfl, fun p' hp' => by cases hp'; exact ⟨R s, hrefl s, hfuture s, h s hs⟩⟩
  | write w k =>
    have hw := h s hs
    unfold Proc.advance
    cases hws : w s with
    | ok r =>
      simp only [hws] at hw ⊢
      refine ⟨.inr hw.1, fun p' hp' => ?_⟩
      cases hp'
      exact ⟨R r.2, hrefl _, hfuture _, hw.2⟩
    | error e =>
      simp only [hws] at hw ⊢
      refine ⟨.inl trivial, fun p' hp' => ?_⟩
      cases hp'
      exact ⟨R s, hrefl _, hfuture _, hw⟩

theorem supervised_step (hrefl : ∀ s, R s s)
    (htrans : ∀ s t u, R s t → R t u → R s u) (hGR : ∀ s s', G s s' → R s s')
    (hI : Proc.Stable R I) (hstart : ∀ p, startable p → p.Guarantees R G Q I)
    {sys sys' : System σ τ ε ρ α} {a : Action σ τ ε ρ α} (h : Supervised R G Q I sys)
    (hstep : SystemStep startable sys a sys') :
    Supervised R G Q I sys' ∧ (sys'.shared = sys.shared ∨ G sys.shared sys'.shared) := by
  obtain ⟨hi, hp⟩ := h
  cases a with
  | spawn c p =>
    obtain ⟨-, hs, rfl⟩ := hstep
    refine ⟨⟨hi, fun c' p' hp' => ?_⟩, .inl rfl⟩
    by_cases hc : c' = c
    · subst hc
      simp only [Function.update_self, Option.some.injEq] at hp'
      subst hp'
      exact ⟨I, hi, hI, hstart p hs⟩
    · simp only [Function.update_of_ne hc] at hp'
      exact hp c' p' hp'
  | advance c t =>
    obtain ⟨p, hc, rfl⟩ := hstep
    obtain ⟨P, hs, hP, hg⟩ := hp c p hc
    obtain ⟨hchange, hrest⟩ := advance_guarantees hrefl htrans hs hP hg t
    have hR : R sys.shared (p.advance t sys.shared).1 := by
      rcases hchange with he | hG
      · rw [he]
        exact hrefl _
      · exact hGR _ _ hG
    refine ⟨⟨hI _ _ hi hR, fun c' p' hp' => ?_⟩, hchange⟩
    by_cases hc' : c' = c
    · subst hc'
      simp only [Function.update_self] at hp'
      exact hrest p' hp'
    · simp only [Function.update_of_ne hc'] at hp'
      obtain ⟨P', hs', hP', hg'⟩ := hp c' p' hp'
      exact ⟨P', hP' _ _ hs' hR, hP', hg'⟩

/-- In every interleaving of guaranteed procedures, each step keeps the store or changes it
within the guarantee. -/
theorem guarantee_of_run (hrefl : ∀ s, R s s)
    (htrans : ∀ s t u, R s t → R t u → R s u) (hGR : ∀ s s', G s s' → R s s')
    (hI : Proc.Stable R I) (hstart : ∀ p, startable p → p.Guarantees R G Q I)
    {sys₀ sys : System σ τ ε ρ α} (hi : I sys₀.shared) (hidle : ∀ c, sys₀.procs c = none)
    {tr : SystemTrace σ τ ε ρ α} (hr : Run (SystemStep startable) sys₀ tr sys) :
    I sys.shared ∧ ∀ x ∈ tr, I x.before.shared ∧
      (x.after.shared = x.before.shared ∨ G x.before.shared x.after.shared) := by
  suffices hsup : Supervised R G Q I sys ∧ ∀ x ∈ tr, I x.before.shared ∧
      (x.after.shared = x.before.shared ∨ G x.before.shared x.after.shared) from
    ⟨hsup.1.1, hsup.2⟩
  refine hr.invariant (fun tr sys => Supervised R G Q I sys ∧ ∀ x ∈ tr, I x.before.shared ∧
    (x.after.shared = x.before.shared ∨ G x.before.shared x.after.shared)) ?_ ?_
  · refine ⟨⟨hi, fun c p hp => ?_⟩, fun x hx => absurd hx List.not_mem_nil⟩
    rw [hidle] at hp
    cases hp
  · rintro tr t a u - ⟨hsup, hall⟩ hstep
    obtain ⟨hsup', hchange⟩ := supervised_step hrefl htrans hGR hI hstart hsup hstep
    refine ⟨hsup', fun x hx => ?_⟩
    rcases List.mem_append.mp hx with hx | hx
    · exact hall x hx
    · rw [List.mem_singleton.mp hx]
      exact ⟨hsup.1, hchange⟩

end Soundness

end DecisionAssurance.Interleaving
