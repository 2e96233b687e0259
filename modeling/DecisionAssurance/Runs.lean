import Mathlib.Data.List.Induction

/-!
# Runs of a labelled transition system

A run is kept with its trace: the list of the transitions taken, each with the state it
left and the state it reached. Properties of histories ("was accepted earlier in the run")
are properties of the trace, and invariants may mention it.
-/

namespace DecisionAssurance.Runs

variable {σ α : Type*}

structure Transition (σ α : Type*) where
  before : σ
  label : α
  after : σ

abbrev Trace (σ α : Type*) := List (Transition σ α)

inductive Run (step : σ → α → σ → Prop) (s : σ) : Trace σ α → σ → Prop
  | nil : Run step s [] s
  | snoc {tr : Trace σ α} {t u : σ} {a : α} :
      Run step s tr t → step t a u → Run step s (tr ++ [⟨t, a, u⟩]) u

variable {step : σ → α → σ → Prop} {s t u : σ} {a : α} {tr : Trace σ α}

theorem Run.single (h : step s a t) : Run step s [⟨s, a, t⟩] t :=
  Run.snoc Run.nil h

theorem Run.append {tr' : Trace σ α} (h : Run step s tr t) (h' : Run step t tr' u) :
    Run step s (tr ++ tr') u := by
  induction h' with
  | nil => simpa only [List.append_nil] using h
  | snoc _ hs ih => simpa only [List.append_assoc] using ih.snoc hs

/-- A property of the trace and the state that every step extends holds after every run. -/
theorem Run.invariant (J : Trace σ α → σ → Prop) (hnil : J [] s)
    (hsnoc : ∀ tr t a u, Run step s tr t → J tr t → step t a u → J (tr ++ [⟨t, a, u⟩]) u)
    (h : Run step s tr t) : J tr t := by
  induction h with
  | nil => exact hnil
  | snoc hr hs ih => exact hsnoc _ _ _ _ hr ih hs

theorem Run.invariant_state (I : σ → Prop) (hs : I s)
    (hstep : ∀ t a u, I t → step t a u → I u) (h : Run step s tr t) : I t :=
  h.invariant (fun _ t => I t) hs fun _ t a u _ hi hs => hstep t a u hi hs

/-- The invariant rule when the steps of the run meet a condition. -/
theorem Run.invariant_of_steps (C : Transition σ α → Prop) (J : Trace σ α → σ → Prop)
    (hnil : J [] s)
    (hsnoc : ∀ tr t a u, Run step s tr t → J tr t → step t a u → C ⟨t, a, u⟩ →
      J (tr ++ [⟨t, a, u⟩]) u)
    (h : Run step s tr t) (hc : ∀ x ∈ tr, C x) : J tr t := by
  induction h with
  | nil => exact hnil
  | snoc hr hs ih =>
    refine hsnoc _ _ _ _ hr (ih fun x hx => hc x (List.mem_append_left _ hx)) hs ?_
    exact hc _ (List.mem_append_right _ (List.mem_singleton_self _))

/-- Cutting a run at one of its transitions. -/
theorem Run.split {pre post : Trace σ α} {x : Transition σ α}
    (h : Run step s (pre ++ x :: post) t) :
    Run step s pre x.before ∧ step x.before x.label x.after ∧ Run step x.after post t := by
  induction post using List.reverseRecOn generalizing t with
  | nil =>
    generalize htr : pre ++ [x] = tr at h
    cases h with
    | nil => simp at htr
    | snoc hr hs =>
      obtain ⟨rfl, hx⟩ := List.append_inj' htr rfl
      cases hx
      exact ⟨hr, hs, Run.nil⟩
  | append_singleton post y ih =>
    generalize htr : pre ++ x :: (post ++ [y]) = tr at h
    cases h with
    | nil => simp at htr
    | snoc hr hs =>
      rw [← List.cons_append, ← List.append_assoc] at htr
      obtain ⟨rfl, hy⟩ := List.append_inj' htr rfl
      cases hy
      obtain ⟨hpre, hx, hpost⟩ := ih hr
      exact ⟨hpre, hx, hpost.snoc hs⟩

theorem Run.exists_split {pre post : Trace σ α} (h : Run step s (pre ++ post) t) :
    ∃ u, Run step s pre u ∧ Run step u post t := by
  cases post with
  | nil => exact ⟨t, by simpa only [List.append_nil] using h, Run.nil⟩
  | cons x post =>
    obtain ⟨hpre, hx, hpost⟩ := h.split
    refine ⟨x.before, hpre, ?_⟩
    exact Run.append (Run.single hx) hpost

theorem Run.step_of_mem {x : Transition σ α} (h : Run step s tr t) (hx : x ∈ tr) :
    step x.before x.label x.after := by
  obtain ⟨pre, post, rfl⟩ := List.append_of_mem hx
  exact h.split.2.1

/-- Where a property is kept by exactly the steps that meet a condition, it holds after every step
of a run if and only if they all do. -/
theorem Run.forall_after_iff (I P : σ → Prop) (C : Transition σ α → Prop) (hs : I s) (hP : P s)
    (hstep : ∀ t a u, I t → step t a u → I u)
    (hiff : ∀ t a u, I t → P t → step t a u → (P u ↔ C ⟨t, a, u⟩)) (h : Run step s tr t) :
    (∀ x ∈ tr, P x.after) ↔ ∀ x ∈ tr, C x := by
  have hlast : ((∀ x ∈ tr, P x.after) ↔ ∀ x ∈ tr, C x) ∧ I t ∧ ((∀ x ∈ tr, P x.after) → P t) := by
    induction h with
    | nil => simp [hs, hP]
    | snoc hr ha ih =>
      obtain ⟨ihiff, hI, hafter⟩ := ih
      simp only [List.forall_mem_append, List.forall_mem_singleton]
      refine ⟨?_, hstep _ _ _ hI ha, And.right⟩
      constructor
      · intro ⟨hall, hu⟩
        exact ⟨ihiff.mp hall, (hiff _ _ _ hI (hafter hall) ha).mp hu⟩
      · intro ⟨hall, hc⟩
        have hprior := ihiff.mpr hall
        exact ⟨hprior, (hiff _ _ _ hI (hafter hprior) ha).mpr hc⟩
  exact hlast.1

/-- A list of labels none of which fails has a run. -/
theorem run_of_foldlM (f : σ → α → Option σ) {as : List α} (h : as.foldlM f s = some t) :
    ∃ tr : Trace σ α, Run (fun s a u => f s a = some u) s tr t ∧
      tr.map Transition.label = as := by
  induction as generalizing s with
  | nil =>
    obtain rfl : s = t := Option.some.inj h
    exact ⟨[], Run.nil, rfl⟩
  | cons a as ih =>
    rw [List.foldlM_cons] at h
    cases hf : f s a with
    | none =>
      rw [hf] at h
      cases h
    | some u =>
      rw [hf] at h
      obtain ⟨tr, hr, hlabels⟩ := ih h
      refine ⟨⟨s, a, u⟩ :: tr, Run.append (Run.single hf) hr, ?_⟩
      rw [List.map_cons, hlabels]

/-- An element of what a trace emits is emitted by one of its transitions. -/
theorem flatMap_eq_append_cons {ι ε : Type*} {f : ι → List ε} {l : List ι} {a c : List ε} {e : ε}
    (h : l.flatMap f = a ++ e :: c) :
    ∃ l₁ x l₂ a' c', l = l₁ ++ x :: l₂ ∧ f x = a' ++ e :: c' ∧
      a = l₁.flatMap f ++ a' ∧ c = c' ++ l₂.flatMap f := by
  induction l generalizing a with
  | nil => simp at h
  | cons x l ih =>
    rw [List.flatMap_cons] at h
    rcases List.append_eq_append_iff.mp h with ⟨m, rfl, hm⟩ | ⟨m, hx, hm⟩
    · obtain ⟨l₁, y, l₂, a', c', rfl, hy, rfl, rfl⟩ := ih hm
      exact ⟨x :: l₁, y, l₂, a', c', rfl, hy, by rw [List.flatMap_cons, List.append_assoc], rfl⟩
    · cases m with
      | nil =>
        rw [List.append_nil] at hx
        obtain ⟨l₁, y, l₂, a', c', rfl, hy, ha, rfl⟩ := ih (a := []) (by simpa using hm.symm)
        obtain ⟨hl₁, rfl⟩ := List.append_eq_nil_iff.mp ha.symm
        exact ⟨x :: l₁, y, l₂, [], c', rfl, hy,
          by rw [List.flatMap_cons, hl₁, List.append_nil, List.append_nil, hx], rfl⟩
      | cons y m =>
        rw [List.cons_append] at hm
        obtain ⟨rfl, rfl⟩ := List.cons.inj hm
        exact ⟨[], x, l, a, m, rfl, hx, by rw [List.flatMap_nil, List.nil_append], rfl⟩

/-- The trace of a list of labels when each label fixes the state reached. -/
def execute (next : σ → α → σ) (s : σ) : List α → Trace σ α
  | [] => []
  | a :: as => ⟨s, a, next s a⟩ :: execute next (next s a) as

theorem run_execute (step : σ → α → σ → Prop) (next : σ → α → σ)
    (hnext : ∀ s a, step s a (next s a)) (s : σ) (as : List α) :
    Run step s (execute next s as) (as.foldl next s) := by
  induction as generalizing s with
  | nil => exact Run.nil
  | cons a as ih => exact Run.append (Run.single (hnext s a)) (ih (next s a))

theorem after_of_mem_execute {next : σ → α → σ} {as : List α} {x : Transition σ α}
    (hx : x ∈ execute next s as) : x.after = next x.before x.label := by
  induction as generalizing s with
  | nil => cases hx
  | cons a as ih =>
    rcases List.mem_cons.mp hx with rfl | hx
    · rfl
    · exact ih hx

theorem label_of_mem_execute {next : σ → α → σ} {as : List α} {x : Transition σ α}
    (hx : x ∈ execute next s as) : x.label ∈ as := by
  induction as generalizing s with
  | nil => cases hx
  | cons a as ih =>
    rcases List.mem_cons.mp hx with rfl | hx
    · exact List.mem_cons_self
    · exact List.mem_cons_of_mem _ (ih hx)

/-- The invariant rule at the transitions of an execution whose steps meet a condition. -/
theorem execute_invariant {next : σ → α → σ} (I : σ → Prop) (C : Transition σ α → Prop)
    (hstep : ∀ t a, I t → C ⟨t, a, next t a⟩ → I (next t a)) {as : List α} (hs : I s)
    (hc : ∀ x ∈ execute next s as, C x) : ∀ x ∈ execute next s as, I x.before ∧ I x.after := by
  induction as generalizing s with
  | nil => exact fun x hx => absurd hx List.not_mem_nil
  | cons a as ih =>
    intro x hx
    have hnext : I (next s a) := hstep s a hs (hc _ List.mem_cons_self)
    rcases List.mem_cons.mp hx with rfl | hx
    · exact ⟨hs, hnext⟩
    · exact ih hnext (fun y hy => hc y (List.mem_cons_of_mem _ hy)) x hx

/-- Every transition of one kind in a trace is followed by one of another kind. -/
def FollowedBy (P Q : Transition σ α → Prop) (tr : Trace σ α) : Prop :=
  ∀ pre x post, tr = pre ++ x :: post → P x → ∃ y ∈ post, Q y

theorem followedBy_append_singleton {P Q : Transition σ α → Prop} {x : Transition σ α} :
    FollowedBy P Q (tr ++ [x]) ↔ ¬ P x ∧ (Q x ∨ FollowedBy P Q tr) := by
  constructor
  · intro h
    refine ⟨fun hx => ?_, or_iff_not_imp_left.mpr fun hq pre y post htr hy => ?_⟩
    · obtain ⟨y, hy, -⟩ := h tr x [] rfl hx
      cases hy
    · obtain ⟨z, hz, hqz⟩ := h pre y (post ++ [x]) (by simp [htr]) hy
      rcases List.mem_append.mp hz with hz | hz
      · exact ⟨z, hz, hqz⟩
      · rw [List.mem_singleton.mp hz] at hqz
        exact absurd hqz hq
  · rintro ⟨hx, h⟩ pre y post htr hy
    cases post using List.reverseRecOn with
    | nil =>
      obtain ⟨-, hsame⟩ := List.append_inj' htr rfl
      cases hsame
      exact absurd hy hx
    | append_singleton post z =>
      rw [← List.cons_append, ← List.append_assoc] at htr
      obtain ⟨hpre, hsame⟩ := List.append_inj' htr rfl
      cases hsame
      rcases h with hq | h
      · exact ⟨x, List.mem_append_right _ (List.mem_singleton_self x), hq⟩
      · obtain ⟨w, hw, hqw⟩ := h pre y post hpre hy
        exact ⟨w, List.mem_append_left _ hw, hqw⟩

end DecisionAssurance.Runs
