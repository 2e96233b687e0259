import DecisionAssurance.LifecycleLaws

/-!
# Legal hold safety

Over any interleaving of service calls by any number of clients, on either repository: case
data goes only with an executing request of a case without active hold, COMPLETED is never
left, and a request gets at most one completed event.
-/

namespace DecisionAssurance.Lifecycle

open Interleaving Runs

variable {σ γ : Type} {repo : LifecycleRepository σ} {v : StoreView σ γ} {s s' : σ}

/-- The log of completions and the requests agree. -/
def Settled (v : StoreView σ γ) (s : σ) : Prop :=
  ∀ k, v.completions s k = 0 ∨ (v.completions s k = 1 ∧ v.status s k = some .completed)

theorem Settled.step (h : Settled v s) (hw : SafeWrite v s s') : Settled v s' := by
  intro k
  rcases hw.events k with heq | ⟨hbefore, hafter, hone⟩
  · rw [heq]
    rcases h k with hzero | ⟨hcount, hdone⟩
    · exact .inl hzero
    · exact .inr ⟨hcount, hw.completed k hdone⟩
  · rcases h k with hzero | ⟨-, hdone⟩
    · exact .inr ⟨by omega, hafter⟩
    · exact absurd hdone hbefore

abbrev ServiceTrace (σ : Type) := SystemTrace σ String LifecycleError Reply Reply

abbrev ServiceSystem (σ : Type) := System σ String LifecycleError Reply Reply

/-- What legal hold safety asks of a run. -/
structure HoldSafe (v : StoreView σ γ) (tr : ServiceTrace σ) (sys : ServiceSystem σ) :
    Prop where
  removal : ∀ x ∈ tr, RemovesSafely v x.before.shared x.after.shared
  completed : ∀ x ∈ tr, CompletedKept v x.before.shared x.after.shared
  once : ∀ k, v.completions sys.shared k ≤ 1

/-- What holds of every write of a run, and of the store at its end. -/
theorem safeWrite_of_run (g : Digests) (hl : Laws repo v) {s₀ : σ} {tr : ServiceTrace σ}
    {sys : ServiceSystem σ} (ht : Tracked v s₀)
    (hr : Run (SystemStep (ServiceCall g repo)) (System.idle s₀) tr sys) :
    Tracked v sys.shared ∧ Kept v s₀ sys.shared ∧ ∀ x ∈ tr, x.after.shared = x.before.shared ∨
      SafeWrite v x.before.shared x.after.shared := by
  obtain ⟨ht', hsteps⟩ := guarantee_of_run Kept.refl Kept.trans (fun _ _ hw => hw.toKept)
    tracked_stable (fun _ hp => serviceCall_spec g hl hp) ht (fun _ => rfl) hr
  have hwrites : ∀ x ∈ tr, x.after.shared = x.before.shared ∨
      SafeWrite v x.before.shared x.after.shared := fun x hx => (hsteps x hx).2
  refine ⟨ht', ?_, hwrites⟩
  refine hr.invariant_of_steps (fun x => x.after.shared = x.before.shared ∨
    SafeWrite v x.before.shared x.after.shared) (fun _ sys => Kept v s₀ sys.shared)
    (Kept.refl s₀) ?_ hwrites
  rintro _ t _ u - hkept - (he | hw)
  · exact he ▸ hkept
  · exact hkept.trans _ _ _ hw.toKept

theorem holdSafe_of_laws (g : Digests) (hl : Laws repo v) {s₀ : σ} {tr : ServiceTrace σ}
    {sys : ServiceSystem σ} (ht : Tracked v s₀) (hlog : ∀ k, v.completions s₀ k = 0)
    (hr : Run (SystemStep (ServiceCall g repo)) (System.idle s₀) tr sys) : HoldSafe v tr sys := by
  obtain ⟨-, -, hsteps⟩ := safeWrite_of_run g hl ht hr
  have hwrite : ∀ x ∈ tr, SafeWrite v x.before.shared x.after.shared := by
    intro x hx
    rcases hsteps x hx with he | hw
    · rw [he]
      exact SafeWrite.refl _
    · exact hw
  have hsettled : Settled v sys.shared := by
    refine hr.invariant_of_steps (fun x => SafeWrite v x.before.shared x.after.shared)
      (fun _ sys => Settled v sys.shared) (fun k => .inl (hlog k)) ?_ hwrite
    intro _ _ _ _ _ hset _ hw
    exact hset.step hw
  refine ⟨fun x hx => (hwrite x hx).removal, fun x hx => (hwrite x hx).completed, fun k => ?_⟩
  rcases hsettled k with hzero | ⟨hone, -⟩ <;> omega

theorem tracked_of_empty {s₀ : σ} (hreq : ∀ k, v.request s₀ k = none) : Tracked v s₀ := by
  intro k st hk
  rw [StoreView.standing, hreq] at hk
  cases hk

theorem holdSafe_of_empty (g : Digests) (hl : Laws repo v) {s₀ : σ} {tr : ServiceTrace σ}
    {sys : ServiceSystem σ} (hreq : ∀ k, v.request s₀ k = none) (hlog : v.log s₀ = [])
    (hr : Run (SystemStep (ServiceCall g repo)) (System.idle s₀) tr sys) : HoldSafe v tr sys := by
  refine holdSafe_of_laws g hl (tracked_of_empty hreq) (fun k => ?_) hr
  rw [StoreView.completions, hlog, List.countP_nil]

/-- Legal hold safety of the pilot lifecycle service on both repositories, from any cases and
holds but no deletion request yet. -/
theorem legalHold_safety (g : Digests) (isoformat : String → String) (δ : Type) [CaseTables δ] :
    (∀ (s₀ : MemoryStore) tr sys, s₀.requests = [] → s₀.events = [] →
      Run (SystemStep (ServiceCall g inMemory)) (System.idle s₀) tr sys →
      HoldSafe memoryView tr sys) ∧
    (∀ (s₀ : PostgresStore δ) tr sys, s₀.requests = [] → s₀.events = [] →
      Run (SystemStep (ServiceCall g (postgres isoformat δ))) (System.idle s₀) tr sys →
      HoldSafe (postgresView isoformat) tr sys) := by
  refine ⟨fun s₀ tr sys hreq hlog hr => ?_, fun s₀ tr sys hreq hlog hr => ?_⟩
  · refine holdSafe_of_empty g memory_laws (fun k => ?_) hlog hr
    change Tables.lookup _ _ s₀.requests = none
    rw [hreq]
    rfl
  · refine holdSafe_of_empty g (postgres_laws isoformat) (fun k => ?_) hlog hr
    change (Tables.lookup _ _ s₀.requests).map _ = none
    rw [hreq]
    rfl

/-! ## A deletion under a hold that is released -/

def tenantAdmin : Identity where
  actorId := "admin-1"
  tenant := tenantA
  role := .tenantAdmin
  kind := .human
  roles := [.tenantAdmin]
  named := by decide
  primary := List.mem_singleton_self _

def lastFive (text : List Char) : String := String.ofList (text.drop (text.length - 5))

/-- Digests that keep the end of a text, enough to tell apart the keys of requests. -/
def plainDigests : Digests := ⟨lastFive, lastFive⟩

/-- The table `decisions` alone, as the keys of its rows. -/
local instance caseRows : CaseTables (List (String × String)) where
  hasCase rows tenantId decisionId := decide ((tenantId, decisionId) ∈ rows)
  eraseCase rows tenantId decisionId := rows.filter fun k => k ≠ (tenantId, decisionId)
  hasCase_eraseCase rows t d t' d' := by
    simp only [List.mem_filter, ne_eq, decide_not, Prod.mk.injEq, Bool.decide_and,
      Bool.not_eq_eq_eq_not, Bool.not_true, Bool.decide_eq_false]

def oneCase : PostgresStore (List (String × String)) := ⟨[("tenant-a", "case-1")], [], [], [], []⟩

abbrev pilotRepository : LifecycleRepository (PostgresStore (List (String × String))) :=
  postgres id _

def requested : PostgresStore (List (String × String)) :=
  ((requestDeletion plainDigests pilotRepository tenantAdmin "case-1" "OBSOLETE" "key-1"
    "corr").run (fun _ => "t1") oneCase).2

def requestedId : String := ((requested.requests.map RequestRow.requestId).head?).getD ""

def deleted : PostgresStore (List (String × String)) :=
  ((executeDeletion plainDigests pilotRepository tenantAdmin requestedId "corr").run
    (fun _ => "t2") requested).2

theorem legalHold_safety_deleted : ∃ tr sys,
    Run (SystemStep (ServiceCall plainDigests pilotRepository)) (System.idle oneCase) tr sys ∧
      sys.shared.tables = [] ∧ sys.shared.requests.map RequestRow.status = [.completed] ∧
      HoldSafe (postgresView id) tr sys := by
  obtain ⟨tr₁, hr₁⟩ := run_alone (ServiceCall plainDigests pilotRepository) 0
    (ServiceCall.requestDeletion tenantAdmin "case-1" "OBSOLETE" "key-1" "corr")
    (fun _ => "t1") oneCase
  obtain ⟨tr₂, hr₂⟩ := run_alone (ServiceCall plainDigests pilotRepository) 1
    (ServiceCall.executeDeletion tenantAdmin requestedId "corr") (fun _ => "t2") requested
  refine ⟨tr₁ ++ tr₂, System.idle deleted, hr₁.append hr₂, ?_, ?_, ?_⟩
  · decide +kernel
  · decide +kernel
  · exact (legalHold_safety plainDigests id _).2 oneCase _ _ rfl rfl (hr₁.append hr₂)

end DecisionAssurance.Lifecycle
