import Mathlib.Algebra.GroupWithZero.Nat
import DecisionAssurance.RunLedger

/-!
# The budget of a run

Every call of a provider has a unit that was reserved for it, and a unit is reserved for the run
that an operation has read, under the limit of the policy. Over a history the calls for a run are
at most the units used, and the attempts for a source at most those the policy allows.
-/

namespace DecisionAssurance.Research

open Interactions Interaction Tables PostgresResearchRepository ResearchOrchestrator
open Jobs (JobDatabase JobBackend BudgetRow)

variable {b : JobBackend} {order : ScanOrder} {db db₁ db' : JobDatabase} {lib : ResearchLibrary}
  {o : ResearchOrchestrator} {p q : Program ResearchRun} {tenant : TenantContext}
  {run run' base : ResearchRun} {t : ResearchLog} {ts : List ResearchLog} {x : ResearchEvent}
  {k : String × String} {limit : ℕ}

/-! ## Units -/

def budgetKey (row : BudgetRow) : String × String := (row.tenantId, row.researchRunId)

/-- The units used of a run's budget. -/
def usedUnits (db : JobDatabase) (k : String × String) : ℕ :=
  ((lookup budgetKey k db.budgets).map BudgetRow.usedUnits).getD 0

/-- A unit of a run's budget has been reserved. -/
def reservesOf (k : String × String) : ResearchEvent → Bool
  | ⟨.reserveBudget tenant runId _, .ok _⟩ => (tenant.tenantId, runId) = k
  | _ => false

theorem find_budget (rows : List BudgetRow) (tenantId runId : String) :
    (rows.find? fun row => row.tenantId = tenantId && row.researchRunId = runId) =
      lookup budgetKey (tenantId, runId) rows := by
  refine congrArg (fun p => rows.find? p) (funext fun row => ?_)
  simp only [budgetKey, Prod.mk.injEq, Bool.decide_and]

/-- A reservation is below the limit, and counts for its run only. -/
theorem reserveBudget_units {runId : String} {used : ℕ}
    (h : reserveBudget db tenant runId limit = .ok (used, db')) :
    usedUnits db (tenant.tenantId, runId) < limit ∧
      usedUnits db' k = usedUnits db k + if (tenant.tenantId, runId) = k then 1 else 0 := by
  unfold reserveBudget at h
  split_ifs at h
  rw [find_budget] at h
  cases hrow : lookup budgetKey (tenant.tenantId, runId) db.budgets with
  | none => simp only [hrow, reduceCtorEq] at h
  | some row =>
    simp only [hrow] at h
    split_ifs at h with hused
    cases h
    have hupdate : lookup budgetKey k (updateWhere
        (fun row => row.tenantId = tenant.tenantId && row.researchRunId = runId)
        (fun row => { row with usedUnits := row.usedUnits + 1 }) db.budgets) =
          (lookup budgetKey k db.budgets).map fun row =>
            if (row.tenantId = tenant.tenantId && row.researchRunId = runId : Bool) then
              { row with usedUnits := row.usedUnits + 1 } else row :=
      lookup_updateWhere fun _ _ => rfl
    refine ⟨?_, ?_⟩
    · rw [usedUnits, hrow]
      exact Nat.lt_of_not_le hused
    · rw [usedUnits, usedUnits, hupdate]
      by_cases hkey : (tenant.tenantId, runId) = k
      · rw [if_pos hkey, ← hkey, hrow]
        have hrun := key_of_lookup hrow
        obtain ⟨htenant, hid⟩ := Prod.mk.inj hrun
        simp only [Option.map_some, htenant, hid, decide_true, Bool.and_self, if_true,
          Option.getD_some]
      · rw [if_neg hkey]
        cases hother : lookup budgetKey k db.budgets with
        | none => rfl
        | some other =>
          have hne : ¬ (other.tenantId = tenant.tenantId && other.researchRunId = runId : Bool) := by
            intro hsame
            rw [Bool.and_eq_true, decide_eq_true_eq, decide_eq_true_eq] at hsame
            apply hkey
            rw [← key_of_lookup hother, budgetKey, hsame.1, hsame.2]
          simp only [Option.map_some, if_neg hne, Option.getD_some, Nat.add_zero]

/-- The budgets as they were, or with one of which nothing is used. -/
def Opens (db db' : JobDatabase) : Prop :=
  db'.budgets = db.budgets ∨ ∃ tenantId runId, db'.budgets = db.budgets ++ [⟨tenantId, runId, 0⟩]

theorem Opens.units (h : Opens db db') : usedUnits db' k = usedUnits db k := by
  rcases h with hbudgets | ⟨tenantId, runId, hbudgets⟩
  · rw [usedUnits, hbudgets, usedUnits]
  · rw [usedUnits, hbudgets, usedUnits, lookup_append_singleton]
    cases lookup budgetKey k db.budgets with
    | some row => rfl
    | none =>
      rw [Option.none_or]
      split_ifs <;> rfl

theorem convergeRun_opens {r : (ResearchRun × Bool) × JobDatabase}
    (h : db.convergeRun tenant run = .ok r) : Opens db r.2 := by
  unfold JobDatabase.convergeRun at h
  split at h
  · cases h
    exact .inl rfl
  · split_ifs at h
    cases h
    exact .inr ⟨_, _, rfl⟩

theorem createOrGet_opens {scan : List Jobs.RunRow} {stored : ResearchRun}
    (h : createOrGet db tenant scan run = .ok (stored, db')) : Opens db db' := by
  unfold createOrGet at h
  split_ifs at h
  split at h
  · cases h
    exact .inl rfl
  · split at h
    · cases h
      exact .inl rfl
    · split at h
      · rename_i hconverge
        cases h
        exact convergeRun_opens hconverge
      · cases h

theorem submit_opens {job : Jobs.ResearchJob} {r : JobDatabase.SubmittedResearch × JobDatabase}
    (h : db.submit tenant run job = .ok r) : Opens db r.2 := by
  unfold JobDatabase.submit at h
  split_ifs at h
  obtain ⟨⟨⟨stored, insertedRun⟩, db₁⟩, hconverge, h⟩ := bind_ok_cases h
  obtain ⟨⟨⟨storedJob, insertedJob⟩, db₂⟩, hjob, h⟩ := bind_ok_cases h
  cases h
  have hbudgets : db₂.budgets = db₁.budgets := congrArg Prod.snd (JobTables.convergeJob_tables hjob)
  have hopens : Opens db db₁ := convergeRun_opens hconverge
  unfold Opens at hopens ⊢
  rw [hbudgets]
  exact hopens

theorem usedUnits_of_tables (h : JobTables.researchTables db' = JobTables.researchTables db) :
    usedUnits db' k = usedUnits db k := by
  have hbudgets : db'.budgets = db.budgets := congrArg Prod.snd h
  rw [usedUnits, hbudgets, usedUnits]

/-- The units of a run grow with the reservations for it. -/
theorem answers_units (h : Answers b order db x db') :
    usedUnits db' k = usedUnits db k + if reservesOf k x then 1 else 0 := by
  obtain ⟨db₁, hmeanwhile, hserves⟩ := h
  rw [← usedUnits_of_tables hmeanwhile.tables]
  obtain ⟨c, a⟩ := x
  cases c with
  | reserveBudget tenant runId limit =>
    rcases a with e | used
    · exact congrArg (usedUnits · k) hserves
    · rw [(reserveBudget_units hserves).2, reservesOf]
      simp only [decide_eq_true_eq]
  | createOrGet tenant run =>
    rcases a with e | stored
    · exact congrArg (usedUnits · k) hserves
    · exact (createOrGet_opens hserves).units
  | getRun tenant runId =>
    rcases a with e | found
    · exact congrArg (usedUnits · k) hserves
    · exact congrArg (usedUnits · k) hserves.2
  | save tenant run | record tenant run =>
    rcases a with e | u
    · exact congrArg (usedUnits · k) hserves
    · obtain ⟨-, rfl⟩ := save_cases hserves
      rfl
  | _ => exact congrArg (usedUnits · k) hserves

theorem served_units (h : Served (Answers b order) db t db') :
    usedUnits db' k = usedUnits db k + t.countP (reservesOf k) := by
  induction h with
  | nil => rfl
  | cons hx _ ih =>
    rw [ih, answers_units hx, List.countP_cons]
    omega

/-- Units that are reserved under a limit stay within it. -/
theorem served_within (h : Served (Answers b order) db t db')
    (hlimit : ∀ tenant runId n a, (⟨.reserveBudget tenant runId n, a⟩ : ResearchEvent) ∈ t → n = limit)
    (hused : usedUnits db k ≤ limit) : usedUnits db' k ≤ limit := by
  refine h.invariant (I := fun db => usedUnits db k ≤ limit) (fun db x db' hx hused h => ?_) hused
  have hunits : usedUnits db' k = usedUnits db k + if reservesOf k x then 1 else 0 :=
    answers_units h
  by_cases hreserves : reservesOf k x
  · obtain ⟨c, a⟩ := x
    cases c with
    | reserveBudget tenant runId n =>
      rcases a with e | used
      · cases hreserves
      · obtain ⟨db₁, hmeanwhile, hserves⟩ := h
        have hkey : (tenant.tenantId, runId) = k := of_decide_eq_true hreserves
        have hlt := (reserveBudget_units (k := k) hserves).1
        rw [usedUnits_of_tables hmeanwhile.tables, hkey, hlimit tenant runId n _ hx] at hlt
        rw [hunits, if_pos hreserves]
        omega
    | _ => cases hreserves
  · rw [hunits, if_neg hreserves]
    omega

/-! ## Calls -/

/-- The calls of providers in a log that are for a run, the one that the log has read. -/
def callsIn (k : String × String) (t : ResearchLog) : ℕ :=
  if (runRead t).map ResearchRun.key = some k then t.countP spends else 0

/-- The calls of providers for a run. -/
def calls (k : String × String) (ts : List ResearchLog) : ℕ := (ts.map (callsIn k)).sum

theorem calls_snoc : calls k (ts ++ [t]) = calls k ts + callsIn k t := by
  rw [calls, List.map_append, List.sum_append, List.map_singleton, List.sum_singleton, calls]

theorem runRead_append {t' : ResearchLog} (h : runRead t = some base) :
    runRead (t ++ t') = some base := by
  rw [runRead] at h
  rw [runRead, List.findSome?_append, h, Option.some_or]

/-- Every call of a provider has its unit, wherever an operation is. -/
theorem Operation.covered (h : Operation o p) (hp : p.Follows t q)
    (hserved : Served (Answers b order) db t db') (hdb : Deployed o.lib db) : Covered t := by
  obtain ⟨tenant, hread⟩ := h.reading
  induction t using List.reverseRecOn generalizing q db' with
  | nil => exact Nat.le_refl 0
  | append_singleton t x ih =>
    obtain ⟨db₁, ht, hx⟩ := served_append_cases hserved
    obtain ⟨p', hp', -⟩ := follows_append_cases hp
    have hmay := h.may hread hp ht hdb
    have hcovered := ih hp' ht
    unfold Covered at hcovered ⊢
    rw [List.countP_append, List.countP_append, List.countP_singleton, List.countP_singleton]
    by_cases hspends : spends x = true
    · have hunit : t.countP spends < t.countP reserves := by
        obtain ⟨c, a⟩ := x
        cases c with
        | search | extract => exact hmay
        | _ => cases hspends
      rw [if_pos hspends]
      omega
    · rw [if_neg hspends]
      omega

/-- A unit is reserved under the limit of the policy, for the run that has been read. -/
theorem Operation.reserving (h : Operation o p) (hp : p.Follows t q)
    (hserved : Served (Answers b order) db t db') (hdb : Deployed o.lib db)
    {tenant : TenantContext} {runId : String} {n : ℕ} {a : Raises ℕ}
    (hx : (⟨.reserveBudget tenant runId n, a⟩ : ResearchEvent) ∈ t) :
    n = o.policy.providerBudget ∧
      ∃ base, runRead t = some base ∧ base.key = (tenant.tenantId, runId) := by
  obtain ⟨tenant', hread⟩ := h.reading
  obtain ⟨pre, post, rfl⟩ := List.append_of_mem hx
  obtain ⟨db₁, hpre, -⟩ := served_append_cases hserved
  rw [List.append_cons] at hp ⊢
  obtain ⟨p', hp', -⟩ := follows_append_cases hp
  obtain ⟨rfl, hlimit, base, hbase, htenant, hid⟩ := h.may hread hp' hpre hdb
  refine ⟨hlimit, base, ?_, ?_⟩
  · rw [List.append_assoc]
    exact runRead_append hbase
  · rw [ResearchRun.key, htenant, hid]

/-- The calls for a run in a log are at most the units reserved for the run. -/
theorem Operation.callsIn_le (h : Operation o p) (hp : p.Follows t q)
    (hserved : Served (Answers b order) db t db') (hdb : Deployed o.lib db) :
    callsIn k t ≤ t.countP (reservesOf k) := by
  unfold callsIn
  split_ifs with hkey
  · have hcovered := h.covered hp hserved hdb
    have hreserved : t.countP reserves ≤ t.countP (reservesOf k) := by
      refine List.countP_mono_left fun x hx hreserves => ?_
      obtain ⟨c, a⟩ := x
      cases c with
      | reserveBudget tenant runId n =>
        rcases a with e | used
        · cases hreserves
        · obtain ⟨-, base, hbase, hrun⟩ := h.reserving hp hserved hdb hx
          rw [hbase, Option.map_some, hrun, Option.some.injEq] at hkey
          exact decide_eq_true hkey
      | _ => cases hreserves
    exact hcovered.trans hreserved
  · exact Nat.zero_le _

/-- Over a history, a run's units grow by its calls at least and stay within the budget. -/
theorem Ran.units {os : ResearchOrchestrator → Prop} (h : Ran os b order db ts db')
    (hos : ∀ o, os o → o.policy.providerBudget = limit ∧ o.lib = lib) (hdb : Deployed lib db)
    (hused : usedUnits db k ≤ limit) :
    usedUnits db k + calls k ts ≤ usedUnits db' k ∧ usedUnits db' k ≤ limit := by
  induction h with
  | nil => exact ⟨Nat.le_refl _, hused⟩
  | @operated _ _ _ _ o _ _ hran ho hop hp hserved ih =>
    have hdb₁ := hran.deployed (fun o ho => (hos o ho).2) hdb
    rw [← (hos o ho).2] at hdb₁
    have hcalls := hop.callsIn_le (k := k) hp hserved hdb₁
    have hunits := served_units (k := k) hserved
    have hbefore := ih
    refine ⟨?_, served_within hserved (fun tenant runId n a hx => ?_) hbefore.2⟩
    · rw [calls_snoc]
      omega
    · rw [(hop.reserving hp hserved hdb₁ hx).1]
      exact (hos o ho).1
  | submitted _ _ h ih =>
    obtain ⟨fingerprint, -, hjob⟩ := bind_ok_cases h
    obtain ⟨job, -, hsubmit⟩ := bind_ok_cases hjob
    rw [(submit_opens (mapError_ok hsubmit)).units]
    exact ih
  | prepared _ _ _ h ih =>
    rw [(createOrGet_opens h).units]
    exact ih
  | worked _ h ih =>
    rw [usedUnits_of_tables h.tables]
    exact ih

/-! ## Attempts -/

/-- A run has few enough attempts for each operation and source. -/
def Capped (cap : ℕ) (run : ResearchRun) : Prop :=
  ∀ operation sourceId, (run.attempts.filter fun a =>
    a.operation = operation && a.sourceId = sourceId).length ≤ cap

theorem attempts_count {operation : String} {sourceId : Option String}
    (attempts : List ResearchAttempt) :
    (attempts.filter fun a => a.operation = operation && a.sourceId = sourceId).length =
      (attempts.map ResearchAttempt.call).count (operation, sourceId) := by
  rw [← List.countP_eq_length_filter, List.count, List.countP_map]
  refine List.countP_congr fun a _ => ?_
  simp only [Function.comp_apply, ResearchAttempt.call, Bool.and_eq_true, decide_eq_true_eq,
    beq_iff_eq, Prod.mk.injEq]

theorem Capped.step (h : Capped o.policy.maxAttemptsPerOperation run) (hstep : Step o run run') :
    Capped o.policy.maxAttemptsPerOperation run' := by
  intro operation sourceId
  cases hstep with
  | moved => exact h operation sourceId
  | recorded => exact h operation sourceId
  | @reserved operation' sourceId' _ _ _ hattempt =>
    have hbefore := h operation sourceId
    have hroom := of_decide_eq_true hattempt
    rw [attempts_count] at hbefore hroom ⊢
    rw [List.map_append, List.count_append, List.map_singleton]
    change _ + [(operation', sourceId')].count (operation, sourceId) ≤ _
    by_cases hcall : (operation', sourceId') = (operation, sourceId)
    · rw [hcall] at hroom ⊢
      rw [List.count_singleton_self]
      omega
    · rw [List.count_singleton, if_neg fun h => hcall (eq_of_beq h)]
      omega
  | annotated hannotates =>
    rw [attempts_count, hannotates.calls, ← attempts_count]
    exact h operation sourceId

theorem capped_hereditary (o : ResearchOrchestrator) :
    Hereditary o (Capped o.policy.maxAttemptsPerOperation) where
  proposed := by
    rintro tenant run ⟨actorId, request, documentHash, correlationId, refreshGeneration,
      fingerprint, now, -, rfl⟩
    exact fun _ _ => Nat.zero_le _
  step _ _ h hstep := h.step hstep

/-- In every history that starts from an empty store, wherever one more operation is: the calls of
providers for a run are at most the units used, which are within the budget, and a run returned
has at most the allowed attempts for each operation and source. -/
theorem budget_kept {os : ResearchOrchestrator → Prop} {policy : ResearchPolicy}
    {limits : List (String × ℕ)} (hos : ∀ o, os o → o.policy = policy ∧ o.lib = lib)
    (hran : Ran os b order ⟨[], [], [], [], limits⟩ ts db) (ho : os o) (hop : Operation o p)
    (hp : p.Follows t q) (hserved : Served (Answers b order) db t db') :
    calls k (ts ++ [t]) ≤ usedUnits db' k ∧ usedUnits db' k ≤ policy.providerBudget ∧
      ∀ run, q = .done (.ok run) → ∀ operation sourceId, (run.attempts.filter fun a =>
        a.operation = operation && a.sourceId = sourceId).length ≤
          policy.maxAttemptsPerOperation := by
  have hlib : ∀ o, os o → o.lib = lib := fun o ho => (hos o ho).2
  have hempty : Deployed lib ⟨[], [], [], [], limits⟩ := .empty limits
  have hbudget : ∀ o, os o → o.policy.providerBudget = policy.providerBudget ∧ o.lib = lib :=
    fun o ho => ⟨congrArg ResearchPolicy.providerBudget (hos o ho).1, (hos o ho).2⟩
  have hunits := (hran.operated ho hop hp hserved).units (k := k) hbudget hempty (Nat.zero_le _)
  have hI : ∀ o, os o → Hereditary o (Capped policy.maxAttemptsPerOperation) := by
    intro o ho
    rw [← (hos o ho).1]
    exact capped_hereditary o
  have hrows := hran.keeps hlib hI hempty fun _ h => nomatch h
  have hdb := hran.deployed hlib hempty
  rw [← hlib o ho] at hdb
  have hresult := (hop.keeps (hI o ho) hp hserved hdb hrows).2
  have hzero : usedUnits ⟨[], [], [], [], limits⟩ k = 0 := rfl
  exact ⟨by omega, hunits.2, hresult⟩

theorem budget_kept_case :
    calls caseRow.key ([] ++ [casePlay.2.1]) ≤ usedUnits casePlay.2.2 caseRow.key ∧
      usedUnits casePlay.2.2 caseRow.key ≤ leadingOrchestrator.policy.providerBudget := by
  have hos : ∀ o, leadingOrchestrator = o → o.policy = leadingOrchestrator.policy ∧
      o.lib = leadingOrchestrator.lib := by
    rintro o rfl
    exact ⟨rfl, rfl⟩
  have hoperation : Operation leadingOrchestrator caseExecution := .execute ..
  have hkept := budget_kept (k := caseRow.key) hos caseJobs_ran rfl hoperation
    casePlay_served.2.1 casePlay_served.2.2
  exact ⟨hkept.1, hkept.2.1⟩

end DecisionAssurance.Research
