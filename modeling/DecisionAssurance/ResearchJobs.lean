import DecisionAssurance.ResearchRepositories

/-!
# Jobs and the tables of the research

Of the operations on jobs only a submission changes the tables of runs and budgets: it may add the
rows of the submitted run.
-/

namespace DecisionAssurance.Research

open Tables PostgresResearchRepository
open Jobs (JobDatabase RunRow)

variable {db db' : JobDatabase}

namespace JobTables

open Jobs Jobs.JobDatabase

variable {b : JobBackend}

/-- The tables of the runs and of their budgets. -/
def researchTables (db : JobDatabase) : List RunRow × List BudgetRow := (db.runs, db.budgets)

@[simp] theorem appendEvent_tables (db : JobDatabase) (job : ResearchJob) (ty : String)
    (i : Instant) (w c : Option String) :
    researchTables (db.appendEvent job ty i w c) = researchTables db := by
  simp only [appendEvent]
  split_ifs <;> rfl

theorem updateJob_tables {k : JobKey} {guard : JobRow → Bool} {set : JobRow → JobRow} {row : JobRow}
    (h : db.updateJob k guard set = some (row, db')) : researchTables db' = researchTables db := by
  obtain ⟨_, -, -, -, rfl⟩ := updateJob_cases h
  rfl

/-- The end of an operation that updates a job: the record is rebuilt and the event appended. -/
theorem rebuilt_tables {α : Type} {row : JobRow} {f : ResearchJob → α × JobDatabase}
    {r : α × JobDatabase} (h : (do let job ← rowToJob row; Except.ok (f job)) = .ok r)
    (hf : ∀ job, researchTables (f job).2 = researchTables db) :
    researchTables r.2 = researchTables db := by
  obtain ⟨job, -, h⟩ := bind_ok_cases h
  cases h
  exact hf job

theorem recoverRows_tables {now : Instant} {rows : List JobRow} {r : ℕ × JobDatabase}
    (h : recoverRows b now db rows = .ok r) : researchTables r.2 = researchTables db := by
  induction rows generalizing db r with
  | nil =>
    cases h
    rfl
  | cons current rows ih =>
    obtain ⟨⟨n, db₁⟩, hrow, h⟩ := bind_ok_cases h
    obtain ⟨⟨m, db₂⟩, hrows, h⟩ := bind_ok_cases h
    cases h
    refine (ih hrows).trans ?_
    obtain ⟨⟨target, delay⟩, -, hrow⟩ := bind_ok_cases hrow
    dsimp only at hrow
    split at hrow
    · cases hrow
      rfl
    · rename_i row db₃ hupdate
      exact rebuilt_tables (r := (n, db₁)) hrow fun job => by
        rw [appendEvent_tables, updateJob_tables hupdate]

theorem insertJob_tables {row : JobRow} {r : Bool × JobDatabase} (h : db.insertJob row = .ok r) :
    researchTables r.2 = researchTables db := by
  unfold insertJob at h
  split_ifs at h <;> cases h <;> rfl

theorem convergeJob_tables {tenant : TenantContext} {job : ResearchJob} {runId missing : String}
    {r : (ResearchJob × Bool) × JobDatabase}
    (h : db.convergeJob tenant job runId missing = .ok r) : researchTables r.2 = researchTables db := by
  obtain ⟨⟨inserted, db₁⟩, hinsert, h⟩ := bind_ok_cases h
  refine Eq.trans ?_ (insertJob_tables hinsert)
  dsimp only at h
  split at h
  · cases h
  · obtain ⟨existing, -, h⟩ := bind_ok_cases h
    split_ifs at h <;> cases h
    · exact appendEvent_tables ..
    · rfl

theorem claim_tables {workerId : String} {token : LeaseToken} {locked : List JobKey} {now : Instant}
    {r : Option ClaimedJob × JobDatabase} (h : claim b db workerId token locked now = .ok r) :
    researchTables r.2 = researchTables db := by
  unfold claim at h
  split_ifs at h
  split at h
  · cases h
    rfl
  · split at h
    · cases h
      rfl
    · rename_i row db₁ hupdate
      exact rebuilt_tables h fun job => by rw [appendEvent_tables, updateJob_tables hupdate]

theorem complete_tables {tenant : TenantContext} {jobId : String} {token : LeaseToken}
    {isPartial : Bool} {now : Instant} {r : Unit × JobDatabase}
    (h : complete b db tenant jobId token isPartial now = .ok r) :
    researchTables r.2 = researchTables db := by
  unfold complete at h
  split at h
  · cases h
  · rename_i row db₁ hupdate
    exact rebuilt_tables h fun job => by rw [appendEvent_tables, updateJob_tables hupdate]

theorem fail_tables {tenant : TenantContext} {jobId reasonCode : String} {token : LeaseToken}
    {retryable : Bool} {now : Instant} {r : Unit × JobDatabase}
    (h : fail b db tenant jobId token reasonCode retryable now = .ok r) :
    researchTables r.2 = researchTables db := by
  unfold fail at h
  split_ifs at h
  split at h
  · cases h
  · obtain ⟨⟨target, delay⟩, -, h⟩ := bind_ok_cases h
    dsimp only at h
    split at h
    · cases h
    · rename_i row db₁ hupdate
      exact rebuilt_tables h fun job => by rw [appendEvent_tables, updateJob_tables hupdate]

theorem heartbeat_tables {tenant : TenantContext} {jobId : String} {token : LeaseToken}
    {now : Instant} {r : Unit × JobDatabase}
    (h : heartbeat b db tenant jobId token now = .ok r) : researchTables r.2 = researchTables db := by
  unfold heartbeat at h
  split at h
  · cases h
  · rename_i row db₁ hupdate
    cases h
    exact updateJob_tables hupdate

theorem cancel_tables {tenant : TenantContext} {jobId : String} {now : Instant}
    {r : ResearchJob × JobDatabase} (h : db.cancel tenant jobId now = .ok r) :
    researchTables r.2 = researchTables db := by
  unfold JobDatabase.cancel at h
  split at h
  · cases h
  · obtain ⟨job, -, h⟩ := bind_ok_cases h
    split_ifs at h
    · cases h
      rfl
    · split at h
      · cases h
      · rename_i row db₁ hupdate
        exact rebuilt_tables h fun job => by rw [appendEvent_tables, updateJob_tables hupdate]

theorem requeue_tables {tenant : TenantContext} {jobId correlationId : String} {now : Instant}
    {r : ResearchJob × JobDatabase} (h : db.requeue tenant jobId correlationId now = .ok r) :
    researchTables r.2 = researchTables db := by
  unfold requeue at h
  split at h
  · split_ifs at h
  · rename_i row db₁ hupdate
    exact rebuilt_tables h fun job => by rw [appendEvent_tables, updateJob_tables hupdate]

theorem enqueue_tables {tenant : TenantContext} {job : ResearchJob} {r : ResearchJob × JobDatabase}
    (h : db.enqueue tenant job = .ok r) : researchTables r.2 = researchTables db := by
  unfold enqueue at h
  split_ifs at h
  obtain ⟨⟨⟨existing, inserted⟩, db₁⟩, hconverge, h⟩ := bind_ok_cases h
  cases h
  exact convergeJob_tables hconverge

/-- Only a submission changes the tables of the research among the operations on jobs. -/
theorem next_tables {op : JobOp} (hop : ∀ tenant run job, op ≠ .submit tenant run job) :
    researchTables (next b db op) = researchTables db := by
  unfold next
  split
  · rename_i r h
    cases op with
    | submit tenant run job => exact absurd rfl (hop tenant run job)
    | enqueue =>
      obtain ⟨a, ha, rfl⟩ := map_ok_cases h
      exact enqueue_tables ha
    | requeue =>
      obtain ⟨a, ha, rfl⟩ := map_ok_cases h
      exact requeue_tables ha
    | claim =>
      obtain ⟨a, ha, rfl⟩ := map_ok_cases h
      exact claim_tables ha
    | heartbeat =>
      obtain ⟨a, ha, rfl⟩ := map_ok_cases h
      exact heartbeat_tables ha
    | complete =>
      obtain ⟨a, ha, rfl⟩ := map_ok_cases h
      exact complete_tables ha
    | fail =>
      obtain ⟨a, ha, rfl⟩ := map_ok_cases h
      exact fail_tables ha
    | cancel =>
      obtain ⟨a, ha, rfl⟩ := map_ok_cases h
      exact cancel_tables ha
    | recoverStale =>
      obtain ⟨a, ha, rfl⟩ := map_ok_cases h
      exact recoverRows_tables ha
  · rfl

theorem next_runs {op : JobOp} (hop : ∀ tenant run job, op ≠ .submit tenant run job) :
    (next b db op).runs = db.runs := congrArg Prod.fst (next_tables hop)

theorem convergeJob_runs {tenant : TenantContext} {job : ResearchJob} {runId missing : String}
    {r : (ResearchJob × Bool) × JobDatabase}
    (h : db.convergeJob tenant job runId missing = .ok r) : r.2.runs = db.runs :=
  congrArg Prod.fst (convergeJob_tables h)

theorem submit_runs {tenant : TenantContext} {run : ResearchRun} {job : ResearchJob}
    {r : SubmittedResearch × JobDatabase} (h : db.submit tenant run job = .ok r) :
    tenant.tenantId = run.tenantId ∧ (r.2.runs = db.runs ∨
      lookup RunRow.fingerprintKey (tenant.tenantId, run.semanticFingerprint) db.runs = none ∧
      lookup RunRow.key run.key db.runs = none ∧ r.2.runs = db.runs ++
        [⟨tenant.tenantId, run.researchRunId, run.request.decisionFileId,
          run.semanticFingerprint, run⟩]) := by
  unfold submit at h
  split_ifs at h with htenants hjob
  rw [not_or, not_not, not_not] at htenants
  obtain ⟨⟨⟨stored, insertedRun⟩, db₁⟩, hconverge, h⟩ := bind_ok_cases h
  obtain ⟨⟨⟨storedJob, insertedJob⟩, db₂⟩, hjob, h⟩ := bind_ok_cases h
  cases h
  have hruns : db₂.runs = db₁.runs := convergeJob_runs hjob
  refine ⟨htenants.1, ?_⟩
  rcases convergeRun_cases htenants.1 hconverge with ⟨-, rfl⟩ | ⟨hfp, -, hkey, hinserted⟩
  · exact .inl hruns
  · exact .inr ⟨hfp, hkey, hruns.trans hinserted⟩

end JobTables

end DecisionAssurance.Research
