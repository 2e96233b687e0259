import DecisionAssurance.JobRepository
import DecisionAssurance.Leases
import DecisionAssurance.Runs

/-!
# Runs of the job store and the leases they grant

The calls of any number of workers and clients, in any order, are the steps of a transition
system. Each call adds its events to the lease history of its run, and the rows of
`research_jobs` carry exactly the leases of that history: the store refines the lease
protocol.
-/

namespace DecisionAssurance.Jobs

open Tables Runs Leases Research JobDatabase

inductive JobOp
  | enqueue (tenant : TenantContext) (job : ResearchJob)
  | submit (tenant : TenantContext) (run : ResearchRun) (job : ResearchJob)
  | requeue (tenant : TenantContext) (jobId correlationId : String) (now : Instant)
  | claim (workerId : String) (token : LeaseToken) (locked : List JobKey) (now : Instant)
  | heartbeat (tenant : TenantContext) (jobId : String) (token : LeaseToken) (now : Instant)
  | complete (tenant : TenantContext) (jobId : String) (token : LeaseToken)
      (isPartial : Bool) (now : Instant)
  | fail (tenant : TenantContext) (jobId : String) (token : LeaseToken) (reasonCode : String)
      (retryable : Bool) (now : Instant)
  | cancel (tenant : TenantContext) (jobId : String) (now : Instant)
  | recoverStale (locked : List JobKey) (now : Instant)

inductive JobResult
  | done
  | job (job : ResearchJob)
  | submitted (research : SubmittedResearch)
  | claimed (job : Option ClaimedJob)
  | count (n : Nat)

variable (b : JobBackend)

def perform (db : JobDatabase) : JobOp → Raises (JobResult × JobDatabase)
  | .enqueue tenant job => (db.enqueue tenant job).map fun r => (.job r.1, r.2)
  | .submit tenant run job => (db.submit tenant run job).map fun r => (.submitted r.1, r.2)
  | .requeue tenant jobId correlationId now =>
    (db.requeue tenant jobId correlationId now).map fun r => (.job r.1, r.2)
  | .claim workerId token locked now =>
    (claim b db workerId token locked now).map fun r => (.claimed r.1, r.2)
  | .heartbeat tenant jobId token now =>
    (heartbeat b db tenant jobId token now).map fun r => (.done, r.2)
  | .complete tenant jobId token isPartial now =>
    (complete b db tenant jobId token isPartial now).map fun r => (.done, r.2)
  | .fail tenant jobId token reasonCode retryable now =>
    (fail b db tenant jobId token reasonCode retryable now).map fun r => (.done, r.2)
  | .cancel tenant jobId now => (db.cancel tenant jobId now).map fun r => (.job r.1, r.2)
  | .recoverStale locked now =>
    (recoverStale b db locked now).map fun r => (.count r.1, r.2)

/-- The database after a call; a call that raises is rolled back. -/
def next (db : JobDatabase) (op : JobOp) : JobDatabase :=
  match perform b db op with
  | .ok r => r.2
  | .error _ => db

def JobStep (db : JobDatabase) (op : JobOp) (db' : JobDatabase) : Prop := db' = next b db op

abbrev JobTrace := Trace JobDatabase JobOp

def Succeeds (x : Transition JobDatabase JobOp) : Prop :=
  ∃ r, perform b x.before x.label = .ok r

theorem map_ok_cases {α β : Type} {x : Raises α} {f : α → β} {r : β}
    (h : x.map f = .ok r) : ∃ a, x = .ok a ∧ f a = r := by
  cases x with
  | error e => cases h
  | ok a => cases h; exact ⟨a, rfl, rfl⟩

/-! ## What a successful call did to the rows -/

theorem recoverRow_cases {now : Instant} {db : JobDatabase} {current : JobRow}
    {r : Nat × JobDatabase} (h : recoverRow b now db current = .ok r) :
    (lookup JobRow.key current.key db.jobs = none ∧ r.2 = db) ∨
      ∃ target delay, afterAttempt b.policy current.attemptCount = .ok (target, delay) ∧
        r.2.jobs = updateWhere (fun r => r.key = current.key) (fun r => { r with
          status := target, availableAt := now + seconds delay, leaseTokenHash := none,
          leaseExpiresAt := none, lastErrorCode := some "STALE_LEASE_RECOVERED",
          updatedAt := now }) db.jobs := by
  unfold recoverRow at h
  obtain ⟨⟨target, delay⟩, ha, h⟩ := bind_ok_cases h
  cases hu : db.updateJob current.key (fun _ => true) (fun r => { r with
      status := target, availableAt := now + seconds delay, leaseTokenHash := none,
      leaseExpiresAt := none, lastErrorCode := some "STALE_LEASE_RECOVERED",
      updatedAt := now }) with
  | none =>
    simp only [hu] at h
    cases h
    refine .inl ⟨?_, rfl⟩
    unfold updateJob at hu
    cases hl : lookup JobRow.key current.key db.jobs with
    | none => rfl
    | some row => simp only [hl, if_true, reduceCtorEq] at hu
  | some p =>
    obtain ⟨row', db'⟩ := p
    simp only [hu] at h
    obtain ⟨job, -, h⟩ := bind_ok_cases h
    cases h
    obtain ⟨row, -, -, -, rfl⟩ := updateJob_cases hu
    exact .inr ⟨target, delay, ha, by rw [appendEvent_jobs]⟩

theorem afterAttempt_status {policy : JobPolicy} {n : Nat} {target : JobStatus} {delay : Nat}
    (h : afterAttempt policy n = .ok (target, delay)) :
    target = .retryWait ∨ target = .deadLetter := by
  unfold afterAttempt at h
  split_ifs at h with hn
  · obtain ⟨d, -, h⟩ := bind_ok_cases h
    cases h
    exact .inl rfl
  · cases h
    exact .inr rfl

theorem failureStatus_running {policy : JobPolicy} {retryable : Bool} {n delay : Nat}
    {target : JobStatus} (h : failureStatus policy retryable n = .ok (target, delay)) :
    target ≠ .running ∧ target ∈ allowedTargets .running := by
  unfold failureStatus at h
  split_ifs at h with hretry
  · rcases afterAttempt_status h with rfl | rfl
    · exact ⟨nofun, by decide⟩
    · exact ⟨nofun, by decide⟩
  · cases h
    exact ⟨nofun, by decide⟩

/-- The job rows after a successful insertion. -/
theorem insertJob_cases {db : JobDatabase} {row : JobRow} {r : Bool × JobDatabase}
    (h : db.insertJob row = .ok r) :
    r.2 = db ∨ (lookup JobRow.key row.key db.jobs = none ∧
      r.2 = { db with jobs := db.jobs ++ [row] }) := by
  unfold insertJob at h
  split_ifs at h with h₁ h₂ h₃
  · cases h
    exact .inl rfl
  · cases h
    exact .inr ⟨Option.not_isSome_iff_eq_none.mp h₂, rfl⟩

theorem convergeJob_cases {db : JobDatabase} {tenant : TenantContext} {job : ResearchJob}
    {run missing : String} {r : (ResearchJob × Bool) × JobDatabase}
    (h : db.convergeJob tenant job run missing = .ok r) :
    r.2.jobs = db.jobs ∨ (lookup JobRow.key (tenant.tenantId, job.jobId) db.jobs = none ∧
      r.2.jobs = db.jobs ++ [newRow tenant job run]) := by
  unfold convergeJob at h
  obtain ⟨⟨inserted, db₁⟩, hi, h⟩ := bind_ok_cases h
  have hjobs : r.2.jobs = db₁.jobs := by
    cases hf : db₁.jobOfRun tenant.tenantId run with
    | none => simp only [hf] at h; cases h
    | some row =>
      simp only [hf] at h
      obtain ⟨existing, -, h⟩ := bind_ok_cases h
      split_ifs at h
      · cases h
        exact appendEvent_jobs ..
      · cases h
        rfl
  rcases insertJob_cases hi with hdb | ⟨hl, hdb⟩
  · exact .inl (hjobs.trans (congrArg JobDatabase.jobs hdb))
  · exact .inr ⟨hl, hjobs.trans (congrArg JobDatabase.jobs hdb)⟩

theorem convergeRun_jobs {db db' : JobDatabase} {tenant : TenantContext} {run : ResearchRun}
    {r : ResearchRun × Bool} (hc : db.convergeRun tenant run = .ok (r, db')) :
    db'.jobs = db.jobs := by
  unfold convergeRun at hc
  split at hc
  · cases hc
    rfl
  · split_ifs at hc
    cases hc
    rfl

/-! ## A job -/

def pilotTenant : TenantContext := tenantA

def firstToken : LeaseToken := ⟨"first-lease-token", by decide⟩

def secondToken : LeaseToken := ⟨"second-lease-token", by decide⟩

def plainBackend : JobBackend := ⟨JobPolicy.standard, id, fun _ _ => true⟩

def pilotRequest : Research.ResearchRequest where
  decisionFileId := "decision-1"
  claimRefs := ["claim-1"]
  query := "market size"
  locale := "en"
  preferredLanguages := ["en"]
  maxSearchResults := 10
  maxSourcesToExtract := 5
  allowedDomains := []
  blockedDomains := []
  freshness := ⟨365, true, by decide⟩
  researchPolicy := "standard"
  forceRefresh := false
  valid := by rfl

def pilotRun : Research.ResearchRun where
  researchRunId := "run-1"
  tenantId := "tenant-a"
  actorId := "generator-1"
  request := pilotRequest
  expectedDocumentHash := ""
  semanticFingerprint := "fingerprint-1"
  status := .created
  createdAt := "2026-01-01T00:00:00Z"
  updatedAt := "2026-01-01T00:00:00Z"
  correlationId := "correlation-1"
  sources := []
  snapshots := []
  evidence := []
  attempts := []
  errors := []
  auditEvents := []
  providerCostUnits := 0
  compiledDecisionFileId := none
  searchSummary := none
  searchProviderRequestId := none

def pilotJob : ResearchJob where
  jobId := "job-1"
  tenantId := "tenant-a"
  researchRunId := "run-1"
  correlationId := "correlation-1"
  payloadHash := "sha256:0000000000000000000000000000000000000000000000000000000000000000"
  status := .queued
  attemptCount := 0
  availableAt := 0
  createdAt := 0
  updatedAt := 0
  leaseTokenHash := none
  leaseExpiresAt := none
  identity_ok := by rfl
  payload_ok := by rfl
  lease_complete := leaseless

def emptyJobs : JobDatabase := ⟨[], [], [], [], []⟩

end DecisionAssurance.Jobs
