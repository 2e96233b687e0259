import Mathlib.Data.List.Sort
import DecisionAssurance.Exceptions
import DecisionAssurance.JobContracts
import DecisionAssurance.ResearchContracts
import DecisionAssurance.Tables

/-!
# The PostgreSQL job store

Every operation is one transaction: it returns its result with the database it commits, or
an error, and then the database is the one before the call. Row locks that other
transactions hold at the moment of a `SKIP LOCKED` statement are an argument.
-/

namespace DecisionAssurance.Jobs

open Tables Research

/-- A row of `research_jobs`. -/
structure JobRow where
  tenantId : String
  jobId : String
  researchRunId : String
  correlationId : String
  payloadHash : String
  status : JobStatus
  attemptCount : Nat
  availableAt : Instant
  leaseTokenHash : Option String
  leaseExpiresAt : Option Instant
  lastErrorCode : Option String
  createdAt : Instant
  updatedAt : Instant
  deriving DecidableEq

abbrev JobKey := String × String

def JobRow.key (row : JobRow) : JobKey := (row.tenantId, row.jobId)

structure JobEvent where
  eventId : String
  eventType : String
  jobId : String
  researchRunId : String
  tenantId : String
  correlationId : String
  occurredAt : Instant
  workerId : Option String
  reasonCode : Option String
  deriving DecidableEq

structure JobEventRow where
  tenantId : String
  jobId : String
  eventId : String
  sequence : Nat
  event : JobEvent
  deriving DecidableEq

/-- A row of `research_runs`; status and timestamps are those of the run. -/
structure RunRow where
  tenantId : String
  researchRunId : String
  decisionFileId : String
  semanticFingerprint : String
  run : ResearchRun
  deriving DecidableEq

structure BudgetRow where
  tenantId : String
  researchRunId : String
  usedUnits : Nat
  deriving DecidableEq

/-- The tables the job store reads and writes; `limits` is `tenant_runtime_limits`. -/
structure JobDatabase where
  runs : List RunRow
  budgets : List BudgetRow
  jobs : List JobRow
  events : List JobEventRow
  limits : List (String × Nat)
  deriving DecidableEq

/-- What the store is configured with: its policy, the lease hash, and the text order of
the database. -/
structure JobBackend where
  policy : JobPolicy
  leaseHash : String → String
  textLe : String → String → Bool

abbrev Raises := Except JobError

/-- `_row_to_job`: rebuilding the record repeats the checks of its constructor. -/
def rowToJob (row : JobRow) : Raises ResearchJob :=
  if hi : validIdentity row.jobId row.tenantId row.researchRunId row.correlationId = true then
    if hp : validPayloadHash row.payloadHash = true then
      if hl : row.leaseTokenHash.isNone = row.leaseExpiresAt.isNone then
        .ok {
          jobId := row.jobId
          tenantId := row.tenantId
          researchRunId := row.researchRunId
          correlationId := row.correlationId
          payloadHash := row.payloadHash
          status := row.status
          attemptCount := row.attemptCount
          availableAt := row.availableAt
          createdAt := row.createdAt
          updatedAt := row.updatedAt
          leaseTokenHash := row.leaseTokenHash
          leaseExpiresAt := row.leaseExpiresAt
          identity_ok := hi
          payload_ok := hp
          lease_complete := hl }
      else .error (.value "INCOMPLETE_JOB_LEASE")
    else .error (.value "INVALID_JOB_PAYLOAD_HASH")
  else .error (.value "INVALID_JOB_IDENTITY")

theorem rowToJob_key {row : JobRow} {job : ResearchJob} (h : rowToJob row = .ok job) :
    (job.tenantId, job.jobId) = row.key := by
  unfold rowToJob at h
  split_ifs at h
  cases h
  rfl

theorem rowToJob_status {row : JobRow} {job : ResearchJob} (h : rowToJob row = .ok job) :
    job.status = row.status := by
  unfold rowToJob at h
  split_ifs at h
  cases h
  rfl

namespace JobDatabase

def appendEvent (db : JobDatabase) (job : ResearchJob) (eventType : String)
    (occurredAt : Instant) (workerId reasonCode : Option String) : JobDatabase :=
  let own := db.events.filter fun e => e.tenantId = job.tenantId && e.jobId = job.jobId
  let sequence := (own.map JobEventRow.sequence).foldl max 0 + 1
  let eventId := s!"{job.jobId}:{toString sequence}"
  if own.any fun e => e.eventId = eventId then db
  else
    { db with
      events := db.events ++ [{
        tenantId := job.tenantId
        jobId := job.jobId
        eventId := eventId
        sequence := sequence
        event := {
          eventId := eventId
          eventType := eventType
          jobId := job.jobId
          researchRunId := job.researchRunId
          tenantId := job.tenantId
          correlationId := job.correlationId
          occurredAt := occurredAt
          workerId := workerId
          reasonCode := reasonCode } }] }

@[simp] theorem appendEvent_jobs (db : JobDatabase) (job : ResearchJob) (ty : String)
    (i : Instant) (w c : Option String) : (db.appendEvent job ty i w c).jobs = db.jobs := by
  simp only [appendEvent]
  split_ifs <;> rfl

def jobOfRun (db : JobDatabase) (tenantId researchRunId : String) : Option JobRow :=
  db.jobs.find? fun r => r.tenantId = tenantId && r.researchRunId = researchRunId

/-- `INSERT INTO research_jobs … ON CONFLICT (tenant_id, research_run_id) DO NOTHING`, with
whether a row was inserted. -/
def insertJob (db : JobDatabase) (row : JobRow) : Raises (Bool × JobDatabase) :=
  if (db.jobOfRun row.tenantId row.researchRunId).isSome then .ok (false, db)
  else if (lookup JobRow.key row.key db.jobs).isSome then
    .error (.integrity "research_jobs_pkey")
  else if !db.runs.any fun r =>
      r.tenantId = row.tenantId && r.researchRunId = row.researchRunId then
    .error (.integrity "research_jobs_tenant_id_research_run_id_fkey")
  else .ok (true, { db with jobs := db.jobs ++ [row] })

/-- `UPDATE research_jobs SET … WHERE tenant_id = … AND job_id = … AND … RETURNING *` -/
def updateJob (db : JobDatabase) (k : JobKey) (guard : JobRow → Bool) (set : JobRow → JobRow) :
    Option (JobRow × JobDatabase) :=
  match lookup JobRow.key k db.jobs with
  | none => none
  | some row =>
    if guard row then
      some (set row, { db with jobs := updateWhere (fun r => r.key = k) set db.jobs })
    else none

theorem updateJob_cases {db db' : JobDatabase} {k : JobKey} {guard : JobRow → Bool}
    {set : JobRow → JobRow} {row' : JobRow} (h : db.updateJob k guard set = some (row', db')) :
    ∃ row, lookup JobRow.key k db.jobs = some row ∧ guard row = true ∧ row' = set row ∧
      db' = { db with jobs := updateWhere (fun r => r.key = k) set db.jobs } := by
  unfold updateJob at h
  cases hl : lookup JobRow.key k db.jobs with
  | none => simp only [hl, reduceCtorEq] at h
  | some row =>
    simp only [hl] at h
    split_ifs at h with hg
    cases h
    exact ⟨row, rfl, hg, rfl, rfl⟩

/-- The row a fresh job is inserted as, for a run. -/
def newRow (tenant : TenantContext) (job : ResearchJob) (researchRunId : String) : JobRow where
  tenantId := tenant.tenantId
  jobId := job.jobId
  researchRunId := researchRunId
  correlationId := job.correlationId
  payloadHash := job.payloadHash
  status := job.status
  attemptCount := job.attemptCount
  availableAt := job.availableAt
  leaseTokenHash := none
  leaseExpiresAt := none
  lastErrorCode := none
  createdAt := job.createdAt
  updatedAt := job.updatedAt

/-- The common end of `enqueue` and `submit`: insert the job of the run unless the run has
one, compare payloads, and record the queueing. -/
def convergeJob (db : JobDatabase) (tenant : TenantContext) (job : ResearchJob)
    (researchRunId missing : String) : Raises ((ResearchJob × Bool) × JobDatabase) := do
  let (inserted, db) ← db.insertJob (newRow tenant job researchRunId)
  match db.jobOfRun tenant.tenantId researchRunId with
  | none => .error (.runtime missing)
  | some row =>
    let existing ← rowToJob row
    if existing.payloadHash ≠ job.payloadHash then .error (.conflict "JOB_PAYLOAD_CONFLICT")
    else if inserted then
      .ok ((existing, true), db.appendEvent existing "JOB_QUEUED" job.updatedAt none none)
    else .ok ((existing, false), db)

def enqueue (db : JobDatabase) (tenant : TenantContext) (job : ResearchJob) :
    Raises (ResearchJob × JobDatabase) :=
  if tenant.tenantId ≠ job.tenantId ∨ job.status ≠ .queued then
    .error (.value "INVALID_JOB_ENQUEUE")
  else do
    let ((existing, _), db) ←
      db.convergeJob tenant job job.researchRunId "JOB_ENQUEUE_CONVERGENCE_FAILED"
    .ok (existing, db)

def requeueable (status : JobStatus) : Bool :=
  status = .completed || status = .partiallyDone || status = .failed || status = .deadLetter

def requeue (db : JobDatabase) (tenant : TenantContext) (jobId correlationId : String)
    (now : Instant) : Raises (ResearchJob × JobDatabase) :=
  match db.updateJob (tenant.tenantId, jobId) (fun r => requeueable r.status) (fun r =>
    { r with
      status := .queued
      correlationId := correlationId
      attemptCount := 0
      availableAt := now
      leaseTokenHash := none
      leaseExpiresAt := none
      lastErrorCode := none
      updatedAt := now }) with
  | none =>
    if (lookup JobRow.key (tenant.tenantId, jobId) db.jobs).isNone then
      .error (.key "JOB_NOT_FOUND")
    else .error (.value "JOB_NOT_RETRYABLE")
  | some (row, db) => do
    let job ← rowToJob row
    .ok (job, db.appendEvent job "JOB_REQUEUED" now none none)

structure SubmittedResearch where
  run : ResearchRun
  job : ResearchJob
  replayed : Bool
  deriving DecidableEq

/-- `INSERT INTO research_runs … ON CONFLICT (tenant_id, semantic_fingerprint) DO NOTHING`,
followed by the budget row of an inserted run; returns the run now stored. -/
def convergeRun (db : JobDatabase) (tenant : TenantContext) (run : ResearchRun) :
    Raises ((ResearchRun × Bool) × JobDatabase) :=
  match db.runs.find? fun r =>
    r.tenantId = tenant.tenantId && r.semanticFingerprint = run.semanticFingerprint with
  | some row => .ok ((row.run, false), db)
  | none =>
    if db.runs.any fun r =>
        r.tenantId = tenant.tenantId && r.researchRunId = run.researchRunId then
      .error (.integrity "research_runs_pkey")
    else if db.budgets.any fun b =>
        b.tenantId = tenant.tenantId && b.researchRunId = run.researchRunId then
      .error (.integrity "research_budget_usage_pkey")
    else
      .ok ((run, true), { db with
        runs := db.runs ++ [{
          tenantId := tenant.tenantId
          researchRunId := run.researchRunId
          decisionFileId := run.request.decisionFileId
          semanticFingerprint := run.semanticFingerprint
          run := run }]
        budgets := db.budgets ++ [{
          tenantId := tenant.tenantId
          researchRunId := run.researchRunId
          usedUnits := 0 }] })

def submit (db : JobDatabase) (tenant : TenantContext) (run : ResearchRun)
    (job : ResearchJob) : Raises (SubmittedResearch × JobDatabase) :=
  if tenant.tenantId ≠ run.tenantId ∨ tenant.tenantId ≠ job.tenantId then
    .error (.value "TENANT_MISMATCH")
  else if run.researchRunId ≠ job.researchRunId ∨ job.status ≠ .queued then
    .error (.value "INVALID_RESEARCH_JOB_SUBMISSION")
  else do
    let ((storedRun, insertedRun), db) ← db.convergeRun tenant run
    let ((storedJob, insertedJob), db) ←
      db.convergeJob tenant job storedRun.researchRunId "JOB_SUBMISSION_CONVERGENCE_FAILED"
    .ok (⟨storedRun, storedJob, !insertedRun || !insertedJob⟩, db)

/-! ## Claiming -/

def runningCount (db : JobDatabase) (tenantId : String) : Nat :=
  db.jobs.countP fun r => r.tenantId = tenantId && r.status = .running

/-- `COALESCE(limits.max_concurrent_jobs, 2)` -/
def concurrencyLimit (db : JobDatabase) (tenantId : String) : Nat :=
  ((db.limits.find? fun l => l.1 = tenantId).map Prod.snd).getD 2

def isCandidate (db : JobDatabase) (now : Instant) (row : JobRow) : Bool :=
  (row.status = .queued || row.status = .retryWait) && row.availableAt ≤ now &&
    db.runningCount row.tenantId < db.concurrencyLimit row.tenantId

/-- `ORDER BY job.available_at, job.created_at, job.tenant_id, job.job_id` -/
def claimBefore (textLe : String → String → Bool) (a b : JobRow) : Bool :=
  if a.availableAt ≠ b.availableAt then a.availableAt < b.availableAt
  else if a.createdAt ≠ b.createdAt then a.createdAt < b.createdAt
  else if a.tenantId ≠ b.tenantId then textLe a.tenantId b.tenantId
  else textLe a.jobId b.jobId

def candidate (db : JobDatabase) (textLe : String → String → Bool) (locked : List JobKey)
    (now : Instant) : Option JobRow :=
  ((db.jobs.filter fun r => db.isCandidate now r && !locked.contains r.key).insertionSort
    fun a b => claimBefore textLe a b = true).head?

theorem candidate_cases {db : JobDatabase} {textLe : String → String → Bool}
    {locked : List JobKey} {now : Instant} {row : JobRow}
    (h : db.candidate textLe locked now = some row) :
    row ∈ db.jobs ∧ db.isCandidate now row = true := by
  have hmem := List.mem_of_mem_head? (Option.mem_def.mpr h)
  rw [List.mem_insertionSort, List.mem_filter, Bool.and_eq_true] at hmem
  exact ⟨hmem.1, hmem.2.1⟩

def claim (b : JobBackend) (db : JobDatabase) (workerId : String) (token : LeaseToken)
    (locked : List JobKey) (now : Instant) : Raises (Option ClaimedJob × JobDatabase) :=
  if isBlank workerId then .error (.value "INVALID_WORKER_ID")
  else
    match db.candidate b.textLe locked now with
    | none => .ok (none, db)
    | some chosen =>
      match db.updateJob chosen.key (fun _ => true) (fun r =>
        { r with
          status := .running
          attemptCount := r.attemptCount + 1
          leaseTokenHash := some (b.leaseHash token.value)
          leaseExpiresAt := some (now + seconds b.policy.leaseSeconds)
          updatedAt := now }) with
      | none => .ok (none, db)
      | some (row, db) => do
        let job ← rowToJob row
        .ok (some ⟨job, token⟩, db.appendEvent job "JOB_CLAIMED" now (some workerId) none)

/-! ## Operations under a lease -/

/-- `status = 'RUNNING' AND lease_token_hash = … AND lease_expires_at > now` -/
def holdsLease (b : JobBackend) (token : LeaseToken) (now : Instant) (row : JobRow) : Bool :=
  row.status = .running && row.leaseTokenHash = some (b.leaseHash token.value) &&
    row.leaseExpiresAt.any fun e => now < e

theorem holdsLease_iff {b : JobBackend} {token : LeaseToken} {now : Instant} {row : JobRow} :
    holdsLease b token now row = true ↔ row.status = .running ∧
      row.leaseTokenHash = some (b.leaseHash token.value) ∧
      ∃ e, row.leaseExpiresAt = some e ∧ now < e := by
  simp only [holdsLease, Bool.and_eq_true, decide_eq_true_eq, Option.any_eq_true, and_assoc]

def heartbeat (b : JobBackend) (db : JobDatabase) (tenant : TenantContext) (jobId : String)
    (token : LeaseToken) (now : Instant) : Raises (Unit × JobDatabase) :=
  match db.updateJob (tenant.tenantId, jobId) (holdsLease b token now) (fun r =>
    { r with
      leaseExpiresAt := some (now + seconds b.policy.leaseSeconds)
      updatedAt := now }) with
  | none => .error (.leaseRejected "INVALID_OR_EXPIRED_LEASE")
  | some (_, db) => .ok ((), db)

def completionStatus (isPartial : Bool) : JobStatus :=
  if isPartial then .partiallyDone else .completed

def complete (b : JobBackend) (db : JobDatabase) (tenant : TenantContext) (jobId : String)
    (token : LeaseToken) (isPartial : Bool) (now : Instant) : Raises (Unit × JobDatabase) :=
  match db.updateJob (tenant.tenantId, jobId) (holdsLease b token now) (fun r =>
    { r with
      status := completionStatus isPartial
      leaseTokenHash := none
      leaseExpiresAt := none
      updatedAt := now }) with
  | none => .error (.leaseRejected "INVALID_OR_EXPIRED_LEASE")
  | some (row, db) => do
    let job ← rowToJob row
    .ok ((), db.appendEvent job s!"JOB_{(completionStatus isPartial).value}" now none none)

/-- The status and the delay a job gets when an attempt ends without a result. -/
def afterAttempt (policy : JobPolicy) (attemptCount : Nat) : Raises (JobStatus × Nat) :=
  if attemptCount < policy.maxAttempts then do
    let delay ← retryDelay policy attemptCount
    .ok (.retryWait, delay)
  else .ok (.deadLetter, 0)

def failureStatus (policy : JobPolicy) (retryable : Bool) (attemptCount : Nat) :
    Raises (JobStatus × Nat) :=
  if retryable then afterAttempt policy attemptCount else .ok (.failed, 0)

def fail (b : JobBackend) (db : JobDatabase) (tenant : TenantContext) (jobId : String)
    (token : LeaseToken) (reasonCode : String) (retryable : Bool) (now : Instant) :
    Raises (Unit × JobDatabase) :=
  if reasonCode.isEmpty || 128 < reasonCode.length then
    .error (.value "INVALID_JOB_FAILURE_REASON")
  else
    match (lookup JobRow.key (tenant.tenantId, jobId) db.jobs).filter
      (holdsLease b token now) with
    | none => .error (.leaseRejected "INVALID_OR_EXPIRED_LEASE")
    | some current => do
      let (target, delay) ← failureStatus b.policy retryable current.attemptCount
      match db.updateJob (tenant.tenantId, jobId) (fun _ => true) (fun r =>
        { r with
          status := target
          availableAt := now + seconds delay
          leaseTokenHash := none
          leaseExpiresAt := none
          lastErrorCode := some reasonCode
          updatedAt := now }) with
      | none => .error (.runtime "JOB_FAILURE_UPDATE_FAILED")
      | some (row, db) =>
        let job ← rowToJob row
        .ok ((), db.appendEvent job s!"JOB_{target.value}" now none (some reasonCode))

/-! ## Operations from outside a lease -/

def isFinal (status : JobStatus) : Bool :=
  status = .completed || status = .partiallyDone || status = .failed ||
    status = .deadLetter || status = .cancelled

def cancel (db : JobDatabase) (tenant : TenantContext) (jobId : String) (now : Instant) :
    Raises (ResearchJob × JobDatabase) :=
  match lookup JobRow.key (tenant.tenantId, jobId) db.jobs with
  | none => .error (.key "JOB_NOT_FOUND")
  | some current => do
    let job ← rowToJob current
    if isFinal job.status then .ok (job, db)
    else
      match db.updateJob (tenant.tenantId, jobId) (fun _ => true) (fun r =>
        { r with
          status := .cancelled
          leaseTokenHash := none
          leaseExpiresAt := none
          updatedAt := now }) with
      | none => .error (.runtime "JOB_CANCELLATION_FAILED")
      | some (row, db) =>
        let cancelled ← rowToJob row
        .ok (cancelled, db.appendEvent cancelled "JOB_CANCELLED" now none none)

def isStale (now : Instant) (row : JobRow) : Bool :=
  row.status = .running && row.leaseExpiresAt.any fun e => e ≤ now

/-- The rows `recover_stale` selects, `ORDER BY lease_expires_at`. -/
def staleRows (db : JobDatabase) (locked : List JobKey) (now : Instant) : List JobRow :=
  (db.jobs.filter fun r => isStale now r && !locked.contains r.key).insertionSort
    fun a b => a.leaseExpiresAt.getD 0 ≤ b.leaseExpiresAt.getD 0

/-- The body of the loop of `recover_stale`. -/
def recoverRow (b : JobBackend) (now : Instant) (db : JobDatabase) (current : JobRow) :
    Raises (Nat × JobDatabase) := do
  let (target, delay) ← afterAttempt b.policy current.attemptCount
  match db.updateJob current.key (fun _ => true) (fun r =>
    { r with
      status := target
      availableAt := now + seconds delay
      leaseTokenHash := none
      leaseExpiresAt := none
      lastErrorCode := some "STALE_LEASE_RECOVERED"
      updatedAt := now }) with
  | none => .ok (0, db)
  | some (row, db) =>
    let job ← rowToJob row
    .ok (1, db.appendEvent job "JOB_STALE_LEASE_RECOVERED" now none none)

def recoverRows (b : JobBackend) (now : Instant) :
    JobDatabase → List JobRow → Raises (Nat × JobDatabase)
  | db, [] => .ok (0, db)
  | db, current :: rows => do
    let (n, db) ← recoverRow b now db current
    let (m, db) ← recoverRows b now db rows
    .ok (n + m, db)

def recoverStale (b : JobBackend) (db : JobDatabase) (locked : List JobKey) (now : Instant) :
    Raises (Nat × JobDatabase) :=
  recoverRows b now db (db.staleRows locked now)

end JobDatabase

end DecisionAssurance.Jobs
