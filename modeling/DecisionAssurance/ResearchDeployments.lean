import DecisionAssurance.ResearchJobs

/-!
# The stores of a deployment

`ResearchSubmissionService.submit` with the atomic submitter, the stores it leads to together with
the work on jobs and runs, and the logs of operations that such a store answers while other
clients work on the jobs.
-/

namespace DecisionAssurance.Research

open Interactions Interaction Tables PostgresResearchRepository
open Jobs (JobDatabase JobBackend JobOp RunRow ResearchJob Instant)

/-! ## Submission -/

namespace ResearchSubmissionService

def submissionError : Jobs.JobError → ResearchException
  | .value m => .valueError m
  | .key m => .keyError m
  | .conflict _ => .other "JobConflict"
  | .leaseRejected _ => .other "JobLeaseRejected"
  | .runtime m => .other m
  | .integrity constraint => .other constraint

/-- The job of a proposed run. -/
def proposedJob (lib : ResearchLibrary) (tenant : TenantContext)
    (runId documentHash correlationId : String) (now : Instant) : Raises ResearchJob :=
  if hi : Jobs.validIdentity ("job-" ++ lib.uuid5 runId) tenant.tenantId runId correlationId =
      true then
    if hp : Jobs.validPayloadHash documentHash = true then
      .ok {
        jobId := "job-" ++ lib.uuid5 runId
        tenantId := tenant.tenantId
        researchRunId := runId
        correlationId := correlationId
        payloadHash := documentHash
        status := .queued
        attemptCount := 0
        availableAt := now
        createdAt := now
        updatedAt := now
        leaseTokenHash := none
        leaseExpiresAt := none
        identity_ok := hi
        payload_ok := hp
        lease_complete := Jobs.leaseless }
    else .error (.valueError "INVALID_JOB_PAYLOAD_HASH")
  else .error (.valueError "INVALID_JOB_IDENTITY")

def submit (o : ResearchOrchestrator) (db : JobDatabase) (tenant : TenantContext)
    (actorId : String) (request : ResearchRequest) (documentHash correlationId : String)
    (refreshGeneration : Option String) (now : Instant) :
    Raises (JobDatabase.SubmittedResearch × JobDatabase) := do
  let fingerprint ← proposedFingerprint o.pf o.lib o.policy tenant.tenantId request documentHash
    refreshGeneration
  let run := proposedRun o.lib tenant.tenantId actorId request documentHash fingerprint
    correlationId (o.lib.isoformat now)
  let job ← proposedJob o.lib tenant run.researchRunId documentHash correlationId now
  (db.submit tenant run job).mapError submissionError

end ResearchSubmissionService

/-- The stores of a deployment: runs are submitted or prepared under any policies, jobs are worked
on, budgets are reserved, and operations save runs that a store can hold under the requests they
have. -/
inductive Deployed (lib : ResearchLibrary) : JobDatabase → Prop
  | empty (limits : List (String × ℕ)) : Deployed lib ⟨[], [], [], [], limits⟩
  | submitted {db : JobDatabase} {o : ResearchOrchestrator} {tenant : TenantContext}
      {actorId documentHash correlationId : String} {request : ResearchRequest}
      {refreshGeneration : Option String} {now : Instant}
      {r : JobDatabase.SubmittedResearch × JobDatabase} : Deployed lib db → o.lib = lib →
      ResearchSubmissionService.submit o db tenant actorId request documentHash correlationId
        refreshGeneration now = .ok r → Deployed lib r.2
  | worked {db : JobDatabase} (b : Jobs.JobBackend) {op : Jobs.JobOp} : Deployed lib db →
      (∀ tenant run job, op ≠ .submit tenant run job) → Deployed lib (Jobs.next b db op)
  | prepared {db db' : JobDatabase} {o : ResearchOrchestrator} {tenant : TenantContext}
      {scan : List RunRow} {run stored : ResearchRun} : Deployed lib db → o.lib = lib →
      o.Proposes tenant run → createOrGet db tenant scan run = .ok (stored, db') → Deployed lib db'
  | reserved {db db' : JobDatabase} {tenant : TenantContext} {runId : String} {limit used : ℕ} :
      Deployed lib db → reserveBudget db tenant runId limit = .ok (used, db') → Deployed lib db'
  | saved {db db' : JobDatabase} {tenant : TenantContext} {run : ResearchRun} : Deployed lib db →
      Persisted lib run →
      (∀ stored, storedRun db run.key = some stored → run.request = stored.request) →
      PostgresResearchRepository.save db tenant run = .ok db' → Deployed lib db'

variable {lib : ResearchLibrary} {b : JobBackend} {order : ScanOrder} {db db₁ db' : JobDatabase}
  {o : ResearchOrchestrator} {p q : Program ResearchRun} {tenant : TenantContext}
  {run run₀ : ResearchRun} {t : ResearchLog} {x : ResearchEvent} {k : String × String}

theorem ResearchOrchestrator.Proposes.persisted (h : o.Proposes tenant run) :
    Persisted o.lib run := by
  obtain ⟨_, _, _, _, _, _, _, hfingerprint, rfl⟩ := h
  exact .proposed _ _ _ hfingerprint

/-- Every store of a deployment has a table of runs with unique keys. -/
theorem Deployed.runTable (h : Deployed lib db) : RunTable lib db := by
  induction h with
  | empty limits =>
    have hnone : ∀ row : RunRow, row ∉ ([] : List RunRow) := fun _ => List.not_mem_nil
    exact ⟨List.nodup_nil, List.nodup_nil, fun row h => absurd h (hnone row),
      fun row h => absurd h (hnone row), fun row h => absurd h (hnone row)⟩
  | @submitted db o tenant actorId documentHash correlationId request refreshGeneration now r _
      hlib h ih =>
    obtain ⟨fingerprint, hfingerprint, h⟩ := bind_ok_cases h
    obtain ⟨job, -, h⟩ := bind_ok_cases h
    have hrun : Persisted o.lib (proposedRun o.lib tenant.tenantId actorId request documentHash
        fingerprint correlationId (o.lib.isoformat now)) := .proposed _ _ _ hfingerprint
    obtain ⟨htenant, hruns | ⟨hfp, hkey, hruns⟩⟩ := JobTables.submit_runs (mapError_ok h)
    · exact runTable_of_runs ih hruns
    · exact ih.insert htenant hfp hkey (hlib ▸ hrun) hruns
  | worked b _ hop ih => exact runTable_of_runs ih (JobTables.next_runs hop)
  | prepared _ hlib hrun h ih => exact createOrGet_runTable ih h (hlib ▸ hrun.persisted)
  | reserved _ h ih => exact runTable_of_runs ih (reserveBudget_runs h)
  | saved _ hrun hrequest hsave ih => exact ih.save hsave hrequest hrun

/-! ## Other clients -/

/-- What other clients do to the jobs in the meantime; they submit none. -/
def Meanwhile (b : JobBackend) (db db₁ : JobDatabase) : Prop :=
  ∃ ops : List JobOp, (∀ op ∈ ops, ∀ tenant run job, op ≠ .submit tenant run job) ∧
    db₁ = ops.foldl (Jobs.next b) db

theorem Meanwhile.induct {P : JobDatabase → Prop} (h : Meanwhile b db db₁) (hdb : P db)
    (hnext : ∀ db op, P db → (∀ tenant run job, op ≠ .submit tenant run job) →
      P (Jobs.next b db op)) : P db₁ := by
  obtain ⟨ops, hops, rfl⟩ := h
  induction ops generalizing db with
  | nil => exact hdb
  | cons op ops ih =>
    refine ih ?_ fun op' hop' => hops op' (List.mem_cons_of_mem _ hop')
    exact hnext db op hdb (hops op List.mem_cons_self)

theorem Meanwhile.refl (b : JobBackend) (db : JobDatabase) : Meanwhile b db db :=
  ⟨[], fun _ hop => absurd hop List.not_mem_nil, rfl⟩

theorem Meanwhile.tables (h : Meanwhile b db db₁) :
    JobTables.researchTables db₁ = JobTables.researchTables db :=
  h.induct (P := fun db' => JobTables.researchTables db' = JobTables.researchTables db) rfl
    fun _ _ htables hop => (JobTables.next_tables hop).trans htables

theorem Meanwhile.runs (h : Meanwhile b db db₁) : db₁.runs = db.runs := congrArg Prod.fst h.tables

theorem Meanwhile.deployed (h : Meanwhile b db db₁) (hdb : Deployed lib db) : Deployed lib db₁ :=
  h.induct hdb fun _ _ hdb hop => .worked b hdb hop

/-- An event served while other clients work on the jobs. -/
def Answers (b : JobBackend) (order : ScanOrder) (db : JobDatabase) (x : ResearchEvent)
    (db' : JobDatabase) : Prop := ∃ db₁, Meanwhile b db db₁ ∧ Serves order db₁ x db'

/-! ## Operations -/

/-- The store holds the run that a log last showed. -/
def Reflects (db : JobDatabase) (t : ResearchLog) : Prop :=
  ∀ base, lastSeen t = some base → storedRun db base.key = some base

theorem Continues.key {base : ResearchRun} (h : Continues base run) : run.key = base.key := by
  rw [ResearchRun.key, ResearchRun.key, h.tenant, h.id]

/-- A store of a deployment stays one when it serves an event of an operation. -/
theorem Deployed.serves (hdb : Deployed o.lib db) (h : Serves order db x db')
    (hproposed : ∀ tenant run, (∃ answer, x = ⟨.createOrGet tenant run, answer⟩) →
      o.Proposes tenant run)
    (hwritten : ∀ run, writtenIn x = some run → Persisted o.lib run ∧
      ∀ stored, storedRun db run.key = some stored → run.request = stored.request) :
    Deployed o.lib db' := by
  obtain ⟨c, a⟩ := x
  cases c with
  | createOrGet tenant run =>
    rcases a with e | stored
    · exact h ▸ hdb
    · exact .prepared hdb rfl (hproposed tenant run ⟨_, rfl⟩) h
  | getRun =>
    rcases a with e | found
    · exact h ▸ hdb
    · exact h.2 ▸ hdb
  | save tenant run =>
    rcases a with e | u
    · exact h ▸ hdb
    · obtain ⟨hrun, hrequest⟩ := hwritten run rfl
      exact .saved hdb hrun hrequest h
  | record tenant run =>
    rcases a with e | u
    · exact h ▸ hdb
    · obtain ⟨hrun, hrequest⟩ := hwritten run rfl
      exact .saved hdb hrun hrequest h
  | reserveBudget =>
    rcases a with e | used
    · exact h ▸ hdb
    · exact .reserved hdb h
  | _ => exact h ▸ hdb

/-- A log of an operation leads from a store of a deployment to one, and shows its runs. -/
theorem Operation.served (h : Operation o p) (hp : p.Follows t q)
    (hserved : Served (Answers b order) db t db') (hdb : Deployed o.lib db) :
    Deployed o.lib db' ∧ (∀ y ∈ t, ∀ run, answeredIn y = some run → Persisted o.lib run) ∧
      Reflects db' t := by
  induction t using List.reverseRecOn generalizing q db' with
  | nil =>
    cases hserved
    have hunseen : lastSeen [] = none := rfl
    refine ⟨hdb, fun y hy => absurd hy List.not_mem_nil, fun base hbase => ?_⟩
    rw [hunseen] at hbase
    cases hbase
  | append_singleton t x ih =>
    obtain ⟨db₁, ht, hx⟩ := served_append_cases hserved
    obtain ⟨p', hp', -⟩ := follows_append_cases hp
    obtain ⟨hdb₁, hpersisted, hreflects⟩ := ih hp' ht
    cases hx with
    | cons hx hnil =>
      cases hnil
      obtain ⟨db₂, hmeanwhile, hserves⟩ := hx
      have hdb₂ := hmeanwhile.deployed hdb₁
      have hstored : ∀ y ∈ t, ∀ run, answeredIn y = some run → Stored o run :=
        fun y hy run hrun => (hpersisted y hy run hrun).stored rfl
      have hdb' : Deployed o.lib db' := by
        refine hdb₂.serves hserves ?_ fun run hrun => ?_
        · rintro tenant run ⟨answer, rfl⟩
          exact (h.permitted hp hstored).2
        · obtain ⟨⟨⟨base, hseen, hbase⟩, -⟩, -⟩ := h.writes hp hstored hrun
          have hanswered : ∀ y ∈ t ++ [x], ∀ run, answeredIn y = some run →
              Persisted o.lib run := by
            intro y hy answered hanswered
            rcases List.mem_append.mp hy with hy | hy
            · exact hpersisted y hy answered hanswered
            · rw [List.mem_singleton.mp hy, answered_of_written hrun] at hanswered
              cases hanswered
          refine ⟨.saved rfl h hp hanswered (List.mem_append_right _ List.mem_cons_self) hrun,
            fun stored hk => ?_⟩
          have hstill : storedRun db₂ base.key = some base := by
            rw [storedRun, hmeanwhile.runs]
            exact hreflects base hseen
          rw [hbase.key, hstill] at hk
          cases hk
          exact hbase.request
      have hseen : ∀ run, seenIn x = some run → storedRun db' run.key = some run :=
        fun run hrun => serves_seen hserves hdb₂.runTable hrun
      refine ⟨hdb', fun y hy run hrun => ?_, fun base hbase => ?_⟩
      · rcases List.mem_append.mp hy with hy | hy
        · exact hpersisted y hy run hrun
        · rw [List.mem_singleton.mp hy] at hrun
          have hstored := hseen run (by rw [seenIn, hrun, Option.some_or])
          obtain ⟨row, hrow, rfl⟩ := Option.map_eq_some_iff.mp hstored
          exact hdb'.runTable.persisted row (mem_of_lookup hrow)
      · rw [lastSeen_snoc] at hbase
        cases hx : seenIn x with
        | some run =>
          rw [hx, Option.some_or] at hbase
          cases hbase
          exact hseen base hx
        | none =>
          rw [hx, Option.none_or] at hbase
          have hstill : storedRun db₂ base.key = some base := by
            rw [storedRun, hmeanwhile.runs]
            exact hreflects base hbase
          have hwritten : writtenIn x = none := by
            rw [seenIn, Option.or_eq_none_iff] at hx
            exact hx.2
          rw [storedRun_serves hserves hstill, hwritten]

/-- After an operation has read its run, it asks the store for no other, and shows that run only. -/
theorem Operation.seen_key {t₀ : ResearchLog} {base : ResearchRun} (h : Operation o p)
    (hp : p.Follows (t₀ ++ t) q)
    (hstored : ∀ y ∈ t₀ ++ t, ∀ run, answeredIn y = some run → Stored o run)
    (hseen : lastSeen t₀ = some base) :
    (∀ y ∈ t, (∀ run, seenIn y = some run → run.key = base.key) ∧
      ∀ tenant run answer, y ≠ ⟨.createOrGet tenant run, answer⟩) ∧
    ∃ last, lastSeen (t₀ ++ t) = some last ∧ last.key = base.key := by
  induction t using List.reverseRecOn generalizing q with
  | nil =>
    refine ⟨fun y hy => absurd hy List.not_mem_nil, base, ?_, rfl⟩
    rwa [List.append_nil]
  | append_singleton t x ih =>
    rw [← List.append_assoc] at hp hstored
    have hpre : ∀ y ∈ t₀ ++ t, ∀ run, answeredIn y = some run → Stored o run :=
      fun y hy => hstored y (List.mem_append_left _ hy)
    obtain ⟨p', hp', -⟩ := follows_append_cases hp
    obtain ⟨hall, last, hlast, hkey⟩ := ih hp' hpre
    have hmay := h.permitted hp hpre
    have hunasked : ∀ tenant run answer, x ≠ ⟨.createOrGet tenant run, answer⟩ := by
      rintro tenant run answer rfl
      have hnone : lastSeen (t₀ ++ t) = none := hmay.1
      rw [hlast] at hnone
      cases hnone
    have hanswered : answeredIn x = none := by
      obtain ⟨c, a⟩ := x
      cases c with
      | createOrGet tenant run => exact absurd rfl (hunasked tenant run a)
      | getRun =>
        have hnone : lastSeen (t₀ ++ t) = none := hmay
        rw [hlast] at hnone
        cases hnone
      | _ => rfl
    have hx : ∀ run, seenIn x = some run → run.key = base.key := by
      intro run hrun
      rw [seenIn, hanswered, Option.none_or] at hrun
      obtain ⟨⟨⟨base', hbase', hcontinues⟩, -⟩, -⟩ := h.writes hp hpre hrun
      rw [hlast] at hbase'
      cases hbase'
      exact hcontinues.key.trans hkey
    refine ⟨fun y hy => ?_, ?_⟩
    · rcases List.mem_append.mp hy with hy | hy
      · exact hall y hy
      · rw [List.mem_singleton.mp hy]
        exact ⟨hx, hunasked⟩
    · rw [← List.append_assoc, lastSeen_snoc]
      cases hrun : seenIn x with
      | none => exact ⟨last, hlast, hkey⟩
      | some run => exact ⟨run, rfl, hx run hrun⟩

/-- Without `create_or_get` the keys of the runs stay. -/
theorem served_keys (h : Served (Answers b order) db t db')
    (hno : ∀ y ∈ t, ∀ tenant run answer, y ≠ ⟨.createOrGet tenant run, answer⟩) :
    db'.runs.map RunRow.key = db.runs.map RunRow.key := by
  induction h with
  | nil db => rfl
  | @cons db db₁ db' x t hx _ ih =>
    rw [ih fun y hy => hno y (List.mem_cons_of_mem _ hy)]
    obtain ⟨db₂, hmeanwhile, hx⟩ := hx
    rw [← hmeanwhile.runs]
    cases hw : writtenIn x with
    | some run =>
      obtain ⟨tenant, hsave⟩ := serves_write hx hw
      obtain ⟨-, rfl⟩ := save_cases hsave
      have hkey : ∀ r : RunRow, decide (r.key = run.key) = true →
          RunRow.key { r with run := run } = r.key := fun _ _ => rfl
      exact map_key_updateWhere hkey _
    | none =>
      rcases serves_other hx hw with hruns | ⟨tenant, run, ⟨answer, rfl⟩, -⟩
      · rw [hruns]
      · exact absurd rfl (hno _ List.mem_cons_self tenant run answer)

end DecisionAssurance.Research
