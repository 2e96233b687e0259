import DecisionAssurance.EvidenceHandoff
import DecisionAssurance.Resubmission

/-!
# The paths of a submission

A submission is made through `prepare` and `enqueue`, in two transactions, or through the `submit`
of the job repository, in one. The first looks a run up by its fingerprint and among the runs that
the request repeats, the second by its fingerprint only; both compare the payload hash of the job.
-/

namespace DecisionAssurance.Research

open Interactions Interaction Tables PostgresResearchRepository ResearchOrchestrator
open Jobs (JobDatabase JobRow RunRow ResearchJob Instant rowToJob)
open Jobs.JobDatabase (SubmittedResearch newRow)

namespace ResearchSubmissionService

/-- The job of a run that `prepare` has returned; `timestamp` reads the times of the run. -/
def queuedJob (lib : ResearchLibrary) (timestamp : String → Instant) (tenant : TenantContext)
    (run : ResearchRun) (s : Submission) : Raises ResearchJob := do
  let job ← proposedJob lib tenant run.researchRunId s.documentHash s.correlationId
    (timestamp run.createdAt)
  return { job with updatedAt := timestamp run.updatedAt }

/-- `submit` without an atomic submitter. What the first transaction has done stays where the
second raises. -/
def submitQueued (o : ResearchOrchestrator) (backend : Backend) (order : ScanOrder)
    (timestamp : String → Instant) (db : JobDatabase) (tenant : TenantContext) (s : Submission) :
    Raises SubmittedResearch × JobDatabase :=
  match o.prepareOn backend order db tenant s with
  | .error e => (.error e, db)
  | .ok (run, db) =>
    match queuedJob o.lib timestamp tenant run s with
    | .error e => (.error e, db)
    | .ok job =>
      match db.enqueue tenant job with
      | .error e => (.error (submissionError e), db)
      | .ok (stored, db) => (.ok ⟨run, stored, run.status ≠ .created || stored ≠ job⟩, db)

/-- `submit` with the job repository as its atomic submitter. -/
def submitAtomically (o : ResearchOrchestrator) (db : JobDatabase) (tenant : TenantContext)
    (s : Submission) : Raises (SubmittedResearch × JobDatabase) :=
  submit o db tenant s.actorId s.request s.documentHash s.correlationId s.refreshGeneration s.now

end ResearchSubmissionService

open ResearchSubmissionService

variable {backend : Backend} {lib : ResearchLibrary} {order : ScanOrder}
  {timestamp : String → Instant} {db db' : JobDatabase} {tenant : TenantContext}
  {row : RunRow} {run p : ResearchRun} {job : ResearchJob} {o : ResearchOrchestrator}
  {s : Submission} {runId : String}

/-! ## Jobs that are there -/

/-- A run has a job with a payload. -/
def HasJob (db : JobDatabase) (tenantId runId payload : String) : Prop :=
  ∃ r job, db.jobOfRun tenantId runId = some r ∧ rowToJob r = .ok job ∧ job.payloadHash = payload

theorem insertJob_present {r new : JobRow} (h : db.jobOfRun new.tenantId new.researchRunId = some r) :
    db.insertJob new = .ok (false, db) := by
  unfold Jobs.JobDatabase.insertJob
  rw [h]
  rfl

theorem insertJob_absent {new : JobRow} {inserted : Bool}
    (h : db.jobOfRun new.tenantId new.researchRunId = none)
    (hinsert : db.insertJob new = .ok (inserted, db')) : db'.jobs = db.jobs ++ [new] := by
  unfold Jobs.JobDatabase.insertJob at hinsert
  rw [h] at hinsert
  rw [if_neg (fun hnone => nomatch hnone)] at hinsert
  split_ifs at hinsert
  cases hinsert
  rfl

/-- A job converges on the job of its run and leaves the store as it is, if and only if the run has
a job with its payload. -/
theorem convergeJob_unchanged_iff {m : String} :
    (∃ converged, db.convergeJob tenant job runId m = .ok (converged, db)) ↔
      HasJob db tenant.tenantId runId job.payloadHash := by
  unfold HasJob
  cases hr : db.jobOfRun tenant.tenantId runId with
  | none =>
    refine iff_of_false ?_ ?_
    · rintro ⟨converged, h⟩
      obtain ⟨⟨inserted, db₁⟩, hinsert, hconverge⟩ := bind_ok_cases h
      have hjobs : db₁.jobs = db.jobs ++ [newRow tenant job runId] := insertJob_absent hr hinsert
      have hkept : db.jobs = db₁.jobs := by
        dsimp only at hconverge
        split at hconverge
        · cases hconverge
        · obtain ⟨existing, -, hpayload⟩ := bind_ok_cases hconverge
          split_ifs at hpayload
          · have hdb := congrArg (fun r => r.2.jobs) (Except.ok.inj hpayload)
            rw [Jobs.JobDatabase.appendEvent_jobs] at hdb
            exact hdb.symm
          · exact congrArg (fun r => r.2.jobs) (Except.ok.inj hpayload).symm
      rw [hjobs] at hkept
      exact absurd (congrArg List.length hkept) (by simp)
    · rintro ⟨r, job, h, -⟩
      cases h
  | some r =>
    have hinsert : db.insertJob (newRow tenant job runId) = .ok (false, db) := insertJob_present hr
    unfold Jobs.JobDatabase.convergeJob
    simp only [hinsert, ok_bind, hr]
    cases hjob : rowToJob r with
    | error e =>
      refine iff_of_false ?_ ?_
      · rintro ⟨converged, h⟩
        cases h
      · rintro ⟨r', job', h, hjob', -⟩
        cases h
        cases hjob.symm.trans hjob'
    | ok stored =>
      by_cases hpayload : stored.payloadHash = job.payloadHash
      · refine iff_of_true ⟨(stored, false), ?_⟩ ⟨r, stored, rfl, hjob, hpayload⟩
        exact if_neg (not_not.mpr hpayload)
      · refine iff_of_false ?_ ?_
        · rintro ⟨converged, h⟩
          change (if stored.payloadHash ≠ job.payloadHash then _ else _) = _ at h
          rw [if_pos hpayload] at h
          cases h
        · rintro ⟨r', job', h, hjob', hpayload'⟩
          cases h
          cases hjob.symm.trans hjob'
          exact hpayload hpayload'

/-! ## Resubmissions -/

/-- A request that is submitted again for a document that a run expects: one that is exactly the
result of the handoff, where the run has handed its evidence off. -/
structure Resubmits (tenant : TenantContext) (row : RunRow) (s : Submission) : Prop where
  tenant : row.tenantId = tenant.tenantId
  request : s.request = row.run.request
  documentHash : s.documentHash = row.run.expectedDocumentHash

/-- Every path answers a submission with the run of a row, and creates nothing. -/
structure Converges (o : ResearchOrchestrator) (order : ScanOrder) (timestamp : String → Instant)
    (db : JobDatabase) (tenant : TenantContext) (s : Submission) (row : RunRow) : Prop where
  prepared : ∀ backend, o.prepareOn backend order db tenant s = .ok (row.run, db)
  queued : ∀ backend, ∃ job replayed, submitQueued o backend order timestamp db tenant s =
    (.ok ⟨row.run, job, replayed⟩, db)
  atomic : ∃ job replayed, submitAtomically o db tenant s = .ok (⟨row.run, job, replayed⟩, db)

/-- The submission is well formed, its fingerprint is the one the row is stored under, and the run
has a job with the hash of the document. -/
structure Stands (o : ResearchOrchestrator) (db : JobDatabase) (tenant : TenantContext)
    (s : Submission) (row : RunRow) : Prop where
  fingerprint : proposedFingerprint o.pf o.lib o.policy tenant.tenantId s.request s.documentHash
    s.refreshGeneration = .ok row.semanticFingerprint
  payload : Jobs.validPayloadHash s.documentHash = true
  identity : Jobs.validIdentity ("job-" ++ o.lib.uuid5 row.researchRunId) tenant.tenantId
    row.researchRunId s.correlationId = true
  job : HasJob db tenant.tenantId row.researchRunId s.documentHash

/-- The id of a run is that of its fingerprint. -/
theorem runIds_of_deployed (h : Deployed lib db) (hrow : row ∈ db.runs) :
    row.researchRunId = "research-" ++ lib.uuid5 row.semanticFingerprint := by
  have happend {db db' : JobDatabase} {tenant : TenantContext} {run : ResearchRun}
      (ih : ∀ row ∈ db.runs, row.researchRunId = "research-" ++ lib.uuid5 row.semanticFingerprint)
      (hrun : run.researchRunId = "research-" ++ lib.uuid5 run.semanticFingerprint)
      (hruns : db'.runs = db.runs ++ [newRunRow tenant run]) {row : RunRow}
      (hrow : row ∈ db'.runs) :
      row.researchRunId = "research-" ++ lib.uuid5 row.semanticFingerprint := by
    rw [hruns] at hrow
    rcases List.mem_append.mp hrow with hold | hnew
    · exact ih row hold
    · rw [List.mem_singleton.mp hnew]
      exact hrun
  induction h generalizing row with
  | empty limits => exact absurd hrow List.not_mem_nil
  | submitted _ hlib h ih =>
    obtain ⟨fingerprint, hfingerprint, hjob⟩ := bind_ok_cases h
    obtain ⟨job, -, hsubmit⟩ := bind_ok_cases hjob
    obtain ⟨-, hruns | ⟨-, -, hruns⟩⟩ := JobTables.submit_runs (mapError_ok hsubmit)
    · exact ih (hruns ▸ hrow)
    · refine happend (fun _ => ih) ?_ hruns hrow
      rw [← hlib]
      rfl
  | worked b _ hop ih => exact ih (JobTables.next_runs hop ▸ hrow)
  | prepared _ hlib hrun h ih =>
    obtain ⟨-, ⟨rfl, -⟩ | ⟨-, -, -, -, hruns⟩⟩ := createOrGet_cases h
    · exact ih hrow
    · refine happend (fun _ => ih) ?_ hruns hrow
      obtain ⟨_, _, _, _, _, _, _, -, rfl⟩ := hrun
      rw [← hlib]
      rfl
  | reserved _ h ih => exact ih (reserveBudget_runs h ▸ hrow)
  | saved _ _ _ hsave ih =>
    obtain ⟨-, rfl⟩ := save_cases hsave
    obtain ⟨row₀, hrow₀, rfl⟩ := mem_updateWhere.mp hrow
    split_ifs
    · have hid : row₀.researchRunId = "research-" ++ lib.uuid5 row₀.semanticFingerprint := ih hrow₀
      exact hid
    · exact ih hrow₀

/-! ## Well-formed proposals -/

theorem proposedJob_cases {documentHash correlationId : String} {now : Instant}
    (h : proposedJob lib tenant runId documentHash correlationId now = .ok job) :
    Jobs.validIdentity ("job-" ++ lib.uuid5 runId) tenant.tenantId runId correlationId = true ∧
      Jobs.validPayloadHash documentHash = true ∧ job.tenantId = tenant.tenantId ∧
      job.researchRunId = runId ∧ job.payloadHash = documentHash ∧ job.status = .queued := by
  unfold proposedJob at h
  split_ifs at h with hidentity hpayload
  cases h
  exact ⟨hidentity, hpayload, rfl, rfl, rfl, rfl⟩

theorem proposedJob_exists {documentHash correlationId : String} (now : Instant)
    (hidentity : Jobs.validIdentity ("job-" ++ lib.uuid5 runId) tenant.tenantId runId
      correlationId = true) (hpayload : Jobs.validPayloadHash documentHash = true) :
    ∃ job, proposedJob lib tenant runId documentHash correlationId now = .ok job := by
  unfold proposedJob
  rw [dif_pos hidentity, dif_pos hpayload]
  exact ⟨_, rfl⟩

theorem queuedJob_cases (h : queuedJob lib timestamp tenant run s = .ok job) :
    job.tenantId = tenant.tenantId ∧ job.researchRunId = run.researchRunId ∧
      job.payloadHash = s.documentHash ∧ job.status = .queued := by
  obtain ⟨proposed, hproposed, hjob⟩ := bind_ok_cases h
  cases hjob
  obtain ⟨-, -, htenant, hrun, hpayload, hstatus⟩ := proposedJob_cases hproposed
  exact ⟨htenant, hrun, hpayload, hstatus⟩

/-! ## Convergence -/

theorem createOrGetOn_fingerprint {scan : List RunRow} (htenant : p.tenantId = tenant.tenantId)
    (h : lookup RunRow.fingerprintKey (tenant.tenantId, p.semanticFingerprint) db.runs =
      some row) : createOrGetOn backend db tenant scan p = .ok (row.run, db) := by
  rw [createOrGetOn_ok]
  unfold PostgresResearchRepository.createOrGet
  rw [if_neg (not_not.mpr htenant.symm), h]

theorem enqueue_present (htenant : job.tenantId = tenant.tenantId) (hstatus : job.status = .queued)
    (h : HasJob db tenant.tenantId job.researchRunId job.payloadHash) :
    ∃ stored, db.enqueue tenant job = .ok (stored, db) := by
  obtain ⟨⟨stored, inserted⟩, hconverge⟩ := convergeJob_unchanged_iff.mpr h
  refine ⟨stored, ?_⟩
  unfold Jobs.JobDatabase.enqueue
  rw [if_neg (not_or.mpr ⟨not_not.mpr htenant.symm, not_not.mpr hstatus⟩), hconverge]
  rfl

/-- The atomic path leaves the store as it is where the fingerprint and the job are there. -/
theorem submit_present (hrun : run.tenantId = tenant.tenantId)
    (hjob : job.tenantId = tenant.tenantId) (hid : job.researchRunId = run.researchRunId)
    (hstatus : job.status = .queued)
    (hlookup : lookup RunRow.fingerprintKey (tenant.tenantId, run.semanticFingerprint) db.runs =
      some row) (h : HasJob db tenant.tenantId row.run.researchRunId job.payloadHash) :
    ∃ stored replayed, db.submit tenant run job = .ok (⟨row.run, stored, replayed⟩, db) := by
  obtain ⟨⟨stored, inserted⟩, hconverge⟩ := (convergeJob_unchanged_iff
    (m := "JOB_SUBMISSION_CONVERGENCE_FAILED")).mpr h
  refine ⟨stored, !false || !inserted, ?_⟩
  unfold Jobs.JobDatabase.submit Jobs.JobDatabase.convergeRun
  rw [if_neg (not_or.mpr ⟨not_not.mpr hrun.symm, not_not.mpr hjob.symm⟩),
    if_neg (not_or.mpr ⟨not_not.mpr hid.symm, not_not.mpr hstatus⟩), find_fingerprint, hlookup]
  change (db.convergeJob tenant job row.run.researchRunId _ >>= _) = _
  rw [hconverge]
  rfl

/-- A submission whose run stands is answered with the run on every path. -/
theorem Stands.converges (h : Stands o db tenant s row) (hdb : Deployed o.lib db)
    (hrow : row ∈ db.runs) (htenant : row.tenantId = tenant.tenantId) :
    Converges o order timestamp db tenant s row := by
  have hkey : row.run.tenantId = row.tenantId ∧ row.run.researchRunId = row.researchRunId :=
    Prod.mk.inj (hdb.runTable.columns row hrow).1
  have hid := runIds_of_deployed hdb hrow
  have hlookup : lookup RunRow.fingerprintKey (tenant.tenantId, row.semanticFingerprint) db.runs =
      some row := by
    rw [hdb.runTable.fingerprints.lookup_eq_some]
    exact ⟨hrow, by rw [RunRow.fingerprintKey, htenant]⟩
  have hprepared (backend : Backend) : o.prepareOn backend order db tenant s = .ok (row.run, db) := by
    unfold prepareOn proposal
    rw [h.fingerprint]
    exact createOrGetOn_fingerprint rfl hlookup
  refine ⟨hprepared, fun backend => ?_, ?_⟩
  · have hidentity := h.identity
    rw [← hkey.2] at hidentity
    obtain ⟨proposed, hproposed⟩ := proposedJob_exists (timestamp row.run.createdAt) hidentity
      h.payload
    have hqueued : queuedJob o.lib timestamp tenant row.run s =
        .ok { proposed with updatedAt := timestamp row.run.updatedAt } := by
      unfold queuedJob
      rw [hproposed]
      rfl
    obtain ⟨hjob, hrun, hpayload, hstatus⟩ := queuedJob_cases hqueued
    have hthere := h.job
    rw [← hkey.2, ← hrun, ← hpayload] at hthere
    obtain ⟨stored, hstored⟩ := enqueue_present hjob hstatus hthere
    refine ⟨stored, row.run.status ≠ .created ||
      stored ≠ { proposed with updatedAt := timestamp row.run.updatedAt }, ?_⟩
    unfold submitQueued
    rw [hprepared backend]
    dsimp only
    rw [hqueued]
    dsimp only
    rw [hstored]
  · have hidentity := h.identity
    rw [hid] at hidentity
    obtain ⟨proposed, hproposed⟩ := proposedJob_exists s.now hidentity h.payload
    obtain ⟨-, -, hjob, hrun, hpayload, hstatus⟩ := proposedJob_cases hproposed
    have hthere := h.job
    rw [← hkey.2, ← hpayload] at hthere
    have hpresent (run : ResearchRun) (htenant : run.tenantId = tenant.tenantId)
        (hid : proposed.researchRunId = run.researchRunId)
        (hfound : run.semanticFingerprint = row.semanticFingerprint) :
        ∃ stored replayed, db.submit tenant run proposed = .ok (⟨row.run, stored, replayed⟩, db) :=
      submit_present htenant hjob hid hstatus (hfound ▸ hlookup) hthere
    obtain ⟨stored, replayed, hstored⟩ := hpresent (proposedRun o.lib tenant.tenantId s.actorId
      s.request s.documentHash row.semanticFingerprint s.correlationId (o.lib.isoformat s.now)) rfl
      hrun rfl
    refine ⟨stored, replayed, ?_⟩
    unfold submitAtomically submit
    rw [h.fingerprint]
    change (proposedJob o.lib tenant ("research-" ++ o.lib.uuid5 row.semanticFingerprint)
      s.documentHash s.correlationId s.now >>= _) = _
    rw [hproposed]
    change (db.submit tenant _ proposed).mapError submissionError = _
    rw [hstored]
    rfl

/-- The atomic path has answered with the run of a row and left the store as it is. -/
theorem stands_of_submitted (hdb : Deployed o.lib db) (hrow : row ∈ db.runs)
    {result : SubmittedResearch} (hresult : result.run = row.run)
    (h : submitAtomically o db tenant s = .ok (result, db)) : Stands o db tenant s row := by
  obtain ⟨fingerprint, hfingerprint, hjob⟩ := bind_ok_cases h
  obtain ⟨job, hproposed, hsubmitted⟩ := bind_ok_cases hjob
  obtain ⟨hidentity, hpayload, -, -, hhash, -⟩ := proposedJob_cases hproposed
  have hsubmit := mapError_ok hsubmitted
  unfold Jobs.JobDatabase.submit at hsubmit
  split_ifs at hsubmit with htenants hids
  obtain ⟨⟨⟨stored, insertedRun⟩, db₁⟩, hconverged, hrest⟩ := bind_ok_cases hsubmit
  obtain ⟨⟨⟨storedJob, insertedJob⟩, db₂⟩, hqueued, hpair⟩ := bind_ok_cases hrest
  cases hpair
  have hruns : db.runs = db₁.runs := JobTables.convergeJob_runs hqueued
  unfold Jobs.JobDatabase.convergeRun at hconverged
  rw [find_fingerprint] at hconverged
  split at hconverged
  · rename_i row' hlookup
    cases hconverged
    have hmem := mem_of_lookup hlookup
    have hkey : row'.key = row.key := by
      rw [← (hdb.runTable.columns row' hmem).1, ← (hdb.runTable.columns row hrow).1]
      exact congrArg ResearchRun.key hresult
    have hrow' : row' = row := hdb.runTable.keyed.eq_of_mem hmem hrow hkey
    have hfound : row.semanticFingerprint = fingerprint := by
      rw [← hrow']
      have hfp := key_of_lookup hlookup
      exact (Prod.mk.inj hfp).2
    have hid : row.run.researchRunId = row.researchRunId :=
      (Prod.mk.inj (hdb.runTable.columns row hrow).1).2
    have hthere : HasJob db tenant.tenantId row.researchRunId s.documentHash := by
      rw [← hid, ← hhash, ← hrow']
      exact convergeJob_unchanged_iff.mp ⟨_, hqueued⟩
    refine ⟨hfound ▸ hfingerprint, hpayload, ?_, hthere⟩
    rw [runIds_of_deployed hdb hrow, hfound]
    exact hidentity
  · split_ifs at hconverged
    cases hconverged
    exact absurd (congrArg List.length hruns) (by simp)

theorem Converges.stands (h : Converges o order timestamp db tenant s row)
    (hdb : Deployed o.lib db) (hrow : row ∈ db.runs) : Stands o db tenant s row := by
  obtain ⟨job, replayed, hsubmitted⟩ := h.atomic
  exact stands_of_submitted hdb hrow rfl hsubmitted

/-- A request that is submitted again for the document a run expects is answered with that run on
every path, and nothing is created, if and only if the run stands for it. -/
theorem resubmission_converges_iff (hdb : Deployed o.lib db) (hrow : row ∈ db.runs)
    (hs : Resubmits tenant row s) :
    Converges o order timestamp db tenant s row ↔ Stands o db tenant s row := by
  constructor
  · exact fun h => h.stands hdb hrow
  · exact fun h => h.converges hdb hrow hs.tenant

/-! ## A resubmission after a handoff -/

/-- A digest of the first 200 characters, which tells the documents and requests below apart. -/
def leadingPlatform : Platform :=
  { mixingPlatform with sha256 := fun text => mixedDigits (text.take 200) }

def leadingOrchestrator : ResearchOrchestrator := { mixingOrchestrator with pf := leadingPlatform }

/-- A page that says something. -/
def pageContent (markdown : String) : ExtractedContent where
  markdown := markdown
  title := "page"
  canonicalUrl := "https://example.org/"
  retrievedAt := "2026-01-01T00:00:00+00:00"
  mimeType := "text/markdown"
  httpStatus := 200
  language := "en"
  contentProvider := "extractor"
  contentProviderVersion := "1"

/-- The keys of the runs that evidence is of. -/
def runsOf (tenant : TenantContext) (evidence : List DecisionEvidence) : List (String × String) :=
  evidence.map fun e => (tenant.tenantId, e.researchRunId)

/-- Ports that do not fail, a search with one result, an extractor, and the documents of a case. -/
def handoffAnswer (tables : DecisionTables) : (c : ResearchCall) → c.Answer
  | .extract _ => ⟨[], .ok ⟨some (pageContent "market size"), none, by decide⟩, .error⟩
  | .normalize source content =>
    plainCollaborators.normalizer.normalize leadingPlatform shortLibrary.toTextLibrary source content
  | .assess snapshot source days now =>
    ({ plainCollaborators.evidencePolicy with minimum := 5 }).assess
      shortLibrary.toTextLibrary snapshot source days now
  | .attach tenant id hash evidence =>
    match attach .sqlite leadingPlatform (runsOf tenant evidence) tenant id hash evidence tables with
    | .ok (_, d) => .ok d
    | .error _ => .error (.valueError "DECISION_DOCUMENT_CHANGED")
  | c => steadyAnswer "https://example.org/" [] c

def caseTables : DecisionTables :=
  { DecisionTables.empty with decisions := [⟨"tenant-a", "case-1", draftCase⟩] }

def caseRequest : ResearchRequest where
  toRequestFields := { Jobs.pilotRequest.toRequestFields with
    decisionFileId := "case-1"
    claimRefs := ["claim"] }
  valid := by decide +kernel

/-- The research on a case whose document has a hash. -/
def caseSubmission (hash : String) : Submission where
  actorId := "generator-1"
  request := caseRequest
  documentHash := hash
  correlationId := "correlation-1"
  refreshGeneration := none
  now := 0

/-- The hashes of the document before and after the handoff. -/
def caseHash : String := "sha256:0369f51b704e87ca12dd506e6626d3dcb478cb2297690e7465831a3e9ada6010"

def handedHash : String := "sha256:540afaaab442cd7f70775fa17d548b8e34bdb34edc5fc1a973b6aa5d1857bee0"

/-- The store with the submitted run and its claimed job. -/
def caseJobs : JobDatabase :=
  Jobs.next Jobs.plainBackend (valueOr ((submitAtomically leadingOrchestrator Jobs.emptyJobs
    Jobs.pilotTenant (caseSubmission caseHash)).map Prod.snd) Jobs.emptyJobs)
    (.claim "worker-1" Jobs.firstToken [] 0)

theorem caseJobs_deployed : Deployed shortLibrary caseJobs := by
  refine claim_deployed ?_
  cases h : submitAtomically leadingOrchestrator Jobs.emptyJobs Jobs.pilotTenant
    (caseSubmission caseHash) with
  | error e => exact .empty []
  | ok r => exact .submitted (.empty []) rfl h

def caseExecution : Program ResearchRun :=
  leadingOrchestrator.execute Jobs.pilotTenant "generator-1" caseRequest caseHash "correlation-1" none

def casePlay := caseExecution.playOn (serveStore plainOrder (handoffAnswer caseTables)) caseJobs

/-- The document that an attachment has answered. -/
def attachedIn : ResearchEvent → Option DecisionFile
  | ⟨.attach _ _ _ _, .ok d⟩ => some d
  | _ => none

/-- The run of the case once its evidence has been handed off, and the document that has it. -/
def caseRow : RunRow := casePlay.2.2.runs[0]?.getD ⟨"", "", "", "", Jobs.pilotRun⟩

def caseDocument : DecisionFile := (casePlay.2.1.findSome? attachedIn).getD draftCase

def resubmittedCase : Submission := caseSubmission handedHash

theorem casePlay_facts : (casePlay.2.2.runs[0]?.isSome &&
    (casePlay.2.1.findSome? attachedIn).isSome && caseRow.run.status = .completed &&
    caseRow.tenantId = Jobs.pilotTenant.tenantId && caseRow.run.request = caseRequest &&
    caseRow.run.expectedDocumentHash = handedHash &&
    payloadHash leadingPlatform caseDocument.toJson = handedHash &&
    decide (toOption (proposedFingerprint leadingPlatform shortLibrary ResearchPolicy.standard
      Jobs.pilotTenant.tenantId caseRequest handedHash none) ≠
        some caseRow.semanticFingerprint)) = true := by
  decide +kernel

theorem casePlay_served : Deployed shortLibrary casePlay.2.2 ∧
    caseExecution.Ends casePlay.2.1 casePlay.1 ∧
    Served (Answers Jobs.plainBackend plainOrder) caseJobs casePlay.2.1 casePlay.2.2 := by
  obtain ⟨hends, hserved⟩ := playOn_store Jobs.plainBackend plainOrder (handoffAnswer caseTables)
    caseExecution caseJobs
  have hoperation : Operation leadingOrchestrator caseExecution := .execute ..
  exact ⟨(hoperation.served hends hserved caseJobs_deployed).1, hends, hserved⟩

theorem caseRow_mem : caseRow ∈ casePlay.2.2.runs := by
  have hfacts := casePlay_facts
  simp only [Bool.and_eq_true] at hfacts
  obtain ⟨row, hrow⟩ := Option.isSome_iff_exists.mp hfacts.1.1.1.1.1.1.1
  have hcase : caseRow = row := by
    unfold caseRow
    rw [hrow]
    rfl
  rw [hcase]
  exact List.mem_of_getElem? hrow

theorem caseDocument_attached : ∃ x ∈ casePlay.2.1, attachedIn x = some caseDocument := by
  have hfacts := casePlay_facts
  simp only [Bool.and_eq_true] at hfacts
  obtain ⟨d, hd⟩ := Option.isSome_iff_exists.mp hfacts.1.1.1.1.1.1.2
  obtain ⟨x, hx, hattached⟩ := List.exists_of_findSome?_eq_some hd
  have hcase : caseDocument = d := by
    unfold caseDocument
    rw [hd]
    rfl
  rw [hcase]
  exact ⟨x, hx, hattached⟩

/-- A completed run has handed its evidence off, and its request is submitted again for the document
that has the evidence; not every path answers with the run. -/
theorem resubmission_diverges : Deployed leadingOrchestrator.lib casePlay.2.2 ∧
    caseExecution.Ends casePlay.2.1 casePlay.1 ∧
    Served (Answers Jobs.plainBackend plainOrder) caseJobs casePlay.2.1 casePlay.2.2 ∧
    (∃ x ∈ casePlay.2.1, attachedIn x = some caseDocument) ∧
    caseRow ∈ casePlay.2.2.runs ∧ caseRow.run.status = .completed ∧
    resubmittedCase.documentHash = payloadHash leadingPlatform caseDocument.toJson ∧
    Resubmits Jobs.pilotTenant caseRow resubmittedCase ∧
    ¬ Converges leadingOrchestrator plainOrder (fun _ => 0) casePlay.2.2 Jobs.pilotTenant
      resubmittedCase caseRow := by
  obtain ⟨hdb, hends, hserved⟩ := casePlay_served
  have hfacts := casePlay_facts
  simp only [Bool.and_eq_true, decide_eq_true_eq] at hfacts
  obtain ⟨⟨⟨⟨⟨⟨-, hstatus⟩, htenant⟩, hrequest⟩, hexpected⟩, hhash⟩, hfingerprint⟩ := hfacts
  refine ⟨hdb, hends, hserved, caseDocument_attached, caseRow_mem, hstatus, hhash.symm,
    ⟨htenant, hrequest.symm, hexpected.symm⟩, fun h => hfingerprint ?_⟩
  rw [toOption_eq_some]
  exact (h.stands hdb caseRow_mem).fingerprint

theorem resubmission_converges_iff_case :
    Converges leadingOrchestrator plainOrder (fun _ => 0) casePlay.2.2 Jobs.pilotTenant
      resubmittedCase caseRow ↔
        Stands leadingOrchestrator casePlay.2.2 Jobs.pilotTenant resubmittedCase caseRow := by
  have hfacts := casePlay_facts
  simp only [Bool.and_eq_true, decide_eq_true_eq] at hfacts
  obtain ⟨⟨⟨⟨⟨-, htenant⟩, hrequest⟩, hexpected⟩, -⟩, -⟩ := hfacts
  exact resubmission_converges_iff casePlay_served.1 caseRow_mem
    ⟨htenant, hrequest.symm, hexpected.symm⟩

end DecisionAssurance.Research
