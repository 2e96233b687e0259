import DecisionAssurance.JobChanges
import DecisionAssurance.Journals

/-!
# The event log of a job

Beside every change of a job the store appends an event with the next number of that job. The
insertion is one that does nothing on a conflict of ids; in a store that only its own calls have
written, no id is taken, so no event is lost, and the events of a job tell its row.
-/

namespace DecisionAssurance.Jobs

open Tables Runs Research JobDatabase Journals

/-! ## What events tell -/

/-- The columns of a job that its events tell. -/
structure Account where
  status : JobStatus
  attemptCount : ℕ
  correlationId : String
  availableAt : Instant
  lastErrorCode : Option String
  deriving DecidableEq

def JobRow.account (row : JobRow) : Account where
  status := row.status
  attemptCount := row.attemptCount
  correlationId := row.correlationId
  availableAt := row.availableAt
  lastErrorCode := row.lastErrorCode

namespace Account

/-- A job as it is first queued. Its event tells neither the attempts nor the time it was given. -/
def queued (job : ResearchJob) : Account where
  status := .queued
  attemptCount := job.attemptCount
  correlationId := job.correlationId
  availableAt := job.availableAt
  lastErrorCode := none

def ended (a : Account) (outcome : JobStatus × ℕ) (e : JobEvent) (reasonCode : Option String) :
    Account :=
  { a with
    status := outcome.1
    availableAt := e.occurredAt + seconds outcome.2
    lastErrorCode := reasonCode }

/-- A later event of a job. That of a recovered lease does not name the status; it follows from
the attempts made. -/
def after (policy : JobPolicy) (a : Account) (e : JobEvent) : Account :=
  if e.eventType = "JOB_REQUEUED" then ⟨.queued, 0, e.correlationId, e.occurredAt, none⟩
  else if e.eventType = "JOB_CLAIMED" then
    { a with status := .running, attemptCount := a.attemptCount + 1 }
  else if e.eventType = "JOB_CANCELLED" then { a with status := .cancelled }
  else if e.eventType = "JOB_COMPLETED" then { a with status := .completed }
  else if e.eventType = "JOB_PARTIAL" then { a with status := .partiallyDone }
  else if e.eventType = "JOB_FAILED" then a.ended (.failed, 0) e e.reasonCode
  else if e.eventType = "JOB_DEAD_LETTER" then a.ended (.deadLetter, 0) e e.reasonCode
  else if e.eventType = "JOB_RETRY_WAIT" then
    a.ended (.retryWait, valueOr (retryDelay policy a.attemptCount) 0) e e.reasonCode
  else if e.eventType = "JOB_STALE_LEASE_RECOVERED" then
    a.ended (valueOr (afterAttempt policy a.attemptCount) (.deadLetter, 0)) e
      (some "STALE_LEASE_RECOVERED")
  else a

end Account

/-! ## Appending an event -/

def jobEvents (db : JobDatabase) (k : JobKey) : List JobEventRow :=
  db.events.filter fun e => (e.tenantId, e.jobId) = k

def eventRow (job : ResearchJob) (n : ℕ) (ty : String) (now : Instant)
    (workerId reasonCode : Option String) : JobEventRow where
  tenantId := job.tenantId
  jobId := job.jobId
  eventId := s!"{job.jobId}:{toString n}"
  sequence := n
  event := {
    eventId := s!"{job.jobId}:{toString n}"
    eventType := ty
    jobId := job.jobId
    researchRunId := job.researchRunId
    tenantId := job.tenantId
    correlationId := job.correlationId
    occurredAt := now
    workerId := workerId
    reasonCode := reasonCode }

/-- An event has its number in its id, and names its job and the run of the job. -/
structure Belongs (row : JobRow) (e : JobEventRow) : Prop where
  eventId : e.eventId = s!"{row.jobId}:{toString e.sequence}"
  sameId : e.event.eventId = e.eventId
  job : (e.event.tenantId, e.event.jobId) = row.key
  run : e.event.researchRunId = row.researchRunId

section Append

variable {db : JobDatabase} {job : ResearchJob} {ty : String} {now : Instant}
  {workerId reasonCode : Option String} {k : JobKey}

theorem jobEvents_own :
    (db.events.filter fun e => e.tenantId = job.tenantId && e.jobId = job.jobId) =
      jobEvents db (job.tenantId, job.jobId) := by
  unfold jobEvents
  refine List.filter_congr fun e _ => ?_
  simp only [Prod.mk.injEq, Bool.decide_and]

theorem jobEvents_appendEvent_of_ne (hk : (job.tenantId, job.jobId) ≠ k) :
    jobEvents (db.appendEvent job ty now workerId reasonCode) k = jobEvents db k := by
  unfold appendEvent
  dsimp only
  split_ifs
  · rfl
  · unfold jobEvents
    rw [List.filter_append]
    simp only [List.filter_singleton, hk, decide_false, cond_false, List.append_nil]

/-- The next event has a fresh id, so its insertion is not the one that does nothing. -/
theorem jobEvents_appendEvent {row : JobRow} (hrow : row.key = (job.tenantId, job.jobId))
    (hnumbers : Enumerated JobEventRow.sequence (jobEvents db row.key))
    (hevents : ∀ e ∈ jobEvents db row.key, Belongs row e) :
    jobEvents (db.appendEvent job ty now workerId reasonCode) row.key =
      jobEvents db row.key ++
        [eventRow job ((jobEvents db row.key).length + 1) ty now workerId reasonCode] := by
  have hjob : row.jobId = job.jobId := (Prod.mk.inj hrow).2
  have hfresh : ∀ e ∈ jobEvents db row.key,
      e.eventId ≠ s!"{job.jobId}:{toString ((jobEvents db row.key).length + 1)}" := by
    intro e he hid
    have hle := hnumbers.le he
    rw [(hevents e he).eventId, hjob] at hid
    have hsame : e.sequence = (jobEvents db row.key).length + 1 :=
      numbered_injective job.jobId ":" hid
    omega
  unfold appendEvent
  rw [jobEvents_own, ← hrow]
  dsimp only
  rw [hnumbers.next, if_neg]
  · unfold jobEvents
    rw [List.filter_append]
    congr 1
    simp only [List.filter_singleton, hrow, decide_true]
    rfl
  · rw [List.any_eq_true]
    rintro ⟨e, he, hid⟩
    exact hfresh e he (of_decide_eq_true hid)

end Append

/-! ## What a call does to a job and to its events -/

/-- The job that a call queues. -/
def JobOp.queued : JobOp → Option ResearchJob
  | .enqueue _ job | .submit _ _ job => some job
  | _ => none

/-- A call from one store to another queues a job as the first of its key. -/
structure Queues (db db' : JobDatabase) (k : JobKey) (job : ResearchJob) (e : JobEventRow) :
    Prop where
  blank : jobEvents db k = []
  first : jobEvents db' k = [e]
  eventType : e.event.eventType = "JOB_QUEUED"
  correlationId : e.event.correlationId = job.correlationId
  occurredAt : e.event.occurredAt = job.updatedAt

/-- The events of a key tell its row. -/
structure Journal (opens : JobKey → JobEventRow → Account → Prop) (policy : JobPolicy)
    (db : JobDatabase) (k : JobKey) : Prop where
  told : Tells (opens k) (fun a e => Account.after policy a e.event) (jobEvents db k)
    ((lookup JobRow.key k db.jobs).map JobRow.account)
  numbered : Enumerated JobEventRow.sequence (jobEvents db k)
  belongs : ∀ row, lookup JobRow.key k db.jobs = some row →
    ∀ e ∈ jobEvents db k, Belongs row e

/-- A call keeps the journal of a key, and only adds to it. -/
structure Records (opens : JobKey → JobEventRow → Account → Prop) (policy : JobPolicy)
    (db db' : JobDatabase) (k : JobKey) : Prop where
  journal : Journal opens policy db' k
  grows : jobEvents db k <+: jobEvents db' k

section Statements

variable {opens : JobKey → JobEventRow → Account → Prop} {policy : JobPolicy}
  {db db' : JobDatabase} {k k₀ : JobKey} {row : JobRow} {set : JobRow → JobRow}
  {job : ResearchJob} {ty : String} {now : Instant}
  {workerId reasonCode : Option String}

theorem records_same (hj : Journal opens policy db k)
    (hrow : lookup JobRow.key k db'.jobs = lookup JobRow.key k db.jobs)
    (hevents : jobEvents db' k = jobEvents db k) : Records opens policy db db' k := by
  refine ⟨⟨?_, ?_, ?_⟩, ?_⟩
  · rw [hrow, hevents]
    exact hj.told
  · rw [hevents]
    exact hj.numbered
  · rw [hrow, hevents]
    exact hj.belongs
  · exact hevents ▸ List.prefix_rfl

theorem Records.trans {db'' : JobDatabase} (h : Records opens policy db db' k)
    (h' : Records opens policy db' db'' k) : Records opens policy db db'' k :=
  ⟨h'.journal, h.grows.trans h'.grows⟩

theorem rowToJob_run {row : JobRow} {job : ResearchJob} (h : rowToJob row = .ok job) :
    job.researchRunId = row.researchRunId ∧ job.correlationId = row.correlationId := by
  unfold rowToJob at h
  split_ifs at h
  cases h
  exact ⟨rfl, rfl⟩

/-- The event appended for a row belongs to it. -/
theorem belongs_eventRow (hread : rowToJob row = .ok job) (n : ℕ) :
    Belongs row (eventRow job n ty now workerId reasonCode) where
  eventId := by
    rw [← (Prod.mk.inj (rowToJob_key hread)).2]
    rfl
  sameId := rfl
  job := rowToJob_key hread
  run := (rowToJob_run hread).1

theorem Belongs.of_eq {row row' : JobRow} {e : JobEventRow} (h : Belongs row e)
    (hkey : row'.key = row.key) (hrun : row'.researchRunId = row.researchRunId) :
    Belongs row' e where
  eventId := by
    have hid : row'.jobId = row.jobId := (Prod.mk.inj hkey).2
    rw [hid]
    exact h.eventId
  sameId := h.sameId
  job := h.job.trans hkey.symm
  run := h.run.trans hrun.symm

/-- One row is updated and an event is appended that tells what became of it. -/
theorem records_update (hj : ∀ k, Journal opens policy db k)
    (hl : lookup JobRow.key k₀ db.jobs = some row)
    (hkey : ∀ row : JobRow, (set row).key = row.key)
    (hrun : (set row).researchRunId = row.researchRunId)
    (hread : rowToJob (set row) = .ok job)
    (htold : ∀ n, row.account.after policy (eventRow job n ty now workerId reasonCode).event =
      (set row).account) :
    ∀ k, Records opens policy db
      (({ db with
          jobs := updateWhere (fun r => r.key = k₀) set db.jobs } : JobDatabase).appendEvent
        job ty now workerId reasonCode) k := by
  intro k
  have hrow : row.key = k₀ := key_of_lookup hl
  have hjob : (job.tenantId, job.jobId) = k₀ := (rowToJob_key hread).trans ((hkey row).trans hrow)
  by_cases hk : k = k₀
  · subst hk
    subst hrow
    have hbefore := hj row.key
    set n := (jobEvents db row.key).length + 1 with hn
    have hown : jobEvents (({ db with
          jobs := updateWhere (fun r => r.key = row.key) set db.jobs } : JobDatabase).appendEvent
        job ty now workerId reasonCode) row.key =
        jobEvents db row.key ++ [eventRow job n ty now workerId reasonCode] :=
      jobEvents_appendEvent hjob.symm hbefore.numbered (hbefore.belongs row hl)
    have hset : lookup JobRow.key row.key (updateWhere (fun r => r.key = row.key) set db.jobs) =
        some (set row) := by
      rw [lookup_update hkey, hl, Option.map_some, if_pos rfl]
    refine ⟨⟨?_, ?_, ?_⟩, ?_⟩
    · have hwrites : Writes (opens row.key) (fun a e => Account.after policy a e.event)
          (jobEvents db row.key) (some row.account)
          (jobEvents db row.key ++ [eventRow job n ty now workerId reasonCode])
          (some (set row).account) := by
        rw [← htold n]
        exact .entered ..
      have htells := hbefore.told
      rw [hl] at htells
      rw [hown, appendEvent_jobs, hset]
      exact htells.writes hwrites
    · rw [hown]
      exact hbefore.numbered.concat rfl
    · rw [hown, appendEvent_jobs, hset]
      intro row' hrow' e he
      obtain rfl : set row = row' := Option.some.inj hrow'
      rcases List.mem_append.mp he with he | he
      · exact (hbefore.belongs row hl e he).of_eq (hkey row) hrun
      · rw [List.mem_singleton.mp he]
        exact belongs_eventRow hread n
    · rw [hown]
      exact List.prefix_append ..
  · apply records_same (hj k)
    · rw [appendEvent_jobs]
      exact lookup_update_of_ne hkey hk
    · exact jobEvents_appendEvent_of_ne (fun heq => hk (heq.symm.trans hjob))

/-- An update of columns that the events do not tell. -/
theorem records_renewed (hj : Journal opens policy db k)
    (hkey : ∀ row : JobRow, (set row).key = row.key)
    (hrun : ∀ row : JobRow, (set row).researchRunId = row.researchRunId)
    (haccount : ∀ row : JobRow, (set row).account = row.account) :
    Records opens policy db { db with jobs := updateWhere (fun r => r.key = k₀) set db.jobs } k := by
  refine ⟨⟨?_, hj.numbered, ?_⟩, List.prefix_rfl⟩
  · have hsame : (lookup JobRow.key k (updateWhere (fun r => r.key = k₀) set db.jobs)).map
        JobRow.account = (lookup JobRow.key k db.jobs).map JobRow.account := by
      rw [lookup_update hkey, Option.map_map]
      apply Option.map_congr
      intro row hrow
      rw [Function.comp_apply]
      split_ifs
      · exact haccount row
      · rfl
    rw [hsame]
    exact hj.told
  · intro row' hrow' e he
    rw [lookup_update hkey, Option.map_eq_some_iff] at hrow'
    obtain ⟨row, hrow, rfl⟩ := hrow'
    have hbelongs := hj.belongs row hrow e he
    split_ifs
    · exact hbelongs.of_eq (hkey row) (hrun row)
    · exact hbelongs

/-- A row is inserted and its first event appended. -/
theorem records_insert (hj : ∀ k, Journal opens policy db k)
    (hfree : lookup JobRow.key row.key db.jobs = none) (hread : rowToJob row = .ok job)
    (hjobs : db'.jobs = db.jobs ++ [row]) (hevents : db'.events = db.events)
    (hopens : ∀ e, e = eventRow job 1 ty now workerId reasonCode → jobEvents db row.key = [] →
      jobEvents (db'.appendEvent job ty now workerId reasonCode) row.key = [e] →
      opens row.key e row.account) :
    ∀ k, Records opens policy db (db'.appendEvent job ty now workerId reasonCode) k := by
  intro k
  have hjob : (job.tenantId, job.jobId) = row.key := rowToJob_key hread
  have hsame : jobEvents db' k = jobEvents db k := by
    unfold jobEvents
    rw [hevents]
  by_cases hk : row.key = k
  · subst hk
    have htold := (hj row.key).told
    rw [hfree] at htold
    have hblank : jobEvents db row.key = [] := htold.eq_nil
    rw [hblank] at hsame
    have hown : jobEvents (db'.appendEvent job ty now workerId reasonCode) row.key =
        [eventRow job 1 ty now workerId reasonCode] := by
      rw [jobEvents_appendEvent hjob.symm, hsame]
      · rfl
      · rw [hsame]
        rfl
      · rw [hsame]
        exact fun e he => absurd he List.not_mem_nil
    have hset : lookup JobRow.key row.key (db'.appendEvent job ty now workerId reasonCode).jobs =
        some row := by
      rw [appendEvent_jobs, hjobs, lookup_append_singleton, hfree, Option.none_or, if_pos rfl]
    refine ⟨⟨?_, ?_, ?_⟩, ?_⟩
    · rw [hown, hset]
      exact .opened [] (hopens _ rfl hblank hown)
    · rw [hown]
      rfl
    · rw [hown, hset]
      intro row' hrow' e he
      obtain rfl : row = row' := Option.some.inj hrow'
      rw [List.mem_singleton.mp he]
      exact belongs_eventRow hread 1
    · rw [hblank]
      exact List.nil_prefix
  · apply records_same (hj k)
    · rw [appendEvent_jobs, hjobs, lookup_append_singleton, if_neg hk, Option.or_none]
    · rw [jobEvents_appendEvent_of_ne (fun heq => hk (hjob.symm.trans heq)), hsame]

end Statements

/-! ## One lemma per operation -/

section Operations

variable {opens : JobKey → JobEventRow → Account → Prop} {b : JobBackend}
  {db db' : JobDatabase} {tenant : TenantContext} {jobId : String} {now : Instant}

theorem insertJob_events {row : JobRow} {inserted : Bool}
    (h : db.insertJob row = .ok (inserted, db')) : db'.events = db.events := by
  unfold insertJob at h
  split_ifs at h
  · cases h
    rfl
  · cases h
    rfl

theorem convergeJob_records (hj : ∀ k, Journal opens b.policy db k) {job existing : ResearchJob}
    {run missing : String} {inserted : Bool} (hqueued : job.status = .queued)
    (hopens : ∀ k e, Queues db db' k job e → opens k e (.queued job))
    (h : db.convergeJob tenant job run missing = .ok ((existing, inserted), db')) :
    ∀ k, Records opens b.policy db db' k := by
  unfold convergeJob at h
  obtain ⟨⟨fresh, db₁⟩, hinsert, h⟩ := bind_ok_cases h
  have hevents := insertJob_events hinsert
  cases hfound : db₁.jobOfRun tenant.tenantId run with
  | none => simp only [hfound, reduceCtorEq] at h
  | some row =>
    simp only [hfound] at h
    obtain ⟨job', hread, hdone⟩ := bind_ok_cases h
    clear h
    unfold insertJob at hinsert
    split_ifs at hinsert with hhas hkey hrun
    · cases hinsert
      simp only [Bool.false_eq_true, if_false] at hdone
      split_ifs at hdone
      cases hdone
      exact fun k => records_same (hj k) rfl rfl
    · cases hinsert
      have hnone : db.jobOfRun tenant.tenantId run = none := Option.not_isSome_iff_eq_none.mp hhas
      have hrow : row = newRow tenant job run := by
        unfold jobOfRun at hfound hnone
        rw [List.find?_append, hnone, Option.none_or] at hfound
        exact List.mem_singleton.mp (List.mem_of_find?_eq_some hfound)
      subst hrow
      split_ifs at hdone with hsame habsurd
      · cases hdone
        apply records_insert hj (Option.not_isSome_iff_eq_none.mp hkey) hread rfl hevents
        intro e he hblank hfirst
        have haccount : (newRow tenant job run).account = .queued job := by
          simp only [JobRow.account, newRow, Account.queued, hqueued]
        rw [haccount]
        refine hopens _ e ⟨hblank, hfirst, ?_, ?_, ?_⟩
        · rw [he]
          rfl
        · rw [he]
          exact (rowToJob_run hread).2
        · rw [he]
          rfl
      · exact absurd rfl habsurd

theorem enqueue_records (hj : ∀ k, Journal opens b.policy db k) {job r : ResearchJob}
    (hopens : ∀ k e, Queues db db' k job e → opens k e (.queued job))
    (h : db.enqueue tenant job = .ok (r, db')) : ∀ k, Records opens b.policy db db' k := by
  unfold enqueue at h
  split_ifs at h with hbad
  obtain ⟨⟨⟨existing, q⟩, db₁⟩, hc, h⟩ := bind_ok_cases h
  cases h
  exact convergeJob_records hj (not_not.mp (not_or.mp hbad).2) hopens hc

theorem convergeRun_events {run : ResearchRun} {r : ResearchRun × Bool}
    (hc : db.convergeRun tenant run = .ok (r, db')) : db'.events = db.events := by
  unfold convergeRun at hc
  split at hc
  · cases hc
    rfl
  · split_ifs at hc
    cases hc
    rfl

/-- The journals are those of the jobs and the events. -/
theorem Journal.of_eq {policy : JobPolicy} {k : JobKey} (h : Journal opens policy db k)
    (hjobs : db'.jobs = db.jobs) (hevents : db'.events = db.events) : Journal opens policy db' k := by
  apply (records_same h _ _).journal
  · rw [hjobs]
  · unfold jobEvents
    rw [hevents]

theorem submit_records (hj : ∀ k, Journal opens b.policy db k) {run : ResearchRun}
    {job : ResearchJob} {r : SubmittedResearch}
    (hopens : ∀ k e, Queues db db' k job e → opens k e (.queued job))
    (h : db.submit tenant run job = .ok (r, db')) : ∀ k, Records opens b.policy db db' k := by
  unfold submit at h
  split_ifs at h with htenant hbad
  obtain ⟨⟨⟨storedRun, p⟩, db₁⟩, hr, h⟩ := bind_ok_cases h
  obtain ⟨⟨⟨storedJob, q⟩, db₂⟩, hc, h⟩ := bind_ok_cases h
  cases h
  have hjobs := convergeRun_jobs hr
  have hevents := convergeRun_events hr
  have hj₁ : ∀ k, Journal opens b.policy db₁ k := fun k => (hj k).of_eq hjobs hevents
  intro k
  have hsame : Records opens b.policy db db₁ k := by
    apply records_same (hj k)
    · rw [hjobs]
    · unfold jobEvents
      rw [hevents]
  have hopens₁ : ∀ k e, Queues db₁ db' k job e → opens k e (.queued job) := by
    intro k e hq
    have hblank : jobEvents db k = jobEvents db₁ k := by
      unfold jobEvents
      rw [hevents]
    exact hopens k e ⟨hblank.trans hq.blank, hq.first, hq.eventType, hq.correlationId, hq.occurredAt⟩
  exact hsame.trans (convergeJob_records hj₁ (not_not.mp (not_or.mp hbad).2) hopens₁ hc k)

theorem requeue_records (hj : ∀ k, Journal opens b.policy db k) {correlationId : String}
    {r : ResearchJob} (h : db.requeue tenant jobId correlationId now = .ok (r, db')) :
    ∀ k, Records opens b.policy db db' k := by
  unfold requeue at h
  split at h
  · split_ifs at h
  · rename_i row db₁ hu
    obtain ⟨job, hread, h⟩ := bind_ok_cases h
    cases h
    obtain ⟨row₀, hl, -, rfl, rfl⟩ := updateJob_cases hu
    refine records_update hj hl ?_ ?_ hread ?_
    · exact fun _ => rfl
    · rfl
    · intro n
      have hcorrelation : r.correlationId = correlationId := (rowToJob_run hread).2
      simp [Account.after, eventRow, JobRow.account, hcorrelation]

theorem claim_records (hj : ∀ k, Journal opens b.policy db k) {workerId : String} {token : LeaseToken}
    {locked : List JobKey} {c : Option ClaimedJob}
    (h : claim b db workerId token locked now = .ok (c, db')) :
    ∀ k, Records opens b.policy db db' k := by
  unfold claim at h
  split_ifs at h
  split at h
  · cases h
    exact fun k => records_same (hj k) rfl rfl
  · rename_i chosen hchosen
    split at h
    · cases h
      exact fun k => records_same (hj k) rfl rfl
    · rename_i row db₁ hu
      obtain ⟨job, hread, h⟩ := bind_ok_cases h
      cases h
      obtain ⟨row₀, hl, -, rfl, rfl⟩ := updateJob_cases hu
      refine records_update hj hl ?_ ?_ hread ?_
      · exact fun _ => rfl
      · rfl
      · intro n
        simp [Account.after, eventRow, JobRow.account]

theorem heartbeat_records (hj : ∀ k, Journal opens b.policy db k) {token : LeaseToken} {r : Unit}
    (h : heartbeat b db tenant jobId token now = .ok (r, db')) :
    ∀ k, Records opens b.policy db db' k := by
  unfold heartbeat at h
  split at h
  · cases h
  · rename_i row db₁ hu
    cases h
    obtain ⟨row₀, hl, -, -, rfl⟩ := updateJob_cases hu
    refine fun k => records_renewed (hj k) ?_ ?_ ?_
    · exact fun _ => rfl
    · exact fun _ => rfl
    · exact fun _ => rfl

/-- The event of a completed attempt. -/
theorem after_completion {policy : JobPolicy} {a : Account} {isPartial : Bool} {e : JobEvent}
    (htype : e.eventType = s!"JOB_{(completionStatus isPartial).value}") :
    a.after policy e = { a with status := completionStatus isPartial } := by
  cases isPartial with
  | false =>
    have hname : e.eventType = "JOB_COMPLETED" := htype
    simp [Account.after, hname, completionStatus]
  | true =>
    have hname : e.eventType = "JOB_PARTIAL" := htype
    simp [Account.after, hname, completionStatus]

theorem complete_records (hj : ∀ k, Journal opens b.policy db k) {token : LeaseToken}
    {isPartial : Bool} {r : Unit}
    (h : complete b db tenant jobId token isPartial now = .ok (r, db')) :
    ∀ k, Records opens b.policy db db' k := by
  unfold complete at h
  split at h
  · cases h
  · rename_i row db₁ hu
    obtain ⟨job, hread, h⟩ := bind_ok_cases h
    cases h
    obtain ⟨row₀, hl, -, rfl, rfl⟩ := updateJob_cases hu
    refine records_update hj hl ?_ ?_ hread ?_
    · exact fun _ => rfl
    · rfl
    · intro n
      exact after_completion rfl

theorem afterAttempt_delay {policy : JobPolicy} {n delay : ℕ}
    (h : afterAttempt policy n = .ok (.retryWait, delay)) :
    delay = valueOr (retryDelay policy n) 0 := by
  unfold afterAttempt at h
  split_ifs at h
  · obtain ⟨d, hd, h⟩ := bind_ok_cases h
    cases h
    rw [hd, valueOr_ok]
  · cases h

theorem afterAttempt_dead {policy : JobPolicy} {n delay : ℕ}
    (h : afterAttempt policy n = .ok (.deadLetter, delay)) : delay = 0 := by
  unfold afterAttempt at h
  split_ifs at h
  · obtain ⟨d, -, h⟩ := bind_ok_cases h
    cases h
  · cases h
    rfl

/-- The event of an attempt that failed. -/
theorem after_failure {policy : JobPolicy} {a : Account} {retryable : Bool} {target : JobStatus}
    {delay : ℕ} {e : JobEvent}
    (hf : failureStatus policy retryable a.attemptCount = .ok (target, delay))
    (htype : e.eventType = s!"JOB_{target.value}") :
    a.after policy e = a.ended (target, delay) e e.reasonCode := by
  unfold failureStatus at hf
  split_ifs at hf with hretry
  · rcases afterAttempt_status hf with rfl | rfl
    · have hname : e.eventType = "JOB_RETRY_WAIT" := htype
      rw [afterAttempt_delay hf]
      simp [Account.after, hname]
    · have hname : e.eventType = "JOB_DEAD_LETTER" := htype
      rw [afterAttempt_dead hf]
      simp [Account.after, hname]
  · cases hf
    have hname : e.eventType = "JOB_FAILED" := htype
    simp [Account.after, hname]

theorem fail_records (hj : ∀ k, Journal opens b.policy db k) {token : LeaseToken}
    {reasonCode : String} {retryable : Bool} {r : Unit}
    (h : fail b db tenant jobId token reasonCode retryable now = .ok (r, db')) :
    ∀ k, Records opens b.policy db db' k := by
  unfold JobDatabase.fail at h
  split_ifs at h
  split at h
  · cases h
  · rename_i current hcurrent
    obtain ⟨⟨target, delay⟩, hf, h⟩ := bind_ok_cases h
    dsimp only at h
    split at h
    · cases h
    · rename_i row db₁ hu
      obtain ⟨job, hread, h⟩ := bind_ok_cases h
      cases h
      obtain ⟨row₀, hl, -, rfl, rfl⟩ := updateJob_cases hu
      obtain ⟨hfound, -⟩ := Option.filter_eq_some_iff.mp hcurrent
      have hrow : row₀ = current := Option.some.inj (hl.symm.trans hfound)
      subst hrow
      refine records_update hj hl ?_ ?_ hread ?_
      · exact fun _ => rfl
      · rfl
      · intro n
        exact after_failure (a := row₀.account) hf rfl

theorem cancel_records (hj : ∀ k, Journal opens b.policy db k) {r : ResearchJob}
    (h : db.cancel tenant jobId now = .ok (r, db')) : ∀ k, Records opens b.policy db db' k := by
  unfold JobDatabase.cancel at h
  split at h
  · cases h
  · obtain ⟨job, hjob, h⟩ := bind_ok_cases h
    split_ifs at h
    · cases h
      exact fun k => records_same (hj k) rfl rfl
    · split at h
      · cases h
      · rename_i row db₁ hu
        obtain ⟨cancelled, hread, h⟩ := bind_ok_cases h
        cases h
        obtain ⟨row₀, hl, -, rfl, rfl⟩ := updateJob_cases hu
        refine records_update hj hl ?_ ?_ hread ?_
        · exact fun _ => rfl
        · rfl
        · intro n
          simp [Account.after, eventRow, JobRow.account]

/-- A row whose lease ran out, as it was selected. -/
theorem recoverRow_records (hj : ∀ k, Journal opens b.policy db k) {current : JobRow} {n : ℕ}
    (hfound : lookup JobRow.key current.key db.jobs = some current)
    (h : recoverRow b now db current = .ok (n, db')) : ∀ k, Records opens b.policy db db' k := by
  unfold recoverRow at h
  obtain ⟨⟨target, delay⟩, hattempt, h⟩ := bind_ok_cases h
  dsimp only at h
  split at h
  · cases h
    exact fun k => records_same (hj k) rfl rfl
  · rename_i row db₁ hu
    obtain ⟨job, hread, h⟩ := bind_ok_cases h
    cases h
    obtain ⟨row₀, hl, -, rfl, rfl⟩ := updateJob_cases hu
    have hrow : row₀ = current := Option.some.inj (hl.symm.trans hfound)
    subst hrow
    refine records_update hj hl ?_ ?_ hread ?_
    · exact fun _ => rfl
    · rfl
    · intro m
      have hvalue : valueOr (afterAttempt b.policy row₀.account.attemptCount) (.deadLetter, 0) =
          (target, delay) := congrArg (valueOr · _) hattempt
      simp [Account.after, eventRow, hvalue]
      rfl

theorem recoverRows_records (hj : ∀ k, Journal opens b.policy db k) {rows : List JobRow} {n : ℕ}
    (hkeyed : Keyed JobRow.key rows)
    (hrows : ∀ r ∈ rows, lookup JobRow.key r.key db.jobs = some r)
    (h : recoverRows b now db rows = .ok (n, db')) : ∀ k, Records opens b.policy db db' k := by
  induction rows generalizing db n with
  | nil =>
    cases h
    exact fun k => records_same (hj k) rfl rfl
  | cons current rows ih =>
    obtain ⟨⟨n₁, db₁⟩, hone, h⟩ := bind_ok_cases h
    obtain ⟨⟨n₂, db₂⟩, hrest, h⟩ := bind_ok_cases h
    cases h
    obtain ⟨hfresh, hkeyed'⟩ := List.nodup_cons.mp hkeyed
    have hfirst := recoverRow_records hj (hrows current List.mem_cons_self) hone
    have hothers : ∀ r ∈ rows, lookup JobRow.key r.key db₁.jobs = some r := by
      intro r hr
      have hne : r.key ≠ current.key := by
        intro heq
        exact hfresh (heq ▸ List.mem_map_of_mem hr)
      have hbefore := hrows r (List.mem_cons_of_mem _ hr)
      rcases recoverRow_cases b hone with ⟨-, hsame⟩ | ⟨target, delay, -, hjobs⟩
      · have hdb : db₁ = db := hsame
        rw [hdb]
        exact hbefore
      · have hdb : db₁.jobs = _ := hjobs
        rw [hdb]
        refine Eq.trans (lookup_update_of_ne ?_ hne) hbefore
        exact fun _ => rfl
    have hlast := ih (fun k => (hfirst k).journal) hkeyed' hothers hrest
    exact fun k => (hfirst k).trans (hlast k)

theorem recoverStale_records (hj : ∀ k, Journal opens b.policy db k)
    (hkeyed : Keyed JobRow.key db.jobs)
    {locked : List JobKey} {n : ℕ} (h : recoverStale b db locked now = .ok (n, db')) :
    ∀ k, Records opens b.policy db db' k := by
  have hrows : Keyed JobRow.key (db.staleRows locked now) := by
    refine (List.Perm.nodup_iff ((List.perm_insertionSort _ _).map _)).mpr ?_
    exact List.Nodup.sublist (List.Sublist.map _ List.filter_sublist) hkeyed
  apply recoverRows_records hj hrows _ h
  intro r hr
  rw [staleRows, List.mem_insertionSort, List.mem_filter] at hr
  exact hkeyed.lookup_eq_some.mpr ⟨hr.1, rfl⟩

/-- What a successful call does to every journal. -/
theorem perform_records (hj : ∀ k, Journal opens b.policy db k) (hkeyed : Keyed JobRow.key db.jobs)
    {op : JobOp} {r : JobResult}
    (hopens : ∀ job ∈ op.queued, ∀ k e, Queues db db' k job e → opens k e (.queued job))
    (hp : perform b db op = .ok (r, db')) : ∀ k, Records opens b.policy db db' k := by
  cases op with
  | enqueue tenant job =>
    obtain ⟨⟨_, _⟩, h, hr⟩ := map_ok_cases hp
    cases hr
    exact enqueue_records hj (hopens job rfl) h
  | submit tenant run job =>
    obtain ⟨⟨_, _⟩, h, hr⟩ := map_ok_cases hp
    cases hr
    exact submit_records hj (hopens job rfl) h
  | requeue tenant jobId correlationId now =>
    obtain ⟨⟨_, _⟩, h, hr⟩ := map_ok_cases hp
    cases hr
    exact requeue_records hj h
  | claim workerId token locked now =>
    obtain ⟨⟨_, _⟩, h, hr⟩ := map_ok_cases hp
    cases hr
    exact claim_records hj h
  | heartbeat tenant jobId token now =>
    obtain ⟨⟨_, _⟩, h, hr⟩ := map_ok_cases hp
    cases hr
    exact heartbeat_records hj h
  | complete tenant jobId token isPartial now =>
    obtain ⟨⟨_, _⟩, h, hr⟩ := map_ok_cases hp
    cases hr
    exact complete_records hj h
  | fail tenant jobId token reasonCode retryable now =>
    obtain ⟨⟨_, _⟩, h, hr⟩ := map_ok_cases hp
    cases hr
    exact fail_records hj h
  | cancel tenant jobId now =>
    obtain ⟨⟨_, _⟩, h, hr⟩ := map_ok_cases hp
    cases hr
    exact cancel_records hj h
  | recoverStale locked now =>
    obtain ⟨⟨_, _⟩, h, hr⟩ := map_ok_cases hp
    cases hr
    exact recoverStale_records hj hkeyed h

end Operations

/-! ## Runs -/

section Run

variable (b : JobBackend)

theorem next_records {opens : JobKey → JobEventRow → Account → Prop} {db : JobDatabase}
    (hj : ∀ k, Journal opens b.policy db k) (hkeyed : Keyed JobRow.key db.jobs) (op : JobOp)
    (hopens : ∀ job ∈ op.queued, ∀ k e, Queues db (next b db op) k job e → opens k e (.queued job))
    (k : JobKey) : Records opens b.policy db (next b db op) k := by
  unfold next at hopens ⊢
  cases hp : perform b db op with
  | error e => exact records_same (hj k) rfl rfl
  | ok r =>
    rw [hp] at hopens
    exact perform_records hj hkeyed hopens hp k

theorem journal_blank {opens : JobKey → JobEventRow → Account → Prop} {policy : JobPolicy}
    {db : JobDatabase} (hjobs : db.jobs = []) (hevents : db.events = []) (k : JobKey) :
    Journal opens policy db k := by
  have hnone : lookup JobRow.key k db.jobs = none := by
    rw [hjobs]
    rfl
  have hblank : jobEvents db k = [] := by
    unfold jobEvents
    rw [hevents]
    rfl
  refine ⟨?_, ?_, ?_⟩
  · rw [hnone, hblank]
    exact .blank
  · rw [hblank]
    rfl
  · intro row hrow
    rw [hnone] at hrow
    cases hrow

/-- A call of the run queued the job of an account as the first of a key. -/
def QueuedIn (tr : JobTrace) (k : JobKey) (e : JobEventRow) (a : Account) : Prop :=
  ∃ x ∈ tr, ∃ job ∈ x.label.queued, Queues x.before x.after k job e ∧ a = .queued job

/-- What every call of the job store keeps. -/
structure Journaled (tr : JobTrace) (db : JobDatabase) : Prop where
  sound : RowsSound db.jobs
  journals : ∀ k, Journal (QueuedIn tr) b.policy db k

variable {b} {db db' : JobDatabase} {op : JobOp} {tr : JobTrace}

theorem Journal.mono {opens opens' : JobKey → JobEventRow → Account → Prop} {policy : JobPolicy}
    {k : JobKey} (hopens : ∀ e a, opens k e a → opens' k e a) (h : Journal opens policy db k) :
    Journal opens' policy db k :=
  ⟨h.told.mono hopens, h.numbered, h.belongs⟩

theorem Journaled.records (h : Journaled b tr db) (hs : JobStep b db op db') (k : JobKey) :
    Records (QueuedIn (tr ++ [⟨db, op, db'⟩])) b.policy db db' k := by
  have hbefore : ∀ k, Journal (QueuedIn (tr ++ [⟨db, op, db'⟩])) b.policy db k := by
    refine fun k => (h.journals k).mono ?_
    rintro e a ⟨x, hx, hqueued⟩
    exact ⟨x, List.mem_append_left _ hx, hqueued⟩
  rw [show db' = next b db op from hs] at hbefore ⊢
  apply next_records b hbefore h.sound.keyed op
  intro job hjob k e hq
  exact ⟨_, List.mem_append_right _ (List.mem_singleton_self _), job, hjob, hq, rfl⟩

theorem Journaled.step (h : Journaled b tr db) (hs : JobStep b db op db') :
    Journaled b (tr ++ [⟨db, op, db'⟩]) db' := by
  refine ⟨?_, fun k => (h.records hs k).journal⟩
  rw [show db' = next b db op from hs]
  exact (next_keeps b h.sound op).sound

theorem journaled_run (hr : Run (JobStep b) db tr db') (h : Journaled b [] db) :
    (∀ x ∈ tr, ∀ k, jobEvents x.before k <+: jobEvents x.after k) ∧ Journaled b tr db' := by
  apply hr.invariant (fun tr db' =>
    (∀ x ∈ tr, ∀ k, jobEvents x.before k <+: jobEvents x.after k) ∧ Journaled b tr db')
  · exact ⟨fun x hx => absurd hx List.not_mem_nil, h⟩
  · rintro tr db₁ op db₂ - ⟨hextends, hjournaled⟩ hstep
    refine ⟨?_, hjournaled.step hstep⟩
    intro x hx
    rcases List.mem_append.mp hx with hx | hx
    · exact hextends x hx
    · rw [List.mem_singleton.mp hx]
      exact fun k => (hjournaled.records hstep k).grows

/-- Once a call has queued the first job of a key, no later one does. -/
theorem queuedIn_unique (hr : Run (JobStep b) db tr db') (h : Journaled b [] db) {k : JobKey}
    {e e' : JobEventRow} {a a' : Account} (hq : QueuedIn tr k e a) (hq' : QueuedIn tr k e' a') :
    a' = a := by
  have hrun : (∀ e a, QueuedIn tr k e a → jobEvents db' k ≠ []) ∧
      ∀ e a e' a', QueuedIn tr k e a → QueuedIn tr k e' a' → a' = a := by
    clear hq hq'
    induction hr with
    | nil => exact ⟨fun _ _ ⟨x, hx, _⟩ => absurd hx List.not_mem_nil,
        fun _ _ _ _ ⟨x, hx, _⟩ => absurd hx List.not_mem_nil⟩
    | @snoc tr db₁ db₂ op hr hs ih =>
      obtain ⟨hkept, hsame⟩ := ih
      have hgrows := ((journaled_run hr h).2.records hs k).grows
      have hcases : ∀ e a, QueuedIn (tr ++ [⟨db₁, op, db₂⟩]) k e a → QueuedIn tr k e a ∨
          ∃ job ∈ op.queued, Queues db₁ db₂ k job e ∧ a = .queued job := by
        rintro e a ⟨x, hx, hqueued⟩
        rcases List.mem_append.mp hx with hx | hx
        · exact .inl ⟨x, hx, hqueued⟩
        · obtain rfl := List.mem_singleton.mp hx
          exact .inr hqueued
      constructor
      · intro e a hq hnil
        rcases hcases e a hq with hold | ⟨job, -, hnew, -⟩
        · exact hkept e a hold (List.prefix_nil.mp (hnil ▸ hgrows))
        · exact absurd (hnew.first.symm.trans hnil) (by simp)
      · intro e a e' a' hq hq'
        rcases hcases e a hq with hold | ⟨job, hjob, hnew, rfl⟩
        · rcases hcases e' a' hq' with hold' | ⟨job', -, hnew', -⟩
          · exact hsame e a e' a' hold hold'
          · exact absurd hnew'.blank (hkept e a hold)
        · rcases hcases e' a' hq' with hold' | ⟨job', hjob', -, rfl⟩
          · exact absurd hnew.blank (hkept e' a' hold')
          · rw [Option.mem_unique hjob hjob']
  exact hrun.2 e a e' a' hq hq'

/-- The events of a key are none, or they tell its row from the queueing of its job on. -/
theorem Journal.tells {policy : JobPolicy} {k : JobKey} (h : Journal (QueuedIn tr) policy db k) :
    match lookup JobRow.key k db.jobs with
    | none => jobEvents db k = []
    | some row => (∀ e ∈ jobEvents db k, Belongs row e) ∧
        ∃ first rest a, jobEvents db k = first :: rest ∧ QueuedIn tr k first a ∧
          row.account = (rest.map JobEventRow.event).foldl (Account.after policy) a := by
  have htold := h.told
  cases hl : lookup JobRow.key k db.jobs with
  | none =>
    rw [hl] at htold
    exact htold.eq_nil
  | some row =>
    rw [hl] at htold
    refine ⟨h.belongs row hl, ?_⟩
    generalize hlog : jobEvents db k = log at htold
    generalize hstate : (some row).map JobRow.account = state at htold
    cases htold with
    | blank => cases hstate
    | @opened first a rest hopens =>
      refine ⟨first, rest, a, rfl, hopens, ?_⟩
      rw [List.foldl_map]
      exact Option.some.inj hstate

/-- In a store that only the job store has written, however its calls were interleaved: the events
of a job are numbered from one without a gap, each under its own id and with the names of the
job; its status, attempts, correlation id, time and error are those that its later events make of
the job that the one call with its first event queued; and no call takes an event back. -/
theorem journals_tell (hjobs : db.jobs = []) (hevents : db.events = [])
    (h : Run (JobStep b) db tr db') :
    (∀ x ∈ tr, ∀ k, jobEvents x.before k <+: jobEvents x.after k) ∧
      ∀ k, (jobEvents db' k).map JobEventRow.sequence =
          (List.range (jobEvents db' k).length).map (· + 1) ∧
        match lookup JobRow.key k db'.jobs with
        | none => jobEvents db' k = []
        | some row => (∀ e ∈ jobEvents db' k, Belongs row e) ∧
            ∃ first rest a, jobEvents db' k = first :: rest ∧ QueuedIn tr k first a ∧
              (∀ e' a', QueuedIn tr k e' a' → a' = a) ∧
                row.account =
                  (rest.map JobEventRow.event).foldl (Account.after b.policy) a := by
  have hstart : Journaled b [] db := by
    refine ⟨?_, journal_blank hjobs hevents⟩
    rw [hjobs]
    exact rowsSound_nil
  obtain ⟨hextends, hend⟩ := journaled_run h hstart
  refine ⟨hextends, fun k => ⟨(hend.journals k).numbered, ?_⟩⟩
  have htells := (hend.journals k).tells
  cases hl : lookup JobRow.key k db'.jobs with
  | none =>
    rw [hl] at htells
    exact htells
  | some row =>
    rw [hl] at htells
    obtain ⟨hbelongs, first, rest, a, hlog, hqueued, haccount⟩ := htells
    exact ⟨hbelongs, first, rest, a, hlog, hqueued,
      fun _ _ hq => queuedIn_unique h hstart hqueued hq, haccount⟩

end Run

/-- A job that is submitted and claimed, and whose first attempt fails. -/
def failedOps : List JobOp :=
  [.submit pilotTenant pilotRun pilotJob, .claim "worker-1" firstToken [] 0,
    .fail pilotTenant "job-1" firstToken "PROVIDER_UNAVAILABLE" true 1]

def failedStore : JobDatabase := failedOps.foldl (next plainBackend) emptyJobs

/-- The row of the failed job, told by the events after its queueing. -/
theorem journals_tell_failed :
    (jobEvents failedStore ("tenant-a", "job-1")).map JobEventRow.sequence = [1, 2, 3] ∧
      ∃ first rest, jobEvents failedStore ("tenant-a", "job-1") = first :: rest ∧
        (lookup JobRow.key ("tenant-a", "job-1") failedStore.jobs).map JobRow.account =
          some ((rest.map JobEventRow.event).foldl (Account.after plainBackend.policy)
            (.queued pilotJob)) ∧
        rest.map (fun e => e.event.eventType) = ["JOB_CLAIMED", "JOB_RETRY_WAIT"] := by
  have hrun : Run (JobStep plainBackend) emptyJobs
      (execute (next plainBackend) emptyJobs failedOps) failedStore :=
    run_execute (JobStep plainBackend) (next plainBackend) (fun _ _ => rfl) emptyJobs failedOps
  obtain ⟨hnumbers, htells⟩ := (journals_tell rfl rfl hrun).2 ("tenant-a", "job-1")
  refine ⟨hnumbers, ?_⟩
  obtain ⟨-, first, rest, a, hlog, -, hunique, haccount⟩ := htells
  have hqueued : QueuedIn (execute (next plainBackend) emptyJobs failedOps) ("tenant-a", "job-1")
      (eventRow pilotJob 1 "JOB_QUEUED" 0 none none) (.queued pilotJob) :=
    ⟨_, List.mem_cons_self, pilotJob, rfl, ⟨rfl, rfl, rfl, rfl, rfl⟩, rfl⟩
  obtain rfl := hunique _ _ hqueued
  refine ⟨first, rest, hlog, congrArg some haccount, ?_⟩
  obtain ⟨rfl, rfl⟩ := List.cons.inj hlog
  rfl

end DecisionAssurance.Jobs
