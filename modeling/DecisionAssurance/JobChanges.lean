import DecisionAssurance.JobLifecycle

/-!
# What a call does to a job

The rows of the jobs are changed one by one: `Fate` says for every key what a successful call of
the job store made of its row.
-/

namespace DecisionAssurance.Jobs

open Tables Runs Research JobDatabase

/-- The job that a call submits or enqueues, and its tenant. -/
inductive Submits : JobOp → TenantContext → ResearchJob → Prop
  | enqueue (tenant : TenantContext) (job : ResearchJob) : Submits (.enqueue tenant job) tenant job
  | submit (tenant : TenantContext) (run : ResearchRun) (job : ResearchJob) :
      Submits (.submit tenant run job) tenant job

def ClaimedJob.key (c : ClaimedJob) : JobKey := (c.job.tenantId, c.job.jobId)

/-- A call that claimed a job. -/
def ClaimsJob (k : JobKey) : JobResult → Prop
  | .claimed (some c) => c.key = k
  | _ => False

instance (k : JobKey) : DecidablePred (ClaimsJob k) := fun r =>
  match r with
  | .claimed (some c) => inferInstanceAs (Decidable (c.key = k))
  | .claimed none | .done | .job _ | .submitted _ | .count _ => isFalse id

def Readable (row : JobRow) : Prop := ∃ job, rowToJob row = .ok job

section Fate

variable (b : JobBackend)

/-- The row of a key before and after a call. -/
inductive Fate (k : JobKey) : JobOp → JobResult → Option JobRow → Option JobRow → Prop
  | kept {op : JobOp} {r : JobResult} {row : Option JobRow} : ¬ ClaimsJob k r → Fate k op r row row
  | queued {op : JobOp} {r : JobResult} {tenant : TenantContext} {job : ResearchJob}
      {runId : String} : ¬ ClaimsJob k r → Submits op tenant job → job.status = .queued →
      Readable (newRow tenant job runId) → Fate k op r none (some (newRow tenant job runId))
  | requeued {tenant : TenantContext} {jobId correlationId : String} {now : Instant}
      {job : ResearchJob} {row : JobRow} : (tenant.tenantId, jobId) = k →
      requeueable row.status = true → Readable { row with
        status := .queued, correlationId := correlationId, attemptCount := 0,
        availableAt := now, leaseTokenHash := none, leaseExpiresAt := none,
        lastErrorCode := none, updatedAt := now } →
      Fate k (.requeue tenant jobId correlationId now) (.job job) (some row) (some { row with
        status := .queued, correlationId := correlationId, attemptCount := 0,
        availableAt := now, leaseTokenHash := none, leaseExpiresAt := none,
        lastErrorCode := none, updatedAt := now })
  | claimed {workerId : String} {token : LeaseToken} {locked : List JobKey} {now : Instant}
      {c : ClaimedJob} {row : JobRow} : c.key = k →
      row.status = .queued ∨ row.status = .retryWait →
      Readable { row with
        status := .running, attemptCount := row.attemptCount + 1,
        leaseTokenHash := some (b.leaseHash token.value),
        leaseExpiresAt := some (now + seconds b.policy.leaseSeconds), updatedAt := now } →
      Fate k (.claim workerId token locked now) (.claimed (some c)) (some row) (some { row with
        status := .running, attemptCount := row.attemptCount + 1,
        leaseTokenHash := some (b.leaseHash token.value),
        leaseExpiresAt := some (now + seconds b.policy.leaseSeconds), updatedAt := now })
  | extended {tenant : TenantContext} {jobId : String} {token : LeaseToken} {now : Instant}
      {row : JobRow} : (tenant.tenantId, jobId) = k → holdsLease b token now row = true →
      Fate k (.heartbeat tenant jobId token now) .done (some row) (some { row with
        leaseExpiresAt := some (now + seconds b.policy.leaseSeconds), updatedAt := now })
  | completed {tenant : TenantContext} {jobId : String} {token : LeaseToken} {isPartial : Bool}
      {now : Instant} {row : JobRow} : (tenant.tenantId, jobId) = k →
      holdsLease b token now row = true → Readable { row with
        status := completionStatus isPartial, leaseTokenHash := none, leaseExpiresAt := none,
        updatedAt := now } →
      Fate k (.complete tenant jobId token isPartial now) .done (some row) (some { row with
        status := completionStatus isPartial, leaseTokenHash := none, leaseExpiresAt := none,
        updatedAt := now })
  | failed {tenant : TenantContext} {jobId : String} {token : LeaseToken} {reasonCode : String}
      {retryable : Bool} {now : Instant} {row : JobRow} {target : JobStatus} {delay : ℕ} :
      (tenant.tenantId, jobId) = k → holdsLease b token now row = true →
      failureStatus b.policy retryable row.attemptCount = .ok (target, delay) →
      Readable { row with
        status := target, availableAt := now + seconds delay, leaseTokenHash := none,
        leaseExpiresAt := none, lastErrorCode := some reasonCode, updatedAt := now } →
      Fate k (.fail tenant jobId token reasonCode retryable now) .done (some row)
        (some { row with
          status := target, availableAt := now + seconds delay, leaseTokenHash := none,
          leaseExpiresAt := none, lastErrorCode := some reasonCode, updatedAt := now })
  | cancelled {tenant : TenantContext} {jobId : String} {now : Instant} {job : ResearchJob}
      {row : JobRow} : (tenant.tenantId, jobId) = k → isFinal row.status = false →
      Readable { row with
        status := .cancelled, leaseTokenHash := none, leaseExpiresAt := none,
        updatedAt := now } →
      Fate k (.cancel tenant jobId now) (.job job) (some row) (some { row with
        status := .cancelled, leaseTokenHash := none, leaseExpiresAt := none, updatedAt := now })
  | recovered {locked : List JobKey} {now : Instant} {n : ℕ} {row : JobRow} {target : JobStatus}
      {delay : ℕ} : isStale now row = true →
      afterAttempt b.policy row.attemptCount = .ok (target, delay) →
      Readable { row with
        status := target, availableAt := now + seconds delay, leaseTokenHash := none,
        leaseExpiresAt := none, lastErrorCode := some "STALE_LEASE_RECOVERED",
        updatedAt := now } →
      Fate k (.recoverStale locked now) (.count n) (some row) (some { row with
        status := target, availableAt := now + seconds delay, leaseTokenHash := none,
        leaseExpiresAt := none, lastErrorCode := some "STALE_LEASE_RECOVERED",
        updatedAt := now })

variable {b} {k k₀ : JobKey} {op : JobOp} {r : JobResult} {rows rows' : List JobRow}
  {set : JobRow → JobRow} {row : JobRow}

theorem lookup_update_of_ne (hkey : ∀ row : JobRow, (set row).key = row.key) (hk : k ≠ k₀) :
    lookup JobRow.key k (updateWhere (fun row => row.key = k₀) set rows) =
      lookup JobRow.key k rows := by
  rw [lookup_update hkey]
  simp only [hk, if_false, Option.map_id_fun', id_eq]

/-- An update of one row. -/
theorem fate_update (hl : lookup JobRow.key k₀ rows = some row)
    (hkey : ∀ row : JobRow, (set row).key = row.key)
    (hown : Fate b k₀ op r (some row) (some (set row)))
    (hothers : ∀ k ≠ k₀, ¬ ClaimsJob k r) (k : JobKey) :
    Fate b k op r (lookup JobRow.key k rows)
      (lookup JobRow.key k (updateWhere (fun row => row.key = k₀) set rows)) := by
  by_cases hk : k = k₀
  · subst hk
    rw [lookup_update hkey, hl, Option.map_some, if_pos rfl]
    exact hown
  · rw [lookup_update_of_ne hkey hk]
    exact .kept (hothers k hk)

end Fate

/-! ## One lemma per operation -/

section Operations

variable {b : JobBackend} {db db' : JobDatabase} {tenant : TenantContext} {jobId : String}
  {now : Instant} {k : JobKey}

/-- The row that a job of a run has after its submission. -/
theorem convergeJob_fate {op : JobOp} {r : JobResult} {job existing : ResearchJob}
    {run missing : String} {inserted : Bool} (hop : Submits op tenant job)
    (hqueued : job.status = .queued) (hr : ¬ ClaimsJob k r)
    (h : db.convergeJob tenant job run missing = .ok ((existing, inserted), db')) :
    Fate b k op r (lookup JobRow.key k db.jobs) (lookup JobRow.key k db'.jobs) := by
  unfold convergeJob at h
  obtain ⟨⟨fresh, db₁⟩, hinsert, h⟩ := bind_ok_cases h
  cases hfound : db₁.jobOfRun tenant.tenantId run with
  | none => simp only [hfound, reduceCtorEq] at h
  | some row =>
    simp only [hfound] at h
    obtain ⟨job', hread, h⟩ := bind_ok_cases h
    have hjobs : db'.jobs = db₁.jobs := by
      split_ifs at h
      · cases h
        exact appendEvent_jobs ..
      · cases h
        rfl
    unfold insertJob at hinsert
    split_ifs at hinsert with hhas hkey hrun
    · cases hinsert
      rw [hjobs]
      exact .kept hr
    · cases hinsert
      have hnone : db.jobOfRun tenant.tenantId run = none := Option.not_isSome_iff_eq_none.mp hhas
      have hrow : row = newRow tenant job run := by
        unfold jobOfRun at hfound hnone
        rw [List.find?_append, hnone, Option.none_or] at hfound
        exact List.mem_singleton.mp (List.mem_of_find?_eq_some hfound)
      have hfree := Option.not_isSome_iff_eq_none.mp hkey
      rw [hjobs, lookup_append_singleton]
      by_cases hk : (newRow tenant job run).key = k
      · subst hk
        rw [hfree, Option.none_or, if_pos rfl]
        exact .queued hr hop hqueued ⟨job', hrow ▸ hread⟩
      · rw [if_neg hk, Option.or_none]
        exact .kept hr

theorem enqueue_fate {job r : ResearchJob} (h : db.enqueue tenant job = .ok (r, db')) :
    Fate b k (.enqueue tenant job) (.job r) (lookup JobRow.key k db.jobs)
      (lookup JobRow.key k db'.jobs) := by
  unfold enqueue at h
  split_ifs at h with hbad
  obtain ⟨⟨⟨existing, q⟩, db₁⟩, hc, h⟩ := bind_ok_cases h
  cases h
  exact convergeJob_fate (.enqueue tenant job) (not_not.mp (not_or.mp hbad).2) id hc

theorem submit_fate {run : ResearchRun} {job : ResearchJob} {r : SubmittedResearch}
    (h : db.submit tenant run job = .ok (r, db')) :
    Fate b k (.submit tenant run job) (.submitted r) (lookup JobRow.key k db.jobs)
      (lookup JobRow.key k db'.jobs) := by
  unfold submit at h
  split_ifs at h with htenant hbad
  obtain ⟨⟨⟨storedRun, p⟩, db₁⟩, hr, h⟩ := bind_ok_cases h
  obtain ⟨⟨⟨storedJob, q⟩, db₂⟩, hc, h⟩ := bind_ok_cases h
  cases h
  rw [← convergeRun_jobs hr]
  exact convergeJob_fate (.submit tenant run job) (not_not.mp (not_or.mp hbad).2) id hc

theorem requeue_fate {correlationId : String} {r : ResearchJob}
    (h : db.requeue tenant jobId correlationId now = .ok (r, db')) :
    Fate b k (.requeue tenant jobId correlationId now) (.job r) (lookup JobRow.key k db.jobs)
      (lookup JobRow.key k db'.jobs) := by
  unfold requeue at h
  split at h
  · split_ifs at h
  · rename_i row db₁ hu
    obtain ⟨job, hread, h⟩ := bind_ok_cases h
    cases h
    obtain ⟨row₀, hl, hguard, rfl, rfl⟩ := updateJob_cases hu
    rw [appendEvent_jobs]
    refine fate_update hl ?_ ?_ ?_ k
    · exact fun _ => rfl
    · exact .requeued rfl hguard ⟨r, hread⟩
    · exact fun _ _ => id

theorem claim_fate (hkeyed : Keyed JobRow.key db.jobs) {workerId : String} {token : LeaseToken}
    {locked : List JobKey} {c : Option ClaimedJob}
    (h : claim b db workerId token locked now = .ok (c, db')) :
    Fate b k (.claim workerId token locked now) (.claimed c) (lookup JobRow.key k db.jobs)
      (lookup JobRow.key k db'.jobs) := by
  unfold claim at h
  split_ifs at h
  split at h
  · cases h
    exact .kept id
  · rename_i chosen hchosen
    obtain ⟨hmem, hcandidate⟩ := candidate_cases hchosen
    split at h
    · cases h
      exact .kept id
    · rename_i row db₁ hu
      obtain ⟨job, hread, h⟩ := bind_ok_cases h
      cases h
      obtain ⟨row₀, hl, -, rfl, rfl⟩ := updateJob_cases hu
      have hrow : row₀ = chosen := hkeyed.eq_of_mem (mem_of_lookup hl) hmem (key_of_lookup hl)
      have hwaiting : row₀.status = .queued ∨ row₀.status = .retryWait := by
        simp only [isCandidate, Bool.and_eq_true, Bool.or_eq_true, decide_eq_true_eq] at hcandidate
        rw [hrow]
        exact hcandidate.1.1
      have hkey : row₀.key = chosen.key := key_of_lookup hl
      have hclaimed : ClaimedJob.key ⟨job, token⟩ = chosen.key :=
        (rowToJob_key hread).trans hkey
      rw [appendEvent_jobs]
      refine fate_update hl ?_ ?_ ?_ k
      · exact fun _ => rfl
      · exact .claimed hclaimed hwaiting ⟨job, hread⟩
      · exact fun k hk hclaims => hk (hclaims.symm.trans hclaimed)

theorem heartbeat_fate {token : LeaseToken} {r : Unit}
    (h : heartbeat b db tenant jobId token now = .ok (r, db')) :
    Fate b k (.heartbeat tenant jobId token now) .done (lookup JobRow.key k db.jobs)
      (lookup JobRow.key k db'.jobs) := by
  unfold heartbeat at h
  split at h
  · cases h
  · rename_i row db₁ hu
    cases h
    obtain ⟨row₀, hl, hguard, -, rfl⟩ := updateJob_cases hu
    refine fate_update hl ?_ ?_ ?_ k
    · exact fun _ => rfl
    · exact .extended rfl hguard
    · exact fun _ _ => id

theorem complete_fate {token : LeaseToken} {isPartial : Bool} {r : Unit}
    (h : complete b db tenant jobId token isPartial now = .ok (r, db')) :
    Fate b k (.complete tenant jobId token isPartial now) .done (lookup JobRow.key k db.jobs)
      (lookup JobRow.key k db'.jobs) := by
  unfold complete at h
  split at h
  · cases h
  · rename_i row db₁ hu
    obtain ⟨job, hread, h⟩ := bind_ok_cases h
    cases h
    obtain ⟨row₀, hl, hguard, rfl, rfl⟩ := updateJob_cases hu
    rw [appendEvent_jobs]
    refine fate_update hl ?_ ?_ ?_ k
    · exact fun _ => rfl
    · exact .completed rfl hguard ⟨job, hread⟩
    · exact fun _ _ => id

theorem fail_fate {token : LeaseToken} {reasonCode : String} {retryable : Bool} {r : Unit}
    (h : fail b db tenant jobId token reasonCode retryable now = .ok (r, db')) :
    Fate b k (.fail tenant jobId token reasonCode retryable now) .done
      (lookup JobRow.key k db.jobs) (lookup JobRow.key k db'.jobs) := by
  unfold JobDatabase.fail at h
  split_ifs at h
  split at h
  · cases h
  · rename_i current hcurrent
    obtain ⟨⟨target, delay⟩, hf, h⟩ := bind_ok_cases h
    dsimp only at h
    split at h
    · cases h
    · rename_i row db₁ hu
      obtain ⟨job, hread, h⟩ := bind_ok_cases h
      cases h
      obtain ⟨row₀, hl, -, rfl, rfl⟩ := updateJob_cases hu
      obtain ⟨hfound, hguard⟩ := Option.filter_eq_some_iff.mp hcurrent
      have hrow : row₀ = current := Option.some.inj (hl.symm.trans hfound)
      subst hrow
      rw [appendEvent_jobs]
      refine fate_update hl ?_ ?_ ?_ k
      · exact fun _ => rfl
      · exact .failed rfl hguard hf ⟨job, hread⟩
      · exact fun _ _ => id

theorem cancel_fate {r : ResearchJob} (h : db.cancel tenant jobId now = .ok (r, db')) :
    Fate b k (.cancel tenant jobId now) (.job r) (lookup JobRow.key k db.jobs)
      (lookup JobRow.key k db'.jobs) := by
  unfold JobDatabase.cancel at h
  split at h
  · cases h
  · rename_i current hl
    obtain ⟨job, hjob, h⟩ := bind_ok_cases h
    split_ifs at h with hfinal
    · cases h
      exact .kept id
    · split at h
      · cases h
      · rename_i row db₁ hu
        obtain ⟨cancelled, hread, h⟩ := bind_ok_cases h
        cases h
        obtain ⟨row₀, hl₀, -, rfl, rfl⟩ := updateJob_cases hu
        have hrow : row₀ = current := Option.some.inj (hl₀.symm.trans hl)
        subst hrow
        rw [rowToJob_status hjob, Bool.not_eq_true] at hfinal
        rw [appendEvent_jobs]
        refine fate_update hl ?_ ?_ ?_ k
        · exact fun _ => rfl
        · exact .cancelled rfl hfinal ⟨_, hread⟩
        · exact fun _ _ => id

/-- One stale row is recovered and no other row changes. -/
theorem recoverRow_fate {locked : List JobKey} {current : JobRow} {n m : ℕ}
    (hl : lookup JobRow.key current.key db.jobs = some current) (hstale : isStale now current = true)
    (h : recoverRow b now db current = .ok (n, db')) :
    Fate b k (.recoverStale locked now) (.count m) (lookup JobRow.key k db.jobs)
        (lookup JobRow.key k db'.jobs) ∧
      (k ≠ current.key → lookup JobRow.key k db'.jobs = lookup JobRow.key k db.jobs) := by
  unfold recoverRow at h
  obtain ⟨⟨target, delay⟩, hattempt, h⟩ := bind_ok_cases h
  dsimp only at h
  split at h
  · rename_i hu
    unfold updateJob at hu
    simp only [hl, if_true, reduceCtorEq] at hu
  · rename_i row db₁ hu
    obtain ⟨job, hread, h⟩ := bind_ok_cases h
    cases h
    obtain ⟨row₀, hl₀, -, rfl, rfl⟩ := updateJob_cases hu
    have hrow : row₀ = current := Option.some.inj (hl₀.symm.trans hl)
    subst hrow
    rw [appendEvent_jobs]
    constructor
    · refine fate_update hl ?_ ?_ ?_ k
      · exact fun _ => rfl
      · exact .recovered hstale hattempt ⟨job, hread⟩
      · exact fun _ _ => id
    · intro hk
      refine lookup_update_of_ne ?_ hk
      exact fun _ => rfl

theorem recoverRows_fate {locked : List JobKey} {rows : List JobRow} {n m : ℕ}
    (hkeyed : Keyed JobRow.key rows)
    (hrows : ∀ r ∈ rows, lookup JobRow.key r.key db.jobs = some r ∧ isStale now r = true)
    (h : recoverRows b now db rows = .ok (n, db')) :
    Fate b k (.recoverStale locked now) (.count m) (lookup JobRow.key k db.jobs)
        (lookup JobRow.key k db'.jobs) ∧
      (k ∉ rows.map JobRow.key → lookup JobRow.key k db'.jobs = lookup JobRow.key k db.jobs) := by
  induction rows generalizing db n with
  | nil =>
    cases h
    exact ⟨.kept id, fun _ => rfl⟩
  | cons current rows ih =>
    obtain ⟨⟨n₁, db₁⟩, hone, h⟩ := bind_ok_cases h
    obtain ⟨⟨n₂, db₂⟩, hrest, h⟩ := bind_ok_cases h
    cases h
    obtain ⟨hfound, hstale⟩ := hrows current List.mem_cons_self
    obtain ⟨hfresh, hkeyed'⟩ := List.nodup_cons.mp hkeyed
    have hfirst (k : JobKey) : Fate b k (.recoverStale locked now) (.count m)
        (lookup JobRow.key k db.jobs) (lookup JobRow.key k db₁.jobs) ∧
        (k ≠ current.key → lookup JobRow.key k db₁.jobs = lookup JobRow.key k db.jobs) :=
      recoverRow_fate hfound hstale hone
    obtain ⟨hfate, hothers⟩ := ih hkeyed' (fun r hr => by
      have hne : r.key ≠ current.key := by
        intro heq
        exact hfresh (heq ▸ List.mem_map_of_mem hr)
      rw [(hfirst r.key).2 hne]
      exact hrows r (List.mem_cons_of_mem _ hr)) hrest
    by_cases hk : k = current.key
    · subst hk
      rw [hothers hfresh]
      exact ⟨(hfirst _).1, fun hnotin => absurd List.mem_cons_self hnotin⟩
    · rw [← (hfirst k).2 hk]
      refine ⟨hfate, fun hnotin => hothers fun hmem => hnotin ?_⟩
      exact List.mem_cons_of_mem _ hmem

theorem recoverStale_fate (hkeyed : Keyed JobRow.key db.jobs) {locked : List JobKey} {n : ℕ}
    (h : recoverStale b db locked now = .ok (n, db')) :
    Fate b k (.recoverStale locked now) (.count n) (lookup JobRow.key k db.jobs)
      (lookup JobRow.key k db'.jobs) := by
  have hrows : Keyed JobRow.key (db.staleRows locked now) := by
    refine (List.Perm.nodup_iff ((List.perm_insertionSort _ _).map _)).mpr ?_
    exact List.Nodup.sublist (List.Sublist.map _ List.filter_sublist) hkeyed
  refine (recoverRows_fate hrows (fun r hr => ?_) h).1
  rw [staleRows, List.mem_insertionSort, List.mem_filter, Bool.and_eq_true] at hr
  exact ⟨hkeyed.lookup_eq_some.mpr ⟨hr.1, rfl⟩, hr.2.1⟩

/-- What a successful call does to the row of each key. -/
theorem perform_fate (hkeyed : Keyed JobRow.key db.jobs) {op : JobOp} {r : JobResult}
    (hp : perform b db op = .ok (r, db')) :
    Fate b k op r (lookup JobRow.key k db.jobs) (lookup JobRow.key k db'.jobs) := by
  cases op with
  | enqueue tenant job =>
    obtain ⟨⟨_, _⟩, h, hr⟩ := map_ok_cases hp
    cases hr
    exact enqueue_fate h
  | submit tenant run job =>
    obtain ⟨⟨_, _⟩, h, hr⟩ := map_ok_cases hp
    cases hr
    exact submit_fate h
  | requeue tenant jobId correlationId now =>
    obtain ⟨⟨_, _⟩, h, hr⟩ := map_ok_cases hp
    cases hr
    exact requeue_fate h
  | claim workerId token locked now =>
    obtain ⟨⟨_, _⟩, h, hr⟩ := map_ok_cases hp
    cases hr
    exact claim_fate hkeyed h
  | heartbeat tenant jobId token now =>
    obtain ⟨⟨_, _⟩, h, hr⟩ := map_ok_cases hp
    cases hr
    exact heartbeat_fate h
  | complete tenant jobId token isPartial now =>
    obtain ⟨⟨_, _⟩, h, hr⟩ := map_ok_cases hp
    cases hr
    exact complete_fate h
  | fail tenant jobId token reasonCode retryable now =>
    obtain ⟨⟨_, _⟩, h, hr⟩ := map_ok_cases hp
    cases hr
    exact fail_fate h
  | cancel tenant jobId now =>
    obtain ⟨⟨_, _⟩, h, hr⟩ := map_ok_cases hp
    cases hr
    exact cancel_fate h
  | recoverStale locked now =>
    obtain ⟨⟨_, _⟩, h, hr⟩ := map_ok_cases hp
    cases hr
    exact recoverStale_fate hkeyed h

end Operations

end DecisionAssurance.Jobs
