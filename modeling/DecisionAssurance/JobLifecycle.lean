import DecisionAssurance.JobRuns

/-!
# The status graph of jobs

`jobs/lifecycle.py` states which status may follow which. The statements of the job store never
consult it; each has a guard of its own, and together they keep to it.
-/

namespace DecisionAssurance.Jobs

open Tables Runs Research JobDatabase

/-- `transition` -/
def transition (source target : JobStatus) : Raises JobStatus :=
  if target ∈ allowedTargets source then .ok target
  else .error (.value s!"INVALID_JOB_TRANSITION:{source.value}:{target.value}")

theorem transition_ok {source target : JobStatus} :
    transition source target = .ok target ↔ target ∈ allowedTargets source := by
  unfold transition
  by_cases h : target ∈ allowedTargets source
  · simp only [h, if_true]
  · simp only [h, if_false, reduceCtorEq]

/-- A row has a lease exactly while it runs. -/
structure LeaseColumns (r : JobRow) : Prop where
  token : r.leaseTokenHash.isSome = true ↔ r.status = .running
  expiry : r.leaseExpiresAt.isSome = true ↔ r.status = .running

theorem leaseColumns_none {r : JobRow} (hstatus : r.status ≠ .running)
    (htoken : r.leaseTokenHash = none) (hexpiry : r.leaseExpiresAt = none) : LeaseColumns r := by
  refine ⟨?_, ?_⟩
  · rw [htoken]
    exact ⟨fun h => absurd h Bool.false_ne_true, fun h => absurd h hstatus⟩
  · rw [hexpiry]
    exact ⟨fun h => absurd h Bool.false_ne_true, fun h => absurd h hstatus⟩

theorem leaseColumns_some {r : JobRow} {token : String} {expiry : Instant}
    (hstatus : r.status = .running) (htoken : r.leaseTokenHash = some token)
    (hexpiry : r.leaseExpiresAt = some expiry) : LeaseColumns r := by
  refine ⟨?_, ?_⟩
  · rw [htoken]
    exact ⟨fun _ => hstatus, fun _ => rfl⟩
  · rw [hexpiry]
    exact ⟨fun _ => hstatus, fun _ => rfl⟩

structure RowsSound (rows : List JobRow) : Prop where
  keyed : Keyed JobRow.key rows
  columns : ∀ r ∈ rows, LeaseColumns r

def Follows (source target : JobStatus) : Prop :=
  target = source ∨ target ∈ allowedTargets source

/-- Every job is still there, with a status that may follow the one it had. -/
def Permits (rows rows' : List JobRow) : Prop :=
  ∀ k r, lookup JobRow.key k rows = some r →
    ∃ r', lookup JobRow.key k rows' = some r' ∧ Follows r.status r'.status

/-- What a call does to rows that are sound. -/
structure Keeps (rows rows' : List JobRow) : Prop where
  sound : RowsSound rows'
  permits : Permits rows rows'

theorem keeps_refl {rows : List JobRow} (hs : RowsSound rows) : Keeps rows rows :=
  ⟨hs, fun _ r hr => ⟨r, hr, .inl rfl⟩⟩

section Statements

variable {rows rows' : List JobRow} {k : JobKey} {set : JobRow → JobRow} {row : JobRow}

theorem sound_update (hs : RowsSound rows) (hl : lookup JobRow.key k rows = some row)
    (hkey : ∀ r : JobRow, (set r).key = r.key) (hcolumns : LeaseColumns (set row)) :
    RowsSound (updateWhere (fun r => r.key = k) set rows) := by
  refine ⟨keyed_updateWhere (fun r _ => hkey r) hs.keyed, fun r hr => ?_⟩
  obtain ⟨r₀, hr₀, rfl⟩ := mem_updateWhere.mp hr
  by_cases hk : r₀.key = k
  · have hrow : r₀ = row :=
      hs.keyed.eq_of_mem hr₀ (mem_of_lookup hl) (hk.trans (key_of_lookup hl).symm)
    rw [if_pos (decide_eq_true hk), hrow]
    exact hcolumns
  · rw [if_neg (fun hd => hk (of_decide_eq_true hd))]
    exact hs.columns r₀ hr₀

theorem lookup_update (hkey : ∀ r : JobRow, (set r).key = r.key) (k' : JobKey) :
    lookup JobRow.key k' (updateWhere (fun r => r.key = k) set rows) =
      (lookup JobRow.key k' rows).map fun r => if k' = k then set r else r := by
  rw [lookup_updateWhere fun r _ => hkey r]
  refine Option.map_congr fun r hr => ?_
  rw [key_of_lookup hr]
  by_cases hk : k' = k
  · simp only [hk, decide_true, if_true]
  · simp only [hk, decide_false, if_false, Bool.false_eq_true]

/-- An update of one row to a status that may follow. -/
theorem keeps_update (hs : RowsSound rows) (hl : lookup JobRow.key k rows = some row)
    (hkey : ∀ r : JobRow, (set r).key = r.key) (hcolumns : LeaseColumns (set row))
    (hfollows : Follows row.status (set row).status) :
    Keeps rows (updateWhere (fun r => r.key = k) set rows) := by
  refine ⟨sound_update hs hl hkey hcolumns, fun k' r hr => ?_⟩
  rw [lookup_update hkey, hr, Option.map_some]
  refine ⟨_, rfl, ?_⟩
  by_cases hk : k' = k
  · subst hk
    rw [if_pos rfl, Option.some.inj (hr.symm.trans hl)]
    exact hfollows
  · rw [if_neg hk]
    exact .inl rfl

theorem keeps_insert (hs : RowsSound rows) (hnew : lookup JobRow.key row.key rows = none)
    (hcolumns : LeaseColumns row) (hrows : rows' = rows ++ [row]) : Keeps rows rows' := by
  rw [hrows]
  refine ⟨⟨keyed_append_singleton hs.keyed (lookup_eq_none.mp hnew), fun r hr => ?_⟩,
    fun k r hr => ⟨r, ?_, .inl rfl⟩⟩
  · rcases List.mem_append.mp hr with hr | hr
    · exact hs.columns r hr
    · rw [List.mem_singleton.mp hr]
      exact hcolumns
  · rw [lookup_append_singleton, hr, Option.some_or]

end Statements

/-! ## One lemma per operation -/

section Operations

variable {b : JobBackend} {db db' : JobDatabase} {tenant : TenantContext} {jobId : String}
  {now : Instant}

theorem convergeJob_keeps (hs : RowsSound db.jobs) {job : ResearchJob} {run missing : String}
    {r : ResearchJob × Bool} (hqueued : job.status = .queued)
    (h : db.convergeJob tenant job run missing = .ok (r, db')) : Keeps db.jobs db'.jobs := by
  rcases convergeJob_cases h with hjobs | ⟨hnew, hjobs⟩
  · rw [show db'.jobs = db.jobs from hjobs]
    exact keeps_refl hs
  · have hstatus : (newRow tenant job run).status ≠ .running := by
      change job.status ≠ .running
      rw [hqueued]
      nofun
    have hfresh : lookup JobRow.key (newRow tenant job run).key db.jobs = none := hnew
    exact keeps_insert hs hfresh (leaseColumns_none hstatus rfl rfl) hjobs

theorem enqueue_keeps (hs : RowsSound db.jobs) {job r : ResearchJob}
    (h : db.enqueue tenant job = .ok (r, db')) : Keeps db.jobs db'.jobs := by
  unfold enqueue at h
  split_ifs at h with hbad
  obtain ⟨⟨⟨existing, q⟩, db₁⟩, hc, h⟩ := bind_ok_cases h
  cases h
  exact convergeJob_keeps hs (not_not.mp (not_or.mp hbad).2) hc

theorem submit_keeps (hs : RowsSound db.jobs) {run : ResearchRun} {job : ResearchJob}
    {r : SubmittedResearch} (h : db.submit tenant run job = .ok (r, db')) :
    Keeps db.jobs db'.jobs := by
  unfold submit at h
  split_ifs at h with htenant hbad
  obtain ⟨⟨⟨storedRun, p⟩, db₁⟩, hr, h⟩ := bind_ok_cases h
  obtain ⟨⟨⟨storedJob, q⟩, db₂⟩, hc, h⟩ := bind_ok_cases h
  cases h
  have hjobs : db₁.jobs = db.jobs := convergeRun_jobs hr
  have hkeeps := convergeJob_keeps (hjobs ▸ hs) (not_not.mp (not_or.mp hbad).2) hc
  rwa [hjobs] at hkeeps

theorem requeue_keeps (hs : RowsSound db.jobs) {correlationId : String} {r : ResearchJob}
    (h : db.requeue tenant jobId correlationId now = .ok (r, db')) : Keeps db.jobs db'.jobs := by
  unfold requeue at h
  split at h
  · split_ifs at h
  · rename_i row db₁ hu
    obtain ⟨job, -, h⟩ := bind_ok_cases h
    cases h
    obtain ⟨row₀, hl, hguard, -, rfl⟩ := updateJob_cases hu
    rw [appendEvent_jobs]
    refine keeps_update hs hl ?_ ?_ ?_
    · intro r
      rfl
    · exact leaseColumns_none JobStatus.noConfusion rfl rfl
    change Follows row₀.status .queued
    simp only [requeueable, Bool.or_eq_true, decide_eq_true_eq] at hguard
    rcases hguard with ((hst | hst) | hst) | hst
    all_goals
      rw [hst]
      exact .inr (by decide)

theorem cancel_keeps (hs : RowsSound db.jobs) {r : ResearchJob}
    (h : db.cancel tenant jobId now = .ok (r, db')) : Keeps db.jobs db'.jobs := by
  unfold JobDatabase.cancel at h
  split at h
  · cases h
  · rename_i current hl
    obtain ⟨job, hjob, h⟩ := bind_ok_cases h
    split_ifs at h with hfinal
    · cases h
      exact keeps_refl hs
    · split at h
      · cases h
      · rename_i row db₁ hu
        obtain ⟨cancelled, -, h⟩ := bind_ok_cases h
        cases h
        obtain ⟨row₀, hl₀, -, -, rfl⟩ := updateJob_cases hu
        rw [appendEvent_jobs]
        refine keeps_update hs hl₀ ?_ ?_ ?_
        · intro r
          rfl
        · exact leaseColumns_none JobStatus.noConfusion rfl rfl
        change Follows row₀.status .cancelled
        have hstatus : job.status = row₀.status := by
          rw [rowToJob_status hjob, Option.some.inj (hl.symm.trans hl₀)]
        rw [hstatus] at hfinal
        cases hrow : row₀.status <;> simp [hrow, isFinal] at hfinal
        all_goals exact .inr (by decide)

theorem claim_keeps (hs : RowsSound db.jobs) {workerId : String} {token : LeaseToken}
    {locked : List JobKey} {c : Option ClaimedJob}
    (h : claim b db workerId token locked now = .ok (c, db')) : Keeps db.jobs db'.jobs := by
  unfold claim at h
  split_ifs at h
  split at h
  · cases h
    exact keeps_refl hs
  · rename_i chosen hchosen
    obtain ⟨hmem, hcandidate⟩ := candidate_cases hchosen
    split at h
    · cases h
      exact keeps_refl hs
    · rename_i row db₁ hu
      obtain ⟨job, -, h⟩ := bind_ok_cases h
      cases h
      obtain ⟨row₀, hl, -, -, rfl⟩ := updateJob_cases hu
      have hrow : row₀ = chosen :=
        hs.keyed.eq_of_mem (mem_of_lookup hl) hmem (key_of_lookup hl)
      rw [appendEvent_jobs]
      refine keeps_update hs hl ?_ ?_ ?_
      · intro r
        rfl
      · exact leaseColumns_some rfl rfl rfl
      change Follows row₀.status .running
      rw [hrow]
      simp only [isCandidate, Bool.and_eq_true, Bool.or_eq_true, decide_eq_true_eq] at hcandidate
      rcases hcandidate.1.1 with hst | hst
      · rw [hst]
        exact .inr (by decide)
      · rw [hst]
        exact .inr (by decide)

theorem heartbeat_keeps (hs : RowsSound db.jobs) {token : LeaseToken} {r : Unit}
    (h : heartbeat b db tenant jobId token now = .ok (r, db')) : Keeps db.jobs db'.jobs := by
  unfold heartbeat at h
  split at h
  · cases h
  · rename_i row db₁ hu
    cases h
    obtain ⟨row₀, hl, hguard, -, rfl⟩ := updateJob_cases hu
    obtain ⟨hstatus, htoken, -⟩ := holdsLease_iff.mp hguard
    refine keeps_update hs hl ?_ ?_ ?_
    · intro r
      rfl
    · exact leaseColumns_some hstatus htoken rfl
    · exact .inl rfl

theorem complete_keeps (hs : RowsSound db.jobs) {token : LeaseToken} {isPartial : Bool} {r : Unit}
    (h : complete b db tenant jobId token isPartial now = .ok (r, db')) :
    Keeps db.jobs db'.jobs := by
  unfold complete at h
  split at h
  · cases h
  · rename_i row db₁ hu
    obtain ⟨job, -, h⟩ := bind_ok_cases h
    cases h
    obtain ⟨row₀, hl, hguard, -, rfl⟩ := updateJob_cases hu
    have hstatus := (holdsLease_iff.mp hguard).1
    rw [appendEvent_jobs]
    refine keeps_update hs hl ?_ ?_ ?_
    · intro r
      rfl
    · refine leaseColumns_none ?_ rfl rfl
      cases isPartial <;> exact JobStatus.noConfusion
    · change Follows row₀.status (completionStatus isPartial)
      rw [hstatus]
      cases isPartial <;> exact .inr (by decide)

theorem fail_keeps (hs : RowsSound db.jobs) {token : LeaseToken} {reasonCode : String}
    {retryable : Bool} {r : Unit}
    (h : fail b db tenant jobId token reasonCode retryable now = .ok (r, db')) :
    Keeps db.jobs db'.jobs := by
  unfold JobDatabase.fail at h
  split_ifs at h
  split at h
  · cases h
  · rename_i current hcurrent
    obtain ⟨⟨target, delay⟩, hf, h⟩ := bind_ok_cases h
    dsimp only at h
    split at h
    · cases h
    · rename_i row db₁ hu
      obtain ⟨job, -, h⟩ := bind_ok_cases h
      cases h
      obtain ⟨row₀, hl, -, -, rfl⟩ := updateJob_cases hu
      obtain ⟨hfound, hguard⟩ := Option.filter_eq_some_iff.mp hcurrent
      have hrow : row₀ = current := Option.some.inj (hl.symm.trans hfound)
      have hstatus : row₀.status = .running := by
        rw [hrow]
        exact (holdsLease_iff.mp hguard).1
      obtain ⟨hne, hallowed⟩ := failureStatus_running hf
      rw [appendEvent_jobs]
      refine keeps_update hs hl ?_ ?_ ?_
      · intro r
        rfl
      · exact leaseColumns_none hne rfl rfl
      change Follows row₀.status target
      rw [hstatus]
      exact .inr hallowed

/-- The loop over stale rows changes each of them once and no others. -/
theorem recoverRows_keeps {rows : List JobRow} {n : Nat} (hs : RowsSound db.jobs)
    (hkeyed : Keyed JobRow.key rows)
    (hrows : ∀ r ∈ rows, lookup JobRow.key r.key db.jobs = some r ∧ r.status = .running)
    (h : recoverRows b now db rows = .ok (n, db')) :
    RowsSound db'.jobs ∧
      (∀ k ∉ rows.map JobRow.key, lookup JobRow.key k db'.jobs = lookup JobRow.key k db.jobs) ∧
      ∀ r ∈ rows, ∃ r', lookup JobRow.key r.key db'.jobs = some r' ∧
        r'.status ∈ allowedTargets .running := by
  induction rows generalizing db n with
  | nil =>
    cases h
    exact ⟨hs, fun _ _ => rfl, fun r hr => absurd hr List.not_mem_nil⟩
  | cons current rows ih =>
    obtain ⟨⟨n₁, db₁⟩, hone, h⟩ := bind_ok_cases h
    obtain ⟨⟨n₂, db₂⟩, hrest, h⟩ := bind_ok_cases h
    cases h
    obtain ⟨hfound, hrunning⟩ := hrows current List.mem_cons_self
    obtain ⟨hnotin, hkeyed'⟩ := List.nodup_cons.mp hkeyed
    rcases recoverRow_cases b hone with ⟨hnone, -⟩ | ⟨target, delay, hattempt, hjobs⟩
    · rw [hfound] at hnone
      cases hnone
    · have htarget : target ≠ .running ∧ target ∈ allowedTargets .running := by
        rcases afterAttempt_status hattempt with rfl | rfl
        · exact ⟨nofun, by decide⟩
        · exact ⟨nofun, by decide⟩
      obtain ⟨set, hupdate, hkey, hset⟩ : ∃ set : JobRow → JobRow,
          db₁.jobs = updateWhere (fun r => r.key = current.key) set db.jobs ∧
          (∀ r, (set r).key = r.key) ∧ ∀ r, (set r).status = target ∧
            (set r).leaseTokenHash = none ∧ (set r).leaseExpiresAt = none :=
        ⟨_, hjobs, fun _ => rfl, fun _ => ⟨rfl, rfl, rfl⟩⟩
      have hcolumns : LeaseColumns (set current) := by
        obtain ⟨hstatus, htoken, hexpiry⟩ := hset current
        exact leaseColumns_none (hstatus ▸ htarget.1) htoken hexpiry
      have hsound₁ : RowsSound db₁.jobs := by
        rw [hupdate]
        exact sound_update hs hfound hkey hcolumns
      have hlookup (k : JobKey) (hk : k ≠ current.key) :
          lookup JobRow.key k db₁.jobs = lookup JobRow.key k db.jobs := by
        rw [hupdate, lookup_update hkey]
        simp only [hk, if_false, Option.map_id_fun', id_eq]
      have hown : ∃ r', lookup JobRow.key current.key db₁.jobs = some r' ∧
          r'.status = target := by
        rw [hupdate, lookup_update hkey, hfound]
        refine ⟨set current, ?_, (hset current).1⟩
        rw [Option.map_some, if_pos rfl]
      have hne (r : JobRow) (hr : r ∈ rows) : r.key ≠ current.key := by
        intro heq
        exact hnotin (heq ▸ List.mem_map_of_mem hr)
      obtain ⟨hsound₂, hothers, hstale⟩ := ih hsound₁ hkeyed' (fun r hr => by
        rw [hlookup r.key (hne r hr)]
        exact hrows r (List.mem_cons_of_mem _ hr)) hrest
      refine ⟨hsound₂, fun k hk => ?_, fun r hr => ?_⟩
      · rw [List.map_cons, List.mem_cons, not_or] at hk
        rw [hothers k hk.2, hlookup k hk.1]
      · rcases List.mem_cons.mp hr with rfl | hr
        · obtain ⟨r', hr', hstatus⟩ := hown
          refine ⟨r', ?_, hstatus ▸ htarget.2⟩
          rw [hothers r.key hnotin]
          exact hr'
        · exact hstale r hr

theorem recoverStale_keeps (hs : RowsSound db.jobs) {locked : List JobKey} {n : Nat}
    (h : recoverStale b db locked now = .ok (n, db')) : Keeps db.jobs db'.jobs := by
  have hmem (r : JobRow) (hr : r ∈ db.staleRows locked now) :
      r ∈ db.jobs ∧ r.status = .running := by
    rw [staleRows, List.mem_insertionSort, List.mem_filter, Bool.and_eq_true, isStale,
      Bool.and_eq_true] at hr
    exact ⟨hr.1, of_decide_eq_true hr.2.1.1⟩
  have hkeyed : Keyed JobRow.key (db.staleRows locked now) := by
    refine (List.Perm.nodup_iff ((List.perm_insertionSort _ _).map _)).mpr ?_
    exact List.Nodup.sublist (List.Sublist.map _ List.filter_sublist) hs.keyed
  obtain ⟨hsound, hothers, hstale⟩ := recoverRows_keeps hs hkeyed (fun r hr =>
    ⟨hs.keyed.lookup_eq_some.mpr ⟨(hmem r hr).1, rfl⟩, (hmem r hr).2⟩) h
  refine ⟨hsound, fun k r hr => ?_⟩
  by_cases hk : k ∈ (db.staleRows locked now).map JobRow.key
  · obtain ⟨r₀, hr₀, rfl⟩ := List.mem_map.mp hk
    have hrow : r = r₀ :=
      hs.keyed.eq_of_mem (mem_of_lookup hr) (hmem r₀ hr₀).1 (key_of_lookup hr)
    obtain ⟨r', hr', hallowed⟩ := hstale r₀ hr₀
    refine ⟨r', hr', .inr ?_⟩
    rw [hrow, (hmem r₀ hr₀).2]
    exact hallowed
  · rw [hothers k hk]
    exact ⟨r, hr, .inl rfl⟩

end Operations

/-! ## Runs -/

variable (b : JobBackend)

theorem next_keeps {db : JobDatabase} (hs : RowsSound db.jobs) (op : JobOp) :
    Keeps db.jobs (next b db op).jobs := by
  unfold next
  cases hp : perform b db op with
  | error e => exact keeps_refl hs
  | ok r =>
    obtain ⟨result, db'⟩ := r
    cases op with
    | enqueue tenant job =>
      obtain ⟨⟨_, _⟩, h, hr⟩ := map_ok_cases hp
      cases hr
      exact enqueue_keeps hs h
    | submit tenant run job =>
      obtain ⟨⟨_, _⟩, h, hr⟩ := map_ok_cases hp
      cases hr
      exact submit_keeps hs h
    | requeue tenant jobId correlationId now =>
      obtain ⟨⟨_, _⟩, h, hr⟩ := map_ok_cases hp
      cases hr
      exact requeue_keeps hs h
    | claim workerId token locked now =>
      obtain ⟨⟨_, _⟩, h, hr⟩ := map_ok_cases hp
      cases hr
      exact claim_keeps hs h
    | heartbeat tenant jobId token now =>
      obtain ⟨⟨_, _⟩, h, hr⟩ := map_ok_cases hp
      cases hr
      exact heartbeat_keeps hs h
    | complete tenant jobId token isPartial now =>
      obtain ⟨⟨_, _⟩, h, hr⟩ := map_ok_cases hp
      cases hr
      exact complete_keeps hs h
    | fail tenant jobId token reasonCode retryable now =>
      obtain ⟨⟨_, _⟩, h, hr⟩ := map_ok_cases hp
      cases hr
      exact fail_keeps hs h
    | cancel tenant jobId now =>
      obtain ⟨⟨_, _⟩, h, hr⟩ := map_ok_cases hp
      cases hr
      exact cancel_keeps hs h
    | recoverStale locked now =>
      obtain ⟨⟨_, _⟩, h, hr⟩ := map_ok_cases hp
      cases hr
      exact recoverStale_keeps hs h

theorem rowsSound_nil : RowsSound [] := ⟨List.nodup_nil, fun _ h => absurd h List.not_mem_nil⟩

/-- In every run of the job store from one without jobs, statuses move along the status graph
only, a cancelled job stays cancelled, and exactly the running jobs have a lease. -/
theorem job_lifecycle (db : JobDatabase) (ops : List JobOp) :
    ∀ x ∈ execute (next b) { db with jobs := [] } ops,
      (∀ k r, lookup JobRow.key k x.before.jobs = some r →
        ∃ r', lookup JobRow.key k x.after.jobs = some r' ∧
          (r'.status = r.status ∨ transition r.status r'.status = .ok r'.status) ∧
          (r.status = .cancelled → r'.status = .cancelled)) ∧
      ∀ r ∈ x.after.jobs, (r.leaseTokenHash.isSome = true ↔ r.status = .running) ∧
        (r.leaseExpiresAt.isSome = true ↔ r.status = .running) := by
  intro x hx
  obtain ⟨hbefore, hafter⟩ := execute_invariant (fun db => RowsSound db.jobs) (fun _ => True)
    (fun db op hs _ => (next_keeps b hs op).sound) rowsSound_nil (fun _ _ => trivial) x hx
  refine ⟨fun k r hr => ?_, fun r hr => ⟨(hafter.columns r hr).token, (hafter.columns r hr).expiry⟩⟩
  have hstep := (next_keeps b hbefore x.label).permits k r hr
  rw [← after_of_mem_execute hx] at hstep
  obtain ⟨r', hr', hfollows⟩ := hstep
  refine ⟨r', hr', hfollows.imp_right transition_ok.mpr, fun hcancelled => ?_⟩
  rw [hcancelled] at hfollows
  rcases hfollows with h | h
  · exact h
  · cases h

/-- The claim of the submitted job. -/
def pilotClaim : Transition JobDatabase JobOp where
  before := next plainBackend emptyJobs (.submit pilotTenant pilotRun pilotJob)
  label := .claim "worker-1" firstToken [] 0
  after := next plainBackend (next plainBackend emptyJobs
    (.submit pilotTenant pilotRun pilotJob)) (.claim "worker-1" firstToken [] 0)

theorem job_lifecycle_pilotClaim : pilotClaim.after.jobs.map JobRow.status = [.running] ∧
    ∀ r ∈ pilotClaim.after.jobs, (r.leaseTokenHash.isSome = true ↔ r.status = .running) ∧
      (r.leaseExpiresAt.isSome = true ↔ r.status = .running) := by
  have hmem : pilotClaim ∈ execute (next plainBackend) { emptyJobs with jobs := [] }
      [.submit pilotTenant pilotRun pilotJob, pilotClaim.label] :=
    List.mem_cons_of_mem _ List.mem_cons_self
  refine ⟨?_, (job_lifecycle plainBackend emptyJobs _ pilotClaim hmem).2⟩
  rfl

end DecisionAssurance.Jobs
