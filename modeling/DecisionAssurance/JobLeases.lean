import DecisionAssurance.JobRuns

/-!
# The leases the job store grants

Each successful call adds its events to the lease history of a run. The rows of
`research_jobs` carry exactly the leases of that history: the store refines the lease
protocol of `Leases`.
-/

namespace DecisionAssurance.Jobs

open Tables Runs Leases Research JobDatabase

variable (b : JobBackend)

def leaseEnd (now : Instant) : Instant := now + seconds b.policy.leaseSeconds

/-- What a successful call with its result did to the leases. -/
def eventsOf (db : JobDatabase) : JobOp → JobResult → History JobKey LeaseToken
  | .claim _ token _ now, .claimed (some c) =>
    [.grant (c.job.tenantId, c.job.jobId) token (leaseEnd b now)]
  | .heartbeat tenant jobId token now, _ =>
    [.renew (tenant.tenantId, jobId) token now (leaseEnd b now)]
  | .complete tenant jobId token _ now, _ => [.settle (tenant.tenantId, jobId) token now]
  | .fail tenant jobId token _ _ now, _ => [.settle (tenant.tenantId, jobId) token now]
  | .cancel tenant jobId _, _ => [.revoke (tenant.tenantId, jobId)]
  | .requeue tenant jobId _ _, _ => [.revoke (tenant.tenantId, jobId)]
  | .recoverStale locked now, _ => (db.staleRows locked now).map fun r => .revoke r.key
  | _, _ => []

/-- What a call did to the leases; calls that raise do nothing. -/
def leaseEvents (db : JobDatabase) (op : JobOp) : History JobKey LeaseToken :=
  match perform b db op with
  | .error _ => []
  | .ok r => eventsOf b db op r.1

def leaseHistory (tr : JobTrace) : History JobKey LeaseToken :=
  tr.flatMap fun x => leaseEvents b x.before x.label

/-- The lease a row carries. -/
def storedLease (row : JobRow) : Option (String × Instant) :=
  if row.status = .running then
    row.leaseTokenHash.bind fun h => row.leaseExpiresAt.map fun e => (h, e)
  else none

def leaseOf (db : JobDatabase) (k : JobKey) : Option (String × Instant) :=
  (lookup JobRow.key k db.jobs).bind storedLease

def hashedLease (l : Lease LeaseToken) : String × Instant :=
  (b.leaseHash l.token.value, l.expiresAt)

/-- The rows carry the leases of a history. -/
structure Tracks (db : JobDatabase) (h : History JobKey LeaseToken) : Prop where
  keyed : Keyed JobRow.key db.jobs
  leases : ∀ k, leaseOf db k = (holder h k).map (hashedLease b)

variable {b}

theorem leaseEvents_of_ok {db : JobDatabase} {op : JobOp} {r : JobResult × JobDatabase}
    (h : perform b db op = .ok r) : leaseEvents b db op = eventsOf b db op r.1 := by
  rw [leaseEvents, h]

theorem storedLease_of_status {row : JobRow} (h : row.status ≠ .running) :
    storedLease row = none := if_neg h

theorem storedLease_of_holdsLease {row : JobRow} {token : LeaseToken} {now : Instant}
    (h : holdsLease b token now row = true) :
    ∃ e, storedLease row = some (b.leaseHash token.value, e) ∧ now < e := by
  obtain ⟨hs, hh, e, he, hlt⟩ := holdsLease_iff.mp h
  exact ⟨e, by rw [storedLease, if_pos hs, hh, he]; rfl, hlt⟩

/-- An update of the rows of one key changes the lease of that key only. -/
theorem leaseOf_update {db db' : JobDatabase} {k : JobKey} {set : JobRow → JobRow}
    (hset : ∀ r : JobRow, (set r).key = r.key)
    (hjobs : db'.jobs = updateWhere (fun r => r.key = k) set db.jobs) (k' : JobKey) :
    leaseOf db' k' = if k' = k then (lookup JobRow.key k db.jobs).bind fun r => storedLease (set r)
      else leaseOf db k' := by
  rw [leaseOf, hjobs, lookup_updateWhere fun r _ => hset r, leaseOf]
  cases hl : lookup JobRow.key k' db.jobs with
  | none =>
    split_ifs with hk
    · rw [← hk, hl]
      rfl
    · rfl
  | some row =>
    have hrow := key_of_lookup hl
    split_ifs with hk
    · subst hk
      simp only [Option.map_some, Option.bind_some, hrow, decide_true, if_true, hl]
    · have hne : row.key ≠ k := hrow ▸ hk
      simp only [Option.map_some, Option.bind_some, hne, decide_false, if_false,
        Bool.false_eq_true]

theorem keyed_update {db db' : JobDatabase} {k : JobKey} {set : JobRow → JobRow}
    (hset : ∀ r : JobRow, (set r).key = r.key)
    (hjobs : db'.jobs = updateWhere (fun r => r.key = k) set db.jobs)
    (h : Keyed JobRow.key db.jobs) : Keyed JobRow.key db'.jobs := by
  rw [hjobs]
  exact keyed_updateWhere (fun r _ => hset r) h

theorem holder_eq_none_of_leaseOf {db : JobDatabase} {h : History JobKey LeaseToken}
    (ht : Tracks b db h) {k : JobKey} (hl : leaseOf db k = none) : holder h k = none := by
  rw [ht.leases] at hl
  exact Option.map_eq_none_iff.mp hl

theorem holder_eq_some_of_leaseOf (hinj : Function.Injective b.leaseHash) {db : JobDatabase}
    {h : History JobKey LeaseToken} (ht : Tracks b db h) {k : JobKey} {token : LeaseToken}
    {e : Instant} (hl : leaseOf db k = some (b.leaseHash token.value, e)) :
    holder h k = some ⟨token, e⟩ := by
  rw [ht.leases] at hl
  obtain ⟨⟨t, e'⟩, hheld, he⟩ := Option.map_eq_some_iff.mp hl
  simp only [hashedLease, Prod.mk.injEq] at he
  obtain ⟨hhash, rfl⟩ := he
  have htok : t = token := by
    cases t
    cases token
    cases hinj hhash
    rfl
  rw [hheld, htok]

/-- Rows that no longer run, and rows that are new, carry no lease. -/
theorem Tracks.update {db db' : JobDatabase} {h : History JobKey LeaseToken}
    (ht : Tracks b db h) {k : JobKey} {set : JobRow → JobRow} {e : LeaseEvent JobKey LeaseToken}
    (hset : ∀ r : JobRow, (set r).key = r.key)
    (hjobs : db'.jobs = updateWhere (fun r => r.key = k) set db.jobs) (hk : e.key = k)
    (hlease : (lookup JobRow.key k db.jobs).bind (fun r => storedLease (set r)) =
      (e.apply (holder h k)).map (hashedLease b)) : Tracks b db' (h ++ [e]) := by
  refine ⟨keyed_update hset hjobs ht.keyed, fun k' => ?_⟩
  rw [leaseOf_update hset hjobs, holder_snoc, hk]
  by_cases hk' : k' = k
  · subst hk'
    rw [if_pos rfl, if_pos rfl, hlease]
  · rw [if_neg hk', if_neg (Ne.symm hk'), ht.leases]

theorem Tracks.of_jobs_eq {db db' : JobDatabase} {h : History JobKey LeaseToken}
    (ht : Tracks b db h) (hjobs : db'.jobs = db.jobs) : Tracks b db' h :=
  ⟨hjobs ▸ ht.keyed, fun k => by rw [leaseOf, hjobs, ← leaseOf, ht.leases]⟩

theorem Tracks.insert {db db' : JobDatabase} {h : History JobKey LeaseToken}
    (ht : Tracks b db h) {row : JobRow} (hrow : storedLease row = none)
    (hnew : lookup JobRow.key row.key db.jobs = none) (hjobs : db'.jobs = db.jobs ++ [row]) :
    Tracks b db' h := by
  constructor
  · rw [hjobs]
    exact keyed_append_singleton ht.keyed fun r hr => lookup_eq_none.mp hnew r hr
  · intro k
    rw [← ht.leases, leaseOf, leaseOf, hjobs]
    by_cases hk : row.key = k
    · rw [← hk, lookup_append_self hnew, hnew]
      exact hrow
    · rw [lookup_append_of_ne hk]

/-! ## What each operation does to the leases -/

section Steps

variable {db db' : JobDatabase} {h : History JobKey LeaseToken}

theorem convergeJob_tracks (ht : Tracks b db h) {tenant : TenantContext} {job : ResearchJob}
    {run missing : String} {r : ResearchJob × Bool} (hs : job.status = .queued)
    (hc : db.convergeJob tenant job run missing = .ok (r, db')) : Tracks b db' h := by
  rcases convergeJob_cases hc with hjobs | ⟨hnew, hjobs⟩
  · exact ht.of_jobs_eq hjobs
  · have hrow : storedLease (newRow tenant job run) = none :=
      storedLease_of_status (by rw [newRow, hs]; nofun)
    exact ht.insert hrow hnew hjobs

theorem enqueue_tracks (ht : Tracks b db h) {tenant : TenantContext} {job r : ResearchJob}
    (he : db.enqueue tenant job = .ok (r, db')) : Tracks b db' h := by
  unfold enqueue at he
  split_ifs at he with hbad
  obtain ⟨⟨⟨existing, q⟩, db₁⟩, hc, he⟩ := bind_ok_cases he
  cases he
  exact convergeJob_tracks ht (not_not.mp (not_or.mp hbad).2) hc

theorem submit_tracks (ht : Tracks b db h) {tenant : TenantContext} {run : ResearchRun}
    {job : ResearchJob} {r : SubmittedResearch}
    (he : db.submit tenant run job = .ok (r, db')) : Tracks b db' h := by
  unfold submit at he
  split_ifs at he with htenant hbad
  obtain ⟨⟨⟨storedRun, p⟩, db₁⟩, hr, he⟩ := bind_ok_cases he
  obtain ⟨⟨⟨storedJob, q⟩, db₂⟩, hc, he⟩ := bind_ok_cases he
  cases he
  exact convergeJob_tracks (ht.of_jobs_eq (convergeRun_jobs hr))
    (not_not.mp (not_or.mp hbad).2) hc

/-- An update that leaves its row without a lease ends the lease of the key. -/
theorem Tracks.revoked (ht : Tracks b db h) {k : JobKey} {set : JobRow → JobRow}
    {e : LeaseEvent JobKey LeaseToken} (hset : ∀ r : JobRow, (set r).key = r.key)
    (hjobs : db'.jobs = updateWhere (fun r => r.key = k) set db.jobs)
    (hstatus : ∀ r, (set r).status ≠ .running) (hk : e.key = k)
    (he : ∀ l, e.apply l = none) : Tracks b db' (h ++ [e]) := by
  refine ht.update hset hjobs hk ?_
  rw [he, Option.map_none, Option.bind_eq_none_iff]
  exact fun r _ => storedLease_of_status (hstatus r)

theorem Tracks.revoke_none (ht : Tracks b db h) {k : JobKey} (hl : leaseOf db k = none) :
    Tracks b db (h ++ [.revoke k]) := by
  refine ⟨ht.keyed, fun k' => ?_⟩
  rw [holder_snoc]
  by_cases hk : k = k'
  · subst hk
    rw [hl]
    exact (if_pos rfl ▸ rfl)
  · have hne : (LeaseEvent.revoke k : LeaseEvent JobKey LeaseToken).key ≠ k' := hk
    rw [if_neg hne, ht.leases]

theorem requeue_tracks (ht : Tracks b db h) {tenant : TenantContext} {jobId corr : String}
    {now : Instant} {r : ResearchJob} (he : db.requeue tenant jobId corr now = .ok (r, db')) :
    Tracks b db' (h ++ [.revoke (tenant.tenantId, jobId)]) := by
  unfold requeue at he
  split at he
  · split_ifs at he
  · rename_i row db₁ hu
    obtain ⟨job, -, he⟩ := bind_ok_cases he
    cases he
    obtain ⟨row₀, -, -, -, rfl⟩ := updateJob_cases hu
    refine ht.revoked ?_ (appendEvent_jobs ..) ?_ rfl fun _ => rfl
    · exact fun _ => rfl
    · rintro _ ⟨⟩

theorem cancel_tracks (ht : Tracks b db h) {tenant : TenantContext} {jobId : String}
    {now : Instant} {r : ResearchJob} (he : db.cancel tenant jobId now = .ok (r, db')) :
    Tracks b db' (h ++ [.revoke (tenant.tenantId, jobId)]) := by
  unfold JobDatabase.cancel at he
  split at he
  · cases he
  · rename_i current hl
    obtain ⟨job, hj, he⟩ := bind_ok_cases he
    split_ifs at he with hf
    · cases he
      have hstatus : current.status ≠ .running := by
        intro hr
        rw [rowToJob_status hj, hr] at hf
        exact absurd hf (by decide)
      have hnone : leaseOf db (tenant.tenantId, jobId) = none := by
        rw [leaseOf, hl]
        exact storedLease_of_status hstatus
      exact ht.revoke_none hnone
    · split at he
      · cases he
      · rename_i row db₁ hu
        obtain ⟨cancelled, -, he⟩ := bind_ok_cases he
        cases he
        obtain ⟨row₀, -, -, -, rfl⟩ := updateJob_cases hu
        refine ht.revoked ?_ (appendEvent_jobs ..) ?_ rfl fun _ => rfl
        · exact fun _ => rfl
        · exact fun _ => nofun

theorem claim_tracks (ht : Tracks b db h) {workerId : String} {token : LeaseToken}
    {locked : List JobKey} {now : Instant} {c : ClaimedJob}
    (hc : claim b db workerId token locked now = .ok (some c, db')) :
    holder h (c.job.tenantId, c.job.jobId) = none ∧
      Tracks b db' (h ++ [.grant (c.job.tenantId, c.job.jobId) token (leaseEnd b now)]) := by
  unfold claim at hc
  split_ifs at hc
  split at hc
  · cases hc
  · rename_i chosen hcand
    split at hc
    · cases hc
    · rename_i row db₁ hu
      obtain ⟨job, hj, hc⟩ := bind_ok_cases hc
      cases hc
      obtain ⟨row₀, hl, -, rfl, rfl⟩ := updateJob_cases hu
      have hrow : row₀.key = chosen.key := key_of_lookup hl
      have hkey : (job.tenantId, job.jobId) = chosen.key := (rowToJob_key hj).trans hrow
      obtain ⟨hmem, hready⟩ := candidate_cases hcand
      have hchosen : lookup JobRow.key chosen.key db.jobs = some chosen :=
        ht.keyed.lookup_eq_some.mpr ⟨hmem, rfl⟩
      have hfree : holder h chosen.key = none := by
        refine holder_eq_none_of_leaseOf ht ?_
        rw [leaseOf, hchosen]
        refine storedLease_of_status fun hrun => ?_
        rw [isCandidate, hrun] at hready
        simp only [reduceCtorEq, decide_false, Bool.or_self, Bool.false_and] at hready
      rw [hkey]
      refine ⟨hfree, ht.update ?_ (appendEvent_jobs ..) rfl ?_⟩
      · exact fun _ => rfl
      · rw [hchosen]
        rfl

theorem claim_none {workerId : String} {token : LeaseToken} {locked : List JobKey}
    {now : Instant} (hc : claim b db workerId token locked now = .ok (none, db')) :
    db' = db := by
  unfold claim at hc
  split_ifs at hc
  split at hc
  · cases hc
    rfl
  · split at hc
    · cases hc
      rfl
    · obtain ⟨job, -, hc⟩ := bind_ok_cases hc
      cases hc

/-- A row that passes the guard of the lease operations is held by the caller's token. -/
theorem holder_of_guard (hinj : Function.Injective b.leaseHash) (ht : Tracks b db h)
    {k : JobKey} {row : JobRow} {token : LeaseToken} {now : Instant}
    (hl : lookup JobRow.key k db.jobs = some row) (hg : holdsLease b token now row = true) :
    ∃ e, holder h k = some ⟨token, e⟩ ∧ now < e := by
  obtain ⟨e, he, hlt⟩ := storedLease_of_holdsLease hg
  refine ⟨e, holder_eq_some_of_leaseOf hinj ht ?_, hlt⟩
  rw [leaseOf, hl]
  exact he

theorem heartbeat_tracks (hinj : Function.Injective b.leaseHash) (ht : Tracks b db h)
    {tenant : TenantContext} {jobId : String} {token : LeaseToken} {now : Instant} {r : Unit}
    (he : heartbeat b db tenant jobId token now = .ok (r, db')) :
    (∃ e, holder h (tenant.tenantId, jobId) = some ⟨token, e⟩ ∧ now < e) ∧
      Tracks b db' (h ++ [.renew (tenant.tenantId, jobId) token now (leaseEnd b now)]) := by
  unfold heartbeat at he
  split at he
  · cases he
  · rename_i row db₁ hu
    cases he
    obtain ⟨row₀, hl, hg, -, rfl⟩ := updateJob_cases hu
    obtain ⟨e, hheld, hlt⟩ := holder_of_guard hinj ht hl hg
    obtain ⟨hs, hh, -⟩ := holdsLease_iff.mp hg
    refine ⟨⟨e, hheld, hlt⟩, ht.update ?_ rfl rfl ?_⟩
    · exact fun _ => rfl
    · rw [hl, hheld, Option.bind_some, storedLease, if_pos hs, hh]
      rfl

theorem complete_tracks (hinj : Function.Injective b.leaseHash) (ht : Tracks b db h)
    {tenant : TenantContext} {jobId : String} {token : LeaseToken} {isPartial : Bool}
    {now : Instant} {r : Unit}
    (he : complete b db tenant jobId token isPartial now = .ok (r, db')) :
    (∃ e, holder h (tenant.tenantId, jobId) = some ⟨token, e⟩ ∧ now < e) ∧
      Tracks b db' (h ++ [.settle (tenant.tenantId, jobId) token now]) := by
  unfold complete at he
  split at he
  · cases he
  · rename_i row db₁ hu
    obtain ⟨job, -, he⟩ := bind_ok_cases he
    cases he
    obtain ⟨row₀, hl, hg, -, rfl⟩ := updateJob_cases hu
    refine ⟨holder_of_guard hinj ht hl hg, ht.revoked ?_ (appendEvent_jobs ..) ?_ rfl ?_⟩
    · exact fun _ => rfl
    · cases isPartial <;> exact fun _ => nofun
    · exact fun _ => rfl

theorem fail_tracks (hinj : Function.Injective b.leaseHash) (ht : Tracks b db h)
    {tenant : TenantContext} {jobId : String} {token : LeaseToken} {reasonCode : String}
    {retryable : Bool} {now : Instant} {r : Unit}
    (he : fail b db tenant jobId token reasonCode retryable now = .ok (r, db')) :
    (∃ e, holder h (tenant.tenantId, jobId) = some ⟨token, e⟩ ∧ now < e) ∧
      Tracks b db' (h ++ [.settle (tenant.tenantId, jobId) token now]) := by
  unfold JobDatabase.fail at he
  split_ifs at he
  split at he
  · cases he
  · rename_i current hf
    obtain ⟨⟨target, delay⟩, htarget, he⟩ := bind_ok_cases he
    obtain ⟨hl, hg⟩ := Option.filter_eq_some_iff.mp hf
    have hstatus : target ≠ .running := (failureStatus_running htarget).1
    dsimp only at he
    split at he
    · cases he
    · rename_i row db₁ hu
      obtain ⟨job, -, he⟩ := bind_ok_cases he
      cases he
      obtain ⟨row₀, -, -, -, rfl⟩ := updateJob_cases hu
      refine ⟨holder_of_guard hinj ht hl hg, ht.revoked ?_ (appendEvent_jobs ..) ?_ rfl ?_⟩
      · exact fun _ => rfl
      · exact fun _ => hstatus
      · exact fun _ => rfl

theorem recoverRow_tracks (ht : Tracks b db h) {now : Instant} {current : JobRow} {n : Nat}
    (hr : recoverRow b now db current = .ok (n, db')) :
    Tracks b db' (h ++ [.revoke current.key]) := by
  rcases recoverRow_cases b hr with ⟨hl, rfl⟩ | ⟨target, delay, ha, hjobs⟩
  · refine ht.revoke_none ?_
    rw [leaseOf, hl]
    rfl
  · refine ht.revoked ?_ hjobs ?_ rfl fun _ => rfl
    · exact fun _ => rfl
    · rcases afterAttempt_status ha with rfl | rfl <;> exact fun _ => nofun

theorem recoverRows_tracks {now : Instant} {rows : List JobRow} {n : Nat}
    (ht : Tracks b db h) (hr : recoverRows b now db rows = .ok (n, db')) :
    Tracks b db' (h ++ rows.map fun r => .revoke r.key) := by
  induction rows generalizing db h n with
  | nil =>
    cases hr
    simpa only [List.map_nil, List.append_nil] using ht
  | cons current rows ih =>
    rw [recoverRows] at hr
    obtain ⟨⟨n₁, db₁⟩, h₁, hr⟩ := bind_ok_cases hr
    obtain ⟨⟨n₂, db₂⟩, h₂, hr⟩ := bind_ok_cases hr
    cases hr
    rw [List.map_cons, List.append_cons]
    exact ih (recoverRow_tracks ht h₁) h₂

end Steps

/-! ## Runs -/

/-- One call keeps the history orderly and the rows in step with it. -/
theorem next_tracks (hinj : Function.Injective b.leaseHash) {db : JobDatabase}
    {h : History JobKey LeaseToken} (ht : Tracks b db h) (ho : Orderly h) (op : JobOp) :
    Orderly (h ++ leaseEvents b db op) ∧ Tracks b (next b db op) (h ++ leaseEvents b db op) := by
  unfold next leaseEvents
  cases hp : perform b db op with
  | error e => simpa only [List.append_nil] using And.intro ho ht
  | ok r =>
    obtain ⟨result, db'⟩ := r
    cases op with
    | enqueue tenant job =>
      obtain ⟨⟨j, db₁⟩, hop, hr⟩ := map_ok_cases hp
      cases hr
      simpa only [eventsOf, List.append_nil] using And.intro ho (enqueue_tracks ht hop)
    | submit tenant run job =>
      obtain ⟨⟨j, db₁⟩, hop, hr⟩ := map_ok_cases hp
      cases hr
      simpa only [eventsOf, List.append_nil] using And.intro ho (submit_tracks ht hop)
    | requeue tenant jobId corr now =>
      obtain ⟨⟨j, db₁⟩, hop, hr⟩ := map_ok_cases hp
      cases hr
      exact ⟨ho.snoc trivial, requeue_tracks ht hop⟩
    | claim workerId token locked now =>
      obtain ⟨⟨c, db₁⟩, hop, hr⟩ := map_ok_cases hp
      cases hr
      cases c with
      | none =>
        rw [claim_none hop]
        simpa only [eventsOf, List.append_nil] using And.intro ho ht
      | some c =>
        obtain ⟨hfree, ht'⟩ := claim_tracks ht hop
        exact ⟨ho.snoc hfree, ht'⟩
    | heartbeat tenant jobId token now =>
      obtain ⟨⟨j, db₁⟩, hop, hr⟩ := map_ok_cases hp
      cases hr
      obtain ⟨hheld, ht'⟩ := heartbeat_tracks hinj ht hop
      exact ⟨ho.snoc hheld, ht'⟩
    | complete tenant jobId token isPartial now =>
      obtain ⟨⟨j, db₁⟩, hop, hr⟩ := map_ok_cases hp
      cases hr
      obtain ⟨hheld, ht'⟩ := complete_tracks hinj ht hop
      exact ⟨ho.snoc hheld, ht'⟩
    | fail tenant jobId token reasonCode retryable now =>
      obtain ⟨⟨j, db₁⟩, hop, hr⟩ := map_ok_cases hp
      cases hr
      obtain ⟨hheld, ht'⟩ := fail_tracks hinj ht hop
      exact ⟨ho.snoc hheld, ht'⟩
    | cancel tenant jobId now =>
      obtain ⟨⟨j, db₁⟩, hop, hr⟩ := map_ok_cases hp
      cases hr
      exact ⟨ho.snoc trivial, cancel_tracks ht hop⟩
    | recoverStale locked now =>
      obtain ⟨⟨n, db₁⟩, hop, hr⟩ := map_ok_cases hp
      cases hr
      exact ⟨orderly_revokes ho _, recoverRows_tracks ht hop⟩

theorem leaseHistory_snoc (tr : JobTrace) (x : Transition JobDatabase JobOp) :
    leaseHistory b (tr ++ [x]) = leaseHistory b tr ++ leaseEvents b x.before x.label := by
  simp only [leaseHistory, List.flatMap_append, List.flatMap_cons, List.flatMap_nil,
    List.append_nil]

theorem tracks_nil {db : JobDatabase} (hempty : db.jobs = []) : Tracks b db [] := by
  constructor
  · rw [hempty]
    exact List.nodup_nil
  · intro k
    rw [leaseOf, hempty]
    rfl

/-- Along every run the rows carry the leases of the run's history, which is orderly. -/
theorem run_tracks (hinj : Function.Injective b.leaseHash) {db₀ db : JobDatabase}
    (hempty : db₀.jobs = []) {tr : JobTrace} (hr : Run (JobStep b) db₀ tr db) :
    Orderly (leaseHistory b tr) ∧ Tracks b db (leaseHistory b tr) := by
  refine hr.invariant (fun tr db => Orderly (leaseHistory b tr) ∧
    Tracks b db (leaseHistory b tr)) ⟨Orderly.nil, tracks_nil hempty⟩ ?_
  rintro tr t op u - ⟨ho, ht⟩ rfl
  rw [leaseHistory_snoc]
  exact next_tracks hinj ht ho op

end DecisionAssurance.Jobs
