import DecisionAssurance.JobLeases

/-!
# Exclusive leases in runs of the job store

Read on the trace of a run: `heartbeat`, `complete` and `fail` succeed only for the token of
the job's last claim, while nothing ended that claim and before its deadline. It follows
that a claim is settled at most once and that a worker whose claim ended changes nothing.
-/

namespace DecisionAssurance.Jobs

open Tables Runs Leases JobDatabase

/-- The job, token and clock reading of a call that needs a lease. -/
def JobOp.leaseCall : JobOp → Option (JobKey × LeaseToken × Instant)
  | .heartbeat tenant jobId token now => some ((tenant.tenantId, jobId), token, now)
  | .complete tenant jobId token _ now => some ((tenant.tenantId, jobId), token, now)
  | .fail tenant jobId token _ _ now => some ((tenant.tenantId, jobId), token, now)
  | _ => none

def JobOp.settleCall : JobOp → Option (JobKey × LeaseToken × Instant)
  | .complete tenant jobId token _ now => some ((tenant.tenantId, jobId), token, now)
  | .fail tenant jobId token _ _ now => some ((tenant.tenantId, jobId), token, now)
  | _ => none

/-- The token a claim draws; a claim without a worker id raises before it draws one. -/
def JobOp.drawnToken : JobOp → Option LeaseToken
  | .claim workerId token _ _ => if isBlank workerId then none else some token
  | _ => none

def drawnTokens (tr : JobTrace) : List LeaseToken := tr.filterMap fun x => x.label.drawnToken

variable (b : JobBackend)

/-- `x` is a claim at `now` that returned the job `k` with the token. -/
def Claims (x : Transition JobDatabase JobOp) (k : JobKey) (token : LeaseToken)
    (now : Instant) : Prop :=
  ∃ workerId locked c db, x.label = .claim workerId token locked now ∧
    claim b x.before workerId token locked now = .ok (some c, db) ∧
    (c.job.tenantId, c.job.jobId) = k

/-- `x` ended whatever lease the job `k` had: it claimed the job again, settled it,
recovered it, cancelled it or queued it again. -/
def EndsLease (x : Transition JobDatabase JobOp) (k : JobKey) : Prop :=
  Succeeds b x ∧ match x.label with
    | .claim _ token _ now => Claims b x k token now
    | .complete tenant jobId _ _ _ => (tenant.tenantId, jobId) = k
    | .fail tenant jobId _ _ _ _ => (tenant.tenantId, jobId) = k
    | .recoverStale locked now => k ∈ (x.before.staleRows locked now).map JobRow.key
    | .cancel tenant jobId _ => (tenant.tenantId, jobId) = k
    | .requeue tenant jobId _ _ => (tenant.tenantId, jobId) = k
    | _ => False

/-- What lease exclusivity means for a run. -/
structure LeaseExclusive (tr : JobTrace) : Prop where
  /-- A call under a lease succeeds only for the last claim, unended and unexpired. -/
  last_claim : ∀ pre x post k token now, tr = pre ++ x :: post →
    x.label.leaseCall = some (k, token, now) → Succeeds b x →
    ∃ before c between claimedAt, pre = before ++ c :: between ∧ Claims b c k token claimedAt ∧
      (∀ y ∈ between, ¬ EndsLease b y k) ∧
      now < deadline k (leaseEnd b claimedAt) (leaseHistory b between)
  settled_once : ∀ pre x mid y post k₁ k₂ token i₁ i₂, tr = pre ++ x :: mid ++ y :: post →
    x.label.settleCall = some (k₁, token, i₁) → y.label.settleCall = some (k₂, token, i₂) →
    Succeeds b x → ¬ Succeeds b y
  /-- A worker whose claim ended, by whatever call, never changes a job with its token. -/
  ended_stays_out : ∀ pre c mid x mid' y post k k' token claimedAt now,
    tr = pre ++ c :: mid ++ x :: mid' ++ y :: post → Claims b c k token claimedAt →
    EndsLease b x k → y.label.leaseCall = some (k', token, now) →
    ¬ Succeeds b y ∧ y.after = y.before

variable {b}

/-! ## From calls to lease events -/

theorem leaseEvents_of_claims {x : Transition JobDatabase JobOp} {k : JobKey}
    {token : LeaseToken} {now : Instant} (h : Claims b x k token now) :
    leaseEvents b x.before x.label = [.grant k token (leaseEnd b now)] := by
  obtain ⟨workerId, locked, c, db, hx, hc, rfl⟩ := h
  have hok : perform b x.before x.label = .ok (.claimed (some c), db) := by
    rw [hx, perform, hc]
    rfl
  rw [leaseEvents_of_ok hok, hx, eventsOf]

theorem claims_of_grant {x : Transition JobDatabase JobOp} {k : JobKey} {token : LeaseToken}
    {d : Int} (h : .grant k token d ∈ leaseEvents b x.before x.label) :
    ∃ now, Claims b x k token now ∧ d = leaseEnd b now := by
  obtain ⟨db, op, db'⟩ := x
  dsimp only at h
  cases hp : perform b db op with
  | error e =>
    rw [leaseEvents, hp] at h
    cases h
  | ok r =>
    rw [leaseEvents_of_ok hp] at h
    cases op with
    | claim workerId tok locked now =>
      obtain ⟨⟨c, db₁⟩, hop, rfl⟩ := map_ok_cases hp
      cases c with
      | none => cases h
      | some c =>
        cases List.mem_singleton.mp h
        exact ⟨now, ⟨workerId, locked, c, db₁, rfl, hop, rfl⟩, rfl⟩
    | recoverStale locked now =>
      obtain ⟨row, -, he⟩ := List.mem_map.mp h
      cases he
    | enqueue _ _ => cases h
    | submit _ _ _ => cases h
    | requeue _ _ _ _ => cases List.mem_singleton.mp h
    | heartbeat _ _ _ _ => cases List.mem_singleton.mp h
    | complete _ _ _ _ _ => cases List.mem_singleton.mp h
    | fail _ _ _ _ _ _ => cases List.mem_singleton.mp h
    | cancel _ _ _ => cases List.mem_singleton.mp h

/-- A call that ends the lease of `k` leaves an event of `k` that is no renewal. -/
theorem endsLease_event {x : Transition JobDatabase JobOp} {k : JobKey} (h : EndsLease b x k) :
    ∃ e ∈ leaseEvents b x.before x.label, e.key = k ∧ ∀ t i d, e ≠ .renew k t i d := by
  obtain ⟨db, op, db'⟩ := x
  obtain ⟨⟨r, hr⟩, h⟩ := h
  cases op with
  | claim workerId token locked now =>
    refine ⟨.grant k token (leaseEnd b now), ?_, rfl, nofun⟩
    rw [leaseEvents_of_claims h]
    exact .head _
  | recoverStale locked now =>
    obtain ⟨row, hrow, hk⟩ := List.mem_map.mp h
    refine ⟨.revoke row.key, ?_, hk, nofun⟩
    rw [leaseEvents_of_ok hr]
    exact List.mem_map.mpr ⟨row, hrow, rfl⟩
  | complete tenant jobId token _ now =>
    refine ⟨.settle (tenant.tenantId, jobId) token now, ?_, h, nofun⟩
    rw [leaseEvents_of_ok hr]
    exact .head _
  | fail tenant jobId token _ _ now =>
    refine ⟨.settle (tenant.tenantId, jobId) token now, ?_, h, nofun⟩
    rw [leaseEvents_of_ok hr]
    exact .head _
  | cancel tenant jobId now =>
    refine ⟨.revoke (tenant.tenantId, jobId), ?_, h, nofun⟩
    rw [leaseEvents_of_ok hr]
    exact .head _
  | requeue tenant jobId _ now =>
    refine ⟨.revoke (tenant.tenantId, jobId), ?_, h, nofun⟩
    rw [leaseEvents_of_ok hr]
    exact .head _
  | enqueue _ _ => exact h.elim
  | submit _ _ _ => exact h.elim
  | heartbeat _ _ _ _ => exact h.elim

theorem leaseEvents_of_settleCall {x : Transition JobDatabase JobOp} {k : JobKey}
    {token : LeaseToken} {now : Instant} (hx : x.label.settleCall = some (k, token, now))
    (hs : Succeeds b x) : leaseEvents b x.before x.label = [.settle k token now] := by
  obtain ⟨db, op, db'⟩ := x
  obtain ⟨r, hr⟩ := hs
  cases op <;> cases hx <;> exact leaseEvents_of_ok hr

/-- A call under a lease that succeeds leaves one event, a renewal or a settlement, which
asks for the lease of the job to be held by its token at its clock reading. -/
theorem leaseEvents_of_leaseCall {x : Transition JobDatabase JobOp} {k : JobKey}
    {token : LeaseToken} {now : Instant} (hx : x.label.leaseCall = some (k, token, now))
    (hs : Succeeds b x) : ∃ e, leaseEvents b x.before x.label = [e] ∧ e.key = k ∧
      ∀ l, e.Permitted l → ∃ d, l = some ⟨token, d⟩ ∧ now < d := by
  obtain ⟨db, op, db'⟩ := x
  obtain ⟨r, hr⟩ := hs
  cases op <;> cases hx <;> exact ⟨_, leaseEvents_of_ok hr, rfl, fun _ h => h⟩

theorem granted_leaseEvents (x : Transition JobDatabase JobOp) :
    (granted (leaseEvents b x.before x.label)).Sublist x.label.drawnToken.toList := by
  by_cases hg : ∃ k token d, .grant k token d ∈ leaseEvents b x.before x.label
  · obtain ⟨k, token, d, hg⟩ := hg
    obtain ⟨now, hc, rfl⟩ := claims_of_grant hg
    rw [leaseEvents_of_claims hc]
    obtain ⟨workerId, locked, c, db, hx, hok, -⟩ := hc
    have hb : isBlank workerId = false := by
      unfold claim at hok
      split_ifs at hok with hb
      exact Bool.eq_false_iff.mpr hb
    rw [hx, JobOp.drawnToken, hb]
    exact List.Sublist.refl _
  · have hnil : granted (leaseEvents b x.before x.label) = [] := by
      rw [granted, List.filterMap_eq_nil_iff]
      intro e he
      cases e with
      | grant k token d => exact absurd ⟨k, token, d, he⟩ hg
      | renew _ _ _ _ => rfl
      | settle _ _ _ => rfl
      | revoke _ => rfl
    rw [hnil]
    exact List.nil_sublist _

theorem drawnTokens_cons (x : Transition JobDatabase JobOp) (tr : JobTrace) :
    drawnTokens (x :: tr) = x.label.drawnToken.toList ++ drawnTokens tr := by
  simp only [drawnTokens, List.filterMap_cons]
  cases x.label.drawnToken <;> rfl

theorem granted_leaseHistory (tr : JobTrace) :
    (granted (leaseHistory b tr)).Sublist (drawnTokens tr) := by
  induction tr with
  | nil => exact List.Sublist.refl _
  | cons x tr ih =>
    rw [leaseHistory, List.flatMap_cons, granted_append, drawnTokens_cons]
    exact List.Sublist.append (granted_leaseEvents x) ih

/-! ## Exclusivity -/

theorem leaseHistory_append (tr tr' : JobTrace) :
    leaseHistory b (tr ++ tr') = leaseHistory b tr ++ leaseHistory b tr' := List.flatMap_append

theorem leaseHistory_cons (x : Transition JobDatabase JobOp) (tr : JobTrace) :
    leaseHistory b (x :: tr) = leaseEvents b x.before x.label ++ leaseHistory b tr := rfl

theorem leaseHistory_split (pre post : JobTrace) (x : Transition JobDatabase JobOp) :
    leaseHistory b (pre ++ x :: post) =
      leaseHistory b pre ++ (leaseEvents b x.before x.label ++ leaseHistory b post) := by
  rw [leaseHistory_append, leaseHistory_cons]

section Run

variable (hinj : Function.Injective b.leaseHash) {db₀ db : JobDatabase}
  (hempty : db₀.jobs = []) {tr : JobTrace} (hr : Run (JobStep b) db₀ tr db)

include hinj hempty hr

/-- A call under a lease succeeds only while its token holds the job. -/
theorem holder_of_leaseCall {pre post : JobTrace} {x : Transition JobDatabase JobOp}
    (htr : tr = pre ++ x :: post) {k : JobKey} {token : LeaseToken} {now : Instant}
    (hx : x.label.leaseCall = some (k, token, now)) (hs : Succeeds b x) :
    ∃ d, holder (leaseHistory b pre) k = some ⟨token, d⟩ ∧ now < d := by
  obtain ⟨e, he, rfl, hperm⟩ := leaseEvents_of_leaseCall hx hs
  obtain ⟨ho, -⟩ := run_tracks hinj hempty hr
  rw [htr, leaseHistory_split, he, List.singleton_append] at ho
  exact hperm _ (orderly_append_cons ho).2

theorem last_claim_of_leaseCall {pre post : JobTrace} {x : Transition JobDatabase JobOp}
    (htr : tr = pre ++ x :: post) {k : JobKey} {token : LeaseToken} {now : Instant}
    (hx : x.label.leaseCall = some (k, token, now)) (hs : Succeeds b x) :
    ∃ before c between claimedAt, pre = before ++ c :: between ∧ Claims b c k token claimedAt ∧
      (∀ y ∈ between, ¬ EndsLease b y k) ∧
      now < deadline k (leaseEnd b claimedAt) (leaseHistory b between) := by
  obtain ⟨d, hheld, hlt⟩ := holder_of_leaseCall hinj hempty hr htr hx hs
  obtain ⟨pre', d', post', he, hrenew, hd⟩ := holder_origin hheld
  obtain ⟨before, c, between, a', c', rfl, hc, -, rfl⟩ := flatMap_eq_append_cons he
  obtain ⟨claimedAt, hclaim, rfl⟩ := claims_of_grant (hc ▸ List.mem_append_right _ (.head _))
  rw [leaseEvents_of_claims hclaim] at hc
  obtain ⟨-, rfl⟩ : a' = [] ∧ c' = [] := by
    cases a' with
    | nil => exact ⟨rfl, (List.cons.inj hc).2.symm⟩
    | cons y a' => exact absurd (List.cons.inj hc).2 (by simp)
  refine ⟨before, c, between, claimedAt, rfl, hclaim, fun y hy hend => ?_, ?_⟩
  · obtain ⟨e, hmem, hk, hne⟩ := endsLease_event hend
    obtain ⟨t, i, d, rfl⟩ := hrenew e (List.mem_flatMap.mpr ⟨y, hy, hmem⟩) hk
    exact hne t i d rfl
  · change d = _ at hd
    rw [hd, List.nil_append] at hlt
    exact hlt

end Run

theorem lease_exclusive (b : JobBackend) (hinj : Function.Injective b.leaseHash)
    (db₀ db : JobDatabase) (hempty : db₀.jobs = []) (tr : JobTrace)
    (hr : Run (JobStep b) db₀ tr db) (hfresh : (drawnTokens tr).Nodup) :
    LeaseExclusive b tr := by
  have hf : (granted (leaseHistory b tr)).Nodup := hfresh.sublist (granted_leaseHistory tr)
  refine ⟨?_, ?_, ?_⟩
  · intro pre x post k token now htr hx hs
    exact last_claim_of_leaseCall hinj hempty hr htr hx hs
  · rintro pre x mid y post k₁ k₂ token i₁ i₂ rfl hx hy hxs hys
    have ho := (run_tracks hinj hempty hr).1
    rw [leaseHistory_split, leaseHistory_split, leaseEvents_of_settleCall hx hxs,
      leaseEvents_of_settleCall hy hys] at ho hf
    exact settle_unique ho hf
  · rintro pre c mid x mid' y post k k' token claimedAt now rfl hc hx hy
    have hfail : ¬ Succeeds b y := by
      intro hs
      obtain ⟨d, hheld, -⟩ := holder_of_leaseCall hinj hempty hr rfl hy hs
      rw [leaseHistory_append] at hf
      have hf' := List.Nodup.of_append_left (granted_append _ _ ▸ hf)
      rw [leaseHistory_split, leaseHistory_split, leaseEvents_of_claims hc,
        List.append_assoc] at hheld hf'
      obtain ⟨rfl, hrenew⟩ := renewals_since_grant hf' hheld rfl
      obtain ⟨e, hmem, hk, hne⟩ := endsLease_event hx
      obtain ⟨t, i, d, rfl⟩ := hrenew e
        (List.mem_append_right _ (List.mem_append_left _ hmem)) hk
      exact hne t i d rfl
    refine ⟨hfail, ?_⟩
    have hstep : JobStep b y.before y.label y.after := hr.split.2.1
    rw [JobStep, next] at hstep
    cases hp : perform b y.before y.label with
    | ok r => exact absurd ⟨r, hp⟩ hfail
    | error e => simpa only [hp] using hstep

/-! A run in which a lease runs out, the job is recovered and claimed again, the first
worker is turned away and the second one completes. -/

def recoveredRun : List JobOp :=
  [.submit pilotTenant pilotRun pilotJob,
    .claim "worker-1" firstToken [] 0,
    .recoverStale [] (seconds 100),
    .claim "worker-2" secondToken [] (seconds 200),
    .heartbeat pilotTenant "job-1" firstToken (seconds 210),
    .complete pilotTenant "job-1" secondToken false (seconds 220)]

theorem lease_exclusive_recoveredRun :
    (recoveredRun.foldl (next plainBackend) emptyJobs).jobs.map JobRow.status = [.completed] ∧
      LeaseExclusive plainBackend (execute (next plainBackend) emptyJobs recoveredRun) :=
  ⟨by decide +kernel,
    lease_exclusive plainBackend Function.injective_id emptyJobs _ rfl _
      (run_execute (JobStep plainBackend) (next plainBackend) (fun _ _ => rfl) _ _) (by decide)⟩

end DecisionAssurance.Jobs
