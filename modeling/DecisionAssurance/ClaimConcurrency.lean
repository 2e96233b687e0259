import DecisionAssurance.JobRuns

/-!
# Concurrent claims and the cap of a tenant

The transactions of `claim` at READ COMMITTED. The claiming statement sees the rows committed
before it began, passes over a row that another claim has locked or has committed since, and
locks the row it updates until its transaction commits. The RUNNING jobs of a tenant are
counted on what the statement sees; the claims it cannot see are not counted.
-/

namespace DecisionAssurance.Jobs

open Tables Runs JobDatabase

/-- The arguments of a `claim`, with the token it draws. -/
structure ClaimCall where
  workerId : String
  token : LeaseToken
  now : Instant
  deriving DecidableEq

/-- A claiming statement that has begun, with the rows it sees. -/
structure BegunClaim where
  call : ClaimCall
  snapshot : JobDatabase
  deriving DecidableEq

/-- A claim whose transaction has updated its row and not committed yet. -/
structure OpenClaim where
  call : ClaimCall
  job : ResearchJob
  deriving DecidableEq

def OpenClaim.key (c : OpenClaim) : JobKey := (c.job.tenantId, c.job.jobId)

structure ClaimState where
  committed : JobDatabase
  begun : List BegunClaim
  claims : List OpenClaim

/-- `SET status = 'RUNNING', …` -/
def claimedRow (b : JobBackend) (call : ClaimCall) (r : JobRow) : JobRow :=
  { r with
    status := .running
    attemptCount := r.attemptCount + 1
    leaseTokenHash := some (b.leaseHash call.token.value)
    leaseExpiresAt := some (call.now + seconds b.policy.leaseSeconds)
    updatedAt := call.now }

/-- What the transaction of a claim writes. -/
def writeClaim (b : JobBackend) (c : OpenClaim) (db : JobDatabase) : JobDatabase :=
  ({ db with jobs := updateWhere (fun r => r.key = c.key) (claimedRow b c.call) db.jobs }
    ).appendEvent c.job "JOB_CLAIMED" c.call.now (some c.call.workerId) none

/-- `status IN ('QUEUED', 'RETRY_WAIT') AND available_at <= now` -/
def isClaimable (now : Instant) (r : JobRow) : Bool :=
  (r.status = .queued || r.status = .retryWait) && r.availableAt ≤ now

namespace ClaimState

variable (b : JobBackend)

/-- The rows a statement passes over: locked ones, and those whose committed version does not
pass the condition any more. -/
def passedOver (s : ClaimState) (now : Instant) : List JobKey :=
  s.claims.map OpenClaim.key ++
    (s.committed.jobs.filter fun r => !isClaimable now r).map JobRow.key

/-- The claim that a statement leaves open, if it finds a candidate. -/
def lock (s : ClaimState) (q : BegunClaim) : Option OpenClaim :=
  match claim b q.snapshot q.call.workerId q.call.token (s.passedOver q.call.now) q.call.now with
  | .ok (some claimed, _) => some ⟨q.call, claimed.job⟩
  | _ => none

end ClaimState

inductive ClaimAction
  | begin (call : ClaimCall)
  | lock (q : BegunClaim)
  | commit (c : OpenClaim)

inductive ClaimStep (b : JobBackend) : ClaimState → ClaimAction → ClaimState → Prop
  | begin (s : ClaimState) (call : ClaimCall) :
      ClaimStep b s (.begin call) { s with begun := ⟨call, s.committed⟩ :: s.begun }
  | lock (s : ClaimState) (q : BegunClaim) (begun : q ∈ s.begun) :
      ClaimStep b s (.lock q)
        { s with begun := s.begun.erase q, claims := (s.lock b q).toList ++ s.claims }
  | commit (s : ClaimState) (c : OpenClaim) (mem : c ∈ s.claims) :
      ClaimStep b s (.commit c)
        { s with committed := writeClaim b c s.committed, claims := s.claims.erase c }

abbrev ClaimTransition := Transition ClaimState ClaimAction

/-! ## One claim -/

section Claim

variable {b : JobBackend} {db db' : JobDatabase}

theorem candidate_unlocked {textLe : String → String → Bool} {locked : List JobKey}
    {now : Instant} {row : JobRow} (h : db.candidate textLe locked now = some row) :
    row.key ∉ locked := by
  have hmem := List.mem_of_mem_head? (Option.mem_def.mpr h)
  rw [List.mem_insertionSort, List.mem_filter, Bool.and_eq_true] at hmem
  simpa using hmem.2.2

theorem claimable_of_candidate {now : Instant} {row : JobRow}
    (h : db.isCandidate now row = true) : isClaimable now row = true := by
  unfold isCandidate at h
  rw [Bool.and_eq_true] at h
  exact h.1

/-- A claim run on its own writes what its transaction writes. -/
theorem claim_writes {call : ClaimCall} {locked : List JobKey} {claimed : ClaimedJob}
    (h : claim b db call.workerId call.token locked call.now = .ok (some claimed, db')) :
    ∃ chosen ∈ db.jobs, db.isCandidate call.now chosen = true ∧ chosen.key ∉ locked ∧
      (claimed.job.tenantId, claimed.job.jobId) = chosen.key ∧
      db' = writeClaim b ⟨call, claimed.job⟩ db := by
  unfold claim at h
  split_ifs at h
  split at h
  · cases h
  · rename_i chosen hchosen
    split at h
    · cases h
    · rename_i row db₁ hu
      obtain ⟨job, hjob, h⟩ := bind_ok_cases h
      cases h
      obtain ⟨hmem, hcandidate⟩ := candidate_cases hchosen
      obtain ⟨r, hr, -, rfl, rfl⟩ := updateJob_cases hu
      have hrow : r.key = chosen.key := key_of_lookup hr
      have hkey : (job.tenantId, job.jobId) = chosen.key := (rowToJob_key hjob).trans hrow
      refine ⟨chosen, hmem, hcandidate, candidate_unlocked hchosen, hkey, ?_⟩
      unfold writeClaim OpenClaim.key
      rw [hkey]
      rfl

theorem lock_cases {s : ClaimState} {q : BegunClaim} {c : OpenClaim} (h : s.lock b q = some c) :
    ∃ chosen ∈ q.snapshot.jobs, isClaimable q.call.now chosen = true ∧
      q.snapshot.runningCount c.job.tenantId < q.snapshot.concurrencyLimit c.job.tenantId ∧
      chosen.key ∉ s.passedOver q.call.now ∧ c.key = chosen.key := by
  unfold ClaimState.lock at h
  split at h
  · rename_i claimed db' hclaim
    cases h
    obtain ⟨chosen, hmem, hcandidate, hunlocked, hkey, -⟩ := claim_writes hclaim
    have htenant : claimed.job.tenantId = chosen.tenantId := congrArg Prod.fst hkey
    refine ⟨chosen, hmem, claimable_of_candidate hcandidate, ?_, hunlocked, hkey⟩
    unfold isCandidate at hcandidate
    rw [Bool.and_eq_true, decide_eq_true_eq] at hcandidate
    rw [htenant]
    exact hcandidate.2
  · cases h

end Claim

/-! ## Counting -/

/-- The claims of a tenant that are open. -/
def ClaimState.openCount (s : ClaimState) (tenantId : String) : ℕ :=
  s.claims.countP fun c => c.job.tenantId = tenantId

/-- The jobs of a tenant that are RUNNING or will be when the open claims are committed. -/
def ClaimState.taken (s : ClaimState) (tenantId : String) : ℕ :=
  s.committed.runningCount tenantId + s.openCount tenantId

/-- What the store and the open claims keep up. -/
structure ClaimsSound (s : ClaimState) : Prop where
  keyed : Keyed JobRow.key s.committed.jobs
  begun : ∀ q ∈ s.begun, ∀ r ∈ q.snapshot.jobs, r ∈ s.committed.jobs ∨
    ∃ r' ∈ s.committed.jobs, r'.key = r.key ∧ r'.status = .running
  limits : ∀ q ∈ s.begun, q.snapshot.limits = s.committed.limits
  claims : ∀ c ∈ s.claims, ∃ r ∈ s.committed.jobs, r.key = c.key ∧ r.status ≠ .running
  distinct : (s.claims.map OpenClaim.key).Nodup

section Counting

variable {b : JobBackend} {s s' : ClaimState} {c : OpenClaim} {tenantId : String}

theorem isClaimable_status {now : Instant} {r : JobRow} (h : isClaimable now r = true) :
    r.status ≠ .running := by
  intro hr
  simp only [isClaimable, hr, reduceCtorEq, decide_false, Bool.or_self, Bool.false_and,
    Bool.false_eq_true] at h

@[simp] theorem writeClaim_jobs (b : JobBackend) (c : OpenClaim) (db : JobDatabase) :
    (writeClaim b c db).jobs = updateWhere (fun r => r.key = c.key) (claimedRow b c.call) db.jobs :=
  appendEvent_jobs ..

@[simp] theorem writeClaim_limits (b : JobBackend) (c : OpenClaim) (db : JobDatabase) :
    (writeClaim b c db).limits = db.limits := by
  unfold writeClaim appendEvent
  dsimp only
  split_ifs <;> rfl

theorem concurrencyLimit_writeClaim (b : JobBackend) (c : OpenClaim) (db : JobDatabase) :
    (writeClaim b c db).concurrencyLimit tenantId = db.concurrencyLimit tenantId := by
  rw [concurrencyLimit, writeClaim_limits, concurrencyLimit]

/-- The row a statement locks is committed, not RUNNING and not locked by another claim. -/
theorem ClaimsSound.locked (h : ClaimsSound s) {q : BegunClaim} (hq : q ∈ s.begun)
    (hlock : s.lock b q = some c) :
    (∃ r ∈ s.committed.jobs, r.key = c.key ∧ r.status ≠ .running) ∧
      c.key ∉ s.claims.map OpenClaim.key := by
  obtain ⟨chosen, hchosen, hclaimable, -, hover, hkey⟩ := lock_cases hlock
  have hover' := fun hmem => hover (List.mem_append.mpr hmem)
  refine ⟨?_, fun hmem => hover' (.inl (hkey ▸ hmem))⟩
  rcases h.begun q hq chosen hchosen with hcommitted | ⟨r, hr, hrkey, hrunning⟩
  · exact ⟨chosen, hcommitted, hkey.symm, isClaimable_status hclaimable⟩
  · refine absurd (.inr ?_) hover'
    rw [← hrkey]
    refine List.mem_map_of_mem (List.mem_filter.mpr ⟨hr, ?_⟩)
    rw [Bool.not_eq_true', Bool.eq_false_iff]
    exact fun hc => isClaimable_status hc hrunning

theorem ClaimsSound.lock (h : ClaimsSound s) {q : BegunClaim} (hq : q ∈ s.begun) :
    ClaimsSound { s with begun := s.begun.erase q, claims := (s.lock b q).toList ++ s.claims } := by
  have hbegun : ∀ q' ∈ s.begun.erase q, ∀ r ∈ q'.snapshot.jobs, r ∈ s.committed.jobs ∨
      ∃ r' ∈ s.committed.jobs, r'.key = r.key ∧ r'.status = .running :=
    fun q' hq' => h.begun q' (List.mem_of_mem_erase hq')
  have hlimits : ∀ q' ∈ s.begun.erase q, q'.snapshot.limits = s.committed.limits :=
    fun q' hq' => h.limits q' (List.mem_of_mem_erase hq')
  cases hlock : s.lock b q with
  | none => exact ⟨h.keyed, hbegun, hlimits, h.claims, h.distinct⟩
  | some c =>
    obtain ⟨hrow, hfresh⟩ := h.locked hq hlock
    refine ⟨h.keyed, hbegun, hlimits, fun c' hc' => ?_, ?_⟩
    · rcases List.mem_cons.mp hc' with rfl | hc'
      · exact hrow
      · exact h.claims c' hc'
    · exact List.nodup_cons.mpr ⟨hfresh, h.distinct⟩

theorem ClaimsSound.commit (h : ClaimsSound s) (hc : c ∈ s.claims) :
    ClaimsSound { s with committed := writeClaim b c s.committed, claims := s.claims.erase c } := by
  have hkeep : ∀ r, r.key = c.key → (claimedRow b c.call r).key = r.key := fun _ _ => rfl
  have hmem {r : JobRow} (hr : r ∈ s.committed.jobs) :
      (if r.key = c.key then claimedRow b c.call r else r) ∈ (writeClaim b c s.committed).jobs := by
    rw [writeClaim_jobs]
    refine mem_updateWhere.mpr ⟨r, hr, ?_⟩
    simp only [decide_eq_true_eq]
  refine ⟨?_, fun q hq r hr => ?_, fun q hq => ?_, fun c' hc' => ?_, ?_⟩
  · rw [writeClaim_jobs]
    exact keyed_updateWhere (fun r hr => hkeep r (of_decide_eq_true hr)) h.keyed
  · rcases h.begun q hq r hr with hr | ⟨r', hr', hkey, hrunning⟩
    · by_cases hk : r.key = c.key
      · have hwritten := hmem hr
        rw [if_pos hk] at hwritten
        exact .inr ⟨_, hwritten, rfl, rfl⟩
      · have hkept := hmem hr
        rw [if_neg hk] at hkept
        exact .inl hkept
    · by_cases hk : r'.key = c.key
      · have hwritten := hmem hr'
        rw [if_pos hk] at hwritten
        exact .inr ⟨_, hwritten, hkey, rfl⟩
      · have hkept := hmem hr'
        rw [if_neg hk] at hkept
        exact .inr ⟨_, hkept, hkey, hrunning⟩
  · rw [writeClaim_limits]
    exact h.limits q hq
  · obtain ⟨r, hr, hkey, hstatus⟩ := h.claims c' (List.mem_of_mem_erase hc')
    have hne : r.key ≠ c.key := by
      intro hk
      have hcc : c' = c :=
        List.inj_on_of_nodup_map h.distinct (List.mem_of_mem_erase hc') hc (hkey.symm.trans hk)
      rw [hcc] at hc'
      exact (List.Nodup.of_map _ h.distinct).not_mem_erase hc'
    have hkept := hmem hr
    rw [if_neg hne] at hkept
    exact ⟨r, hkept, hkey, hstatus⟩
  · exact h.distinct.sublist (List.Sublist.map _ List.erase_sublist)

theorem ClaimsSound.step (h : ClaimsSound s) {a : ClaimAction} (hstep : ClaimStep b s a s') :
    ClaimsSound s' := by
  cases hstep with
  | begin call =>
    refine ⟨h.keyed, fun q hq r hr => ?_, fun q hq => ?_, h.claims, h.distinct⟩
    · rcases List.mem_cons.mp hq with rfl | hq
      · exact .inl hr
      · exact h.begun q hq r hr
    · rcases List.mem_cons.mp hq with rfl | hq
      · rfl
      · exact h.limits q hq
  | lock q hq => exact h.lock hq
  | commit c hc => exact h.commit hc

/-- A commit turns an open claim of its tenant into a RUNNING job. -/
theorem runningCount_commit (h : ClaimsSound s) (hc : c ∈ s.claims) :
    (writeClaim b c s.committed).runningCount tenantId =
      s.committed.runningCount tenantId + if c.job.tenantId = tenantId then 1 else 0 := by
  obtain ⟨r, hr, hkey, hstatus⟩ := h.claims c hc
  have htenant : r.tenantId = c.job.tenantId := congrArg Prod.fst hkey
  have hcount := countP_updateWhere_of_mem h.keyed hr hkey (claimedRow b c.call)
    fun r => r.tenantId = tenantId && r.status = .running
  have hbefore : (decide (r.tenantId = tenantId) && decide (r.status = .running)) = false := by
    rw [decide_eq_false hstatus, Bool.and_false]
  have hafter : (decide ((claimedRow b c.call r).tenantId = tenantId) &&
      decide ((claimedRow b c.call r).status = .running)) = decide (c.job.tenantId = tenantId) := by
    rw [← htenant]
    exact Bool.and_true _
  rw [hbefore, hafter] at hcount
  unfold runningCount
  rw [writeClaim_jobs]
  simpa using hcount

theorem openCount_erase (hc : c ∈ s.claims) :
    s.openCount tenantId = (s.claims.erase c).countP (fun c => c.job.tenantId = tenantId) +
      if c.job.tenantId = tenantId then 1 else 0 := by
  unfold ClaimState.openCount
  rw [(List.perm_cons_erase hc).countP_eq, List.countP_cons]
  simp only [decide_eq_true_eq]

theorem taken_lock (q : BegunClaim) :
    ClaimState.taken { s with
      begun := s.begun.erase q, claims := (s.lock b q).toList ++ s.claims } tenantId =
      s.taken tenantId + (s.lock b q).toList.countP fun c => c.job.tenantId = tenantId := by
  unfold ClaimState.taken ClaimState.openCount
  dsimp only
  rw [List.countP_append]
  omega

/-- A commit leaves the sum of the RUNNING jobs and the open claims as it is. -/
theorem taken_commit (h : ClaimsSound s) (hc : c ∈ s.claims) :
    ClaimState.taken { s with
      committed := writeClaim b c s.committed, claims := s.claims.erase c } tenantId =
      s.taken tenantId := by
  have hrunning := @runningCount_commit b s c tenantId h hc
  have hopen := @openCount_erase s c tenantId hc
  unfold ClaimState.taken
  rw [hopen]
  unfold ClaimState.openCount
  dsimp only
  omega

theorem runningCount_le_taken : s.committed.runningCount tenantId ≤ s.taken tenantId :=
  Nat.le_add_right _ _

end Counting

/-! ## The cap -/

/-- A committed claim has not brought its tenant above its cap. -/
def WithinCap (x : ClaimTransition) : Prop :=
  ∀ c, x.label = .commit c → x.after.committed.runningCount c.job.tenantId ≤
    x.after.committed.concurrencyLimit c.job.tenantId

/-- A statement that finds a candidate leaves room for the open claims of its tenant too. -/
def LeavesRoom (b : JobBackend) (x : ClaimTransition) : Prop :=
  ∀ q c, x.label = .lock q → x.before.lock b q = some c →
    x.before.taken c.job.tenantId < x.before.committed.concurrencyLimit c.job.tenantId

section Cap

variable {b : JobBackend} {s s' : ClaimState} {tenantId : String}

/-- No tenant with an open claim is to exceed its cap. -/
def Covered (s : ClaimState) : Prop :=
  ∀ c ∈ s.claims, s.taken c.job.tenantId ≤ s.committed.concurrencyLimit c.job.tenantId

theorem Covered.step (hs : ClaimsSound s) (h : Covered s) {a : ClaimAction}
    (hstep : ClaimStep b s a s') (hroom : LeavesRoom b ⟨s, a, s'⟩) :
    Covered s' ∧ WithinCap ⟨s, a, s'⟩ := by
  cases hstep with
  | begin call => exact ⟨h, fun c hc => by cases hc⟩
  | lock q hq =>
    refine ⟨fun c hc => ?_, fun c hc => by cases hc⟩
    rw [taken_lock]
    cases hlock : s.lock b q with
    | none =>
      rw [hlock] at hc
      exact h c hc
    | some c₀ =>
      rw [hlock] at hc
      have hfree : s.taken c₀.job.tenantId + 1 ≤ s.committed.concurrencyLimit c₀.job.tenantId :=
        hroom q c₀ rfl hlock
      rcases List.mem_cons.mp hc with rfl | hc
      · simpa using hfree
      · have hle := h c hc
        by_cases ht : c₀.job.tenantId = c.job.tenantId
        · rw [ht] at hfree
          simpa [ht] using hfree
        · simpa [ht] using hle
  | commit c hc =>
    have hlimit (t : String) := @concurrencyLimit_writeClaim t b c s.committed
    refine ⟨fun c' hc' => ?_, fun c' hc' => ?_⟩
    · rw [taken_commit hs hc]
      change _ ≤ (writeClaim b c s.committed).concurrencyLimit _
      rw [hlimit]
      exact h c' (List.mem_of_mem_erase hc')
    · cases hc'
      change _ ≤ (writeClaim b c s.committed).concurrencyLimit _
      rw [hlimit]
      refine le_trans runningCount_le_taken ?_
      rw [taken_commit hs hc]
      exact h c hc

/-- A tenant with an open claim that will exceed its cap. -/
def Overdrawn (s : ClaimState) (tenantId : String) : Prop :=
  s.committed.concurrencyLimit tenantId < s.taken tenantId ∧ 0 < s.openCount tenantId

/-- The open claims of an overdrawn tenant stay until the one whose commit exceeds the cap. -/
theorem Overdrawn.step (hs : ClaimsSound s) (h : Overdrawn s tenantId) {a : ClaimAction}
    (hstep : ClaimStep b s a s') : Overdrawn s' tenantId ∨ ¬ WithinCap ⟨s, a, s'⟩ := by
  obtain ⟨hover, hopen⟩ := h
  cases hstep with
  | begin call => exact .inl ⟨hover, hopen⟩
  | lock q hq =>
    refine .inl ⟨?_, ?_⟩
    · rw [taken_lock]
      exact lt_of_lt_of_le hover (Nat.le_add_right _ _)
    · unfold ClaimState.openCount at hopen ⊢
      rw [List.countP_append]
      omega
  | commit c hc =>
    have hlimit := @concurrencyLimit_writeClaim tenantId b c s.committed
    have htaken := @taken_commit b s c tenantId hs hc
    rw [← htaken, ← hlimit] at hover
    by_cases hleft : 0 < ClaimState.openCount { s with
        committed := writeClaim b c s.committed, claims := s.claims.erase c } tenantId
    · exact .inl ⟨hover, hleft⟩
    · have htenant : c.job.tenantId = tenantId := by
        by_contra hne
        have herase := @openCount_erase s c tenantId hc
        rw [if_neg hne, Nat.add_zero] at herase
        rw [herase] at hopen
        exact hleft hopen
      refine .inr fun hwithin => ?_
      have hle := hwithin c rfl
      rw [htenant] at hle
      unfold ClaimState.taken at hover
      dsimp only at hover hle
      omega

theorem claimsSound_idle {db : JobDatabase} (h : Keyed JobRow.key db.jobs) :
    ClaimsSound ⟨db, [], []⟩ :=
  ⟨h, fun _ hq => absurd hq List.not_mem_nil, fun _ hq => absurd hq List.not_mem_nil,
    fun _ hc => absurd hc List.not_mem_nil, List.nodup_nil⟩

theorem claimsSound_of_run {tr : Trace ClaimState ClaimAction} (hs : ClaimsSound s)
    (h : Run (ClaimStep b) s tr s') : ClaimsSound s' :=
  h.invariant_state ClaimsSound hs fun _ _ _ hi hstep => hi.step hstep

theorem withinCap_of_leavesRoom {tr : Trace ClaimState ClaimAction} (hs : ClaimsSound s)
    (hcovered : Covered s) (h : Run (ClaimStep b) s tr s') (hroom : ∀ x ∈ tr, LeavesRoom b x) :
    ∀ x ∈ tr, WithinCap x := by
  refine (h.invariant_of_steps (LeavesRoom b)
    (fun tr s => ClaimsSound s ∧ Covered s ∧ ∀ x ∈ tr, WithinCap x)
    ⟨hs, hcovered, fun x hx => absurd hx List.not_mem_nil⟩ ?_ hroom).2.2
  intro tr t a u _ hinv hstep hx
  obtain ⟨hsound, hcov, hwithin⟩ := hinv
  obtain ⟨hcov', hwithin'⟩ := hcov.step hsound hstep hx
  refine ⟨hsound.step hstep, hcov', fun x hx => ?_⟩
  rcases List.mem_append.mp hx with hx | hx
  · exact hwithin x hx
  · rw [List.mem_singleton.mp hx]
    exact hwithin'

/-- Where no claim is left open, an overdrawn tenant has exceeded its cap. -/
theorem exceeds_of_overdrawn {tr : Trace ClaimState ClaimAction} (hs : ClaimsSound s)
    (hover : Overdrawn s tenantId) (h : Run (ClaimStep b) s tr s') (hend : s'.claims = []) :
    ∃ x ∈ tr, ¬ WithinCap x := by
  have hinv := h.invariant
    (fun tr s => ClaimsSound s ∧ (Overdrawn s tenantId ∨ ∃ x ∈ tr, ¬ WithinCap x))
    ⟨hs, .inl hover⟩ ?_
  · refine hinv.2.resolve_left fun hleft => ?_
    have hopen := hleft.2
    rw [ClaimState.openCount, hend] at hopen
    exact absurd hopen (Nat.lt_irrefl 0)
  · intro tr t a u _ hi hstep
    obtain ⟨hsound, hcases⟩ := hi
    refine ⟨hsound.step hstep, ?_⟩
    rcases hcases with hover | ⟨x, hx, hexceeds⟩
    · refine (hover.step hsound hstep).imp_right fun hexceeds => ?_
      exact ⟨_, List.mem_append_right _ (List.mem_singleton_self _), hexceeds⟩
    · exact .inr ⟨x, List.mem_append_left _ hx, hexceeds⟩

/-- The claims of a run stay within the caps if every statement leaves room for the claims it
cannot see; and where all of them are committed, only if. -/
theorem claims_withinCap_iff (b : JobBackend) {db : JobDatabase} (hkeyed : Keyed JobRow.key db.jobs)
    {tr : Trace ClaimState ClaimAction} (h : Run (ClaimStep b) ⟨db, [], []⟩ tr s) :
    ((∀ x ∈ tr, LeavesRoom b x) → ∀ x ∈ tr, WithinCap x) ∧
      (s.claims = [] → (∀ x ∈ tr, WithinCap x) → ∀ x ∈ tr, LeavesRoom b x) := by
  have hsound := claimsSound_idle hkeyed
  refine ⟨withinCap_of_leavesRoom hsound (fun c hc => absurd hc List.not_mem_nil) h, ?_⟩
  intro hend hwithin x hx q c hlabel hlock
  obtain ⟨pre, post, rfl⟩ := List.append_of_mem hx
  obtain ⟨hpre, hstep, hpost⟩ := h.split
  have hsound' := claimsSound_of_run hsound hpre
  have hafter := hsound'.step hstep
  by_contra hfull
  have hover : Overdrawn x.after c.job.tenantId := by
    obtain ⟨before, label, after⟩ := x
    dsimp only at hlabel hlock hfull hstep ⊢
    subst hlabel
    cases hstep with
    | lock q hq =>
      refine ⟨?_, ?_⟩
      · rw [taken_lock, hlock]
        simp only [Option.toList_some, List.countP_singleton, decide_true, if_true]
        omega
      · unfold ClaimState.openCount
        rw [hlock]
        simp
  obtain ⟨y, hy, hexceeds⟩ := exceeds_of_overdrawn hafter hover hpost hend
  exact hexceeds (hwithin y (List.mem_append_right _ (List.mem_cons_of_mem _ hy)))

end Cap

/-! ## Two claims at once -/

section Steps

variable {b : JobBackend} {s s' : ClaimState}

theorem leavesRoom_begin {call : ClaimCall} : LeavesRoom b ⟨s, .begin call, s'⟩ :=
  fun _ _ hlabel => ClaimAction.noConfusion hlabel

theorem leavesRoom_lock {q : BegunClaim} {c : OpenClaim} (hlock : s.lock b q = some c)
    (h : s.taken c.job.tenantId < s.committed.concurrencyLimit c.job.tenantId) :
    LeavesRoom b ⟨s, .lock q, s'⟩ := by
  intro q' c' hlabel hlock'
  cases hlabel
  cases hlock.symm.trans hlock'
  exact h

theorem leavesRoom_commit {c : OpenClaim} : LeavesRoom b ⟨s, .commit c, s'⟩ :=
  fun _ _ hlabel => ClaimAction.noConfusion hlabel

end Steps

def queuedRow (jobId : String) : JobRow where
  tenantId := "tenant-a"
  jobId := jobId
  researchRunId := jobId
  correlationId := "correlation-1"
  payloadHash := pilotJob.payloadHash
  status := .queued
  attemptCount := 0
  availableAt := 0
  leaseTokenHash := none
  leaseExpiresAt := none
  lastErrorCode := none
  createdAt := 0
  updatedAt := 0

/-- A tenant with two queued jobs of which only `limit` may run at a time. -/
def queuedJobs (limit : ℕ) : JobDatabase :=
  ⟨[], [], [queuedRow "job-1", queuedRow "job-2"], [], [("tenant-a", limit)]⟩

def firstCall : ClaimCall := ⟨"worker-1", firstToken, 1⟩

def secondCall : ClaimCall := ⟨"worker-2", secondToken, 1⟩

section TwoWorkers

variable (limit : ℕ)

def firstBegun : ClaimState := ⟨queuedJobs limit, [⟨firstCall, queuedJobs limit⟩], []⟩

def bothBegun : ClaimState :=
  { firstBegun limit with begun := ⟨secondCall, queuedJobs limit⟩ :: (firstBegun limit).begun }

def afterLock (s : ClaimState) (call : ClaimCall) : ClaimState :=
  { s with
    begun := s.begun.erase ⟨call, queuedJobs limit⟩
    claims := (s.lock plainBackend ⟨call, queuedJobs limit⟩).toList ++ s.claims }

def afterCommit (s : ClaimState) (c : OpenClaim) : ClaimState :=
  { s with committed := writeClaim plainBackend c s.committed, claims := s.claims.erase c }

def firstLocked : ClaimState := afterLock limit (bothBegun limit) firstCall

def bothLocked : ClaimState := afterLock limit (firstLocked limit) secondCall

end TwoWorkers

/-- The claim of the first worker: of `job-1`. -/
def firstClaim : OpenClaim :=
  ((bothBegun 1).lock plainBackend ⟨firstCall, queuedJobs 1⟩).get (by rfl)

/-- The claim of the second worker: of `job-2`, as `job-1` is locked and not counted yet. -/
def secondClaim : OpenClaim :=
  ((firstLocked 1).lock plainBackend ⟨secondCall, queuedJobs 1⟩).get (by rfl)

/-- Both workers begin, both lock their job, and then both commit. -/
def claimedAtOnce (limit : ℕ) : Trace ClaimState ClaimAction :=
  let halfway := afterCommit (bothLocked limit) firstClaim
  [⟨⟨queuedJobs limit, [], []⟩, .begin firstCall, firstBegun limit⟩,
    ⟨firstBegun limit, .begin secondCall, bothBegun limit⟩,
    ⟨bothBegun limit, .lock ⟨firstCall, queuedJobs limit⟩, firstLocked limit⟩,
    ⟨firstLocked limit, .lock ⟨secondCall, queuedJobs limit⟩, bothLocked limit⟩,
    ⟨bothLocked limit, .commit firstClaim, halfway⟩,
    ⟨halfway, .commit secondClaim, afterCommit halfway secondClaim⟩]

theorem keyed_queuedJobs (limit : ℕ) : Keyed JobRow.key (queuedJobs limit).jobs := by
  unfold Keyed
  exact List.pairwise_pair.mpr (by decide)

theorem run_claimedAtOnce (limit : ℕ) (hlocked : (bothLocked limit).claims =
    [secondClaim, firstClaim]) : Run (ClaimStep plainBackend) ⟨queuedJobs limit, [], []⟩
      (claimedAtOnce limit) (afterCommit (afterCommit (bothLocked limit) firstClaim)
        secondClaim) := by
  have hfirst : ClaimStep plainBackend ⟨queuedJobs limit, [], []⟩ (.begin firstCall)
      (firstBegun limit) := .begin _ firstCall
  have hsecond : ClaimStep plainBackend (firstBegun limit) (.begin secondCall) (bothBegun limit) :=
    .begin _ secondCall
  have hlock : ClaimStep plainBackend (bothBegun limit) (.lock ⟨firstCall, queuedJobs limit⟩)
      (firstLocked limit) := .lock _ _ (List.mem_cons_of_mem _ (List.mem_singleton_self _))
  have hbegun : (firstLocked limit).begun = [⟨secondCall, queuedJobs limit⟩] := by
    simp [firstLocked, afterLock, bothBegun, firstBegun, firstCall, secondCall]
  have hlock' : ClaimStep plainBackend (firstLocked limit) (.lock ⟨secondCall, queuedJobs limit⟩)
      (bothLocked limit) := .lock _ _ (by rw [hbegun]; exact List.mem_singleton_self _)
  have hcommit : ClaimStep plainBackend (bothLocked limit) (.commit firstClaim)
      (afterCommit (bothLocked limit) firstClaim) := .commit _ _ (by rw [hlocked]; simp)
  have hcommit' : ClaimStep plainBackend (afterCommit (bothLocked limit) firstClaim)
      (.commit secondClaim) (afterCommit (afterCommit (bothLocked limit) firstClaim) secondClaim) :=
    .commit _ _ (by
      have herased : (afterCommit (bothLocked limit) firstClaim).claims = [secondClaim] := by
        unfold afterCommit
        rw [hlocked]
        rfl
      rw [herased]
      exact List.mem_singleton_self _)
  exact (((((Run.single hfirst).snoc hsecond).snoc hlock).snoc hlock').snoc hcommit).snoc hcommit'

/-- Under a limit of two, the two claims of the tenant leave room for each other. -/
theorem claims_withinCap_iff_twoClaims : ∃ tr s,
    Run (ClaimStep plainBackend) ⟨queuedJobs 2, [], []⟩ tr s ∧
      s.claims = [] ∧ s.committed.runningCount "tenant-a" = 2 ∧
      (∀ x ∈ tr, LeavesRoom plainBackend x) ∧ ∀ x ∈ tr, WithinCap x := by
  have hrun := run_claimedAtOnce 2 (by decide)
  have hroom : ∀ x ∈ claimedAtOnce 2, LeavesRoom plainBackend x := by
    have hfirst : (bothBegun 2).lock plainBackend ⟨firstCall, queuedJobs 2⟩ = some firstClaim := by
      decide
    have hsecond : (firstLocked 2).lock plainBackend ⟨secondCall, queuedJobs 2⟩ =
        some secondClaim := by
      decide
    rw [claimedAtOnce, List.forall_mem_cons, List.forall_mem_cons, List.forall_mem_cons,
      List.forall_mem_cons, List.forall_mem_cons, List.forall_mem_singleton]
    exact ⟨leavesRoom_begin, leavesRoom_begin, leavesRoom_lock hfirst (by decide),
      leavesRoom_lock hsecond (by decide), leavesRoom_commit, leavesRoom_commit⟩
  have hiff := claims_withinCap_iff plainBackend (keyed_queuedJobs 2) hrun
  exact ⟨_, _, hrun, by decide, by decide, hroom, hiff.1 hroom⟩

/-- Two workers each claim a job of a tenant that may run one. -/
theorem cap_exceeded : ¬ ∀ (db : JobDatabase) (tr : Trace ClaimState ClaimAction) (s : ClaimState),
    Keyed JobRow.key db.jobs → Run (ClaimStep plainBackend) ⟨db, [], []⟩ tr s →
      ∀ x ∈ tr, WithinCap x := by
  intro h
  have hrun := run_claimedAtOnce 1 (by decide)
  have hlast := h (queuedJobs 1) _ _ (keyed_queuedJobs 1) hrun _
    (List.mem_of_getLast? rfl) secondClaim rfl
  revert hlast
  decide

end DecisionAssurance.Jobs
