import DecisionAssurance.JobChanges

/-!
# The attempts at a job

A claim counts an attempt without looking at the limit; what ends an attempt compares the count
with it. Since a job waits for another attempt only below the limit, the two keep the attempts
between requeues within it.
-/

namespace DecisionAssurance.Jobs

open Tables Runs Research JobDatabase

/-! ## Delays -/

theorem seconds_inj {n m : ℕ} (h : seconds n = seconds m) : n = m := by
  unfold seconds at h
  omega

theorem retryDelay_bounds {policy : JobPolicy} {n d : ℕ} (h : retryDelay policy n = .ok d) :
    policy.baseBackoffSeconds ≤ d ∧ d ≤ policy.maximumBackoffSeconds := by
  unfold retryDelay at h
  split_ifs at h
  cases h
  have hb := policy.backoff_ok
  have hpow : policy.baseBackoffSeconds * 1 ≤ policy.baseBackoffSeconds * 2 ^ min (n - 1) 30 :=
    Nat.mul_le_mul_left _ Nat.one_le_two_pow
  omega

theorem retryDelay_mono {policy : JobPolicy} {n m d e : ℕ} (hd : retryDelay policy n = .ok d)
    (he : retryDelay policy m = .ok e) (hnm : n ≤ m) : d ≤ e := by
  unfold retryDelay at hd he
  split_ifs at hd he
  cases hd
  cases he
  have hexp : min (n - 1) 30 ≤ min (m - 1) 30 := by omega
  have hpow : policy.baseBackoffSeconds * 2 ^ min (n - 1) 30 ≤
      policy.baseBackoffSeconds * 2 ^ min (m - 1) 30 :=
    Nat.mul_le_mul_left _ (Nat.pow_le_pow_right (by omega) hexp)
  omega

theorem afterAttempt_cases {policy : JobPolicy} {n delay : ℕ} {target : JobStatus}
    (h : afterAttempt policy n = .ok (target, delay)) :
    target = .retryWait ∧ n < policy.maxAttempts ∧ retryDelay policy n = .ok delay ∨
      target = .deadLetter ∧ policy.maxAttempts ≤ n := by
  unfold afterAttempt at h
  split_ifs at h with hn
  · obtain ⟨d, hd, h⟩ := bind_ok_cases h
    cases h
    exact .inl ⟨rfl, hn, hd⟩
  · cases h
    exact .inr ⟨rfl, by omega⟩

theorem failureStatus_cases {policy : JobPolicy} {retryable : Bool} {n delay : ℕ}
    {target : JobStatus} (h : failureStatus policy retryable n = .ok (target, delay)) :
    afterAttempt policy n = .ok (target, delay) ∨ target = .failed := by
  unfold failureStatus at h
  split_ifs at h
  · exact .inl h
  · cases h
    exact .inr rfl

/-! ## Rows -/

/-- The time a call is given. -/
def JobOp.now : JobOp → Option Instant
  | .enqueue _ _ | .submit _ _ _ => none
  | .requeue _ _ _ now | .claim _ _ _ now | .heartbeat _ _ _ now | .complete _ _ _ _ now
  | .fail _ _ _ _ _ now | .cancel _ _ now | .recoverStale _ now => some now

/-- Jobs are submitted and enqueued without attempts. -/
def Fresh (op : JobOp) : Prop := ∀ tenant job, Submits op tenant job → job.attemptCount = 0

/-- The attempts of a row by its status. -/
structure Bounded (policy : JobPolicy) (row : JobRow) : Prop where
  queued : row.status = .queued → row.attemptCount = 0
  waiting : row.status = .retryWait → row.attemptCount < policy.maxAttempts
  limit : row.attemptCount ≤ policy.maxAttempts

section Step

variable {b : JobBackend} {k : JobKey} {op : JobOp} {r : JobResult} {before after : Option JobRow}
  {row row' : JobRow}

/-- The end of an attempt. -/
theorem bounded_afterAttempt {policy : JobPolicy} {delay : ℕ} (hrow : Bounded policy row)
    (h : afterAttempt policy row.attemptCount = .ok (row'.status, delay))
    (hcount : row'.attemptCount = row.attemptCount) : Bounded policy row' := by
  have hlimit := hrow.limit
  rcases afterAttempt_cases h with ⟨hstatus, hless, -⟩ | ⟨hstatus, -⟩
  · refine ⟨fun hq => ?_, fun _ => by omega, by omega⟩
    rw [hstatus] at hq
    cases hq
  · refine ⟨fun hq => ?_, fun hw => ?_, by omega⟩
    · rw [hstatus] at hq
      cases hq
    · rw [hstatus] at hw
      cases hw

/-- A row whose status is neither that of a queue nor that of a wait. -/
theorem bounded_of_limit {policy : JobPolicy} (hqueued : row.status ≠ .queued)
    (hwaiting : row.status ≠ .retryWait) (hlimit : row.attemptCount ≤ policy.maxAttempts) :
    Bounded policy row :=
  ⟨fun h => absurd h hqueued, fun h => absurd h hwaiting, hlimit⟩

theorem bounded_fate (hop : Fresh op) (h : Fate b k op r before after)
    (hbefore : ∀ row, before = some row → Bounded b.policy row) (hafter : after = some row') :
    Bounded b.policy row' := by
  have hmax := b.policy.attempts_ok
  cases h with
  | kept => exact hbefore row' hafter
  | queued _ hsubmits hqueued =>
    cases hafter
    have hzero := hop _ _ hsubmits
    refine ⟨fun _ => hzero, fun hw => ?_, ?_⟩
    · cases hqueued.symm.trans hw
    · exact hzero.trans_le (Nat.zero_le _)
  | requeued =>
    cases hafter
    exact ⟨fun _ => rfl, fun hw => (nomatch hw), Nat.zero_le _⟩
  | @claimed _ _ _ _ _ row _ hstatus =>
    cases hafter
    have hrow := hbefore row rfl
    refine bounded_of_limit ?_ ?_ ?_
    · exact nofun
    · exact nofun
    change row.attemptCount + 1 ≤ b.policy.maxAttempts
    rcases hstatus with hq | hw
    · have hzero := hrow.queued hq
      omega
    · have hless := hrow.waiting hw
      omega
  | extended _ hlease =>
    cases hafter
    have hrow := hbefore _ rfl
    exact ⟨hrow.queued, hrow.waiting, hrow.limit⟩
  | @completed _ _ _ isPartial _ row =>
    cases hafter
    refine bounded_of_limit ?_ ?_ (hbefore row rfl).limit
    · cases isPartial <;> exact nofun
    · cases isPartial <;> exact nofun
  | @failed _ _ _ _ _ _ row _ _ _ _ hf =>
    cases hafter
    have hrow := hbefore row rfl
    rcases failureStatus_cases hf with ha | rfl
    · exact bounded_afterAttempt hrow ha rfl
    · exact bounded_of_limit nofun nofun hrow.limit
  | cancelled =>
    cases hafter
    exact bounded_of_limit nofun nofun (hbefore _ rfl).limit
  | recovered _ ha =>
    cases hafter
    exact bounded_afterAttempt (hbefore _ rfl) ha rfl

/-- How a row comes to wait or to be dead. -/
theorem fate_ended (h : Fate b k op r (some row) (some row')) (hne : row'.status ≠ row.status) :
    (row'.status = .retryWait → row'.attemptCount < b.policy.maxAttempts ∧
      ∃ now d, op.now = some now ∧ row'.availableAt = now + seconds d ∧
        retryDelay b.policy row'.attemptCount = .ok d) ∧
    (row'.status = .deadLetter → b.policy.maxAttempts ≤ row'.attemptCount) := by
  have hended {now : Instant} {target : JobStatus} {n delay : ℕ}
      (ha : afterAttempt b.policy n = .ok (target, delay)) :
      (target = .retryWait → n < b.policy.maxAttempts ∧
        ∃ now' d, some now = some now' ∧ now + seconds delay = now' + seconds d ∧
          retryDelay b.policy n = .ok d) ∧
      (target = .deadLetter → b.policy.maxAttempts ≤ n) := by
    rcases afterAttempt_cases ha with ⟨rfl, hless, hdelay⟩ | ⟨rfl, hreached⟩
    · exact ⟨fun _ => ⟨hless, now, delay, rfl, rfl, hdelay⟩, nofun⟩
    · exact ⟨nofun, fun _ => hreached⟩
  cases h with
  | kept | extended => exact absurd rfl hne
  | requeued | claimed | cancelled => exact ⟨nofun, nofun⟩
  | @completed _ _ _ isPartial => cases isPartial <;> exact ⟨nofun, nofun⟩
  | @failed _ _ _ _ _ now _ _ _ _ _ hf =>
    rcases failureStatus_cases hf with ha | rfl
    · exact hended ha
    · exact ⟨nofun, nofun⟩
  | recovered _ ha => exact hended ha

end Step

/-! ## Runs -/

variable (b : JobBackend)

/-- A transition that claims a job. -/
def claimsJob (k : JobKey) (x : Transition JobDatabase JobOp) : Bool :=
  match perform b x.before x.label with
  | .ok (r, _) => decide (ClaimsJob k r)
  | .error _ => false

/-- A transition that requeues a job. -/
def Requeues (k : JobKey) (x : Transition JobDatabase JobOp) : Prop :=
  Succeeds b x ∧ ∃ tenant jobId correlationId now,
    x.label = .requeue tenant jobId correlationId now ∧ (tenant.tenantId, jobId) = k

/-- A transition after which a job waits for another attempt, with the delay of the job. -/
def Delays (k : JobKey) (x : Transition JobDatabase JobOp) (d : ℕ) : Prop :=
  ∃ row row' now, lookup JobRow.key k x.before.jobs = some row ∧
    lookup JobRow.key k x.after.jobs = some row' ∧ row.status ≠ .retryWait ∧
    row'.status = .retryWait ∧ x.label.now = some now ∧ row'.availableAt = now + seconds d

/-- The attempts counted for a job. -/
def attempts (db : JobDatabase) (k : JobKey) : ℕ :=
  ((lookup JobRow.key k db.jobs).map JobRow.attemptCount).getD 0

structure AttemptsSound (db : JobDatabase) : Prop where
  rows : RowsSound db.jobs
  bounded : ∀ row ∈ db.jobs, Bounded b.policy row

variable {b} {db db₀ db' : JobDatabase} {k : JobKey} {x y : Transition JobDatabase JobOp}
  {tr : JobTrace}

theorem AttemptsSound.found (h : AttemptsSound b db) {row : JobRow}
    (hl : lookup JobRow.key k db.jobs = some row) : Bounded b.policy row :=
  h.bounded row (mem_of_lookup hl)

/-- What a transition does to the row of each key. -/
theorem step_fate (hkeyed : Keyed JobRow.key x.before.jobs)
    (hstep : JobStep b x.before x.label x.after) :
    (lookup JobRow.key k x.after.jobs = lookup JobRow.key k x.before.jobs ∧
      claimsJob b k x = false) ∨
    ∃ r, perform b x.before x.label = .ok (r, x.after) ∧
      Fate b k x.label r (lookup JobRow.key k x.before.jobs)
        (lookup JobRow.key k x.after.jobs) := by
  obtain ⟨before, op, after⟩ := x
  have hafter : after = next b before op := hstep
  subst hafter
  dsimp only
  cases hp : perform b before op with
  | error e =>
    refine .inl ⟨?_, ?_⟩
    · simp only [next, hp]
    · simp only [claimsJob, hp]
  | ok p =>
    obtain ⟨r, db⟩ := p
    have hnext : next b before op = db := by simp only [next, hp]
    rw [hnext]
    exact .inr ⟨r, rfl, perform_fate hkeyed hp⟩

theorem AttemptsSound.step (h : AttemptsSound b x.before) (hop : Fresh x.label)
    (hstep : JobStep b x.before x.label x.after) : AttemptsSound b x.after := by
  have hrows : RowsSound x.after.jobs := by
    rw [hstep]
    exact (next_keeps b h.rows x.label).sound
  refine ⟨hrows, fun row hrow => ?_⟩
  have hl : lookup JobRow.key row.key x.after.jobs = some row :=
    hrows.keyed.lookup_eq_some.mpr ⟨hrow, rfl⟩
  rcases step_fate h.rows.keyed hstep with ⟨hsame, -⟩ | ⟨r, -, hfate⟩
  · exact h.found (hsame.symm.trans hl)
  · exact bounded_fate hop hfate (fun _ => h.found) hl

/-- A claim adds one to the attempts of its job; without a requeue nothing takes any away. -/
theorem attempts_step (h : AttemptsSound b x.before) (hop : Fresh x.label)
    (hstep : JobStep b x.before x.label x.after) (hrequeue : ¬ Requeues b k x) :
    attempts x.after k = attempts x.before k + if claimsJob b k x then 1 else 0 := by
  unfold attempts
  rcases step_fate (k := k) h.rows.keyed hstep with ⟨hsame, hclaims⟩ | ⟨r, hp, hfate⟩
  · rw [hsame, hclaims]
    rfl
  · have hclaims : claimsJob b k x = decide (ClaimsJob k r) := by simp only [claimsJob, hp]
    rw [hclaims]
    generalize lookup JobRow.key k x.before.jobs = before at hfate
    generalize lookup JobRow.key k x.after.jobs = after at hfate
    generalize hlabel : x.label = op at hfate
    cases hfate with
    | kept hr => simp only [hr, decide_false, Bool.false_eq_true, if_false, Nat.add_zero]
    | queued hr hsubmits =>
      have hzero := hop _ _ (hlabel ▸ hsubmits)
      simp only [hr, decide_false, Bool.false_eq_true, if_false, Option.map_some,
        Option.getD_some, Option.map_none, Option.getD_none, Nat.add_zero]
      exact hzero
    | requeued hk => exact absurd ⟨⟨_, hp⟩, _, _, _, _, hlabel, hk⟩ hrequeue
    | claimed hk => simp only [ClaimsJob, hk, decide_true, if_true, Option.map_some,
        Option.getD_some]
    | extended | completed | failed | cancelled | recovered => rfl

/-- The attempts counted in a run without a requeue. -/
theorem attempts_run (hr : Run (JobStep b) db₀ tr db) (h : AttemptsSound b db₀)
    (hfresh : ∀ x ∈ tr, Fresh x.label) (hrequeue : ∀ x ∈ tr, ¬ Requeues b k x) :
    AttemptsSound b db ∧ attempts db k = attempts db₀ k + tr.countP (claimsJob b k) := by
  induction hr with
  | nil => exact ⟨h, rfl⟩
  | @snoc tr t u op hr hstep ih =>
    obtain ⟨ht, hcount⟩ := ih (fun x hx => hfresh x (List.mem_append_left _ hx))
      fun x hx => hrequeue x (List.mem_append_left _ hx)
    have hlast : (⟨t, op, u⟩ : Transition JobDatabase JobOp) ∈ tr ++ [⟨t, op, u⟩] :=
      List.mem_append_right _ (List.mem_singleton_self _)
    have hone := attempts_step (x := ⟨t, op, u⟩) ht (hfresh _ hlast) hstep (hrequeue _ hlast)
    refine ⟨AttemptsSound.step (x := ⟨t, op, u⟩) ht (hfresh _ hlast) hstep, ?_⟩
    rw [hone, hcount, List.countP_append, List.countP_singleton, Nat.add_assoc]

/-- The delay of a job that comes to wait is that of its count of attempts. -/
theorem delays_step (h : AttemptsSound b x.before) (hstep : JobStep b x.before x.label x.after)
    {d : ℕ} (hd : Delays k x d) : retryDelay b.policy (attempts x.after k) = .ok d := by
  obtain ⟨row, row', now, hrow, hrow', hbefore, hafter, hnow, havailable⟩ := hd
  have hne : row'.status ≠ row.status := by
    rw [hafter]
    exact hbefore.symm
  have hcount : attempts x.after k = row'.attemptCount := by
    rw [attempts, hrow']
    rfl
  rw [hcount]
  rcases step_fate (k := k) h.rows.keyed hstep with ⟨hsame, -⟩ | ⟨r, -, hfate⟩
  · rw [hrow', hrow] at hsame
    cases hsame
    exact absurd rfl hne
  · rw [hrow, hrow'] at hfate
    obtain ⟨-, now', d', hnow', havailable', hdelay⟩ := (fate_ended hfate hne).1 hafter
    rw [hnow] at hnow'
    cases hnow'
    have hsame : seconds d = seconds d' := Int.add_left_cancel (havailable.symm.trans havailable')
    rwa [← seconds_inj hsame] at hdelay

/-- A call after which a job waits requeues none. -/
theorem delays_requeue (h : AttemptsSound b x.before) (hstep : JobStep b x.before x.label x.after)
    {d : ℕ} (hd : Delays k x d) : ¬ Requeues b k x := by
  rintro ⟨-, tenant, jobId, correlationId, now, hlabel, -⟩
  obtain ⟨row, row', -, hrow, hrow', hbefore, hafter, -⟩ := hd
  have hne : row'.status ≠ row.status := by
    rw [hafter]
    exact hbefore.symm
  rcases step_fate (k := k) h.rows.keyed hstep with ⟨hsame, -⟩ | ⟨r, -, hfate⟩
  · rw [hrow', hrow] at hsame
    cases hsame
    exact hne rfl
  · rw [hrow, hrow', hlabel] at hfate
    cases hfate with
    | kept => exact hne rfl
    | requeued => cases hafter

theorem attemptsSound_nil (hempty : db.jobs = []) : AttemptsSound b db := by
  constructor
  · rw [hempty]
    exact rowsSound_nil
  · intro row hrow
    rw [hempty] at hrow
    exact absurd hrow List.not_mem_nil

theorem attempts_le (h : AttemptsSound b db) : attempts db k ≤ b.policy.maxAttempts := by
  unfold attempts
  cases hl : lookup JobRow.key k db.jobs with
  | none => exact Nat.zero_le _
  | some row => exact (h.found hl).limit

theorem attemptsSound_run (hr : Run (JobStep b) db₀ tr db) (h : AttemptsSound b db₀)
    (hfresh : ∀ x ∈ tr, Fresh x.label) : AttemptsSound b db :=
  hr.invariant_of_steps (fun y => Fresh y.label) (fun _ db => AttemptsSound b db) h
    (fun _ t op u _ ht hstep hop => AttemptsSound.step (x := ⟨t, op, u⟩) ht hop hstep) hfresh

/-- A transition of a run from a sound store is a step between sound stores. -/
theorem attemptsSound_split {pre post : JobTrace} (hr : Run (JobStep b) db₀ (pre ++ x :: post) db)
    (h : AttemptsSound b db₀) (hfresh : ∀ y ∈ pre ++ x :: post, Fresh y.label) :
    AttemptsSound b x.before ∧ JobStep b x.before x.label x.after ∧ AttemptsSound b x.after ∧
      Run (JobStep b) x.after post db := by
  obtain ⟨hpre, hstep, hpost⟩ := hr.split
  have hbefore := attemptsSound_run hpre h fun y hy => hfresh y (List.mem_append_left _ hy)
  have hx := hfresh x (List.mem_append_right _ List.mem_cons_self)
  exact ⟨hbefore, hstep, hbefore.step hx hstep, hpost⟩

/-- Without a requeue in between, a job is claimed as often as the limit at most. -/
theorem claims_between {pre mid post : JobTrace}
    (hr : Run (JobStep b) db₀ (pre ++ mid ++ post) db) (h : AttemptsSound b db₀)
    (hfresh : ∀ x ∈ pre ++ mid ++ post, Fresh x.label) (hrequeue : ∀ x ∈ mid, ¬ Requeues b k x) :
    mid.countP (claimsJob b k) ≤ b.policy.maxAttempts := by
  obtain ⟨v, hmid, -⟩ := hr.exists_split
  obtain ⟨u, hpre, hmid⟩ := hmid.exists_split
  have hu := attemptsSound_run hpre h fun x hx =>
    hfresh x (List.mem_append_left _ (List.mem_append_left _ hx))
  obtain ⟨hv, hcount⟩ := attempts_run hmid hu
    (fun x hx => hfresh x (List.mem_append_left _ (List.mem_append_right _ hx))) hrequeue
  have hle : attempts v k ≤ b.policy.maxAttempts := attempts_le hv
  omega

/-- Without a requeue in between, a job waits no shorter than before. -/
theorem delays_between {pre mid post : JobTrace} {d e : ℕ}
    (hr : Run (JobStep b) db₀ (pre ++ x :: (mid ++ y :: post)) db) (h : AttemptsSound b db₀)
    (hfresh : ∀ z ∈ pre ++ x :: (mid ++ y :: post), Fresh z.label)
    (hrequeue : ∀ z ∈ mid, ¬ Requeues b k z) (hd : Delays k x d) (he : Delays k y e) : d ≤ e := by
  obtain ⟨hx, hxstep, hx', hrest⟩ := attemptsSound_split hr h hfresh
  have hrestFresh : ∀ z ∈ mid ++ y :: post, Fresh z.label := fun z hz =>
    hfresh z (List.mem_append_right _ (List.mem_cons_of_mem _ hz))
  obtain ⟨hmid, hystep, -⟩ := hrest.split
  obtain ⟨hy, hcount⟩ := attempts_run hmid hx'
    (fun z hz => hrestFresh z (List.mem_append_left _ hz)) hrequeue
  have hlast := attempts_step hy (hrestFresh y (List.mem_append_right _ List.mem_cons_self)) hystep
    (delays_requeue hy hystep he)
  refine retryDelay_mono (delays_step hx hxstep hd) (delays_step hy hystep he) ?_
  omega

/-- In every run of the job store under one policy, the attempts at a job stay within the limit:
those counted, and the claims between two requeues. A job waits for another attempt only below
the limit, and is dead only at it; its delay is within the bounds of the policy and grows with
the attempts. -/
theorem attempts_bounded (b : JobBackend) (db : JobDatabase) (ops : List JobOp)
    (hfresh : ∀ op ∈ ops, Fresh op) :
    let tr := execute (next b) { db with jobs := [] } ops
    (∀ x ∈ tr, ∀ row ∈ x.after.jobs, row.attemptCount ≤ b.policy.maxAttempts) ∧
    (∀ k pre mid post, tr = pre ++ mid ++ post → (∀ x ∈ mid, ¬ Requeues b k x) →
      mid.countP (claimsJob b k) ≤ b.policy.maxAttempts) ∧
    (∀ x ∈ tr, ∀ k row row', lookup JobRow.key k x.before.jobs = some row →
      lookup JobRow.key k x.after.jobs = some row' → row'.status ≠ row.status →
      (row'.status = .retryWait → row'.attemptCount < b.policy.maxAttempts ∧
        ∃ d, Delays k x d) ∧
      (row'.status = .deadLetter → row'.attemptCount = b.policy.maxAttempts)) ∧
    (∀ x ∈ tr, ∀ k d, Delays k x d →
      b.policy.baseBackoffSeconds ≤ d ∧ d ≤ b.policy.maximumBackoffSeconds) ∧
    (∀ k pre x mid y post d e, tr = pre ++ x :: mid ++ y :: post →
      (∀ z ∈ mid, ¬ Requeues b k z) → Delays k x d → Delays k y e → d ≤ e) ∧
    ∀ x ∈ tr, ∀ y ∈ tr, ∀ k k' d e, Delays k x d → Delays k' y e →
      attempts x.after k ≤ attempts y.after k' → d ≤ e := by
  intro tr
  have hr : Run (JobStep b) { db with jobs := [] } tr
      (ops.foldl (next b) { db with jobs := [] }) :=
    run_execute (JobStep b) (next b) (fun _ _ => rfl) _ _
  have hfreshly : ∀ x ∈ tr, Fresh x.label := fun x hx => hfresh _ (label_of_mem_execute hx)
  have hempty : AttemptsSound b { db with jobs := [] } := attemptsSound_nil rfl
  have hwithin (x : Transition JobDatabase JobOp) (hx : x ∈ tr) : AttemptsSound b x.before ∧
      JobStep b x.before x.label x.after ∧ AttemptsSound b x.after := by
    obtain ⟨pre, post, htr⟩ := List.append_of_mem hx
    obtain ⟨hbefore, hstep, hafter, -⟩ := attemptsSound_split (htr ▸ hr) hempty (htr ▸ hfreshly)
    exact ⟨hbefore, hstep, hafter⟩
  refine ⟨fun x hx row hrow => ?_, fun k pre mid post htr hrequeue => ?_,
    fun x hx k row row' hrow hrow' hne => ?_, fun x hx k d hd => ?_,
    fun k pre x mid y post d e htr hrequeue hd he => ?_, fun x hx y hy k k' d e hd he hle => ?_⟩
  · exact ((hwithin x hx).2.2.bounded row hrow).limit
  · exact claims_between (htr ▸ hr) hempty (htr ▸ hfreshly) hrequeue
  · obtain ⟨hbefore, hstep, hafter⟩ := hwithin x hx
    have hlimit := (hafter.found hrow').limit
    rcases step_fate (k := k) hbefore.rows.keyed hstep with ⟨hsame, -⟩ | ⟨r, -, hfate⟩
    · rw [hrow', hrow] at hsame
      cases hsame
      exact absurd rfl hne
    · rw [hrow, hrow'] at hfate
      obtain ⟨hwait, hdead⟩ := fate_ended hfate hne
      refine ⟨fun hstatus => ?_, fun hstatus => ?_⟩
      · obtain ⟨hless, now, d, hnow, havailable, -⟩ := hwait hstatus
        refine ⟨hless, d, row, row', now, hrow, hrow', ?_, hstatus, hnow, havailable⟩
        rw [← hstatus]
        exact hne.symm
      · have hreached := hdead hstatus
        omega
  · obtain ⟨hbefore, hstep, -⟩ := hwithin x hx
    exact retryDelay_bounds (delays_step hbefore hstep hd)
  · rw [List.append_assoc, List.cons_append] at htr
    exact delays_between (htr ▸ hr) hempty (htr ▸ hfreshly) hrequeue hd he
  · obtain ⟨hbefore, hstep, -⟩ := hwithin x hx
    obtain ⟨hbefore', hstep', -⟩ := hwithin y hy
    exact retryDelay_mono (delays_step hbefore hstep hd) (delays_step hbefore' hstep' he) hle

/-- The submitted job, claimed and failed. -/
def pilotFailure : List JobOp :=
  [.submit pilotTenant pilotRun pilotJob, .claim "worker-1" firstToken [] 0,
    .fail pilotTenant "job-1" firstToken "PROVIDER_UNAVAILABLE" true (seconds 1)]

theorem pilotFailure_fresh : ∀ op ∈ pilotFailure, Fresh op := by
  intro op hop tenant job hsubmits
  simp only [pilotFailure, List.mem_cons, List.not_mem_nil, or_false] at hop
  rcases hop with rfl | rfl | rfl
  · cases hsubmits
    rfl
  · cases hsubmits
  · cases hsubmits

theorem attempts_bounded_pilotFailure :
    (execute (next plainBackend) { emptyJobs with jobs := [] } pilotFailure).map
      (fun x => x.after.jobs.map fun r => (r.status, r.attemptCount, r.availableAt)) =
      [[(.queued, 0, 0)], [(.running, 1, 0)], [(.retryWait, 1, seconds 6)]] ∧
    ∀ x ∈ execute (next plainBackend) { emptyJobs with jobs := [] } pilotFailure,
      ∀ row ∈ x.after.jobs, row.attemptCount ≤ plainBackend.policy.maxAttempts := by
  refine ⟨?_, (attempts_bounded plainBackend emptyJobs pilotFailure pilotFailure_fresh).1⟩
  rfl

end DecisionAssurance.Jobs
