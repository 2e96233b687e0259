import DecisionAssurance.StoreServer

/-!
# The run of a job

A worker hands the request of a created run to `execute`, which proposes it anew, without a
refresh generation, and takes the run that the store finds for the proposal: one of the same
fingerprint, or else the first that the proposal repeats.
-/

namespace DecisionAssurance.Research

open Interactions Interaction Tables PostgresResearchRepository
open Jobs (JobDatabase JobBackend RunRow ResearchJob Instant)

variable {b : JobBackend} {order : ScanOrder} {db db₁ db' : JobDatabase} {lib : ResearchLibrary}
  {o : ResearchOrchestrator} {p q : Program ResearchRun} {tenant : TenantContext}
  {run run₀ base : ResearchRun} {row : RunRow} {t t₀ : ResearchLog} {x : ResearchEvent}
  {job : ResearchJob} {fingerprint : String}

/-! ## The row that a store finds -/

/-- The row that `create_or_get` finds for the request of a run. -/
def foundRow (db : JobDatabase) (scan : List RunRow) (tenant : TenantContext)
    (fingerprint : String) (run : ResearchRun) : Option RunRow :=
  (lookup RunRow.fingerprintKey (tenant.tenantId, fingerprint) db.runs).or
    (priorRow tenant scan run)

/-- The proposal of a worker for a run. -/
def reproposed (lib : ResearchLibrary) (tenant : TenantContext) (run : ResearchRun)
    (fingerprint correlationId : String) (now : Instant) : ResearchRun :=
  proposedRun lib tenant.tenantId run.actorId run.request run.expectedDocumentHash fingerprint
    correlationId (lib.isoformat now)

theorem createOrGet_foundRow {scan : List RunRow} {correlationId : String} {now : Instant}
    (h : foundRow db scan tenant fingerprint run = some row) :
    createOrGet db tenant scan (reproposed lib tenant run fingerprint correlationId now) =
      .ok (row.run, db) := by
  have htenant : ¬ tenant.tenantId ≠
      (reproposed lib tenant run fingerprint correlationId now).tenantId := fun hne => hne rfl
  have hprior : priorRow tenant scan (reproposed lib tenant run fingerprint correlationId now) =
      priorRow tenant scan run := rfl
  have hown : (reproposed lib tenant run fingerprint correlationId now).semanticFingerprint =
      fingerprint := rfl
  unfold foundRow at h
  unfold createOrGet
  rw [if_neg htenant, hprior, hown]
  cases hfp : lookup RunRow.fingerprintKey (tenant.tenantId, fingerprint) db.runs with
  | some other =>
    rw [hfp, Option.some_or] at h
    cases h
    rfl
  | none =>
    rw [hfp, Option.none_or] at h
    rw [h]

/-- The request of a stored run has a row. -/
theorem foundRow_isSome {scan : List RunRow} (hdb : RunTable lib db) (hrow : row ∈ db.runs)
    (hscan : scan.Perm db.runs) (htenant : row.tenantId = tenant.tenantId) :
    ∃ other ∈ db.runs, foundRow db scan tenant fingerprint row.run = some other := by
  unfold foundRow
  cases hfp : lookup RunRow.fingerprintKey (tenant.tenantId, fingerprint) db.runs with
  | some other => exact ⟨other, mem_of_lookup hfp, rfl⟩
  | none =>
    rw [Option.none_or]
    cases hprior : priorRow tenant scan row.run with
    | some other =>
      refine ⟨other, hscan.subset ?_, rfl⟩
      exact List.mem_of_mem_filter (List.mem_of_find?_eq_some hprior)
    | none =>
      have hmem : row ∈ scan.filter fun r => r.tenantId = tenant.tenantId &&
          r.decisionFileId = row.run.request.decisionFileId := by
        refine List.mem_filter.mpr ⟨hscan.symm.subset hrow, ?_⟩
        rw [htenant, (hdb.columns row hrow).2, decide_eq_true rfl, decide_eq_true rfl]
        rfl
      have idle_nil := List.find?_eq_none.mp hprior row hmem
      rw [repeats, decide_eq_true rfl, decide_eq_true rfl] at idle_nil
      exact absurd rfl idle_nil

/-- A row is found for its run, whatever the order of the scan. -/
def Matches (db : JobDatabase) (row : RunRow) (fingerprint : String) : Prop :=
  match lookup RunRow.fingerprintKey (row.tenantId, fingerprint) db.runs with
  | some other => other = row
  | none => ∀ other ∈ db.runs, other.tenantId = row.tenantId → repeats other.run row.run →
      other = row

theorem Matches.found {scan : List RunRow} (h : Matches db row fingerprint)
    (hdb : RunTable lib db) (hrow : row ∈ db.runs) (hscan : scan.Perm db.runs)
    (htenant : row.tenantId = tenant.tenantId) :
    foundRow db scan tenant fingerprint row.run = some row := by
  obtain ⟨other, hother, hfound⟩ : ∃ other ∈ db.runs,
      foundRow db scan tenant fingerprint row.run = some other :=
    foundRow_isSome hdb hrow hscan htenant
  rw [hfound]
  unfold foundRow at hfound
  unfold Matches at h
  rw [htenant] at h
  cases hfp : lookup RunRow.fingerprintKey (tenant.tenantId, fingerprint) db.runs with
  | some first =>
    rw [hfp, Option.some_or] at hfound
    simp only [hfp] at h
    rw [← Option.some.inj hfound, h]
  | none =>
    rw [hfp, Option.none_or] at hfound
    simp only [hfp] at h
    have hmem := List.mem_filter.mp (List.mem_of_find?_eq_some hfound)
    rw [Bool.and_eq_true] at hmem
    have hrepeats : repeats other.run row.run = true :=
      List.find?_some (p := fun r : RunRow => repeats r.run row.run) hfound
    exact congrArg some (h other hother (of_decide_eq_true hmem.2.1) hrepeats)

/-- The order of a scan that returns a row first. -/
def PostgresResearchRepository.ScanOrder.first (row : RunRow) : ScanOrder where
  scan rows := if row ∈ rows then row :: rows.erase row else rows
  perm rows := by
    split_ifs with h
    · exact (List.perm_cons_erase h).symm
    · exact List.Perm.refl rows

/-- Where another row could be found for a run, some order of the scan finds one. -/
theorem exists_foundRow (hdb : RunTable lib db) (htenant : row.tenantId = tenant.tenantId)
    (h : ¬ Matches db row fingerprint) :
    ∃ (order : ScanOrder) (other : RunRow), other ∈ db.runs ∧ other ≠ row ∧
      foundRow db (order.scan db.runs) tenant fingerprint row.run = some other := by
  unfold Matches at h
  rw [htenant] at h
  unfold foundRow
  cases hfp : lookup RunRow.fingerprintKey (tenant.tenantId, fingerprint) db.runs with
  | some other =>
    simp only [hfp] at h
    exact ⟨.first row, other, mem_of_lookup hfp, h, rfl⟩
  | none =>
    simp only [hfp] at h
    simp only [not_forall, exists_prop] at h
    obtain ⟨other, hother, hothers, hrepeats, hne⟩ := h
    refine ⟨.first other, other, hother, hne, ?_⟩
    have hrequest : other.run.request = row.run.request := by
      rw [repeats, Bool.and_eq_true, decide_eq_true_eq] at hrepeats
      exact hrepeats.1
    have hfile : other.decisionFileId = row.run.request.decisionFileId := by
      rw [← hrequest, (hdb.columns other hother).2]
    rw [Option.none_or, priorRow, ScanOrder.first]
    dsimp only
    have hkept : (decide (other.tenantId = tenant.tenantId) &&
        decide (other.decisionFileId = row.run.request.decisionFileId)) = true := by
      rw [hothers, hfile, decide_eq_true rfl, decide_eq_true rfl]
      rfl
    simp only [if_pos hother, List.filter_cons, hkept, if_true, List.find?_cons, hrepeats]

/-! ## The log of a processor -/

/-- Events that show nothing of the store. -/
def Idle (x : ResearchEvent) : Prop := x.1 = .cancelled ∨ x.1 = .clock

theorem idle_nil : ∀ y ∈ ([] : ResearchLog), Idle y := fun _ hy => absurd hy List.not_mem_nil

theorem idle_cons (hx : Idle x) (ht : ∀ y ∈ t, Idle y) : ∀ y ∈ x :: t, Idle y :=
  List.forall_mem_cons.mpr ⟨hx, ht⟩

namespace ResearchOrchestrator

theorem processed_eq (htenant : tenantContext job.tenantId = .ok tenant) :
    o.processed job = (perform (.getRun tenant job.researchRunId) >>= fun found =>
      lift (do
        let run ← found
        orRaise (.other "RESEARCH_RUN_NOT_FOUND") run) >>= fun run =>
          o.resume tenant run job.correlationId) := by
  unfold processed
  rw [htenant]
  rfl

/-- A processor under way: the run of the job is read, then the operation on it is under way. -/
theorem processed_follows_cases {q : Program (Option ResearchRun)}
    (htenant : tenantContext job.tenantId = .ok tenant) (h : (o.processed job).Follows t q) :
    t = [] ∧ (∀ v, q ≠ .done v) ∨
    ∃ found t', t = ⟨.getRun tenant job.researchRunId, found⟩ :: t' ∧
      ((∀ run, found ≠ .ok (some run)) ∧ t' = [] ∧ (∃ e, q = .done (.error e)) ∨
        ∃ run, found = .ok (some run) ∧ (o.resume tenant run job.correlationId).Follows t' q) := by
  rw [processed_eq htenant] at h
  rcases follows_ask_bind_cases h with ⟨ht, hq⟩ | ⟨found, t', ht, hrest⟩
  · exact .inl ⟨ht, hq⟩
  · refine .inr ⟨found, t', ht, ?_⟩
    rcases found with e | _ | run
    · change (done (.error e) : Program (Option ResearchRun)).Follows t' q at hrest
      obtain ⟨ht', hq⟩ := follows_done_cases hrest
      exact .inl ⟨fun _ h => (nomatch h), ht', _, hq⟩
    · change (done (.error (.other "RESEARCH_RUN_NOT_FOUND")) :
        Program (Option ResearchRun)).Follows t' q at hrest
      obtain ⟨ht', hq⟩ := follows_done_cases hrest
      exact .inl ⟨fun _ h => (nomatch h), ht', _, hq⟩
    · exact .inr ⟨run, rfl, hrest⟩

theorem resume_follows_cases {q : Program (Option ResearchRun)} {correlationId : String}
    (h : (o.resume tenant run correlationId).Follows t q) :
    t = [] ∧ (∀ v, q ≠ .done v) ∨ t = [⟨.cancelled, true⟩] ∧ q = .done (.ok none) ∨
    ∃ t' p', t = ⟨.cancelled, false⟩ :: t' ∧ (o.operation tenant run correlationId).Follows t' p' ∧
      q = (p'.attempt >>= fun result => lift (unlessCancelled result)) := by
  rcases follows_ask_bind_cases h with ⟨ht, hq⟩ | ⟨stop, t', ht, hrest⟩
  · exact .inl ⟨ht, hq⟩
  · cases stop with
    | true =>
      obtain ⟨rfl, hq⟩ := follows_done_cases hrest
      exact .inr (.inl ⟨ht, hq⟩)
    | false =>
      obtain ⟨p', hp', hq⟩ := follows_attempt_lift_cases hrest
      exact .inr (.inr ⟨t', p', ht, hp', hq⟩)

/-- What an operation has returned where its worker has a run. -/
theorem unlessCancelled_some {p' : Program ResearchRun}
    (h : (p'.attempt >>= fun result => lift (unlessCancelled result)) =
      (.done (.ok (some run)) : Program (Option ResearchRun))) : p' = .done (.ok run) := by
  cases p' with
  | call c k => cases h
  | done r =>
    rcases r with e | result
    · cases e <;> cases h
    · cases h
      rfl

theorem prepare_eq {correlationId : String} (hfingerprint : proposedFingerprint o.pf o.lib o.policy
      tenant.tenantId run.request run.expectedDocumentHash none = .ok fingerprint) :
    o.prepare tenant run.actorId run.request run.expectedDocumentHash correlationId none =
      (perform .clock >>= fun now => perform (.createOrGet tenant
        (reproposed o.lib tenant run fingerprint correlationId now)) >>= fun stored =>
          lift stored) := by
  unfold prepare propose
  rw [hfingerprint]
  rfl

/-- A preparation under way is idle, or the store has answered its proposal. -/
theorem prepare_follows_cases {correlationId : String}
    (h : (o.prepare tenant run.actorId run.request run.expectedDocumentHash correlationId
      none).Follows t q) :
    (∀ x ∈ t, Idle x) ∧ (∀ result, q ≠ .done (.ok result)) ∨
    ∃ fingerprint now answer, proposedFingerprint o.pf o.lib o.policy tenant.tenantId
        run.request run.expectedDocumentHash none = .ok fingerprint ∧
      t = [⟨.clock, now⟩, ⟨.createOrGet tenant
        (reproposed o.lib tenant run fingerprint correlationId now), answer⟩] ∧
      q = .done answer := by
  cases hfingerprint : proposedFingerprint o.pf o.lib o.policy tenant.tenantId run.request
    run.expectedDocumentHash none with
  | error e =>
    have hprepare : o.prepare tenant run.actorId run.request run.expectedDocumentHash
        correlationId none = .done (.error e) := by
      unfold prepare propose
      rw [hfingerprint]
      rfl
    rw [hprepare] at h
    obtain ⟨rfl, rfl⟩ := follows_done_cases h
    exact .inl ⟨idle_nil, fun _ h => nomatch h⟩
  | ok fingerprint =>
    rw [prepare_eq hfingerprint] at h
    rcases follows_ask_bind_cases h with ⟨ht, hq⟩ | ⟨now, t', ht, hrest⟩
    · exact .inl ⟨ht ▸ idle_nil, fun v => hq (.ok v)⟩
    · rcases follows_ask_bind_cases hrest with ⟨rfl, hq⟩ | ⟨answer, t'', rfl, hdone⟩
      · refine .inl ⟨ht ▸ idle_cons (.inr rfl) idle_nil, fun v => hq (.ok v)⟩
      · obtain ⟨rfl, hq⟩ := follows_done_cases hdone
        exact .inr ⟨fingerprint, now, answer, rfl, ht, hq⟩

/-- An execution under way is idle, or the store has answered its proposal. -/
theorem execute_follows_cases {correlationId : String}
    (h : (o.execute tenant run.actorId run.request run.expectedDocumentHash correlationId
      none).Follows t q) :
    (∀ x ∈ t, Idle x) ∧ (∀ result, q ≠ .done (.ok result)) ∨
    ∃ fingerprint now answer t', proposedFingerprint o.pf o.lib o.policy tenant.tenantId
        run.request run.expectedDocumentHash none = .ok fingerprint ∧
      t = [⟨.cancelled, false⟩, ⟨.clock, now⟩, ⟨.createOrGet tenant
        (reproposed o.lib tenant run fingerprint correlationId now), answer⟩] ++ t' ∧
      ∀ e, answer = .error e → t' = [] ∧ q = .done (.error e) := by
  rcases follows_ask_bind_cases h with ⟨ht, hq⟩ | ⟨stop, t₁, ht, hrest⟩
  · exact .inl ⟨ht ▸ idle_nil, fun v => hq (.ok v)⟩
  · cases stop with
    | true =>
      obtain ⟨rfl, hq⟩ := follows_done_cases hrest
      exact .inl ⟨ht ▸ idle_cons (.inl rfl) idle_nil, fun v hv => nomatch hq.symm.trans hv⟩
    | false =>
      change (o.prepare tenant run.actorId run.request run.expectedDocumentHash correlationId
        none >>= _).Follows t₁ q at hrest
      rcases follows_bind_cases hrest with ⟨p', hp', hq⟩ | ⟨t₂, t₃, stored, ht₁, hprepare, hrun⟩
      · rcases prepare_follows_cases hp' with ⟨hidle, hdone⟩ |
          ⟨fingerprint, now, answer, hfingerprint, ht₁, rfl⟩
        · refine .inl ⟨ht ▸ idle_cons (.inl rfl) hidle, fun v hv => ?_⟩
          cases p' with
          | call c k => cases hq.symm.trans hv
          | done r =>
            rcases r with e | result
            · cases hq.symm.trans hv
            · exact hdone result rfl
        · refine .inr ⟨fingerprint, now, answer, [], hfingerprint, by rw [ht, ht₁]; rfl, ?_⟩
          rintro e rfl
          exact ⟨rfl, hq⟩
      · rcases prepare_follows_cases hprepare with ⟨-, hdone⟩ |
          ⟨fingerprint, now, answer, hfingerprint, ht₂, hanswer⟩
        · exact absurd rfl (hdone stored)
        · cases hanswer
          refine .inr ⟨fingerprint, now, .ok stored, t₃, hfingerprint, ?_, fun _ h => nomatch h⟩
          rw [ht, ht₁, ht₂]
          rfl

end ResearchOrchestrator

/-! ## The run of the job -/

theorem Idle.unseen (hx : Idle x) : seenIn x = none := by
  obtain ⟨c, a⟩ := x
  rcases hx with h | h <;> cases h <;> rfl

theorem Idle.unasked (hx : Idle x) (tenant : TenantContext) (run : ResearchRun)
    (answer : Raises ResearchRun) : x ≠ ⟨.createOrGet tenant run, answer⟩ := by
  rintro rfl
  rcases hx with h | h <;> cases h

/-- A log that shows the run of a key only, and a store with the keys it had. -/
structure KeepsTo (k : String × String) (db : JobDatabase) (t : ResearchLog) (db' : JobDatabase) :
    Prop where
  own : ∀ x ∈ t, ∀ run, seenIn x = some run → run.key = k
  keys : db'.runs.map RunRow.key = db.runs.map RunRow.key

theorem KeepsTo.append {k : String × String} {t' : ResearchLog} (h : KeepsTo k db t db₁)
    (h' : KeepsTo k db₁ t' db') : KeepsTo k db (t ++ t') db' := by
  refine ⟨fun x hx => ?_, h'.keys.trans h.keys⟩
  rcases List.mem_append.mp hx with hx | hx
  · exact h.own x hx
  · exact h'.own x hx

theorem keeps_nil {k : String × String} : KeepsTo k db [] db :=
  ⟨fun _ hx => absurd hx List.not_mem_nil, rfl⟩

theorem keeps_of_served {k : String × String} (h : Served (Answers b order) db t db')
    (ht : ∀ x ∈ t, (∀ run, seenIn x = some run → run.key = k) ∧
      ∀ tenant run answer, x ≠ ⟨.createOrGet tenant run, answer⟩) : KeepsTo k db t db' :=
  ⟨fun x hx => (ht x hx).1, served_keys h fun x hx => (ht x hx).2⟩

theorem keeps_of_idle {k : String × String} (h : Served (Answers b order) db t db')
    (ht : ∀ x ∈ t, Idle x) : KeepsTo k db t db' :=
  keeps_of_served h fun x hx =>
    ⟨fun _ hrun => (nomatch (ht x hx).unseen.symm.trans hrun), (ht x hx).unasked⟩

theorem idle_runs (h : Served (Answers b order) db t db') (ht : ∀ x ∈ t, Idle x) :
    db'.runs = db.runs := by
  refine h.invariant (I := fun db' => db'.runs = db.runs) (fun s x s' hx hs hserves => ?_) rfl
  obtain ⟨s₁, hmeanwhile, hserves⟩ := hserves
  obtain ⟨c, a⟩ := x
  have hs' : s' = s₁ := by rcases ht _ hx with h | h <;> cases h <;> exact hserves
  rw [hs', hmeanwhile.runs, hs]

/-- A read leaves the rows as they are. -/
theorem read_answers {runId : String} {found : Raises (Option ResearchRun)} (hdb : Deployed lib db)
    (h : Answers b order db ⟨.getRun tenant runId, found⟩ db') : db'.runs = db.runs ∧
      Deployed lib db' ∧ ∀ run, found = .ok (some run) →
        PostgresResearchRepository.get db tenant runId = some run := by
  obtain ⟨db₁, hmeanwhile, h⟩ := h
  have hdb₁ := hmeanwhile.deployed hdb
  rcases found with e | found
  · have hdb' : db' = db₁ := h
    exact ⟨hdb' ▸ hmeanwhile.runs, hdb' ▸ hdb₁, fun _ h => nomatch h⟩
  · obtain ⟨rfl, rfl⟩ : found = PostgresResearchRepository.get db₁ tenant runId ∧ db' = db₁ := h
    refine ⟨hmeanwhile.runs, hdb₁, fun run hrun => ?_⟩
    rw [PostgresResearchRepository.get, ← hmeanwhile.runs]
    exact Except.ok.inj hrun

/-- The store answers a proposal with the row that it finds for it, and stays as it is. -/
theorem answers_foundRow {correlationId : String} {now : Instant} {answer : Raises ResearchRun}
    (hfound : foundRow db (order.scan db.runs) tenant fingerprint run = some row)
    (h : Answers b order db ⟨.createOrGet tenant
      (reproposed lib tenant run fingerprint correlationId now), answer⟩ db') :
    db'.runs = db.runs ∧ ∀ stored, answer = .ok stored → stored = row.run := by
  obtain ⟨db₁, hmeanwhile, h⟩ := h
  have hfound₁ : foundRow db₁ (order.scan db₁.runs) tenant fingerprint run = some row := by
    rw [foundRow, hmeanwhile.runs]
    exact hfound
  rcases answer with e | stored
  · have hdb : db' = db₁ := h
    exact ⟨hdb ▸ hmeanwhile.runs, fun _ h => nomatch h⟩
  · have hstored : createOrGet db₁ tenant (order.scan db₁.runs)
      (reproposed lib tenant run fingerprint correlationId now) = .ok (stored, db') := h
    rw [createOrGet_foundRow hfound₁] at hstored
    cases hstored
    exact ⟨hmeanwhile.runs, fun stored hs => (Except.ok.inj hs).symm⟩

namespace ResearchOrchestrator

/-- An execution of a created run under way, where the store finds that run for its request. -/
theorem execute_keeps {correlationId : String} (hdb : Deployed o.lib db) (hrow : row ∈ db.runs)
    (hcreated : row.run.status = .created)
    (hfound : ∀ fingerprint, proposedFingerprint o.pf o.lib o.policy tenant.tenantId
      row.run.request row.run.expectedDocumentHash none = .ok fingerprint →
        foundRow db (order.scan db.runs) tenant fingerprint row.run = some row)
    (h : (o.execute tenant row.run.actorId row.run.request row.run.expectedDocumentHash
      correlationId none).Follows t q) (hserved : Served (Answers b order) db t db') :
    KeepsTo row.key db t db' ∧ ∀ result, q = .done (.ok result) → result.key = row.key := by
  have hoperation : Operation o (o.execute tenant row.run.actorId row.run.request
    row.run.expectedDocumentHash correlationId none) := .execute ..
  obtain ⟨hdb', hpersisted, -⟩ := hoperation.served h hserved hdb
  have hstored : ∀ y ∈ t, ∀ run, answeredIn y = some run → Stored o run :=
    fun y hy run hrun => (hpersisted y hy run hrun).stored rfl
  rcases execute_follows_cases h with ⟨hidle, hdone⟩ |
    ⟨fingerprint, now, answer, t', hfingerprint, ht, herror⟩
  · exact ⟨keeps_of_idle hserved hidle, fun result hq => absurd hq (hdone result)⟩
  · have hkey : row.run.key = row.key := (hdb.runTable.columns row hrow).1
    let start : ResearchLog := [⟨.cancelled, false⟩, ⟨.clock, now⟩]
    let asked : ResearchEvent := ⟨.createOrGet tenant
      (reproposed o.lib tenant row.run fingerprint correlationId now), answer⟩
    have hsplit : t = start ++ asked :: t' := ht
    rw [hsplit] at hserved
    obtain ⟨db₁, hidle, hrest⟩ := served_append_cases hserved
    have hstart : ∀ x ∈ start, Idle x :=
      idle_cons (.inl rfl) (idle_cons (.inr rfl) idle_nil)
    have hfirst : KeepsTo row.key db start db₁ := keeps_of_idle hidle hstart
    have hruns₁ : db₁.runs = db.runs := idle_runs hidle hstart
    cases hrest with
    | @cons _ db₂ _ _ _ hasked hrest =>
      have hfound₁ : foundRow db₁ (order.scan db₁.runs) tenant fingerprint row.run = some row := by
        rw [foundRow, hruns₁]
        exact hfound fingerprint hfingerprint
      obtain ⟨hruns₂, hanswer⟩ := answers_foundRow hfound₁ hasked
      have hcreation : KeepsTo row.key db₁ [asked] db₂ := by
        refine ⟨fun x hx run hrun => ?_, congrArg _ hruns₂⟩
        rw [List.mem_singleton.mp hx] at hrun
        rcases answer with e | stored
        · cases hrun
        · cases hrun
          rw [hanswer run rfl, hkey]
      rcases answer with e | stored
      · obtain ⟨rfl, hq⟩ := herror e rfl
        cases hrest
        rw [hsplit]
        exact ⟨hfirst.append hcreation, fun result hresult => nomatch hq.symm.trans hresult⟩
      · have hown : stored = row.run := hanswer stored rfl
        have hseen : lastSeen (start ++ [asked]) = some row.run := by
          rw [lastSeen_snoc]
          exact congrArg some hown
        have hlog : t = start ++ [asked] ++ t' := by rw [hsplit, List.append_assoc]; rfl
        rw [hlog] at h hstored
        obtain ⟨hall, -⟩ := hoperation.seen_key h hstored hseen
        rw [hkey] at hall
        have hkeeps : KeepsTo row.key db t db' := by
          rw [hsplit]
          exact hfirst.append (hcreation.append (keeps_of_served hrest hall))
        refine ⟨hkeeps, fun result hq => ?_⟩
        have hends : (o.execute tenant row.run.actorId row.run.request
          row.run.expectedDocumentHash correlationId none).Ends t (.ok result) := by
          rw [hlog]
          rwa [hq] at h
        have hexact := execute_ensures.ends hends (grants_of_answered (hlog ▸ hstored))
        have hprepared : prepared t = some row.run := by
          rw [hsplit]
          exact congrArg some hown
        obtain ⟨-, -, ⟨before, hsaved⟩, -⟩ := hexact row.run hprepared hcreated
        refine hkeeps.own ⟨.save tenant result, .ok ()⟩ ?_ result rfl
        rw [List.nil_append] at hsaved
        rw [hsaved]
        exact List.mem_append_right _ List.mem_cons_self

/-- A worker can get as far as the answer to its proposal. -/
theorem processed_reaches (now : Instant) (answer : Raises ResearchRun)
    (htenant : tenantContext job.tenantId = .ok tenant) (hcreated : run.status = .created)
    (hfingerprint : proposedFingerprint o.pf o.lib o.policy tenant.tenantId run.request
      run.expectedDocumentHash none = .ok fingerprint) :
    ∃ q, (o.processed job).Follows [⟨.getRun tenant job.researchRunId, .ok (some run)⟩,
      ⟨.cancelled, false⟩, ⟨.cancelled, false⟩, ⟨.clock, now⟩, ⟨.createOrGet tenant
        (reproposed o.lib tenant run fingerprint job.correlationId now), answer⟩] q := by
  have hprepare : (o.prepare tenant run.actorId run.request run.expectedDocumentHash
      job.correlationId none).Follows [⟨.clock, now⟩, ⟨.createOrGet tenant (reproposed o.lib tenant
        run fingerprint job.correlationId now), answer⟩] (.done answer) := by
    rw [prepare_eq hfingerprint]
    exact .cons (.cons (.nil _))
  have hexecute : ∃ q, (o.operation tenant run job.correlationId).Follows (⟨.cancelled, false⟩ ::
      [⟨.clock, now⟩, ⟨.createOrGet tenant (reproposed o.lib tenant run fingerprint
        job.correlationId now), answer⟩]) q := by
    rw [operation, if_pos hcreated]
    exact ⟨_, .cons (hprepare.bind _)⟩
  obtain ⟨q, hexecute⟩ := hexecute
  have hresume : (o.resume tenant run job.correlationId).Follows (⟨.cancelled, false⟩ ::
      ⟨.cancelled, false⟩ :: [⟨.clock, now⟩, ⟨.createOrGet tenant (reproposed o.lib tenant run
        fingerprint job.correlationId now), answer⟩]) _ := .cons (hexecute.attempt.bind _)
  rw [processed_eq htenant]
  exact ⟨_, .cons hresume⟩

end ResearchOrchestrator

/-- A worker with a job of a created run shows and returns that run only, in every order of the
rows, if and only if the run matches its own request. -/
theorem processed_own_run_iff (hdb : Deployed o.lib db) (hrow : row ∈ db.runs)
    (hjob : row.key = (job.tenantId, job.researchRunId)) (hcreated : row.run.status = .created) :
    (∀ order t q db', (o.processed job).Follows t q → Served (Answers b order) db t db' →
      KeepsTo (job.tenantId, job.researchRunId) db t db' ∧
      ∀ result, q = .done (.ok (some result)) →
        result.key = (job.tenantId, job.researchRunId)) ↔
    ∀ fingerprint, proposedFingerprint o.pf o.lib o.policy job.tenantId row.run.request
      row.run.expectedDocumentHash none = .ok fingerprint → Matches db row fingerprint := by
  have hkey : row.run.key = row.key := (hdb.runTable.columns row hrow).1
  have hvalid : isTenantId job.tenantId = true := by
    have htenant := hdb.runTable.tenants row hrow
    rwa [show row.tenantId = job.tenantId from congrArg Prod.fst hjob] at htenant
  let tenant : TenantContext := ⟨job.tenantId, hvalid⟩
  have htenant : tenantContext job.tenantId = .ok tenant := dif_pos hvalid
  have hrowTenant : row.tenantId = tenant.tenantId := congrArg Prod.fst hjob
  have hget : ∀ {db₁ : JobDatabase}, db₁.runs = db.runs →
      get db₁ tenant job.researchRunId = some row.run := by
    intro db₁ hruns
    have hlookup : lookup RunRow.key row.key db.runs = some row :=
      hdb.runTable.keyed.lookup_eq_some.mpr ⟨hrow, rfl⟩
    rw [PostgresResearchRepository.get, hruns, show (tenant.tenantId, job.researchRunId) = row.key
      from hjob.symm, hlookup, Option.map_some]
  rw [← hjob]
  constructor
  · intro hall fingerprint hfingerprint
    by_contra hnot
    obtain ⟨order, other, hother, hne, hfound⟩ := exists_foundRow hdb.runTable hrowTenant hnot
    obtain ⟨q, hfollows⟩ := ResearchOrchestrator.processed_reaches 0 (.ok other.run) htenant
      hcreated hfingerprint
    let proposal := reproposed o.lib tenant row.run fingerprint job.correlationId 0
    have hanswer : ∀ x, Serves order db x db → Answers b order db x db :=
      fun x hx => ⟨db, .refl b db, hx⟩
    have hread : Serves order db ⟨.getRun tenant job.researchRunId, .ok (some row.run)⟩ db :=
      ⟨(hget rfl).symm, rfl⟩
    have hcheck : Serves order db ⟨.cancelled, false⟩ db := rfl
    have hclock : Serves order db ⟨.clock, 0⟩ db := rfl
    have hasked : Serves order db ⟨.createOrGet tenant proposal, .ok other.run⟩ db :=
      createOrGet_foundRow hfound
    have hserved : Served (Answers b order) db [⟨.getRun tenant job.researchRunId,
        .ok (some row.run)⟩, ⟨.cancelled, false⟩, ⟨.cancelled, false⟩, ⟨.clock, 0⟩,
        ⟨.createOrGet tenant proposal, .ok other.run⟩] db :=
      .cons (hanswer _ hread) (.cons (hanswer _ hcheck) (.cons (hanswer _ hcheck)
        (.cons (hanswer _ hclock) (.cons (hanswer _ hasked) (.nil db)))))
    obtain ⟨hkeeps, -⟩ := hall order _ q db hfollows hserved
    have hotherKey : other.run.key = row.key := by
      refine hkeeps.own ⟨.createOrGet tenant proposal, .ok other.run⟩ ?_ other.run rfl
      exact List.mem_of_getElem? (i := 4) rfl
    rw [(hdb.runTable.columns other hother).1] at hotherKey
    exact hne (hdb.runTable.keyed.eq_of_mem hother hrow hotherKey)
  · intro hmatches order t q db' hfollows hserved
    have hfound : ∀ {db₁ : JobDatabase}, db₁.runs = db.runs → ∀ fingerprint,
        proposedFingerprint o.pf o.lib o.policy tenant.tenantId row.run.request
          row.run.expectedDocumentHash none = .ok fingerprint →
        foundRow db₁ (order.scan db₁.runs) tenant fingerprint row.run = some row := by
      intro db₁ hruns fingerprint hfingerprint
      have hown := (hmatches fingerprint hfingerprint).found hdb.runTable hrow (order.perm db.runs)
        hrowTenant
      rwa [foundRow, hruns]
    rcases ResearchOrchestrator.processed_follows_cases htenant hfollows with ⟨rfl, hq⟩ |
      ⟨found, t', rfl, hrest⟩
    · cases hserved
      exact ⟨keeps_nil, fun result hresult => absurd hresult (hq _)⟩
    cases hserved with
    | @cons _ db₁ _ _ _ hread hserved =>
      obtain ⟨hruns, hdb₁, hrun⟩ := read_answers hdb hread
      have hfirst : KeepsTo row.key db [⟨.getRun tenant job.researchRunId, found⟩] db₁ := by
        refine ⟨fun x hx run hx' => ?_, congrArg _ hruns⟩
        rw [List.mem_singleton.mp hx] at hx'
        rcases found with e | _ | run'
        · cases hx'
        · cases hx'
        · cases hx'
          have hsame := hrun run rfl
          rw [hget rfl] at hsame
          rw [← Option.some.inj hsame, hkey]
      rcases hrest with ⟨-, rfl, e, rfl⟩ | ⟨run, rfl, hresume⟩
      · cases hserved
        exact ⟨hfirst, fun _ h => nomatch h⟩
      have hsame := hrun run rfl
      rw [hget rfl] at hsame
      cases hsame
      rcases ResearchOrchestrator.resume_follows_cases hresume with ⟨rfl, hq⟩ | ⟨rfl, rfl⟩ |
        ⟨t'', p', rfl, hp', rfl⟩
      · cases hserved
        exact ⟨hfirst, fun result hresult => absurd hresult (hq _)⟩
      · exact ⟨hfirst.append (keeps_of_idle hserved (idle_cons (.inl rfl) idle_nil)),
          fun _ h => nomatch h⟩
      · cases hserved with
        | @cons _ db₂ _ _ _ hchecked hserved =>
          have hcheck : Served (Answers b order) db₁ [⟨.cancelled, false⟩] db₂ :=
            .cons hchecked (.nil db₂)
          have hidle : ∀ x ∈ ([⟨.cancelled, false⟩] : ResearchLog), Idle x :=
            idle_cons (.inl rfl) idle_nil
          have hruns₂ : db₂.runs = db.runs := (idle_runs hcheck hidle).trans hruns
          have hdb₂ : Deployed o.lib db₂ := by
            obtain ⟨db₃, hmeanwhile, hserves⟩ := hchecked
            exact hserves ▸ hmeanwhile.deployed hdb₁
          rw [ResearchOrchestrator.operation, if_pos hcreated] at hp'
          obtain ⟨hlast, hresult⟩ := ResearchOrchestrator.execute_keeps hdb₂ (hruns₂ ▸ hrow) hcreated
            (hfound hruns₂) hp' hserved
          refine ⟨hfirst.append ((keeps_of_idle hcheck hidle).append hlast), fun result hq => ?_⟩
          exact hresult result (ResearchOrchestrator.unlessCancelled_some hq)

/-! ## Two forced refreshes -/

/-- A digest of 64 hex digits that tells the texts of the examples apart. -/
def mixedDigits (text : List Char) : String :=
  String.ofList ((Nat.toDigits 16 (16 ^ 64 +
    text.foldl (fun h c => (h * 8191 + c.toNat) % 16 ^ 64) 1)).drop 1)

def mixingPlatform : Platform where
  sha256 := mixedDigits
  earlier _ _ := .ok false
  dateTime _ := true

/-- The library of the examples with short ids. -/
def shortLibrary : ResearchLibrary :=
  { plainLibrary with uuid5 := fun s => String.ofList (s.toList.drop (s.length - 8)) }

def mixingOrchestrator : ResearchOrchestrator :=
  { plainOrchestrator with pf := mixingPlatform, lib := shortLibrary }

/-- The order of the rows in the table. -/
def plainOrder : ScanOrder := ⟨id, fun _ => .refl _⟩

def documentHash : String := "sha256:" ++ String.ofList (List.replicate 64 '0')

def refreshedRequest : ResearchRequest where
  toRequestFields := { Jobs.pilotRequest.toRequestFields with forceRefresh := true }
  valid := by decide +kernel

/-- A forced refresh submitted to a store. -/
def refreshed (db : JobDatabase) (generation : String) : JobDatabase :=
  valueOr ((ResearchSubmissionService.submit mixingOrchestrator db Jobs.pilotTenant "generator-1"
    refreshedRequest documentHash "correlation-1" (some generation) 0).map Prod.snd) db

theorem refreshed_deployed {generation : String} (hdb : Deployed shortLibrary db) :
    Deployed shortLibrary (refreshed db generation) := by
  unfold refreshed
  cases h : ResearchSubmissionService.submit mixingOrchestrator db Jobs.pilotTenant "generator-1"
    refreshedRequest documentHash "correlation-1" (some generation) 0 with
  | error e => exact hdb
  | ok r => exact .submitted hdb rfl h

theorem claim_deployed {lib : ResearchLibrary} {b : JobBackend} {workerId : String}
    {token : Jobs.LeaseToken} (hdb : Deployed lib db) :
    Deployed lib (Jobs.next b db (.claim workerId token [] 0)) :=
  .worked b hdb fun _ _ _ h => nomatch h

/-- Two workers have claimed the jobs of two forced refreshes. -/
def refreshedJobs : JobDatabase :=
  Jobs.next Jobs.plainBackend (Jobs.next Jobs.plainBackend
    (refreshed (refreshed Jobs.emptyJobs "first") "second")
    (.claim "worker-1" Jobs.firstToken [] 0)) (.claim "worker-2" Jobs.secondToken [] 0)

theorem refreshedJobs_deployed : Deployed shortLibrary refreshedJobs :=
  claim_deployed (claim_deployed (refreshed_deployed (refreshed_deployed (.empty []))))

/-- The run and the job of the second refresh. -/
def refreshedRow : RunRow := refreshedJobs.runs[1]?.getD ⟨"", "", "", "", Jobs.pilotRun⟩

def refreshedJob : ResearchJob :=
  (refreshedJobs.jobs[1]?.bind fun row => toOption (Jobs.rowToJob row)).getD Jobs.pilotJob

def refreshedPlay :=
  (mixingOrchestrator.processed refreshedJob).playOn
    (serveStore plainOrder (steadyAnswer "https://example.org/" [])) refreshedJobs

/-- Another run than that of the second job is executed for it. -/
theorem refreshedPlay_other : (refreshedJobs.runs[1]? = some refreshedRow &&
    refreshedRow.key = (refreshedJob.tenantId, refreshedJob.researchRunId) &&
    refreshedRow.run.status = .created && returns (fun result => result.status = .partiallyCompleted &&
      result.key ≠ refreshedRow.key) refreshedPlay.1) = true := by
  decide +kernel

theorem refreshedRow_facts : refreshedRow ∈ refreshedJobs.runs ∧
    refreshedRow.key = (refreshedJob.tenantId, refreshedJob.researchRunId) ∧
    refreshedRow.run.status = .created := by
  obtain ⟨hfacts, -⟩ := Bool.and_eq_true_iff.mp refreshedPlay_other
  obtain ⟨hfacts, hcreated⟩ := Bool.and_eq_true_iff.mp hfacts
  obtain ⟨hrow, hkey⟩ := Bool.and_eq_true_iff.mp hfacts
  exact ⟨List.mem_of_getElem? (of_decide_eq_true hrow), of_decide_eq_true hkey,
    of_decide_eq_true hcreated⟩

theorem processed_own_run_iff_refreshed :
    (∀ order t q db', (mixingOrchestrator.processed refreshedJob).Follows t q →
      Served (Answers Jobs.plainBackend order) refreshedJobs t db' →
      KeepsTo (refreshedJob.tenantId, refreshedJob.researchRunId) refreshedJobs t db' ∧
      ∀ result, q = .done (.ok (some result)) →
        result.key = (refreshedJob.tenantId, refreshedJob.researchRunId)) ↔
    ∀ fingerprint, proposedFingerprint mixingPlatform shortLibrary ResearchPolicy.standard
      refreshedJob.tenantId refreshedRow.run.request refreshedRow.run.expectedDocumentHash none =
        .ok fingerprint → Matches refreshedJobs refreshedRow fingerprint :=
  processed_own_run_iff refreshedJobs_deployed refreshedRow_facts.1 refreshedRow_facts.2.1
    refreshedRow_facts.2.2

/-- The job of a second forced refresh executes the run of the first. -/
theorem secondRefresh_executes_first : ∃ t db' result, Deployed shortLibrary refreshedJobs ∧
    refreshedRow ∈ refreshedJobs.runs ∧
    refreshedRow.key = (refreshedJob.tenantId, refreshedJob.researchRunId) ∧
    refreshedRow.run.status = .created ∧
    (mixingOrchestrator.processed refreshedJob).Ends t (.ok (some result)) ∧
    Served (Answers Jobs.plainBackend plainOrder) refreshedJobs t db' ∧
    result.key ≠ (refreshedJob.tenantId, refreshedJob.researchRunId) := by
  obtain ⟨hmem, hkey, hcreated⟩ := refreshedRow_facts
  obtain ⟨-, hother⟩ := Bool.and_eq_true_iff.mp refreshedPlay_other
  have hplay := playOn_store Jobs.plainBackend plainOrder (steadyAnswer "https://example.org/" [])
    (mixingOrchestrator.processed refreshedJob) refreshedJobs
  rw [← refreshedPlay] at hplay
  obtain ⟨result, hresult, hvalue⟩ := returns_cases hother
  obtain ⟨-, hne⟩ := Bool.and_eq_true_iff.mp hvalue
  rw [hkey] at hne
  have hends' : (mixingOrchestrator.processed refreshedJob).Ends refreshedPlay.2.1
      (.ok (some result)) := by
    rw [← hresult]
    exact hplay.1
  exact ⟨_, _, result, refreshedJobs_deployed, hmem, hkey, hcreated, hends', hplay.2,
    of_decide_eq_true hne⟩

end DecisionAssurance.Research
