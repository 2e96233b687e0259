import DecisionAssurance.RunIdentity

/-!
# The run a request leads to

`create_or_get` looks a proposal up by its fingerprint and then among the runs that it repeats:
the runs with its request and document hash, under whatever generation and versions they were
proposed. The two rules together decide which proposals share a run.
-/

namespace DecisionAssurance.Research

open Interactions Interaction Tables PostgresResearchRepository
open Jobs (JobDatabase RunRow BudgetRow Instant)

/-! ## `create_or_get` on both stores -/

def newRunRow (tenant : TenantContext) (run : ResearchRun) : RunRow where
  tenantId := tenant.tenantId
  researchRunId := run.researchRunId
  decisionFileId := run.request.decisionFileId
  semanticFingerprint := run.semanticFingerprint
  run := run

/-- `SqliteResearchRepository.create_or_get`, whose insertions are plain ones. -/
def SqliteResearchRepository.createOrGet (db : JobDatabase) (tenant : TenantContext)
    (scan : List RunRow) (run : ResearchRun) : Raises (ResearchRun × JobDatabase) :=
  if tenant.tenantId ≠ run.tenantId then .error (.valueError "TENANT_MISMATCH")
  else
    match lookup RunRow.fingerprintKey (tenant.tenantId, run.semanticFingerprint) db.runs with
    | some row => .ok (row.run, db)
    | none =>
      match priorRow tenant scan run with
      | some row => .ok (row.run, db)
      | none =>
        if db.runs.any fun r =>
            r.tenantId = tenant.tenantId && r.researchRunId = run.researchRunId then
          .error (.other "IntegrityError")
        else if db.budgets.any fun b =>
            b.tenantId = tenant.tenantId && b.researchRunId = run.researchRunId then
          .error (.other "IntegrityError")
        else
          .ok (run, { db with
            runs := db.runs ++ [newRunRow tenant run]
            budgets := db.budgets ++ [⟨tenant.tenantId, run.researchRunId, 0⟩] })

def createOrGetOn : Backend → JobDatabase → TenantContext → List RunRow → ResearchRun →
    Raises (ResearchRun × JobDatabase)
  | .sqlite => SqliteResearchRepository.createOrGet
  | .postgresql => PostgresResearchRepository.createOrGet

variable {backend : Backend} {lib : ResearchLibrary} {order : ScanOrder}
  {db db₁ db₂ db' : JobDatabase} {tenant : TenantContext} {scan : List RunRow} {row : RunRow}
  {run run₁ run₂ p p₁ p₂ : ResearchRun} {o o₁ o₂ : ResearchOrchestrator}

/-- The two stores make the same of a proposal, up to the exception of a violated key. -/
theorem createOrGet_sqlite {r : ResearchRun × JobDatabase} :
    SqliteResearchRepository.createOrGet db tenant scan run = .ok r ↔
      PostgresResearchRepository.createOrGet db tenant scan run = .ok r := by
  unfold SqliteResearchRepository.createOrGet PostgresResearchRepository.createOrGet
    JobDatabase.convergeRun
  rw [find_fingerprint]
  by_cases htenant : tenant.tenantId ≠ run.tenantId
  · simp only [if_pos htenant]
  · rw [if_neg htenant, if_neg htenant]
    cases lookup RunRow.fingerprintKey (tenant.tenantId, run.semanticFingerprint) db.runs with
    | some row => exact Iff.rfl
    | none =>
      cases priorRow tenant scan run with
      | some row => exact Iff.rfl
      | none =>
        dsimp only
        split_ifs
        · exact Iff.rfl
        · exact Iff.rfl
        · exact Iff.rfl

theorem createOrGetOn_ok {r : ResearchRun × JobDatabase} :
    createOrGetOn backend db tenant scan run = .ok r ↔
      PostgresResearchRepository.createOrGet db tenant scan run = .ok r := by
  cases backend with
  | sqlite => exact createOrGet_sqlite
  | postgresql => exact Iff.rfl

/-! ## What a proposal finds -/

/-- The row that `create_or_get` finds for a proposal. -/
def found (db : JobDatabase) (order : ScanOrder) (tenant : TenantContext) (p : ResearchRun) :
    Option RunRow := foundRow db (order.scan db.runs) tenant p.semanticFingerprint p

theorem found_mem (h : found db order tenant p = some row) : row ∈ db.runs := by
  unfold found foundRow at h
  rcases Option.or_eq_some_iff.mp h with h | ⟨-, h⟩
  · exact mem_of_lookup h
  · exact (order.perm _).subset (List.mem_of_mem_filter (List.mem_of_find?_eq_some h))

/-- A proposal leads to the row it finds, or to a row of its own. -/
theorem createOrGetOn_found
    (h : createOrGetOn backend db tenant (order.scan db.runs) p = .ok (run, db')) :
    (∃ row, found db order tenant p = some row ∧ run = row.run ∧ db' = db) ∨
    found db order tenant p = none ∧ run = p ∧ tenant.tenantId = p.tenantId ∧
      lookup RunRow.key p.key db.runs = none ∧ db'.runs = db.runs ++ [newRunRow tenant p] := by
  obtain ⟨htenant, ⟨hdb, ⟨row, hrow, hrun⟩ | ⟨hnone, row, hrow, hrun⟩⟩ |
    ⟨hnone, hprior, hrun, hkey, hruns⟩⟩ := createOrGet_cases (createOrGetOn_ok.mp h)
  · exact .inl ⟨row, by rw [found, foundRow, hrow, Option.some_or], hrun, hdb⟩
  · exact .inl ⟨row, by rw [found, foundRow, hnone, Option.none_or, hrow], hrun, hdb⟩
  · exact .inr ⟨by rw [found, foundRow, hnone, Option.none_or, hprior], hrun, htenant, hkey, hruns⟩

/-- A prior run is found if and only if there is one, whatever the order of the scan. -/
theorem priorRow_eq_none : priorRow tenant (order.scan db.runs) p = none ↔
    ∀ row ∈ db.runs, row.tenantId = tenant.tenantId →
      row.decisionFileId = p.request.decisionFileId → repeats row.run p = false := by
  simp only [priorRow, List.find?_eq_none, List.mem_filter, Bool.and_eq_true, decide_eq_true_eq,
    Bool.not_eq_true, (order.perm db.runs).mem_iff, and_imp]

theorem repeats_iff : repeats run p = true ↔
    run.request = p.request ∧ run.expectedDocumentHash = p.expectedDocumentHash := by
  simp only [repeats, Bool.and_eq_true, decide_eq_true_eq]

/-- Two proposals, made one after the other, share a run. -/
def Shares (db : JobDatabase) (order : ScanOrder) (tenant : TenantContext)
    (p₁ p₂ : ResearchRun) : Prop :=
  match found db order tenant p₁ with
  | some row => found db order tenant p₂ = some row
  | none => p₁.semanticFingerprint = p₂.semanticFingerprint ∨
      found db order tenant p₂ = none ∧ repeats p₁ p₂ = true

theorem shares_of_fingerprint (h : p₁.semanticFingerprint = p₂.semanticFingerprint)
    (hrepeats : repeats p₁ p₂ = true) : Shares db order tenant p₁ p₂ := by
  obtain ⟨hrequest, hhash⟩ := repeats_iff.mp hrepeats
  have hprior : priorRow tenant (order.scan db.runs) p₂ = priorRow tenant (order.scan db.runs) p₁ := by
    simp only [priorRow, repeats, hrequest, hhash]
  have hsame : found db order tenant p₂ = found db order tenant p₁ := by
    rw [found, foundRow, hprior, ← h]
    rfl
  unfold Shares
  rw [hsame]
  cases found db order tenant p₁ with
  | some row => rfl
  | none => exact .inl h

theorem priorRow_some (h : priorRow tenant (order.scan db.runs) p = some row) :
    row ∈ db.runs ∧ row.tenantId = tenant.tenantId ∧
      row.decisionFileId = p.request.decisionFileId ∧ repeats row.run p = true := by
  have hmem := List.mem_filter.mp (List.mem_of_find?_eq_some h)
  rw [Bool.and_eq_true, decide_eq_true_eq, decide_eq_true_eq] at hmem
  have hrepeats : repeats row.run p = true :=
    List.find?_some (p := fun r : RunRow => repeats r.run p) h
  exact ⟨(order.perm _).subset hmem.1, hmem.2.1, hmem.2.2, hrepeats⟩

/-- A proposal finds the row of another just inserted if they have one fingerprint, or if it
repeats that one and would have found none before. -/
theorem found_inserted (hnone : found db order tenant p₁ = none)
    (hruns : db₁.runs = db.runs ++ [newRunRow tenant p₁]) :
    found db₁ order tenant p₂ = some (newRunRow tenant p₁) ↔
      p₁.semanticFingerprint = p₂.semanticFingerprint ∨
        found db order tenant p₂ = none ∧ repeats p₁ p₂ = true := by
  obtain ⟨hfree, hprior⟩ := Option.or_eq_none_iff.mp hnone
  have hlookup : lookup RunRow.fingerprintKey (tenant.tenantId, p₂.semanticFingerprint) db₁.runs =
      (lookup RunRow.fingerprintKey (tenant.tenantId, p₂.semanticFingerprint) db.runs).or
        (if p₁.semanticFingerprint = p₂.semanticFingerprint then some (newRunRow tenant p₁)
          else none) := by
    have hkey : (newRunRow tenant p₁).fingerprintKey =
        (tenant.tenantId, p₂.semanticFingerprint) ↔
        p₁.semanticFingerprint = p₂.semanticFingerprint := by
      simp only [RunRow.fingerprintKey, newRunRow, Prod.mk.injEq, true_and]
    rw [hruns, lookup_append_singleton]
    simp only [hkey]
  by_cases hfp : p₁.semanticFingerprint = p₂.semanticFingerprint
  · refine iff_of_true ?_ (.inl hfp)
    rw [found, foundRow, hlookup, ← hfp, hfree, Option.none_or, if_pos rfl, Option.some_or]
  · rw [or_iff_right hfp]
    rw [if_neg hfp, Option.or_none] at hlookup
    rw [found, foundRow, hlookup, found, foundRow]
    cases hrow : lookup RunRow.fingerprintKey (tenant.tenantId, p₂.semanticFingerprint) db.runs with
    | some row =>
      refine iff_of_false (fun h => hfp ?_) (fun h => by cases h.1)
      rw [Option.some_or] at h
      have hkey := key_of_lookup hrow
      rw [Option.some.inj h] at hkey
      exact (Prod.mk.inj hkey).2
    | none =>
      rw [Option.none_or, Option.none_or]
      constructor
      · intro h
        obtain ⟨-, -, hfile, hrepeats⟩ := priorRow_some h
        have hsame : repeats p₁ p₂ = true := hrepeats
        refine ⟨priorRow_eq_none.mpr fun row hrow htenant hfile' => ?_, hsame⟩
        obtain ⟨hrequest, hhash⟩ := repeats_iff.mp hsame
        have hmiss := priorRow_eq_none.mp hprior row hrow htenant (by rw [hfile', hrequest])
        rw [repeats, ← hrequest, ← hhash]
        exact hmiss
      · rintro ⟨hmiss, hrepeats⟩
        cases hfound : priorRow tenant (order.scan db₁.runs) p₂ with
        | none =>
          have hmem : newRunRow tenant p₁ ∈ db₁.runs := by
            rw [hruns]
            exact List.mem_append_right _ (List.mem_singleton_self _)
          have hfile : (newRunRow tenant p₁).decisionFileId = p₂.request.decisionFileId :=
            congrArg (fun r => r.decisionFileId) (repeats_iff.mp hrepeats).1
          have hnot := priorRow_eq_none.mp hfound _ hmem rfl hfile
          exact absurd hrepeats (Bool.eq_false_iff.mp hnot)
        | some row =>
          obtain ⟨hmem, htenant, hfile, hmatch⟩ := priorRow_some hfound
          rw [hruns] at hmem
          rcases List.mem_append.mp hmem with hmem | hmem
          · have hnot := priorRow_eq_none.mp hmiss row hmem htenant hfile
            exact absurd hmatch (Bool.eq_false_iff.mp hnot)
          · rw [List.mem_singleton.mp hmem]

theorem newRunRow_key (htenant : tenant.tenantId = p.tenantId) : (newRunRow tenant p).key = p.key := by
  rw [RunRow.key, ResearchRun.key, ← htenant]
  rfl

/-- Two proposals made one after the other lead to one run if and only if they share it. -/
theorem createOrGetOn_shares (hdb : RunTable lib db)
    (h₁ : createOrGetOn backend db tenant (order.scan db.runs) p₁ = .ok (run₁, db₁))
    (h₂ : createOrGetOn backend db₁ tenant (order.scan db₁.runs) p₂ = .ok (run₂, db₂)) :
    (run₂.key = run₁.key ↔ Shares db order tenant p₁ p₂) ∧
      (Shares db order tenant p₁ p₂ → run₂ = run₁) := by
  have hkey {row : RunRow} (hrow : row ∈ db.runs) : row.run.key = row.key := (hdb.columns row hrow).1
  have hfresh {p : ResearchRun} {row : RunRow} (hfree : lookup RunRow.key p.key db.runs = none)
      (hrow : row ∈ db.runs) : row.run.key ≠ p.key := by
    rw [hkey hrow]
    exact lookup_eq_none.mp hfree row hrow
  unfold Shares
  rcases createOrGetOn_found h₁ with ⟨row, hfound, rfl, rfl⟩ | ⟨hnone, rfl, htenant, hfree, hruns⟩
  · have hrow := found_mem hfound
    rw [hfound]
    dsimp only
    rcases createOrGetOn_found h₂ with ⟨row', hfound', rfl, rfl⟩ | ⟨hnone', rfl, -, hfree', -⟩
    · have hrow' := found_mem hfound'
      rw [hfound', Option.some.injEq, hkey hrow, hkey hrow']
      exact ⟨⟨hdb.keyed.eq_of_mem hrow' hrow, congrArg RunRow.key⟩, congrArg RunRow.run⟩
    · rw [hnone']
      refine ⟨iff_of_false ?_ nofun, nofun⟩
      exact (hfresh hfree' hrow).symm
  · rw [hnone]
    dsimp only
    rw [← found_inserted hnone hruns]
    rcases createOrGetOn_found h₂ with ⟨row', hfound', rfl, -⟩ | ⟨hnone', rfl, -, hfree', -⟩
    · rw [hfound', Option.some.injEq]
      have hmem := found_mem hfound'
      rw [hruns] at hmem
      rcases List.mem_append.mp hmem with hmem | hmem
      · refine ⟨iff_of_false (hfresh hfree hmem) fun hrow => ?_, fun hrow => ?_⟩
        · refine hfresh hfree hmem ?_
          rw [hrow]
          rfl
        · rw [hrow]
          rfl
      · rw [List.mem_singleton.mp hmem]
        exact ⟨iff_of_true rfl rfl, fun _ => rfl⟩
    · rw [hnone']
      refine ⟨iff_of_false (fun hsame => ?_) nofun, nofun⟩
      rw [hruns, lookup_append_singleton, hsame, hfree, Option.none_or,
        if_pos (newRunRow_key htenant)] at hfree'
      cases hfree'

/-! ## `prepare` -/

/-- What a caller hands to `prepare`, with the time of the call. -/
structure Submission where
  actorId : String
  request : ResearchRequest
  documentHash : String
  correlationId : String
  refreshGeneration : Option String
  now : Instant

namespace ResearchOrchestrator

/-- The run that `propose` returns. -/
def proposal (o : ResearchOrchestrator) (tenant : TenantContext) (s : Submission) :
    Raises ResearchRun := do
  let fingerprint ← proposedFingerprint o.pf o.lib o.policy tenant.tenantId s.request
    s.documentHash s.refreshGeneration
  return proposedRun o.lib tenant.tenantId s.actorId s.request s.documentHash fingerprint
    s.correlationId (o.lib.isoformat s.now)

/-- `prepare` on a store. -/
def prepareOn (o : ResearchOrchestrator) (backend : Backend) (order : ScanOrder)
    (db : JobDatabase) (tenant : TenantContext) (s : Submission) :
    Raises (ResearchRun × JobDatabase) := do
  let run ← o.proposal tenant s
  createOrGetOn backend db tenant (order.scan db.runs) run

variable {s s₁ s₂ : Submission}

theorem proposal_cases (h : o.proposal tenant s = .ok p) : p.tenantId = tenant.tenantId ∧
    p.request = s.request ∧ p.expectedDocumentHash = s.documentHash ∧
    proposedFingerprint o.pf o.lib o.policy tenant.tenantId s.request s.documentHash
      s.refreshGeneration = .ok p.semanticFingerprint := by
  obtain ⟨fingerprint, hfingerprint, h⟩ := bind_ok_cases h
  cases h
  exact ⟨rfl, rfl, rfl, hfingerprint⟩

end ResearchOrchestrator

open ResearchOrchestrator in
/-- Two requests that are prepared one after the other lead to different runs, whatever their
generations and the versions they are proposed under, if and only if their proposals do not share
a run; a request that is prepared again in the same generation leads to the same run. -/
theorem prepare_distinct_iff {s₁ s₂ : Submission} (hdb : Deployed lib db)
    (hp₁ : o₁.proposal tenant s₁ = .ok p₁) (hp₂ : o₂.proposal tenant s₂ = .ok p₂)
    (h₁ : o₁.prepareOn backend order db tenant s₁ = .ok (run₁, db₁))
    (h₂ : o₂.prepareOn backend order db₁ tenant s₂ = .ok (run₂, db₂)) :
    (run₁.key ≠ run₂.key ↔ ¬ Shares db order tenant p₁ p₂) ∧
      (o₂ = o₁ → s₂.request = s₁.request → s₂.documentHash = s₁.documentHash →
        s₂.refreshGeneration = s₁.refreshGeneration → run₂ = run₁) := by
  unfold prepareOn at h₁ h₂
  rw [hp₁] at h₁
  rw [hp₂] at h₂
  obtain ⟨hiff, hshared⟩ := createOrGetOn_shares hdb.runTable h₁ h₂
  refine ⟨(not_congr eq_comm).trans (not_congr hiff), ?_⟩
  rintro rfl hrequest hhash hgeneration
  obtain ⟨-, hr₁, hd₁, hf₁⟩ := proposal_cases hp₁
  obtain ⟨-, hr₂, hd₂, hf₂⟩ := proposal_cases hp₂
  rw [hrequest, hhash, hgeneration, hf₁] at hf₂
  refine hshared (shares_of_fingerprint (Except.ok.inj hf₂) ?_)
  exact repeats_iff.mpr ⟨by rw [hr₁, hr₂, hrequest], by rw [hd₁, hd₂, hhash]⟩

/-- A forced refresh of a generation. -/
def refreshOf (generation : String) : Submission where
  actorId := "generator-1"
  request := refreshedRequest
  documentHash := documentHash
  correlationId := "correlation-1"
  refreshGeneration := some generation
  now := 0

/-- Two forced refreshes, prepared one after the other on an empty store. -/
def twoRefreshes (backend : Backend) : Raises (Option (ResearchRun × ResearchRun)) := do
  let (first, db) ← mixingOrchestrator.prepareOn backend plainOrder Jobs.emptyJobs Jobs.pilotTenant
    (refreshOf "first")
  let (second, _) ← mixingOrchestrator.prepareOn backend plainOrder db Jobs.pilotTenant
    (refreshOf "second")
  return some (first, second)

theorem twoRefreshes_same (backend : Backend) :
    returns (fun runs => decide (runs.2 = runs.1)) (twoRefreshes backend) = true := by
  cases backend <;> decide +kernel

theorem twoRefreshes_cases (backend : Backend) : ∃ run db₁ db₂,
    mixingOrchestrator.prepareOn backend plainOrder Jobs.emptyJobs Jobs.pilotTenant
      (refreshOf "first") = .ok (run, db₁) ∧
    mixingOrchestrator.prepareOn backend plainOrder db₁ Jobs.pilotTenant (refreshOf "second") =
      .ok (run, db₂) := by
  obtain ⟨⟨run, run₂⟩, hruns, hsame⟩ := returns_cases (twoRefreshes_same backend)
  obtain ⟨⟨first, db₁⟩, hfirst, hrest⟩ := bind_ok_cases hruns
  obtain ⟨⟨second, db₂⟩, hsecond, hpair⟩ := bind_ok_cases hrest
  cases hpair
  have hrun₂ : run₂ = run := of_decide_eq_true hsame
  rw [hrun₂] at hsecond
  exact ⟨run, db₁, db₂, hfirst, hsecond⟩

/-- The second of two forced refreshes is answered with the run of the first, on both stores. -/
theorem secondRefresh_shares_first : refreshedRequest.forceRefresh = true ∧
    (refreshOf "second").refreshGeneration ≠ (refreshOf "first").refreshGeneration ∧
    (∃ run db₁ db₂,
      mixingOrchestrator.prepareOn .sqlite plainOrder Jobs.emptyJobs Jobs.pilotTenant
        (refreshOf "first") = .ok (run, db₁) ∧
      mixingOrchestrator.prepareOn .sqlite plainOrder db₁ Jobs.pilotTenant (refreshOf "second") =
        .ok (run, db₂)) ∧
    ∃ run db₁ db₂,
      mixingOrchestrator.prepareOn .postgresql plainOrder Jobs.emptyJobs Jobs.pilotTenant
        (refreshOf "first") = .ok (run, db₁) ∧
      mixingOrchestrator.prepareOn .postgresql plainOrder db₁ Jobs.pilotTenant
        (refreshOf "second") = .ok (run, db₂) :=
  ⟨rfl, by decide, twoRefreshes_cases .sqlite, twoRefreshes_cases .postgresql⟩

open ResearchOrchestrator in
theorem prepare_distinct_iff_refreshed : ∃ p₁ p₂ run₁ run₂ : ResearchRun,
    (run₁.key ≠ run₂.key ↔ ¬ Shares Jobs.emptyJobs plainOrder Jobs.pilotTenant p₁ p₂) ∧
      (mixingOrchestrator = mixingOrchestrator →
        (refreshOf "second").request = (refreshOf "first").request →
        (refreshOf "second").documentHash = (refreshOf "first").documentHash →
        (refreshOf "second").refreshGeneration = (refreshOf "first").refreshGeneration →
          run₂ = run₁) := by
  obtain ⟨run, db₁, db₂, hfirst, hsecond⟩ := twoRefreshes_cases .sqlite
  obtain ⟨p₁, hp₁, -⟩ := bind_ok_cases hfirst
  obtain ⟨p₂, hp₂, -⟩ := bind_ok_cases hsecond
  have hdb : Deployed shortLibrary Jobs.emptyJobs := .empty []
  exact ⟨p₁, p₂, run, run, prepare_distinct_iff hdb hp₁ hp₂ hfirst hsecond⟩

end DecisionAssurance.Research
