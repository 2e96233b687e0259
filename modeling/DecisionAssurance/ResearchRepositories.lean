import DecisionAssurance.JobRuns
import DecisionAssurance.PersistedRuns

/-!
# Research runs in PostgreSQL

The operations of `PostgresResearchRepository` on `research_runs` and `research_budget_usage`.
`SELECT` without an order returns its rows in an order of its own, an argument of
`create_or_get`. A save also writes the tables of a run's parts, and may raise for them.
-/

namespace DecisionAssurance.Jobs

def RunRow.key (row : RunRow) : String × String := (row.tenantId, row.researchRunId)

def RunRow.fingerprintKey (row : RunRow) : String × String := (row.tenantId, row.semanticFingerprint)

end DecisionAssurance.Jobs

namespace DecisionAssurance.Research

open Interactions Interaction Tables
open Jobs (JobDatabase RunRow)

def ResearchRun.key (run : ResearchRun) : String × String := (run.tenantId, run.researchRunId)

namespace PostgresResearchRepository

variable (db : JobDatabase) (tenant : TenantContext)

/-- A prior run that a request repeats. -/
def repeats (prior run : ResearchRun) : Bool :=
  prior.request = run.request && prior.expectedDocumentHash = run.expectedDocumentHash

/-- The first prior run, in the order of the scan, that a request repeats. -/
def priorRow (scan : List RunRow) (run : ResearchRun) : Option RunRow :=
  (scan.filter fun r => r.tenantId = tenant.tenantId &&
    r.decisionFileId = run.request.decisionFileId).find? fun r => repeats r.run run

def createOrGet (scan : List RunRow) (run : ResearchRun) : Raises (ResearchRun × JobDatabase) :=
  if tenant.tenantId ≠ run.tenantId then .error (.valueError "TENANT_MISMATCH")
  else
    match lookup RunRow.fingerprintKey (tenant.tenantId, run.semanticFingerprint) db.runs with
    | some row => .ok (row.run, db)
    | none =>
      match priorRow tenant scan run with
      | some row => .ok (row.run, db)
      | none =>
        match db.convergeRun tenant run with
        | .ok ((stored, _), db) => .ok (stored, db)
        | .error _ => .error (.other "UniqueViolation")

def get (runId : String) : Option ResearchRun :=
  (lookup RunRow.key (tenant.tenantId, runId) db.runs).map RunRow.run

/-- `save` on `research_runs`. -/
def save (run : ResearchRun) : Raises JobDatabase :=
  if tenant.tenantId ≠ run.tenantId then .error (.valueError "TENANT_MISMATCH")
  else if (lookup RunRow.key (tenant.tenantId, run.researchRunId) db.runs).isNone then
    .error (.keyError "RESEARCH_RUN_NOT_FOUND")
  else .ok { db with
    runs := updateWhere (fun r => r.key = (tenant.tenantId, run.researchRunId))
      (fun r => { r with run := run }) db.runs }

def reserveBudget (runId : String) (limit : ℕ) : Raises (ℕ × JobDatabase) :=
  if limit < 1 then .error (.valueError "BUDGET_EXCEEDED")
  else
    match db.budgets.find? fun b => b.tenantId = tenant.tenantId && b.researchRunId = runId with
    | none => .error (.keyError "RESEARCH_RUN_NOT_FOUND")
    | some row =>
      if limit ≤ row.usedUnits then .error (.valueError "BUDGET_EXCEEDED")
      else .ok (row.usedUnits + 1, { db with
        budgets := updateWhere
          (fun b => b.tenantId = tenant.tenantId && b.researchRunId = runId)
          (fun b => { b with usedUnits := b.usedUnits + 1 }) db.budgets })

/-- The order in which an unordered `SELECT` returns the rows of a table. -/
structure ScanOrder where
  scan : List RunRow → List RunRow
  perm : ∀ rows, (scan rows).Perm rows

/-- An event of an orchestrator, served by the database; a call that raises leaves it as it is. -/
def Serves (order : ScanOrder) (db : JobDatabase) : ResearchEvent → JobDatabase → Prop
  | ⟨.createOrGet tenant run, .ok stored⟩, db' =>
    createOrGet db tenant (order.scan db.runs) run = .ok (stored, db')
  | ⟨.getRun tenant runId, .ok found⟩, db' => found = get db tenant runId ∧ db' = db
  | ⟨.save tenant run, .ok ()⟩, db' => save db tenant run = .ok db'
  | ⟨.record tenant run, .ok ()⟩, db' => save db tenant run = .ok db'
  | ⟨.reserveBudget tenant runId limit, .ok used⟩, db' =>
    reserveBudget db tenant runId limit = .ok (used, db')
  | _, db' => db' = db

variable {order : ScanOrder} {db tenant} {db' : JobDatabase} {run run₀ : ResearchRun}
  {scan : List RunRow} {x : ResearchEvent} {t : ResearchLog} {k : String × String}

/-! ## The stored run of a key -/

def storedRun (db : JobDatabase) (k : String × String) : Option ResearchRun :=
  (lookup RunRow.key k db.runs).map RunRow.run

theorem save_cases (h : save db tenant run = .ok db') :
    tenant.tenantId = run.tenantId ∧ db' = { db with
      runs := updateWhere (fun r => r.key = run.key) (fun r => { r with run := run }) db.runs } := by
  unfold save at h
  split_ifs at h with htenant hrow
  rw [not_not] at htenant
  cases h
  exact ⟨htenant, by rw [ResearchRun.key, htenant]⟩

theorem storedRun_save (h : save db tenant run = .ok db') (hk : storedRun db k = some run₀) :
    storedRun db' k = some (if run.key = k then run else run₀) := by
  obtain ⟨-, rfl⟩ := save_cases h
  obtain ⟨row, hrow, rfl⟩ := Option.map_eq_some_iff.mp hk
  have hupdate : lookup RunRow.key k (updateWhere (fun r => r.key = run.key)
      (fun r => { r with run := run }) db.runs) = (lookup RunRow.key k db.runs).map fun r =>
        if decide (r.key = run.key) then { r with run := run } else r :=
    lookup_updateWhere fun _ _ => rfl
  rw [storedRun, hupdate, hrow, Option.map_some, Option.map_some, key_of_lookup hrow]
  by_cases hkey : run.key = k
  · simp only [hkey, decide_true, if_true]
  · simp only [hkey, Ne.symm hkey, decide_false, if_false, Bool.false_eq_true]

theorem find_fingerprint (rows : List RunRow) (tenantId fingerprint : String) :
    (rows.find? fun r => r.tenantId = tenantId && r.semanticFingerprint = fingerprint) =
      lookup RunRow.fingerprintKey (tenantId, fingerprint) rows := by
  refine congrArg (fun p => rows.find? p) (funext fun r => ?_)
  simp only [RunRow.fingerprintKey, Prod.mk.injEq, Bool.decide_and]

/-- The convergence on a run: its row is there, or it is inserted. -/
theorem convergeRun_cases {inserted : (ResearchRun × Bool) × JobDatabase}
    (htenant : tenant.tenantId = run.tenantId) (h : db.convergeRun tenant run = .ok inserted) :
    (lookup RunRow.fingerprintKey (tenant.tenantId, run.semanticFingerprint) db.runs ≠ none ∧
      inserted.2 = db) ∨
    lookup RunRow.fingerprintKey (tenant.tenantId, run.semanticFingerprint) db.runs = none ∧
      inserted.1.1 = run ∧ lookup RunRow.key run.key db.runs = none ∧
      inserted.2.runs = db.runs ++ [⟨tenant.tenantId, run.researchRunId,
        run.request.decisionFileId, run.semanticFingerprint, run⟩] := by
  unfold JobDatabase.convergeRun at h
  rw [find_fingerprint] at h
  split at h
  · rename_i row hrow
    cases h
    exact .inl ⟨by rw [hrow]; exact Option.some_ne_none row, rfl⟩
  · rename_i hfp
    split_ifs at h with hkey hbudget
    cases h
    refine .inr ⟨hfp, rfl, lookup_eq_none.mpr fun row hrow hrun => hkey ?_, rfl⟩
    have hparts := Prod.mk.inj hrun
    exact List.any_eq_true.mpr ⟨row, hrow, by simp only [hparts, htenant, decide_true,
      Bool.and_self]⟩

/-- The rows after `create_or_get`: as they were, or with the row of the new run. -/
theorem createOrGet_cases {stored : ResearchRun}
    (h : createOrGet db tenant scan run = .ok (stored, db')) : tenant.tenantId = run.tenantId ∧
    (db' = db ∧ ((∃ row, lookup RunRow.fingerprintKey (tenant.tenantId, run.semanticFingerprint)
        db.runs = some row ∧ stored = row.run) ∨
      lookup RunRow.fingerprintKey (tenant.tenantId, run.semanticFingerprint) db.runs = none ∧
        ∃ row, priorRow tenant scan run = some row ∧ stored = row.run) ∨
    lookup RunRow.fingerprintKey (tenant.tenantId, run.semanticFingerprint) db.runs = none ∧
      priorRow tenant scan run = none ∧ stored = run ∧
      lookup RunRow.key run.key db.runs = none ∧
      db'.runs = db.runs ++ [⟨tenant.tenantId, run.researchRunId, run.request.decisionFileId,
        run.semanticFingerprint, run⟩]) := by
  unfold createOrGet at h
  split_ifs at h with htenant
  rw [not_not] at htenant
  refine ⟨htenant, ?_⟩
  cases hfp : lookup RunRow.fingerprintKey (tenant.tenantId, run.semanticFingerprint) db.runs with
  | some row =>
    simp only [hfp] at h
    cases h
    exact .inl ⟨rfl, .inl ⟨row, rfl, rfl⟩⟩
  | none =>
    simp only [hfp] at h
    cases hprior : priorRow tenant scan run with
    | some row =>
      simp only [hprior] at h
      cases h
      exact .inl ⟨rfl, .inr ⟨rfl, row, rfl, rfl⟩⟩
    | none =>
      simp only [hprior] at h
      cases hconverge : db.convergeRun tenant run with
      | error e => simp only [hconverge, reduceCtorEq] at h
      | ok inserted =>
        simp only [hconverge] at h
        cases h
        rcases convergeRun_cases htenant hconverge with ⟨hsome, -⟩ | ⟨-, hinserted⟩
        · exact absurd hfp hsome
        · exact .inr ⟨rfl, rfl, hinserted⟩

theorem serves_write (h : Serves order db x db') (hx : writtenIn x = some run) :
    ∃ tenant, save db tenant run = .ok db' := by
  obtain ⟨c, a⟩ := x
  cases c with
  | save tenant saved =>
    rcases a with e | u
    · cases hx
    · cases hx
      exact ⟨tenant, h⟩
  | record tenant saved =>
    rcases a with e | u
    · cases hx
    · cases hx
      exact ⟨tenant, h⟩
  | _ => cases hx

theorem reserveBudget_runs {runId : String} {limit used : ℕ}
    (h : reserveBudget db tenant runId limit = .ok (used, db')) : db'.runs = db.runs := by
  unfold reserveBudget at h
  split_ifs at h
  split at h
  · cases h
  · split_ifs at h
    cases h
    rfl

/-- An event that writes no run adds a row at most. -/
theorem serves_other (h : Serves order db x db') (hx : writtenIn x = none) :
    db'.runs = db.runs ∨ ∃ tenant run, (∃ answer, x = ⟨.createOrGet tenant run, answer⟩) ∧
      lookup RunRow.fingerprintKey (tenant.tenantId, run.semanticFingerprint) db.runs = none ∧
      lookup RunRow.key run.key db.runs = none ∧ tenant.tenantId = run.tenantId ∧
      db'.runs = db.runs ++ [⟨tenant.tenantId, run.researchRunId, run.request.decisionFileId,
        run.semanticFingerprint, run⟩] := by
  obtain ⟨c, a⟩ := x
  cases c with
  | createOrGet tenant run =>
    rcases a with e | stored
    · exact .inl (congrArg JobDatabase.runs h)
    · obtain ⟨htenant, ⟨rfl, -⟩ | ⟨hfp, -, -, hkey, hruns⟩⟩ := createOrGet_cases h
      · exact .inl rfl
      · exact .inr ⟨tenant, run, ⟨_, rfl⟩, hfp, hkey, htenant, hruns⟩
  | getRun tenant runId =>
    rcases a with e | found
    · exact .inl (congrArg JobDatabase.runs h)
    · exact .inl (congrArg JobDatabase.runs h.2)
  | save tenant run =>
    rcases a with e | u
    · exact .inl (congrArg JobDatabase.runs h)
    · cases hx
  | record tenant run =>
    rcases a with e | u
    · exact .inl (congrArg JobDatabase.runs h)
    · cases hx
  | reserveBudget tenant runId limit =>
    rcases a with e | used
    · exact .inl (congrArg JobDatabase.runs h)
    · exact .inl (reserveBudget_runs h)
  | _ => exact .inl (congrArg JobDatabase.runs h)

/-- The stored run of a key after an event: the run it wrote, if it wrote that key. -/
theorem storedRun_serves (h : Serves order db x db') (hk : storedRun db k = some run₀) :
    storedRun db' k = some (match writtenIn x with
      | some run => if run.key = k then run else run₀
      | none => run₀) := by
  cases hx : writtenIn x with
  | some run =>
    obtain ⟨tenant, hsave⟩ := serves_write h hx
    exact storedRun_save hsave hk
  | none =>
    rcases serves_other h hx with hruns | ⟨tenant, run, -, -, -, -, hruns⟩
    · rw [storedRun, hruns]
      exact hk
    · obtain ⟨row, hrow, rfl⟩ := Option.map_eq_some_iff.mp hk
      rw [storedRun, hruns, lookup_append_singleton, hrow, Option.some_or, Option.map_some]

/-! ## The table of runs -/

/-- The rows of `research_runs`: their keys are unique, their columns are those of their runs. -/
structure RunTable (lib : ResearchLibrary) (db : JobDatabase) : Prop where
  keyed : Keyed RunRow.key db.runs
  fingerprints : Keyed RunRow.fingerprintKey db.runs
  columns : ∀ row ∈ db.runs, row.run.key = row.key ∧
    row.run.request.decisionFileId = row.decisionFileId
  persisted : ∀ row ∈ db.runs, Persisted lib row.run
  tenants : ∀ row ∈ db.runs, isTenantId row.tenantId = true

variable {lib : ResearchLibrary}

theorem runTable_of_runs (h : RunTable lib db) (hruns : db'.runs = db.runs) : RunTable lib db' :=
  ⟨hruns ▸ h.keyed, hruns ▸ h.fingerprints, hruns ▸ h.columns, hruns ▸ h.persisted,
    hruns ▸ h.tenants⟩

theorem RunTable.insert (h : RunTable lib db) (htenant : tenant.tenantId = run.tenantId)
    (hfp : lookup RunRow.fingerprintKey (tenant.tenantId, run.semanticFingerprint) db.runs = none)
    (hkey : lookup RunRow.key run.key db.runs = none) (hrun : Persisted lib run)
    (hruns : db'.runs = db.runs ++ [⟨tenant.tenantId, run.researchRunId,
      run.request.decisionFileId, run.semanticFingerprint, run⟩]) : RunTable lib db' := by
  have hrow : (⟨tenant.tenantId, run.researchRunId, run.request.decisionFileId,
      run.semanticFingerprint, run⟩ : RunRow).key = run.key := by
    rw [RunRow.key, ResearchRun.key, htenant]
  constructor
  · rw [hruns]
    exact keyed_append_singleton h.keyed fun r hr => hrow ▸ lookup_eq_none.mp hkey r hr
  · rw [hruns]
    exact keyed_append_singleton h.fingerprints (lookup_eq_none.mp hfp)
  · intro row hmem
    rw [hruns] at hmem
    rcases List.mem_append.mp hmem with hmem | hmem
    · exact h.columns row hmem
    · rw [List.mem_singleton.mp hmem]
      exact ⟨hrow.symm, rfl⟩
  · intro row hmem
    rw [hruns] at hmem
    rcases List.mem_append.mp hmem with hmem | hmem
    · exact h.persisted row hmem
    · rw [List.mem_singleton.mp hmem]
      exact hrun
  · intro row hmem
    rw [hruns] at hmem
    rcases List.mem_append.mp hmem with hmem | hmem
    · exact h.tenants row hmem
    · rw [List.mem_singleton.mp hmem]
      exact tenant.valid

theorem createOrGet_runTable {stored : ResearchRun} (h : RunTable lib db)
    (hget : createOrGet db tenant scan run = .ok (stored, db')) (hrun : Persisted lib run) :
    RunTable lib db' := by
  obtain ⟨htenant, ⟨rfl, -⟩ | ⟨hfp, -, -, hkey, hruns⟩⟩ := createOrGet_cases hget
  · exact h
  · exact h.insert htenant hfp hkey hrun hruns

theorem RunTable.save (h : RunTable lib db) (hsave : save db tenant run = .ok db')
    (hstored : ∀ stored, storedRun db run.key = some stored → run.request = stored.request)
    (hrun : Persisted lib run) : RunTable lib db' := by
  obtain ⟨-, rfl⟩ := save_cases hsave
  refine ⟨keyed_updateWhere ?_ h.keyed, keyed_updateWhere ?_ h.fingerprints, fun row hrow => ?_,
    fun row hrow => ?_, fun row hrow => ?_⟩
  · exact fun _ _ => rfl
  · exact fun _ _ => rfl
  · obtain ⟨row₀, hrow₀, rfl⟩ := mem_updateWhere.mp hrow
    split_ifs with hkey
    · rw [decide_eq_true_eq] at hkey
      refine ⟨hkey.symm, ?_⟩
      have hstored₀ : storedRun db run.key = some row₀.run := by
        rw [storedRun, (h.keyed.lookup_eq_some (k := run.key)).mpr ⟨hrow₀, hkey⟩, Option.map_some]
      dsimp only
      rw [hstored row₀.run hstored₀]
      exact (h.columns row₀ hrow₀).2
    · exact h.columns row₀ hrow₀
  · obtain ⟨row₀, hrow₀, rfl⟩ := mem_updateWhere.mp hrow
    split_ifs
    · exact hrun
    · exact h.persisted row₀ hrow₀
  · obtain ⟨row₀, hrow₀, rfl⟩ := mem_updateWhere.mp hrow
    split_ifs <;> exact h.tenants row₀ hrow₀

theorem RunTable.stored {row : RunRow} (h : RunTable lib db) (hrow : row ∈ db.runs) :
    storedRun db row.run.key = some row.run := by
  rw [storedRun, (h.columns row hrow).1, h.keyed.lookup_eq_some.mpr ⟨hrow, rfl⟩, Option.map_some]

theorem save_stored (h : save db tenant run = .ok db') : storedRun db' run.key = some run := by
  have hsave := h
  unfold save at h
  split_ifs at h with htenant hrow
  rw [not_not] at htenant
  rw [Bool.not_eq_true, Option.isNone_eq_false_iff, Option.isSome_iff_exists, htenant] at hrow
  obtain ⟨row, hrow⟩ := hrow
  have hstored : storedRun db run.key = some row.run := by
    rw [storedRun, ResearchRun.key, hrow, Option.map_some]
  rw [storedRun_save hsave hstored, if_pos rfl]

/-- The store holds the runs that it shows. -/
theorem serves_seen (h : Serves order db x db') (hdb : RunTable lib db)
    (hx : seenIn x = some run) : storedRun db' run.key = some run := by
  obtain ⟨c, a⟩ := x
  cases c with
  | createOrGet tenant proposed =>
    rcases a with e | stored
    · cases hx
    · cases hx
      obtain ⟨htenant, ⟨rfl, ⟨row, hrow, rfl⟩ | ⟨-, row, hrow, rfl⟩⟩ | ⟨-, -, rfl, hkey, hruns⟩⟩ :=
        createOrGet_cases h
      · exact hdb.stored (mem_of_lookup hrow)
      · exact hdb.stored ((order.perm _).subset (List.mem_of_mem_filter
          (List.mem_of_find?_eq_some hrow)))
      · rw [storedRun, hruns, lookup_append_singleton, hkey, Option.none_or]
        simp only [RunRow.key, ResearchRun.key, htenant, if_true, Option.map_some]
  | getRun tenant runId =>
    rcases a with e | found
    · cases hx
    · cases found with
      | none => cases hx
      | some found =>
        cases hx
        obtain ⟨hfound, rfl⟩ := h
        obtain ⟨row, hrow, rfl⟩ := Option.map_eq_some_iff.mp hfound.symm
        exact hdb.stored (mem_of_lookup hrow)
  | save tenant saved =>
    rcases a with e | u
    · cases hx
    · cases hx
      exact save_stored h
  | record tenant saved =>
    rcases a with e | u
    · cases hx
    · cases hx
      exact save_stored h
  | _ => cases hx

end PostgresResearchRepository

end DecisionAssurance.Research
