import DecisionAssurance.ResearchDeployments
import DecisionAssurance.RunEvolution

/-!
# Histories of a deployment

Operations follow one another on a store, each to its end or to where it is abandoned, while runs
are submitted and other clients work on the jobs. What the steps of a run preserve holds of every
stored run, and the units of a run's budget count the calls that were made for it.
-/

namespace DecisionAssurance.Research

open Interactions Interaction Tables PostgresResearchRepository ResearchOrchestrator
open Jobs (JobDatabase JobBackend RunRow BudgetRow Instant)

variable {b : JobBackend} {order : ScanOrder} {db db₁ db' : JobDatabase} {lib : ResearchLibrary}
  {o : ResearchOrchestrator} {p q : Program ResearchRun} {tenant : TenantContext}
  {run base : ResearchRun} {t : ResearchLog} {ts : List ResearchLog} {x : ResearchEvent}
  {k : String × String}

/-- An operation reads one run, keeps it in hand and returns it. -/
theorem Operation.reading (h : Operation o p) : ∃ tenant, o.Reading tenant p [] := by
  obtain ⟨tenant, hopens⟩ := h.opens
  exact ⟨tenant, (hopens .any).reading⟩

/-! ## Answers of the store -/

/-- A run that the store answers is a stored one, or the one just proposed. -/
theorem serves_answered (h : Serves order db x db') (hx : answeredIn x = some run) :
    (∃ row ∈ db.runs, row.run = run) ∨
      ∃ tenant, x = ⟨.createOrGet tenant run, .ok run⟩ ∧ run.tenantId = tenant.tenantId := by
  obtain ⟨c, a⟩ := x
  cases c with
  | createOrGet tenant proposed =>
    rcases a with e | stored
    · cases hx
    · cases hx
      obtain ⟨htenant, ⟨-, ⟨row, hrow, rfl⟩ | ⟨-, row, hrow, rfl⟩⟩ | ⟨-, -, rfl, -⟩⟩ :=
        createOrGet_cases h
      · exact .inl ⟨row, mem_of_lookup hrow, rfl⟩
      · have hmem := List.mem_of_mem_filter (List.mem_of_find?_eq_some hrow)
        exact .inl ⟨row, (order.perm _).subset hmem, rfl⟩
      · exact .inr ⟨tenant, rfl, htenant.symm⟩
  | getRun tenant runId =>
    rcases a with e | found
    · cases hx
    · obtain ⟨row, hrow, hrun⟩ := Option.map_eq_some_iff.mp (h.1.symm.trans hx)
      exact .inl ⟨row, mem_of_lookup hrow, hrun⟩
  | _ => cases hx

/-- A run that the store answers is one of the tenant. -/
theorem serves_given (h : Serves order db x db') (hdb : RunTable lib db) :
    (o.history tenant).given t x := by
  obtain ⟨c, a⟩ := x
  cases c with
  | createOrGet tenant proposed =>
    rcases a with e | stored
    · trivial
    · obtain ⟨htenant, ⟨-, ⟨row, hrow, rfl⟩ | ⟨-, row, hrow, rfl⟩⟩ | ⟨-, -, rfl, -⟩⟩ :=
        createOrGet_cases h
      · have hkey := (hdb.columns row (mem_of_lookup hrow)).1
        have hfound := key_of_lookup hrow
        exact (Prod.mk.inj hkey).1.trans (Prod.mk.inj hfound).1
      · have hmem := List.mem_filter.mp (List.mem_of_find?_eq_some hrow)
        have hkey := (hdb.columns row ((order.perm _).subset hmem.1)).1
        rw [Bool.and_eq_true, decide_eq_true_eq] at hmem
        exact (Prod.mk.inj hkey).1.trans hmem.2.1
      · exact htenant.symm
  | getRun tenant runId =>
    rcases a with e | _ | found
    · trivial
    · trivial
    · obtain ⟨row, hrow, rfl⟩ := Option.map_eq_some_iff.mp h.1.symm
      have hkey := (hdb.columns row (mem_of_lookup hrow)).1
      have hfound := key_of_lookup hrow
      exact (Prod.mk.inj hkey).1.trans (Prod.mk.inj hfound).1
  | _ => trivial

/-- The answers in a log of an operation are as its history relies on. -/
theorem Operation.grants (h : Operation o p) (hp : p.Follows t q)
    (hserved : Served (Answers b order) db t db') (hdb : Deployed o.lib db) :
    (o.history tenant).Grants [] t := by
  rintro pre x post rfl
  obtain ⟨db₁, hpre, hrest⟩ := served_append_cases hserved
  obtain ⟨p', hp', -⟩ := follows_append_cases hp
  obtain ⟨hdb₁, -⟩ := h.served hp' hpre hdb
  cases hrest with
  | cons hx _ =>
    obtain ⟨db₂, hmeanwhile, hserves⟩ := hx
    exact serves_given hserves (hmeanwhile.deployed hdb₁).runTable

/-- Every call of an operation is one that its history permits. -/
theorem Operation.may (h : Operation o p) (hread : o.Reading tenant p [])
    (hp : p.Follows (t ++ [x]) q) (hserved : Served (Answers b order) db t db')
    (hdb : Deployed o.lib db) : (o.history tenant).may t x.1 := by
  obtain ⟨p', hp', -⟩ := follows_append_cases hp
  exact hread.permitted hp (h.grants hp' hserved hdb)

/-! ## What steps preserve -/

/-- A property that proposed runs have and that steps preserve. -/
structure Hereditary (o : ResearchOrchestrator) (I : ResearchRun → Prop) : Prop where
  proposed : ∀ tenant run, o.Proposes tenant run → I run
  step : ∀ run run', I run → Step o run run' → I run'

variable {I : ResearchRun → Prop}

/-- The rows of a store and the run that a log has read. -/
structure AllHave (I : ResearchRun → Prop) (db : JobDatabase) (t : ResearchLog) : Prop where
  rows : ∀ row ∈ db.runs, I row.run
  read : ∀ base, runRead t = some base → I base

theorem AllHave.serves (hI : Hereditary o I) (h : AllHave I db t) (hx : Serves order db x db')
    (hmay : (o.history tenant).may t x.1) : AllHave I db' (t ++ [x]) := by
  have hread : ∀ base, runRead (t ++ [x]) = some base → I base := by
    intro base hbase
    rw [runRead_snoc] at hbase
    rcases Option.or_eq_some_iff.mp hbase with hbase | ⟨-, hbase⟩
    · exact h.read base hbase
    · rcases serves_answered hx hbase with ⟨row, hrow, rfl⟩ | ⟨_, rfl, -⟩
      · exact h.rows row hrow
      · exact hI.proposed _ _ hmay.2.2
  refine ⟨?_, hread⟩
  cases hw : writtenIn x with
  | some run =>
    have hrun : I run := by
      have hevolves : ∃ base, runRead t = some base ∧ base.tenantId = tenant.tenantId ∧
          Evolves o base run := by
        obtain ⟨c, a⟩ := x
        cases c with
        | save | record =>
          rcases a with e | u
          · cases hw
          · cases hw
            exact hmay.2
        | _ => cases hw
      obtain ⟨base, hbase, -, hevolved⟩ := hevolves
      exact hevolved.invariant hI.step (h.read base hbase)
    obtain ⟨_, hsave⟩ := serves_write hx hw
    obtain ⟨-, rfl⟩ := save_cases hsave
    intro row hrow
    obtain ⟨row₀, hrow₀, rfl⟩ := mem_updateWhere.mp hrow
    split_ifs
    · exact hrun
    · exact h.rows row₀ hrow₀
  | none =>
    rcases serves_other hx hw with hruns | ⟨_, run, ⟨answer, rfl⟩, -, -, -, hruns⟩
    · rw [hruns]
      exact h.rows
    · rw [hruns]
      intro row hrow
      rcases List.mem_append.mp hrow with hrow | hrow
      · exact h.rows row hrow
      · rw [List.mem_singleton.mp hrow]
        exact hI.proposed _ _ hmay.2.2

/-- Wherever an operation is, the stored runs and the one it has read have what steps preserve. -/
theorem Operation.allHave (h : Operation o p) (hI : Hereditary o I) (hp : p.Follows t q)
    (hserved : Served (Answers b order) db t db') (hdb : Deployed o.lib db)
    (hrows : ∀ row ∈ db.runs, I row.run) : AllHave I db' t := by
  obtain ⟨tenant, hread⟩ := h.reading
  induction t using List.reverseRecOn generalizing q db' with
  | nil =>
    cases hserved
    exact ⟨hrows, fun _ h => nomatch h⟩
  | append_singleton t x ih =>
    obtain ⟨db₁, ht, hx⟩ := served_append_cases hserved
    obtain ⟨p', hp', -⟩ := follows_append_cases hp
    have hmay := h.may hread hp ht hdb
    cases hx with
    | cons hx hnil =>
      cases hnil
      obtain ⟨db₂, hmeanwhile, hserves⟩ := hx
      have hbefore := ih hp' ht
      refine AllHave.serves hI ⟨?_, hbefore.read⟩ hserves hmay
      rw [hmeanwhile.runs]
      exact hbefore.rows

/-- A log of an operation keeps what steps preserve, and so does its result. -/
theorem Operation.keeps (h : Operation o p) (hI : Hereditary o I) (hp : p.Follows t q)
    (hserved : Served (Answers b order) db t db') (hdb : Deployed o.lib db)
    (hrows : ∀ row ∈ db.runs, I row.run) :
    (∀ row ∈ db'.runs, I row.run) ∧ ∀ run, q = .done (.ok run) → I run := by
  obtain ⟨tenant, hread⟩ := h.reading
  have hall := h.allHave hI hp hserved hdb hrows
  refine ⟨hall.rows, ?_⟩
  rintro run rfl
  have hinHand := hread.ends hp (h.grants hp hserved hdb) run rfl
  obtain ⟨base, hbase, -, hevolved⟩ := hinHand.evolves
  exact hevolved.invariant hI.step (hall.read base hbase)

/-! ## Histories -/

theorem Meanwhile.single {op : Jobs.JobOp} (hop : ∀ tenant run job, op ≠ .submit tenant run job) :
    Meanwhile b db (Jobs.next b db op) := by
  refine ⟨[op], fun op' hop' => ?_, rfl⟩
  rw [List.mem_singleton.mp hop']
  exact hop

/-- The logs of operations that follow one another on a store, between submissions, preparations
and other work on the jobs. -/
inductive Ran (os : ResearchOrchestrator → Prop) (b : JobBackend) (order : ScanOrder) :
    JobDatabase → List ResearchLog → JobDatabase → Prop
  | nil (db : JobDatabase) : Ran os b order db [] db
  | operated {db db₁ db₂ : JobDatabase} {ts : List ResearchLog} {t : ResearchLog}
      {o : ResearchOrchestrator} {p q : Program ResearchRun} : Ran os b order db ts db₁ → os o →
      Operation o p → p.Follows t q → Served (Answers b order) db₁ t db₂ →
      Ran os b order db (ts ++ [t]) db₂
  | submitted {db db₁ : JobDatabase} {ts : List ResearchLog} {o : ResearchOrchestrator}
      {tenant : TenantContext} {actorId documentHash correlationId : String}
      {request : ResearchRequest} {refreshGeneration : Option String} {now : Instant}
      {r : JobDatabase.SubmittedResearch × JobDatabase} : Ran os b order db ts db₁ → os o →
      ResearchSubmissionService.submit o db₁ tenant actorId request documentHash correlationId
        refreshGeneration now = .ok r → Ran os b order db ts r.2
  | prepared {db db₁ db₂ : JobDatabase} {ts : List ResearchLog} {o : ResearchOrchestrator}
      {tenant : TenantContext} {run stored : ResearchRun} : Ran os b order db ts db₁ → os o →
      o.Proposes tenant run → createOrGet db₁ tenant (order.scan db₁.runs) run = .ok (stored, db₂) →
      Ran os b order db ts db₂
  | worked {db db₁ db₂ : JobDatabase} {ts : List ResearchLog} : Ran os b order db ts db₁ →
      Meanwhile b db₁ db₂ → Ran os b order db ts db₂

variable {os : ResearchOrchestrator → Prop}

theorem Ran.deployed (h : Ran os b order db ts db') (hos : ∀ o, os o → o.lib = lib)
    (hdb : Deployed lib db) : Deployed lib db' := by
  induction h with
  | nil => exact hdb
  | operated _ ho hop hp hserved ih =>
    obtain rfl := hos _ ho
    exact (hop.served hp hserved ih).1
  | submitted _ ho h ih => exact .submitted ih (hos _ ho) h
  | prepared _ ho hrun h ih => exact .prepared ih (hos _ ho) hrun h
  | worked _ h ih => exact h.deployed ih

/-- A submission adds the row of a proposed run at most. -/
theorem submitted_rows {s : JobDatabase.SubmittedResearch} {actorId documentHash correlationId : String}
    {request : ResearchRequest} {refreshGeneration : Option String} {now : Instant}
    (hI : Hereditary o I)
    (h : ResearchSubmissionService.submit o db tenant actorId request documentHash correlationId
      refreshGeneration now = .ok (s, db')) (hrows : ∀ row ∈ db.runs, I row.run) :
    ∀ row ∈ db'.runs, I row.run := by
  obtain ⟨fingerprint, hfingerprint, hjob⟩ := bind_ok_cases h
  obtain ⟨job, -, hsubmit⟩ := bind_ok_cases hjob
  obtain ⟨-, hruns | ⟨-, -, hruns⟩⟩ := JobTables.submit_runs (mapError_ok hsubmit)
  · rw [hruns]
    exact hrows
  · rw [hruns]
    intro row hrow
    rcases List.mem_append.mp hrow with hrow | hrow
    · exact hrows row hrow
    · rw [List.mem_singleton.mp hrow]
      exact hI.proposed _ _ ⟨_, _, _, _, _, _, _, hfingerprint, rfl⟩

/-- What steps preserve holds of every run in a history. -/
theorem Ran.keeps (h : Ran os b order db ts db') (hos : ∀ o, os o → o.lib = lib)
    (hI : ∀ o, os o → Hereditary o I) (hdb : Deployed lib db)
    (hrows : ∀ row ∈ db.runs, I row.run) : ∀ row ∈ db'.runs, I row.run := by
  induction h with
  | nil => exact hrows
  | operated hran ho hop hp hserved ih =>
    have hdb₁ := hran.deployed hos hdb
    obtain rfl := hos _ ho
    exact (hop.keeps (hI _ ho) hp hserved hdb₁ ih).1
  | submitted _ ho h ih => exact submitted_rows (hI _ ho) h ih
  | @prepared _ _ _ _ _ _ _ _ ho hrun h ih =>
    obtain ⟨-, ⟨rfl, -⟩ | ⟨-, -, -, -, hruns⟩⟩ := createOrGet_cases h
    · exact ih
    · rw [hruns]
      intro row hrow
      rcases List.mem_append.mp hrow with hrow | hrow
      · exact ih row hrow
      · rw [List.mem_singleton.mp hrow]
        exact (hI _ ho).proposed _ _ hrun
  | worked _ h ih =>
    rw [h.runs]
    exact ih

end DecisionAssurance.Research
