import DecisionAssurance.RunHistories

/-!
# Runs as they are written

Another store takes every run that is written, one after the other. What relates it to the rows of
the runs is kept by a history, where it is kept by a run that is inserted and by one that is
written over the run it has come from by changes.
-/

namespace DecisionAssurance.Research

open Interactions Interaction Tables PostgresResearchRepository ResearchOrchestrator
open Jobs (JobDatabase JobBackend RunRow Instant)

variable {σ : Type} {takes : σ → ResearchRun → σ → Prop} {s s₁ s' : σ}
  {J : List RunRow → σ → Prop} {b : JobBackend} {order : ScanOrder} {db db₁ db' : JobDatabase}
  {lib : ResearchLibrary} {os : ResearchOrchestrator → Prop} {o : ResearchOrchestrator}
  {supply : Supply} {p q : Program ResearchRun} {tenant : TenantContext} {run last : ResearchRun}
  {t : ResearchLog} {ts : List ResearchLog} {x : ResearchEvent}

/-- A store takes the run that an event writes. -/
def Takes (takes : σ → ResearchRun → σ → Prop) (s : σ) (x : ResearchEvent) (s' : σ) : Prop :=
  match writtenIn x with
  | some run => takes s run s'
  | none => s' = s

/-! ## Operations -/

variable (b order supply) in
/-- Every call of an operation is one that its chronicle permits. -/
theorem Operation.chronicled (h : Operation o p) : ∃ tenant, ∀ {t x q db db'},
    p.Follows (t ++ [x]) q → Served (Answers b order) db t db' → Deployed o.lib db →
    (∀ y ∈ t, supply.Allows y) → (o.chronicle supply tenant).may t x.1 := by
  obtain ⟨tenant, hopens⟩ := h.opens
  refine ⟨tenant, fun hp hserved hdb hsupply => ?_⟩
  obtain ⟨p', hp', -⟩ := follows_append_cases hp
  have hgrants : (o.history tenant).Grants [] _ := h.grants hp' hserved hdb
  apply Ensures.permitted (hopens supply) hp
  rintro pre y post rfl
  exact ⟨(history_chronicle (hgrants pre y post rfl)).1,
    hsupply y (List.mem_append_right _ List.mem_cons_self)⟩

/-- The store holds the run that a run in hand has come from by changes. -/
theorem Underway.held (h : Underway o supply tenant t run) (hdb : Reflects db t) :
    ∃ last, storedRun db run.key = some last ∧ Changes o supply tenant last run := by
  obtain ⟨base, last, -, -, hlast, -, hrun⟩ := h.changes
  have hkey : run.key = last.key := by
    have hsame := hrun.evolves.identity
    rw [ResearchRun.key, ResearchRun.key, hsame.1, hsame.2]
  exact ⟨last, hkey ▸ hdb last hlast, hrun⟩

/-- What runs that are inserted and runs that are written over others keep. -/
structure Keeps (o : ResearchOrchestrator) (supply : Supply) (takes : σ → ResearchRun → σ → Prop)
    (J : List RunRow → σ → Prop) : Prop where
  inserted : ∀ rows s tenant run row, J rows s → o.Proposes tenant run → row.run = run →
    row.key = run.key → lookup RunRow.key run.key rows = none → J (rows ++ [row]) s
  written : ∀ rows s tenant last run s', J rows s →
    (lookup RunRow.key run.key rows).map RunRow.run = some last →
    Changes o supply tenant last run → takes s run s' →
    J (updateWhere (fun r => r.key = run.key) (fun r => { r with run := run }) rows) s'

/-- An event of an operation keeps what is kept. -/
theorem Keeps.serves (hJ : Keeps o supply takes J) (h : J db.runs s)
    (hserves : Serves order db x db') (htakes : Takes takes s x s') (hdb : Reflects db t)
    (hmay : (o.chronicle supply tenant).may t x.1) : J db'.runs s' := by
  unfold Takes at htakes
  cases hw : writtenIn x with
  | some run =>
    have hrun : Underway o supply tenant t run := by
      obtain ⟨c, a⟩ := x
      cases c with
      | save | record =>
        rcases a with e | u
        · cases hw
        · cases hw
          exact hmay.2
      | _ => cases hw
    obtain ⟨last, hlast, hchanges⟩ := hrun.held hdb
    obtain ⟨_, hsave⟩ := serves_write hserves hw
    obtain ⟨-, rfl⟩ := save_cases hsave
    rw [hw] at htakes
    exact hJ.written _ _ _ _ _ _ h hlast hchanges htakes
  | none =>
    rw [hw] at htakes
    obtain rfl : s' = s := htakes
    rcases serves_other hserves hw with hruns | ⟨_, run, ⟨answer, rfl⟩, -, hkey, htenant, hruns⟩
    · rw [hruns]
      exact h
    · rw [hruns]
      refine hJ.inserted _ _ _ _ _ h hmay.2.2 rfl ?_ hkey
      rw [RunRow.key, ResearchRun.key, htenant]

/-- Wherever an operation is, what is kept holds. -/
theorem Operation.holds (h : Operation o p) (hJ : Keeps o supply takes J) (hp : p.Follows t q)
    (hserved : Served (Answers b order) db t db') (htaken : Served (Takes takes) s t s')
    (hdb : Deployed o.lib db) (hsupply : ∀ x ∈ t, supply.Allows x) (hstart : J db.runs s) :
    J db'.runs s' := by
  obtain ⟨tenant, hmay⟩ := h.chronicled b order supply
  induction t using List.reverseRecOn generalizing q db' s' with
  | nil =>
    cases hserved
    cases htaken
    exact hstart
  | append_singleton t x ih =>
    obtain ⟨db₁, ht, hx⟩ := served_append_cases hserved
    obtain ⟨s₁, ht', hx'⟩ := served_append_cases htaken
    obtain ⟨p', hp', -⟩ := follows_append_cases hp
    have hbefore : ∀ y ∈ t, supply.Allows y := fun y hy => hsupply y (List.mem_append_left _ hy)
    have hkept := ih hp' ht ht' hbefore
    obtain ⟨-, -, hreflects⟩ := h.served hp' ht hdb
    cases hx with
    | cons hx hnil =>
      cases hnil
      cases hx' with
      | cons hx' hnil' =>
        cases hnil'
        obtain ⟨db₂, hmeanwhile, hserves⟩ := hx
        rw [← hmeanwhile.runs] at hkept
        refine hJ.serves hkept hserves hx' (fun base hbase => ?_) (hmay hp ht hdb hbefore)
        rw [storedRun, hmeanwhile.runs]
        exact hreflects base hbase

/-! ## Histories -/

theorem submitted_keeps {r : JobDatabase.SubmittedResearch × JobDatabase}
    {actorId documentHash correlationId : String} {request : ResearchRequest}
    {refreshGeneration : Option String} {now : Instant} (hJ : Keeps o supply takes J)
    (h : ResearchSubmissionService.submit o db tenant actorId request documentHash correlationId
      refreshGeneration now = .ok r) (hstart : J db.runs s) : J r.2.runs s := by
  obtain ⟨fingerprint, hfingerprint, hjob⟩ := bind_ok_cases h
  obtain ⟨job, -, hsubmit⟩ := bind_ok_cases hjob
  obtain ⟨-, hruns | ⟨-, hkey, hruns⟩⟩ := JobTables.submit_runs (mapError_ok hsubmit)
  · rw [hruns]
    exact hstart
  · rw [hruns]
    exact hJ.inserted _ _ _ _ _ hstart ⟨_, _, _, _, _, _, _, hfingerprint, rfl⟩ rfl rfl hkey

/-- What is kept holds after a history of operations with answers as supplied. -/
theorem Ran.holds (h : Ran os b order db ts db') (hos : ∀ o, os o → o.lib = lib)
    (hJ : ∀ o, os o → Keeps o supply takes J) (hdb : Deployed lib db)
    (hsupply : ∀ x ∈ ts.flatten, supply.Allows x)
    (htaken : Served (Takes takes) s ts.flatten s') (hstart : J db.runs s) : J db'.runs s' := by
  induction h generalizing s' with
  | nil =>
    cases htaken
    exact hstart
  | operated hran ho hop hp hserved ih =>
    have hdb₁ := hran.deployed hos hdb
    rw [List.flatten_append, List.flatten_singleton] at htaken hsupply
    obtain ⟨s₁, hbefore, hlast⟩ := served_append_cases htaken
    have hkept := ih (fun x hx => hsupply x (List.mem_append_left _ hx)) hbefore
    rw [← hos _ ho] at hdb₁
    exact hop.holds (hJ _ ho) hp hserved hlast hdb₁
      (fun x hx => hsupply x (List.mem_append_right _ hx)) hkept
  | submitted _ ho h ih => exact submitted_keeps (hJ _ ho) h (ih hsupply htaken)
  | @prepared _ _ _ _ _ _ _ _ ho hrun h ih =>
    obtain ⟨htenant, ⟨rfl, -⟩ | ⟨-, -, -, hkey, hruns⟩⟩ := createOrGet_cases h
    · exact ih hsupply htaken
    · rw [hruns]
      refine (hJ _ ho).inserted _ _ _ _ _ (ih hsupply htaken) hrun rfl ?_ hkey
      rw [RunRow.key, ResearchRun.key, htenant]
  | worked _ h ih =>
    rw [h.runs]
    exact ih hsupply htaken

/-- The run that a call saves. -/
def savedBy : ResearchCall → Option ResearchRun
  | .save _ run | .record _ run => some run
  | _ => none

theorem savedBy_written (h : writtenIn x = some run) : savedBy x.1 = some run := by
  obtain ⟨c, a⟩ := x
  cases c with
  | save | record =>
    rcases a with e | u
    · cases h
    · cases h
      rfl
  | _ => cases h

/-- Wherever an operation saves a run after a history, what is kept holds, and the run has come by
changes from the stored one. -/
theorem Ran.saving (h : Ran os b order db₁ ts db) (hos : ∀ o, os o → o.lib = lib)
    (hJ : ∀ o, os o → Keeps o supply takes J) (hdb : Deployed lib db₁) (ho : os o)
    (hop : Operation o p) (hp : p.Follows (t ++ [x]) q)
    (hserved : Served (Answers b order) db t db')
    (hsupply : ∀ y ∈ ts.flatten ++ t, supply.Allows y)
    (htaken : Served (Takes takes) s (ts.flatten ++ t) s') (hstart : J db₁.runs s)
    (hx : savedBy x.1 = some run) : J db'.runs s' ∧ ∃ tenant last,
      (lookup RunRow.key run.key db'.runs).map RunRow.run = some last ∧
        Changes o supply tenant last run := by
  obtain ⟨s₁, hbefore, hlast⟩ := served_append_cases htaken
  have hafter := h.deployed hos hdb
  rw [← hos o ho] at hafter
  have hearlier : ∀ y ∈ ts.flatten, supply.Allows y :=
    fun y hy => hsupply y (List.mem_append_left _ hy)
  have hlater : ∀ y ∈ t, supply.Allows y := fun y hy => hsupply y (List.mem_append_right _ hy)
  have hkept := h.holds hos hJ hdb hearlier hbefore hstart
  obtain ⟨p', hp', -⟩ := follows_append_cases hp
  refine ⟨hop.holds (hJ o ho) hp' hserved hlast hafter hlater hkept, ?_⟩
  obtain ⟨tenant, hmay⟩ := hop.chronicled b order supply
  have hrun : Underway o supply tenant t run := by
    have hpermitted := hmay hp hserved hafter hlater
    obtain ⟨c, a⟩ := x
    cases c with
    | save | record =>
      cases hx
      exact hpermitted.2
    | _ => cases hx
  obtain ⟨last, hstored, hchanges⟩ := hrun.held (hop.served hp' hserved hafter).2.2
  exact ⟨tenant, last, hstored, hchanges⟩

end DecisionAssurance.Research
