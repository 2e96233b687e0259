import DecisionAssurance.RunChanges

/-!
# The steps of a run

Seen from its ledger, a run changes in four ways: its status is moved, a residency decision is
recorded, an attempt is reserved, and what has been found is annotated. Every change of a run is
such a step, so every run that is stored comes from the one read by steps.
-/

namespace DecisionAssurance.Research

open Interactions Interaction ResearchStatus ResearchOrchestrator

variable {o : ResearchOrchestrator} {tenant : TenantContext} {base run run' : ResearchRun}
  {t t' : ResearchLog} {x : ResearchEvent}

/-! ## Steps -/

/-- The calls an attempt was made for. -/
def ResearchAttempt.call (a : ResearchAttempt) : String × Option String := (a.operation, a.sourceId)

/-- What stays of a candidate: its id and the claims it is for. -/
def EvidenceCandidate.citation (e : EvidenceCandidate) : String × List String :=
  (e.evidenceId, e.claimRefs)

/-- A candidate with an id of its own, for the claims of the request. -/
structure Gathers (run : ResearchRun) (e : EvidenceCandidate) : Prop where
  fresh : e.evidenceId ∉ run.evidence.map EvidenceCandidate.evidenceId
  named : nonEmpty e.evidenceId = true
  claims : e.claimRefs = run.request.claimRefs

/-- A change of a run outside its ledger that makes no attempt; it may add one piece of evidence. -/
structure Annotates (run run' : ResearchRun) : Prop where
  id : run'.researchRunId = run.researchRunId
  tenant : run'.tenantId = run.tenantId
  request : run'.request = run.request
  status : run'.status = run.status
  events : run'.auditEvents = run.auditEvents
  calls : run'.attempts.map ResearchAttempt.call = run.attempts.map ResearchAttempt.call
  evidence : run'.evidence.map EvidenceCandidate.citation =
      run.evidence.map EvidenceCandidate.citation ∨
    ∃ e, run'.evidence = run.evidence ++ [e] ∧ Gathers run e

/-- What an orchestrator does to the run in hand. -/
inductive Step (o : ResearchOrchestrator) : ResearchRun → ResearchRun → Prop
  | moved {run : ResearchRun} {target : ResearchStatus} {retry : Bool}
      (occurredAt actorId : String) (reasonCodes : List String) (payload : Json) :
      transition run.status target retry = .ok () →
      (retry = true → reasonCodes = [retryReason]) →
      Step o run (run.moved o.pf target occurredAt actorId reasonCodes payload)
  | recorded (run : ResearchRun) (d : EgressDecision) : Step o run (appendEgressDecision o.pf run d)
  | reserved {run : ResearchRun} {operation : String} {sourceId : Option String}
      (providerId occurredAt : String) (used : ℕ) :
      o.canAttempt run operation sourceId = true →
      Step o run { run with
        providerCostUnits := used
        attempts := run.attempts ++
          [ResearchOrchestrator.attemptOf run providerId operation occurredAt sourceId] }
  | annotated {run run' : ResearchRun} : Annotates run run' → Step o run run'

/-- A run comes from another by steps. -/
abbrev Evolves (o : ResearchOrchestrator) : ResearchRun → ResearchRun → Prop :=
  Relation.ReflTransGen (Step o)

theorem Step.identity (h : Step o run run') :
    run'.researchRunId = run.researchRunId ∧ run'.tenantId = run.tenantId := by
  cases h with
  | annotated h => exact ⟨h.id, h.tenant⟩
  | _ => exact ⟨rfl, rfl⟩

/-- What every step preserves, the evolution of a run preserves. -/
theorem Evolves.invariant {I : ResearchRun → Prop} (h : Evolves o base run)
    (hI : ∀ run run', I run → Step o run run' → I run') (hbase : I base) : I run := by
  induction h with
  | refl => exact hbase
  | tail _ hstep ih => exact hI _ _ ih hstep

theorem Evolves.identity (h : Evolves o base run) :
    run.researchRunId = base.researchRunId ∧ run.tenantId = base.tenantId := by
  refine h.invariant (I := fun run => run.researchRunId = base.researchRunId ∧
    run.tenantId = base.tenantId) (fun run run' hrun hstep => ?_) ⟨rfl, rfl⟩
  exact ⟨hstep.identity.1.trans hrun.1, hstep.identity.2.trans hrun.2⟩

/-! ## Changes are steps -/

theorem changeLast_calls (change : ResearchAttempt → ResearchAttempt)
    (hchange : ∀ a, (change a).call = a.call) (attempts : List ResearchAttempt) :
    (changeLast change attempts).map ResearchAttempt.call =
      attempts.map ResearchAttempt.call := by
  refine List.ext_getElem? fun i => ?_
  unfold changeLast
  rw [List.getElem?_map, List.getElem?_map, List.getElem?_modify]
  cases attempts[i]? with
  | none => rfl
  | some a =>
    simp only [Option.map_eq_map, Option.map_some, Option.some.injEq]
    split_ifs
    · exact hchange a
    · rfl

theorem evidenceId_nonEmpty {snapshot : SourceSnapshot} :
    nonEmpty (o.evidenceId run snapshot) = true := by
  unfold evidenceId nonEmpty
  rw [String.toList_append]
  rfl

theorem addSnapshot_annotates {c : Candidate} {snapshot : SourceSnapshot}
    {assessment : EvidenceAssessment} :
    Annotates run (o.addSnapshot tenant run c snapshot assessment) := by
  refine ⟨rfl, rfl, rfl, rfl, rfl, rfl, ?_⟩
  unfold addSnapshot changeSource
  dsimp only
  split_ifs with hknown
  · exact .inl rfl
  · refine .inr ⟨_, rfl, fun hmem => hknown ?_, evidenceId_nonEmpty, rfl⟩
    obtain ⟨e, he, hid⟩ := List.mem_map.mp hmem
    exact List.any_eq_true.mpr ⟨e, he, decide_eq_true hid⟩

theorem markConflictingEvidence_annotates (casefold : String → String) :
    Annotates run (markConflictingEvidence casefold run) := by
  refine ⟨rfl, rfl, rfl, rfl, rfl, rfl, .inl ?_⟩
  unfold markConflictingEvidence
  rw [List.map_map]
  refine List.map_congr_left fun e _ => ?_
  simp only [Function.comp_apply]
  split_ifs <;> rfl

theorem SameRecord.annotates (h : SameRecord run run') : Annotates run run' where
  id := h.id
  tenant := h.tenant
  request := h.request
  status := h.status
  events := h.events
  calls := by rw [h.attempts]
  evidence := .inl (by rw [h.evidence])

/-- Every change of a run is a step. -/
theorem Change.step {supply : Supply} (h : Change o supply tenant run run') : Step o run run' := by
  cases h with
  | moved occurredAt actorId reasonCodes payload hallowed hretry =>
    exact .moved occurredAt actorId reasonCodes payload hallowed hretry
  | recorded d => exact .recorded run d
  | reserved providerId occurredAt used hattempt =>
    exact .reserved providerId occurredAt used hattempt
  | succeeded =>
    have hcalls := changeLast_calls (fun a => { a with status := "SUCCEEDED" }) (fun _ => rfl)
      run.attempts
    exact .annotated ⟨rfl, rfl, rfl, rfl, rfl, hcalls, .inl rfl⟩
  | failed error =>
    have hcalls := changeLast_calls (fun a => { a with
      status := "FAILED", reasonCode := some error.reasonCode }) (fun _ => rfl) run.attempts
    exact .annotated ⟨rfl, rfl, rfl, rfl, rfl, hcalls, .inl rfl⟩
  | gathered => exact .annotated addSnapshot_annotates
  | marked => exact .annotated (markConflictingEvidence_annotates o.lib.casefold)
  | described h => exact .annotated h.annotates
  | _ => exact .annotated ⟨rfl, rfl, rfl, rfl, rfl, rfl, .inl rfl⟩

theorem Changes.evolves {supply : Supply} (h : Changes o supply tenant base run) :
    Evolves o base run := by
  induction h with
  | refl => exact .refl
  | tail _ hchange ih => exact ih.tail hchange.step

/-! ## Events -/

/-- Evidence that a run in hand after a log has compiled for its document. -/
structure Compiles (o : ResearchOrchestrator) (tenant : TenantContext) (t : ResearchLog)
    (decisionFileId hash : String) (evidence : List DecisionEvidence) : Prop where
  nonempty : evidence ≠ []
  compiled : ∃ base run, runRead t = some base ∧ base.tenantId = tenant.tenantId ∧
    Evolves o base run ∧ ResearchEvidenceCompiler.compile run = some evidence ∧
    run.request.decisionFileId = decisionFileId ∧ run.expectedDocumentHash = hash

/-- The run in hand after a log has come from the one read by steps. -/
structure InHand (o : ResearchOrchestrator) (tenant : TenantContext) (t : ResearchLog)
    (run : ResearchRun) : Prop where
  evolves : ∃ base, runRead t = some base ∧ base.tenantId = tenant.tenantId ∧ Evolves o base run
  covered : Covered t

theorem Underway.inHand {supply : Supply} (h : Underway o supply tenant t run) :
    InHand o tenant t run := by
  obtain ⟨base, last, hbase, htenant, -, hstored, hrun⟩ := h.changes
  exact ⟨⟨base, hbase, htenant, Changes.evolves (hstored.trans hrun)⟩, h.covered⟩

namespace ResearchOrchestrator

/-! ## The terms of a history -/

/-- A run is read once, for the tenant; every run that is stored has come from it by steps, units
are reserved for it under the limit of the policy, every call of a provider has its unit, and what
is attached to a document is what the run has compiled for it. -/
def history (o : ResearchOrchestrator) (tenant : TenantContext) : Terms researchCalls where
  may t
    | .createOrGet tenant' run => tenant' = tenant ∧ runRead t = none ∧ Proposes o tenant run
    | .getRun tenant' _ => tenant' = tenant ∧ runRead t = none
    | .save tenant' run | .record tenant' run => tenant' = tenant ∧ ∃ base, runRead t = some base ∧
        base.tenantId = tenant.tenantId ∧ Evolves o base run
    | .reserveBudget tenant' runId limit => tenant' = tenant ∧ limit = o.policy.providerBudget ∧
        ∃ base, runRead t = some base ∧ base.tenantId = tenant.tenantId ∧
          base.researchRunId = runId
    | .search _ | .extract _ => t.countP spends < t.countP reserves
    | .attach tenant' decisionFileId hash evidence => tenant' = tenant ∧
        Compiles o tenant t decisionFileId hash evidence
    | _ => True
  given
    | _, ⟨.createOrGet tenant _, .ok run⟩ => run.tenantId = tenant.tenantId
    | _, ⟨.getRun tenant _, .ok (some run)⟩ => run.tenantId = tenant.tenantId
    | _, _ => True

/-- What a chronicle permits, the history permits. -/
theorem chronicle_history {supply : Supply} {c : ResearchCall}
    (h : (o.chronicle supply tenant).may t c) : (o.history tenant).may t c := by
  cases c with
  | save | record =>
    obtain ⟨htenant, hrun⟩ := h
    exact ⟨htenant, hrun.inHand.evolves⟩
  | reserveBudget =>
    obtain ⟨htenant, hlimit, run, hrun, hid⟩ := h
    obtain ⟨base, hbase, howner, hevolves⟩ := hrun.inHand.evolves
    exact ⟨htenant, hlimit, base, hbase, howner, hevolves.identity.1.symm.trans hid⟩
  | attach =>
    obtain ⟨htenant, hne, run, hrun, hcompile, hfile, hhash⟩ := h
    obtain ⟨base, hbase, howner, hevolves⟩ := hrun.inHand.evolves
    exact ⟨htenant, hne, base, run, hbase, howner, hevolves, hcompile, hfile, hhash⟩
  | _ => exact h

theorem history_chronicle {x : ResearchEvent} (h : (o.history tenant).given t x) :
    (o.chronicle .any tenant).given t x := by
  refine ⟨?_, Supply.allows_any⟩
  obtain ⟨c, a⟩ := x
  cases c with
  | createOrGet =>
    rcases a with e | run
    · trivial
    · exact h
  | getRun =>
    rcases a with e | _ | run
    · trivial
    · trivial
    · exact h
  | _ => trivial

/-- What a program that reads a run ensures. -/
abbrev Reading (o : ResearchOrchestrator) (tenant : TenantContext) (p : Program ResearchRun)
    (t : ResearchLog) : Prop :=
  p.Ensures (o.history tenant) (fun r t' => ∀ run, r = .ok run → InHand o tenant t' run) t

theorem Opens.reading {p : Program ResearchRun} (h : o.Opens .any tenant p t) :
    o.Reading tenant p t := by
  have hread : p.Ensures (o.chronicle .any tenant)
      (fun r t' => ∀ run, r = .ok run → InHand o tenant t' run) t :=
    Ensures.mono h fun _ _ hr run hrun => (hr.value run hrun).inHand
  exact hread.under (fun _ _ => chronicle_history) fun _ _ => history_chronicle

end ResearchOrchestrator

end DecisionAssurance.Research
