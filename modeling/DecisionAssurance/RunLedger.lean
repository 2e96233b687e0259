import DecisionAssurance.Chains
import DecisionAssurance.RunHistories
import DecisionAssurance.SubmissionPaths

/-!
# The ledger of a run

`apply_transition` and `append_egress_decision` append to one chain of events, with ids by their
positions. In a history of operations every run's events are chained, have different ids and trace
its status from `CREATED` along the status graph.
-/

namespace DecisionAssurance.Research

open Interactions Interaction Tables PostgresResearchRepository ResearchOrchestrator
  ResearchSubmissionService
open Jobs (JobDatabase JobBackend)

variable {b : JobBackend} {order : ScanOrder} {db db' : JobDatabase} {o : ResearchOrchestrator}
  {p q : Program ResearchRun} {run run' : ResearchRun} {t : ResearchLog} {ts : List ResearchLog}
  {pf : Platform} {lib : ResearchLibrary} {e : ResearchAuditEvent}
  {events : List ResearchAuditEvent} {s s' : ResearchStatus}

/-! ## Ids -/

/-- An id tells the position of its event. -/
theorem eventIds_position {runId id : String} {m n : ℕ} (hm : id ∈ eventIds runId m)
    (hn : id ∈ eventIds runId n) : m = n := by
  have htext : ∀ (tag : String) (k : ℕ), (s!"{runId}{tag}{toString k}").toList =
      runId.toList ++ (tag.toList ++ (Nat.repr k).toList) := by
    intro tag k
    simp [toString, String.toList_append]
  have hchars : ∀ {position : ℕ}, id ∈ eventIds runId position →
      ∃ tag ∈ [":research-audit:".toList, ":egress:".toList],
        id.toList = runId.toList ++ (tag ++ (Nat.repr position).toList) := by
    intro position hid
    rcases List.mem_cons.mp hid with rfl | hid
    · exact ⟨_, List.mem_cons_self, htext ":research-audit:" position⟩
    · rw [List.mem_singleton.mp hid]
      exact ⟨_, List.mem_cons_of_mem _ List.mem_cons_self, htext ":egress:" position⟩
  obtain ⟨tag, htag, hleft⟩ := hchars hm
  obtain ⟨tag', htag', hright⟩ := hchars hn
  have hrest := List.append_cancel_left (hleft.symm.trans hright)
  have hsame : tag = tag' → m = n := by
    rintro rfl
    exact repr_injective (String.toList_injective (List.append_cancel_left hrest))
  simp only [List.mem_cons, List.not_mem_nil, or_false] at htag htag'
  rcases htag with rfl | rfl <;> rcases htag' with rfl | rfl
  · exact hsame rfl
  · simp at hrest
  · simp at hrest
  · exact hsame rfl

/-- Events with ids by their positions. -/
def Numbered (runId : String) (events : List ResearchAuditEvent) : Prop :=
  ∀ n e, events[n]? = some e → e.eventId ∈ eventIds runId (n + 1)

theorem Numbered.nodup {runId : String} (h : Numbered runId events) :
    (events.map ResearchAuditEvent.eventId).Nodup := by
  rw [List.nodup_iff_getElem?_ne_getElem?]
  intro i j hij hj heq
  rw [List.length_map] at hj
  rw [List.getElem?_map, List.getElem?_map, List.getElem?_eq_getElem (hij.trans hj),
    List.getElem?_eq_getElem hj] at heq
  have hi := h i _ (List.getElem?_eq_getElem (hij.trans hj))
  rw [Option.some.inj heq] at hi
  have hposition := eventIds_position hi (h j _ (List.getElem?_eq_getElem hj))
  omega

theorem Numbered.append {runId : String} (h : Numbered runId events)
    (he : e.eventId ∈ eventIds runId (events.length + 1)) : Numbered runId (events ++ [e]) := by
  intro n d hd
  by_cases hlast : n < events.length
  · rw [List.getElem?_append_left hlast] at hd
    exact h n d hd
  · rw [List.getElem?_append_right (by omega), List.getElem?_singleton] at hd
    split_ifs at hd with hzero
    cases hd
    have hn : n = events.length := by omega
    rw [hn]
    exact he

/-! ## Statuses -/

/-- An event of a change of status records one along the graph, as a retry only where its reason
says so; any other event leaves the status as it is. -/
def Permitted (e : ResearchAuditEvent) : Prop :=
  if e.eventType = "research.status-transitioned" then
    ∃ retry : Bool, (retry = true → e.reasonCodes = [retryReason]) ∧
      transition e.fromStatus e.toStatus retry = .ok ()
  else e.toStatus = e.fromStatus

/-- Every event starts from the status that the one before it has left. -/
def Traced : ResearchStatus → List ResearchAuditEvent → ResearchStatus → Prop
  | s, [], s' => s' = s
  | s, e :: events, s' => e.fromStatus = s ∧ Permitted e ∧ Traced e.toStatus events s'

theorem Traced.append (h : Traced s events e.fromStatus) (he : Permitted e) :
    Traced s (events ++ [e]) e.toStatus := by
  induction events generalizing s with
  | nil => exact ⟨h, he, rfl⟩
  | cons d events ih => exact ⟨h.1, h.2.1, ih h.2.2⟩

theorem ResearchRun.transitionEvent_permitted {target : ResearchStatus} {retry : Bool}
    {occurredAt actorId : String} {reasonCodes : List String} {payload : Json}
    (h : transition run.status target retry = .ok ())
    (hretry : retry = true → reasonCodes = [retryReason]) :
    Permitted (run.transitionEvent pf target occurredAt actorId reasonCodes payload) := by
  have htype : (run.transitionEvent pf target occurredAt actorId reasonCodes payload).eventType =
      "research.status-transitioned" := rfl
  unfold Permitted
  rw [if_pos htype]
  exact ⟨retry, hretry, h⟩

theorem ResearchRun.egressEvent_permitted {d : EgressDecision} :
    Permitted (run.egressEvent pf d) := by
  have htype : (run.egressEvent pf d).eventType ≠ "research.status-transitioned" := by
    change "research.egress-decision" ≠ "research.status-transitioned"
    decide
  unfold Permitted
  rw [if_neg htype]
  rfl

/-! ## Ledgers -/

/-- The events of a run are a chain, have ids by their positions, and trace its status. -/
structure Ledger (pf : Platform) (run : ResearchRun) : Prop where
  chained : Chains.Linked (fun e => payloadHash pf e.toJson) ResearchAuditEvent.previousEventHash
    run.auditEvents
  numbered : Numbered run.researchRunId run.auditEvents
  traced : Traced .created run.auditEvents run.status

theorem Ledger.append (h : Ledger pf run) (hid : run'.researchRunId = run.researchRunId)
    (hevents : run'.auditEvents = run.auditEvents ++ [e])
    (hposition : e.eventId ∈ eventIds run.researchRunId (run.auditEvents.length + 1))
    (hprevious : e.previousEventHash = run.tip pf) (hfrom : e.fromStatus = run.status)
    (hto : e.toStatus = run'.status) (hpermitted : Permitted e) : Ledger pf run' where
  chained := by
    rw [hevents]
    exact Chains.linked_append_singleton.mpr ⟨h.chained, hprevious⟩
  numbered := by
    rw [hid, hevents]
    exact h.numbered.append hposition
  traced := by
    have htraced := h.traced
    rw [← hfrom] at htraced
    rw [hevents, ← hto]
    exact htraced.append hpermitted

theorem Ledger.step (h : Ledger o.pf run) (hstep : Step o run run') : Ledger o.pf run' := by
  cases hstep with
  | moved occurredAt actorId reasonCodes payload hallowed hretry =>
    exact h.append rfl rfl ResearchRun.transitionEvent_id rfl rfl rfl
      (ResearchRun.transitionEvent_permitted hallowed hretry)
  | recorded d =>
    exact h.append rfl rfl ResearchRun.egressEvent_id rfl rfl rfl
      ResearchRun.egressEvent_permitted
  | reserved => exact ⟨h.chained, h.numbered, h.traced⟩
  | annotated hannotates =>
    refine ⟨?_, ?_, ?_⟩
    · rw [hannotates.events]
      exact h.chained
    · rw [hannotates.id, hannotates.events]
      exact h.numbered
    · rw [hannotates.events, hannotates.status]
      exact h.traced

theorem ledger_hereditary (o : ResearchOrchestrator) : Hereditary o (Ledger o.pf) where
  proposed := by
    rintro tenant run ⟨actorId, request, documentHash, correlationId, refreshGeneration,
      fingerprint, now, -, rfl⟩
    exact ⟨trivial, fun _ _ h => (nomatch List.getElem?_nil.symm.trans h), rfl⟩
  step _ _ h hstep := h.step hstep

/-- In every history that starts from an empty store, and wherever one more operation is, the
events of every stored run and of the one returned are a chain, have different ids and trace its
status from `CREATED`. -/
theorem ledger_sound {os : ResearchOrchestrator → Prop} {limits : List (String × ℕ)}
    (hos : ∀ o, os o → o.pf = pf ∧ o.lib = lib)
    (hran : Ran os b order ⟨[], [], [], [], limits⟩ ts db) (ho : os o) (hop : Operation o p)
    (hp : p.Follows t q) (hserved : Served (Answers b order) db t db') (run : ResearchRun)
    (hrun : (∃ row ∈ db'.runs, row.run = run) ∨ q = .done (.ok run)) :
    Chains.Linked (fun e => payloadHash pf e.toJson) ResearchAuditEvent.previousEventHash
        run.auditEvents ∧
      (run.auditEvents.map ResearchAuditEvent.eventId).Nodup ∧
      Traced .created run.auditEvents run.status := by
  have hlib : ∀ o, os o → o.lib = lib := fun o ho => (hos o ho).2
  have hI : ∀ o, os o → Hereditary o (Ledger pf) := by
    intro o ho
    rw [← (hos o ho).1]
    exact ledger_hereditary o
  have hempty : Deployed lib ⟨[], [], [], [], limits⟩ := .empty limits
  have hrows := hran.keeps hlib hI hempty fun _ h => nomatch h
  have hdb := hran.deployed hlib hempty
  rw [← hlib o ho] at hdb
  obtain ⟨hrows', hresult⟩ := hop.keeps (hI o ho) hp hserved hdb hrows
  have hledger : Ledger pf run := by
    rcases hrun with ⟨row, hrow, rfl⟩ | hdone
    · exact hrows' row hrow
    · exact hresult run hdone
  exact ⟨hledger.chained, hledger.numbered.nodup, hledger.traced⟩

/-- The logs of the research on a case. -/
abbrev CaseRan : JobDatabase → List ResearchLog → JobDatabase → Prop :=
  Ran (Eq leadingOrchestrator) Jobs.plainBackend plainOrder

theorem meanwhile_claim {workerId : String} {token : Jobs.LeaseToken} :
    Meanwhile b db (Jobs.next b db (.claim workerId token [] 0)) :=
  .single fun _ _ _ h => nomatch h

/-- The store of a case has a history. -/
theorem caseJobs_ran : CaseRan Jobs.emptyJobs [] caseJobs := by
  have hran : CaseRan Jobs.emptyJobs [] (valueOr ((submitAtomically leadingOrchestrator
      Jobs.emptyJobs Jobs.pilotTenant (caseSubmission caseHash)).map Prod.snd) Jobs.emptyJobs) := by
    cases h : submitAtomically leadingOrchestrator Jobs.emptyJobs Jobs.pilotTenant
      (caseSubmission caseHash) with
    | error e => exact .nil _
    | ok r => exact .submitted (.nil _) rfl h
  exact .worked hran meanwhile_claim

theorem ledger_sound_case :
    Chains.Linked (fun e => payloadHash leadingPlatform e.toJson)
        ResearchAuditEvent.previousEventHash caseRow.run.auditEvents ∧
      (caseRow.run.auditEvents.map ResearchAuditEvent.eventId).Nodup ∧
      Traced .created caseRow.run.auditEvents caseRow.run.status := by
  have hos : ∀ o, leadingOrchestrator = o → o.pf = leadingPlatform ∧
      o.lib = leadingOrchestrator.lib := by
    rintro o rfl
    exact ⟨rfl, rfl⟩
  have hoperation : Operation leadingOrchestrator caseExecution := .execute ..
  have hrow : ∃ row ∈ casePlay.2.2.runs, row.run = caseRow.run := ⟨caseRow, caseRow_mem, rfl⟩
  exact ledger_sound hos caseJobs_ran rfl hoperation casePlay_served.2.1 casePlay_served.2.2
    caseRow.run (.inl hrow)

end DecisionAssurance.Research
