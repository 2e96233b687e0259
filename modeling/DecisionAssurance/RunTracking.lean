import DecisionAssurance.ResearchOrchestrator

/-!
# The run in hand

An orchestrator changes a run in memory between its saves. `Current` says what that run owes to
the stored one as the orchestrator last saw it: the same run with a log that only grew. `Faulty`
names the answers that the orchestrator's handlers let through.
-/

namespace DecisionAssurance.Research

open Interactions Interaction ResearchStatus

variable {o : ResearchOrchestrator} {base run run' : ResearchRun} {t t' t'' : ResearchLog}

/-! ## Events -/

/-- A run that the store answered. -/
def answeredIn : ResearchEvent → Option ResearchRun
  | ⟨.createOrGet _ _, .ok run⟩ => some run
  | ⟨.getRun _ _, .ok found⟩ => found
  | _ => none

/-- A run that the store was given and took. -/
def writtenIn : ResearchEvent → Option ResearchRun
  | ⟨.save _ run, .ok ()⟩ => some run
  | ⟨.record _ run, .ok ()⟩ => some run
  | _ => none

theorem answered_of_written {x : ResearchEvent} (h : writtenIn x = some run) :
    answeredIn x = none := by
  obtain ⟨c, a⟩ := x
  cases c with
  | save | record => rfl
  | _ => cases h

/-- The stored run as an event shows it. -/
def seenIn (x : ResearchEvent) : Option ResearchRun := (answeredIn x).or (writtenIn x)

/-- The stored run as a log last showed it. -/
def lastSeen (t : ResearchLog) : Option ResearchRun := t.reverse.findSome? seenIn

@[simp] theorem lastSeen_snoc (t : ResearchLog) (x : ResearchEvent) :
    lastSeen (t ++ [x]) = (seenIn x).or (lastSeen t) := by
  unfold lastSeen
  rw [List.reverse_append, List.reverse_singleton, List.singleton_append, List.findSome?_cons]
  cases seenIn x <;> rfl

/-- An accepted URL. -/
def Accepts : ResearchEvent → Prop
  | ⟨.validateUrl _ _, .ok _⟩ => True
  | _ => False

def Found (t : ResearchLog) : Prop := ∃ x ∈ t, Accepts x

theorem found_snoc {x : ResearchEvent} : Found (t ++ [x]) ↔ Found t ∨ Accepts x := by
  simp only [Found, List.mem_append, List.mem_singleton, or_and_right, exists_or, exists_eq_left]

/-- Nobody cancels, and the policy on URLs raises its own exceptions only. -/
def Calm : ResearchEvent → Prop
  | ⟨.cancelled, b⟩ => b = false
  | ⟨.validateUrl _ _, .error (.normalizationRejected _)⟩ => False
  | _ => True

/-- The answers that raise past the handlers of the orchestrator. -/
def Faulty : ResearchEvent → Prop
  | ⟨.createOrGet _ _, .error _⟩ | ⟨.getRun _ _, .error _⟩ | ⟨.save _ _, .error _⟩
  | ⟨.getSnapshot _ _ _, .error _⟩ | ⟨.recordSuccess _ _, .error _⟩
  | ⟨.recordFailure _ _ _, .error _⟩ | ⟨.encodeUrl _, .error _⟩
  | ⟨.assess _ _ _ _, .error _⟩ => True
  | ⟨.reserveBudget _ _ _, .error e⟩ => (e.isValueError && e.message = "BUDGET_EXCEEDED") = false
  | ⟨.beforeCall _ _, .error e⟩ => e ≠ .circuitOpen
  | ⟨.validateUrl _ _, .error e⟩ => ∀ reason, e ≠ .urlRejected reason
  | ⟨.normalize _ _, .error e⟩ =>
    ∀ reason, e ≠ .urlRejected reason ∧ e ≠ .normalizationRejected reason
  | ⟨.attach _ _ _ _, .error e⟩ => e.isValueError = false
  | _ => False

/-- A log without faults, if it is calm. -/
abbrev Unfaulted (t : ResearchLog) : Prop := Clean Calm Faulty t

/-- Logs that show the same of the store and of the accepted URLs. -/
structure Quiet (t t' : ResearchLog) : Prop where
  seen : lastSeen t' = lastSeen t
  found : Found t' ↔ Found t

theorem Quiet.refl (t : ResearchLog) : Quiet t t := ⟨rfl, Iff.rfl⟩

theorem Quiet.trans (h : Quiet t t') (h' : Quiet t' t'') : Quiet t t'' :=
  ⟨h'.seen.trans h.seen, h'.found.trans h.found⟩

theorem quiet_snoc {x : ResearchEvent} (hseen : seenIn x = none) (hfound : ¬ Accepts x) :
    Quiet t (t ++ [x]) := by
  refine ⟨?_, ?_⟩
  · rw [lastSeen_snoc, hseen, Option.none_or]
  · rw [found_snoc, or_iff_left hfound]

/-! ## Runs -/

/-- The ids an event has by its position. -/
def eventIds (runId : String) (position : ℕ) : List String :=
  [s!"{runId}:research-audit:{toString position}", s!"{runId}:egress:{toString position}"]

/-- A run is an earlier one with more events, whose ids are those of their positions; without a
new event its status is the same, and it stays cancelled. -/
structure Continues (base run : ResearchRun) : Prop where
  id : run.researchRunId = base.researchRunId
  tenant : run.tenantId = base.tenantId
  request : run.request = base.request
  events : base.auditEvents <+: run.auditEvents
  status : run.auditEvents = base.auditEvents → run.status = base.status
  numbered : ∀ n e, base.auditEvents.length ≤ n → run.auditEvents[n]? = some e →
    e.eventId ∈ eventIds base.researchRunId (n + 1)
  cancelled : base.status = .cancelled → run.status = .cancelled

theorem Continues.refl (run : ResearchRun) : Continues run run where
  id := rfl
  tenant := rfl
  request := rfl
  events := List.prefix_rfl
  status _ := rfl
  numbered n e hn he := by
    rw [List.getElem?_eq_none hn] at he
    cases he
  cancelled hc := hc

/-- What the orchestrator relies on in every run that it stores. -/
structure Sound (o : ResearchOrchestrator) (run : ResearchRun) : Prop where
  domains : ∃ policy, o.urlPolicy run = .ok policy
  sourced : run.sources = [] → run.snapshots = []
  supported : ∀ e ∈ run.evidence, ∃ s ∈ run.snapshots, s.snapshotId = e.snapshotId
  partly : run.status = .partiallyCompleted → run.sources ≠ []

/-- A run as it is proposed: nothing has been done for it. -/
structure Pristine (run : ResearchRun) : Prop where
  sources : run.sources = []
  snapshots : run.snapshots = []
  evidence : run.evidence = []
  events : run.auditEvents = []

/-- A run as the store may hold it. -/
structure Stored (o : ResearchOrchestrator) (run : ResearchRun) : Prop extends Sound o run where
  pristine : run.status = .created → Pristine run

/-- The run in hand after a log. -/
structure Current (o : ResearchOrchestrator) (t : ResearchLog) (run : ResearchRun) : Prop where
  continues : ∃ base, lastSeen t = some base ∧ Continues base run
  sound : Sound o run

theorem Current.quiet (h : Current o t run) (ht : Quiet t t') : Current o t' run :=
  ⟨by rw [ht.seen]; exact h.continues, h.sound⟩

theorem Current.of_seen (h : Sound o run) (ht : lastSeen t = some run) : Current o t run :=
  ⟨⟨run, ht, Continues.refl run⟩, h⟩

/-- A run with the same identity, log and status as another continues what that one does. -/
theorem Continues.same (h : Continues base run) (hid : run'.researchRunId = run.researchRunId)
    (htenant : run'.tenantId = run.tenantId) (hrequest : run'.request = run.request)
    (hevents : run'.auditEvents = run.auditEvents) (hstatus : run'.status = run.status) :
    Continues base run' where
  id := hid.trans h.id
  tenant := htenant.trans h.tenant
  request := hrequest.trans h.request
  events := hevents ▸ h.events
  status he := hstatus.trans (h.status (hevents ▸ he))
  numbered n e hn he := h.numbered n e hn (hevents ▸ he)
  cancelled hc := hstatus.trans (h.cancelled hc)

/-- A new event at the end of the log; the status may change with it, unless it is `CANCELLED`. -/
theorem Continues.append {e : ResearchAuditEvent} (h : Continues base run)
    (hid : run'.researchRunId = run.researchRunId) (htenant : run'.tenantId = run.tenantId)
    (hrequest : run'.request = run.request) (hevents : run'.auditEvents = run.auditEvents ++ [e])
    (he : e.eventId ∈ eventIds run.researchRunId (run.auditEvents.length + 1))
    (hstatus : run.status = .cancelled → run'.status = .cancelled) : Continues base run' where
  id := hid.trans h.id
  tenant := htenant.trans h.tenant
  request := hrequest.trans h.request
  events := hevents ▸ h.events.trans (List.prefix_append _ _)
  status heq := by
    have hlength := congrArg List.length (hevents.symm.trans heq)
    have hle := h.events.length_le
    simp only [List.length_append, List.length_singleton] at hlength
    omega
  numbered n d hn hd := by
    rw [hevents] at hd
    by_cases hlast : n < run.auditEvents.length
    · rw [List.getElem?_append_left hlast] at hd
      exact h.numbered n d hn hd
    · rw [List.getElem?_append_right (by omega), List.getElem?_singleton] at hd
      split_ifs at hd with hzero
      cases hd
      have hn : n = run.auditEvents.length := by omega
      rw [hn, ← h.id]
      exact he
  cancelled hc := hstatus (h.cancelled hc)

theorem ResearchRun.transitionEvent_id {pf : Platform} {target : ResearchStatus}
    {occurredAt actorId : String} {reasonCodes : List String} {payload : Json} :
    (run.transitionEvent pf target occurredAt actorId reasonCodes payload).eventId ∈
      eventIds run.researchRunId (run.auditEvents.length + 1) := List.mem_cons_self

theorem ResearchRun.egressEvent_id {pf : Platform} {d : EgressDecision} :
    (run.egressEvent pf d).eventId ∈
      eventIds run.researchRunId (run.auditEvents.length + 1) :=
  List.mem_cons_of_mem _ List.mem_cons_self

/-! ## The terms of the orchestrator -/

namespace ResearchOrchestrator

/-- A run as `propose` returns it. -/
def Proposes (o : ResearchOrchestrator) (tenant : TenantContext) (run : ResearchRun) : Prop :=
  ∃ actorId request documentHash correlationId refreshGeneration fingerprint now,
    proposedFingerprint o.pf o.lib o.policy tenant.tenantId request documentHash
      refreshGeneration = .ok fingerprint ∧
    run = proposedRun o.lib tenant.tenantId actorId request documentHash fingerprint
      correlationId now

/-- A run is read once, or proposed; every run that is stored continues the one last seen, has
been started and is sound. The runs read are as the store may hold them. -/
def terms (o : ResearchOrchestrator) : Terms researchCalls where
  may t
    | .createOrGet tenant run => lastSeen t = none ∧ Proposes o tenant run
    | .getRun _ _ => lastSeen t = none
    | .save _ run | .record _ run => Current o t run ∧ run.status ≠ .created
    | _ => True
  given
    | _, ⟨.createOrGet _ _, .ok run⟩ => Stored o run
    | _, ⟨.getRun _ _, .ok (some run)⟩ => Stored o run
    | _, _ => True

/-- A program that raises on a fault only, under the terms of the orchestrator. -/
abbrev Contains {α : Type} (o : ResearchOrchestrator) (p : Program α)
    (Post : α → ResearchLog → Prop) (t : ResearchLog) : Prop :=
  p.Ensures o.terms (Exact Calm Faulty Post) t

/-! ## Single calls -/

variable {tenant : TenantContext}

theorem ensureActive_contains (ht : Unfaulted t) :
    o.Contains ensureActive (fun _ t' => Quiet t t') t := by
  refine ensures_ask_bind.mpr ⟨trivial, fun cancelled _ => ?_⟩
  cases cancelled with
  | true => exact stained_snoc nofun
  | false => exact ⟨clean_snoc ht fun _ => id, quiet_snoc rfl id⟩

theorem time_contains (ht : Unfaulted t) : o.Contains o.time (fun _ t' => Quiet t t') t := by
  refine ensures_ask_bind.mpr ⟨trivial, fun now _ => ?_⟩
  exact ⟨clean_snoc ht fun _ => id, quiet_snoc rfl id⟩

/-- A saved run is the last event of the log. -/
def Saved (tenant : TenantContext) (run : ResearchRun) (t : ResearchLog) : Prop :=
  ∃ before, t = before ++ [⟨.save tenant run, .ok ()⟩]

theorem save_contains (ht : Unfaulted t) (hrun : Current o t run) (hstatus : run.status ≠ created) :
    o.Contains (save tenant run)
      (fun _ t' => Current o t' run ∧ Saved tenant run t' ∧ (Found t' ↔ Found t)) t := by
  refine ensures_ask_bind.mpr ⟨⟨hrun, hstatus⟩, fun saved _ => ?_⟩
  cases saved with
  | error e => exact stained_snoc fun _ => trivial
  | ok u =>
    refine ⟨clean_snoc ht fun _ => id, ?_, ⟨t, rfl⟩, ?_⟩
    · exact Current.of_seen hrun.sound (by rw [lastSeen_snoc]; rfl)
    · exact found_snoc.trans (or_iff_left id)

/-- A change of status leaves the findings of a run as they are. -/
structure Moves (run run' : ResearchRun) (target : ResearchStatus) : Prop where
  status : run'.status = target
  request : run'.request = run.request
  sources : run'.sources = run.sources
  snapshots : run'.snapshots = run.snapshots
  evidence : run'.evidence = run.evidence

theorem advance_contains {target : ResearchStatus} {actorId : String} {reasonCodes : List String}
    {payload : Json} {retry : Bool} (ht : Unfaulted t) (hrun : Current o t run)
    (hallowed : transition run.status target retry = .ok ())
    (hpartly : target = partiallyCompleted → run.sources ≠ []) :
    o.Contains (o.advance run target actorId reasonCodes payload retry)
      (fun run' t' => Current o t' run' ∧ Moves run run' target ∧ Quiet t t') t := by
  refine (time_contains ht).exact_bind fun occurredAt t' ht' hquiet => ?_
  rw [ensures_lift, applyTransition, hallowed]
  refine ⟨ht', ⟨?_, ?_⟩, ⟨rfl, rfl, rfl, rfl, rfl⟩, hquiet⟩
  · obtain ⟨base, hseen, hbase⟩ := hrun.continues
    refine ⟨base, hquiet.seen.trans hseen, hbase.append rfl rfl rfl rfl
      ResearchRun.transitionEvent_id fun hc => ?_⟩
    rw [hc] at hallowed
    exact (transition_ne_cancelled hallowed).elim
  · exact ⟨hrun.sound.domains, hrun.sound.sourced, hrun.sound.supported, hpartly⟩

end ResearchOrchestrator

end DecisionAssurance.Research
