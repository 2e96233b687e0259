import DecisionAssurance.DecisionJson
import DecisionAssurance.ResearchExchange

/-!
# The status graph and the ledger of research runs

`transition` checks a change of status; `apply_transition` and `append_egress_decision` append
the event of a change or of a residency decision, chained to the event before it.
-/

namespace DecisionAssurance.Research

open ResearchStatus

/-! ## Status graph -/

/-- `_ALLOWED` -/
def allowedEdges : List (ResearchStatus × ResearchStatus) :=
  [(created, searching), (searching, sourcesDiscovered), (sourcesDiscovered, extracting),
    (extracting, evidenceCompiled), (evidenceCompiled, completed), (searching, failed),
    (sourcesDiscovered, failed), (extracting, failed), (evidenceCompiled, failed),
    (extracting, partiallyCompleted), (evidenceCompiled, partiallyCompleted)]

/-- `_RETRY` -/
def retryEdges : List (ResearchStatus × ResearchStatus) :=
  [(failed, searching), (failed, extracting), (partiallyCompleted, extracting)]

/-- `_CANCELLABLE` -/
def cancellable : List ResearchStatus :=
  [created, searching, sourcesDiscovered, extracting, evidenceCompiled, failed,
    partiallyCompleted]

def transition (source target : ResearchStatus) (retry : Bool) : Raises Unit :=
  if target = cancelled ∧ source ∈ cancellable then .ok ()
  else if (source, target) ∈ retryEdges then
    if retry then .ok () else .error (.transitionRejected "RETRY_REQUIRED")
  else if (source, target) ∈ allowedEdges then .ok ()
  else .error (.transitionRejected "RESEARCH_TRANSITION_NOT_ALLOWED")

/-- The statuses in which an attempt at a run ends. -/
def ResearchStatus.isFinal (s : ResearchStatus) : Bool :=
  s = completed || s = partiallyCompleted || s = failed

theorem transition_ne_cancelled {target : ResearchStatus} {retry : Bool} {u : Unit}
    (h : transition .cancelled target retry = .ok u) : False := by
  revert h
  cases target <;> cases retry <;> exact nofun

/-! ## Ledger -/

/-- `to_data` of an event. -/
def ResearchAuditEvent.toJson (e : ResearchAuditEvent) : Json :=
  .obj [("event_id", .str e.eventId), ("event_type", .str e.eventType),
    ("occurred_at", .str e.occurredAt), ("tenant_id", .str e.tenantId),
    ("actor_id", .str e.actorId), ("from_status", .str e.fromStatus.value),
    ("to_status", .str e.toStatus.value), ("reason_codes", Json.strings e.reasonCodes),
    ("correlation_id", .str e.correlationId), ("payload_hash", .str e.payloadHash),
    ("previous_event_hash", Json.ofOption e.previousEventHash),
    ("schema_version", .str e.schemaVersion), ("decision", Json.ofOption e.decision),
    ("operating_profile", Json.ofOption e.operatingProfile),
    ("policy_version", Json.ofOption e.policyVersion), ("provider", Json.ofOption e.provider),
    ("connector", Json.ofOption e.connector), ("target_host", Json.ofOption e.targetHost),
    ("requested_processing_location", Json.ofOption e.requestedProcessingLocation),
    ("evidence_id", Json.ofOption e.evidenceId),
    ("evidence_status", Json.ofOption e.evidenceStatus)]

def EgressDecision.payload (d : EgressDecision) : Json :=
  .obj [("decision", .str d.decision), ("tenant_id", .str d.tenantId),
    ("provider", .str d.provider), ("connector", .str d.connector),
    ("target_host", .str d.targetHost),
    ("requested_processing_location", Json.ofOption d.requestedProcessingLocation),
    ("evidence_id", Json.ofOption d.evidenceId),
    ("evidence_status", Json.ofOption d.evidenceStatus), ("reason_code", .str d.reasonCode)]

section Ledger

variable (pf : Platform)

/-- The hash of the last event, `null` before the first. -/
def ResearchRun.tip (run : ResearchRun) : Option String :=
  run.auditEvents.getLast?.map fun e => payloadHash pf e.toJson

def ResearchRun.transitionEvent (run : ResearchRun) (target : ResearchStatus)
    (occurredAt actorId : String) (reasonCodes : List String) (payload : Json) :
    ResearchAuditEvent where
  eventId := s!"{run.researchRunId}:research-audit:{toString (run.auditEvents.length + 1)}"
  eventType := "research.status-transitioned"
  occurredAt := occurredAt
  tenantId := run.tenantId
  actorId := actorId
  fromStatus := run.status
  toStatus := target
  reasonCodes := reasonCodes
  correlationId := run.correlationId
  payloadHash := payloadHash pf payload
  previousEventHash := run.tip pf
  schemaVersion := "research-audit-v1"
  decision := none
  operatingProfile := none
  policyVersion := none
  provider := none
  connector := none
  targetHost := none
  requestedProcessingLocation := none
  evidenceId := none
  evidenceStatus := none

def ResearchRun.egressEvent (run : ResearchRun) (d : EgressDecision) : ResearchAuditEvent where
  eventId := s!"{run.researchRunId}:egress:{toString (run.auditEvents.length + 1)}"
  eventType := "research.egress-decision"
  occurredAt := d.occurredAt
  tenantId := d.tenantId
  actorId := d.actorId
  fromStatus := run.status
  toStatus := run.status
  reasonCodes := [d.reasonCode]
  correlationId := d.correlationId
  payloadHash := payloadHash pf d.payload
  previousEventHash := run.tip pf
  schemaVersion := "research-egress-decision-v1"
  decision := some d.decision
  operatingProfile := some d.operatingProfile
  policyVersion := some d.policyVersion
  provider := some d.provider
  connector := some d.connector
  targetHost := some d.targetHost
  requestedProcessingLocation := d.requestedProcessingLocation
  evidenceId := d.evidenceId
  evidenceStatus := d.evidenceStatus

/-- A run after a change of status. -/
def ResearchRun.moved (run : ResearchRun) (target : ResearchStatus) (occurredAt actorId : String)
    (reasonCodes : List String) (payload : Json) : ResearchRun :=
  { run with
    status := target
    updatedAt := occurredAt
    auditEvents := run.auditEvents ++
      [run.transitionEvent pf target occurredAt actorId reasonCodes payload] }

/-- `apply_transition` -/
def applyTransition (run : ResearchRun) (target : ResearchStatus) (occurredAt actorId : String)
    (reasonCodes : List String) (payload : Json) (retry : Bool) : Raises ResearchRun := do
  transition run.status target retry
  return run.moved pf target occurredAt actorId reasonCodes payload

/-- `append_egress_decision` -/
def appendEgressDecision (run : ResearchRun) (d : EgressDecision) : ResearchRun :=
  { run with auditEvents := run.auditEvents ++ [run.egressEvent pf d] }

end Ledger

end DecisionAssurance.Research
