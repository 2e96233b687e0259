import DecisionAssurance.Chains
import DecisionAssurance.IntakeVerification

/-!
# The texts that are hashed for the audit of an intake

The JSON values of the reports and events, the lifecycle of an intake, and its audit events, each
linked to the hash of the one before it.
-/

namespace DecisionAssurance.Intake

/-! ## Records as JSON -/

def SourceReference.toJson (s : SourceReference) : Json :=
  .obj [("source_id", .str s.sourceId), ("start", .int s.start), ("end", .int s.stop),
    ("content_hash", .str s.contentHash)]

/-- A field that is left out where it has no value. -/
def optionalField (key : String) : Option String → List (String × Json)
  | none => []
  | some value => [(key, .str value)]

def CandidateFact.toJson (c : CandidateFact) : Json :=
  .obj ([("fact_id", .str c.factId),
    ("fact_type", .str c.factType.value),
    ("raw_value", .str c.rawValue),
    ("normalized_value", Json.ofOption c.normalizedValue),
    ("source", c.source.toJson),
    ("method", .str c.method),
    ("method_version", .str c.methodVersion),
    ("extraction_confidence", .float c.extractionConfidence),
    ("verification_status", .str c.verificationStatus.value),
    ("unit", Json.ofOption c.unit),
    ("currency", Json.ofOption c.currency),
    ("conflict_refs", Json.strings c.conflictRefs),
    ("confirmation_required", .bool c.confirmationRequired)] ++
    optionalField "confirmed_by_actor_id" c.confirmedByActorId ++
    optionalField "confirmed_by_role" (c.confirmedByRole.map Role.value))

def IntakeConflict.toJson (c : IntakeConflict) : Json :=
  .obj [("conflict_id", .str c.conflictId), ("fact_type", .str c.factType.value),
    ("fact_refs", Json.strings c.factRefs), ("reason_code", .str c.reasonCode)]

def VerificationRequirement.toJson (r : VerificationRequirement) : Json :=
  .obj [("requirement_id", .str r.requirementId), ("fact_type", .str r.factType.value),
    ("reason_code", .str r.reasonCode), ("mandatory", .bool r.mandatory)]

def ExtractionReport.toJson (r : ExtractionReport) : Json :=
  .obj [("schema_version", .str r.schemaVersion),
    ("intake_id", .str r.intakeId),
    ("method", .str r.method),
    ("method_version", .str r.methodVersion),
    ("locale", .str r.locale),
    ("candidates", .arr (r.candidates.map CandidateFact.toJson)),
    ("conflicts", .arr (r.conflicts.map IntakeConflict.toJson)),
    ("requirements", .arr (r.requirements.map VerificationRequirement.toJson))]

def DerivedFinding.toJson (f : DerivedFinding) : Json :=
  .obj [("finding_id", .str f.findingId),
    ("rule_id", .str f.ruleId),
    ("fact_refs", Json.strings f.factRefs),
    ("policy_ref", Json.ofOption f.policyRef),
    ("calculation", .str f.calculation),
    ("result_code", .str f.resultCode),
    ("uncertainty", Json.ofOption f.uncertainty)]

def VerificationReport.toJson (r : VerificationReport) : Json :=
  .obj [("schema_version", .str r.schemaVersion),
    ("intake_id", .str r.intakeId),
    ("candidates", .arr (r.candidates.map CandidateFact.toJson)),
    ("findings", .arr (r.findings.map DerivedFinding.toJson)),
    ("unresolved_requirement_refs", Json.strings r.unresolvedRequirementRefs),
    ("ready", .bool r.ready),
    ("reason_codes", Json.strings r.reasonCodes)]

def HumanConfirmation.toJson (c : HumanConfirmation) : Json :=
  .obj [("confirmation_id", .str c.confirmationId),
    ("fact_id", .str c.factId),
    ("action", .str c.action),
    ("actor_id", .str c.actorId),
    ("old_value", Json.ofOption c.oldValue),
    ("new_value", Json.ofOption c.newValue),
    ("reason", .str c.reason),
    ("occurred_at", .str c.occurredAt)]

def IntakeAuditEvent.toJson (e : IntakeAuditEvent) : Json :=
  .obj [("event_id", .str e.eventId),
    ("event_type", .str e.eventType),
    ("occurred_at", .str e.occurredAt),
    ("actor_id", .str e.actorId),
    ("from_status", .str e.fromStatus.value),
    ("to_status", .str e.toStatus.value),
    ("reason_codes", Json.strings e.reasonCodes),
    ("payload_hash", .str e.payloadHash),
    ("previous_event_hash", Json.ofOption e.previousEventHash)]

/-! ## The lifecycle -/

/-- `_ALLOWED` -/
def allowedTransitions : List (IntakeStatus × IntakeStatus) :=
  [(.received, .extracted), (.extracted, .needsConfirmation), (.extracted, .ready),
    (.needsConfirmation, .ready), (.ready, .needsConfirmation), (.ready, .compiled)]

def nextStatus (source target : IntakeStatus) (ready : Bool) : Raises IntakeStatus :=
  if target = .rejected ∧ source ≠ .compiled ∧ source ≠ .rejected then .ok target
  else if (source, target) ∉ allowedTransitions then
    .error (.transition "INTAKE_TRANSITION_NOT_ALLOWED")
  else if target = .ready ∧ !ready then .error (.transition "INTAKE_NOT_READY")
  else .ok target

theorem nextStatus_ok {source target t : IntakeStatus} {ready : Bool} (hne : target ≠ .rejected)
    (h : nextStatus source target ready = .ok t) : (source, target) ∈ allowedTransitions := by
  unfold nextStatus at h
  by_contra hnot
  rw [if_neg (fun hrejected => hne hrejected.1), if_pos hnot] at h
  cases h

/-! ## Audit events -/

section Events

variable (py : Interpreter)

def IntakeAuditEvent.hash (e : IntakeAuditEvent) : String :=
  DecisionAssurance.payloadHash py.toPlatform e.toJson

def auditEventId (intakeId : String) (sequence : ℕ) : String :=
  s!"{intakeId}:intake-audit:{toString sequence}"

/-- What `intake_audit_event` is told of an event besides its place among the others. -/
structure EventFacts where
  eventType : String
  occurredAt : String
  actorId : String
  fromStatus : IntakeStatus
  toStatus : IntakeStatus
  reasonCodes : List String
  payload : Json

def intakeAuditEvent (intakeId : String) (sequence : ℕ) (f : EventFacts)
    (previousEvent : Option IntakeAuditEvent) : IntakeAuditEvent where
  eventId := auditEventId intakeId sequence
  eventType := f.eventType
  occurredAt := f.occurredAt
  actorId := f.actorId
  fromStatus := f.fromStatus
  toStatus := f.toStatus
  reasonCodes := f.reasonCodes
  payloadHash := DecisionAssurance.payloadHash py.toPlatform f.payload
  previousEventHash := previousEvent.map (IntakeAuditEvent.hash py)

/-- The event after the given ones. -/
def nextEvent (intakeId : String) (events : List IntakeAuditEvent) (f : EventFacts) :
    IntakeAuditEvent :=
  intakeAuditEvent py intakeId (events.length + 1) f events.getLast?

theorem auditEventId_injective (intakeId : String) : Function.Injective (auditEventId intakeId) :=
  numbered_injective intakeId ":intake-audit:"

/-- The events of an intake: numbered from one, linked by their hashes, and each moving the status
on or keeping it, from `received` to the last one. -/
inductive History (intakeId : String) : List IntakeAuditEvent → IntakeStatus → Prop
  | start : History intakeId [] .received
  | snoc {events : List IntakeAuditEvent} {f : EventFacts} :
      History intakeId events f.fromStatus →
      (f.toStatus = f.fromStatus ∨ (f.fromStatus, f.toStatus) ∈ allowedTransitions) →
      History intakeId (events ++ [nextEvent py intakeId events f]) f.toStatus

variable {py} {intakeId : String} {events : List IntakeAuditEvent} {status : IntakeStatus}

theorem History.linked (h : History py intakeId events status) :
    Chains.Linked (IntakeAuditEvent.hash py) IntakeAuditEvent.previousEventHash events := by
  induction h with
  | start => trivial
  | snoc _ _ ih =>
    rw [Chains.linked_append_singleton]
    exact ⟨ih, rfl⟩

theorem History.numbered (h : History py intakeId events status) :
    events.map IntakeAuditEvent.eventId =
      (List.range events.length).map fun i => auditEventId intakeId (i + 1) := by
  induction h with
  | start => rfl
  | snoc _ _ ih =>
    rw [List.map_append, ih, List.length_append, List.length_singleton, List.range_succ,
      List.map_append]
    rfl

theorem History.distinct (h : History py intakeId events status) :
    (events.map IntakeAuditEvent.eventId).Nodup := by
  rw [h.numbered]
  apply List.nodup_range.map
  intro i j hid
  exact Nat.succ_injective (auditEventId_injective intakeId hid)

/-- Consecutive events agree about the status between them, and every change of it is allowed. -/
def Walks : IntakeStatus → List IntakeAuditEvent → IntakeStatus → Prop
  | source, [], target => source = target
  | source, e :: es, target => e.fromStatus = source ∧
      (e.toStatus = source ∨ (source, e.toStatus) ∈ allowedTransitions) ∧ Walks e.toStatus es target

theorem walks_append_singleton {source target : IntakeStatus} {e : IntakeAuditEvent} :
    Walks source (events ++ [e]) target ↔ Walks source events e.fromStatus ∧
      (e.toStatus = e.fromStatus ∨ (e.fromStatus, e.toStatus) ∈ allowedTransitions) ∧
      e.toStatus = target := by
  induction events generalizing source with
  | nil =>
    simp only [List.nil_append, Walks]
    constructor
    · rintro ⟨rfl, hedge, rfl⟩
      exact ⟨rfl, hedge, rfl⟩
    · rintro ⟨rfl, hedge, rfl⟩
      exact ⟨rfl, hedge, rfl⟩
  | cons a events ih => simp only [List.cons_append, Walks, ih, and_assoc]

theorem History.walks (h : History py intakeId events status) : Walks .received events status := by
  induction h with
  | start => rfl
  | snoc _ hedge ih => exact walks_append_singleton.mpr ⟨ih, hedge, rfl⟩

end Events

end DecisionAssurance.Intake
