import DecisionAssurance.DecisionContract
import DecisionAssurance.JsonReaders

/-!
# Decision Files read out of JSON

The shape that the contract asks of a Decision File, with the types, the names and the closed
objects of the schema.
-/

namespace DecisionAssurance

open Json

/-! ## Records -/

def Actor.ofJson : Json → Option Actor :=
  closed ["id", "role", "kind"] fun fields => do
    let id ← required fields "id" asString
    let role ← required fields "role"
      (oneOf Role.value [.generator, .validator, .reviewer, .approver, .owner, .system])
    let kind ← required fields "kind" (oneOf ActorKind.value [.human, .agent, .service])
    return ⟨id, role, kind⟩

def Claim.ofJson : Json → Option Claim :=
  closed ["id", "statement", "mandatory_evidence"] fun fields => do
    let id ← required fields "id" asString
    let statement ← required fields "statement" asString
    let mandatoryEvidence ← required fields "mandatory_evidence" asBool
    return ⟨id, statement, mandatoryEvidence⟩

def Evidence.ofJson : Json → Option Evidence :=
  closed ["id", "claim_refs", "source_ref", "status", "observed_at", "content_hash"]
    fun fields => do
      let id ← required fields "id" asString
      let claimRefs ← required fields "claim_refs" (listOf asString)
      let sourceRef ← required fields "source_ref" asString
      let status ← required fields "status" (oneOf EvidenceStatus.value
        [.verified, .unverified, .outdated, .conflicting, .fabricated, .unavailable])
      let observedAt ← optional fields "observed_at" asString
      let contentHash ← optional fields "content_hash" asString
      return ⟨id, claimRefs, sourceRef, status, observedAt, contentHash⟩

def Assumption.ofJson : Json → Option Assumption :=
  closed ["id", "statement", "status"] fun fields => do
    let id ← required fields "id" asString
    let statement ← required fields "statement" asString
    let status ← required fields "status"
      (oneOf AssumptionStatus.value [.accepted, .unverified, .rejected])
    return ⟨id, statement, status⟩

def Constraint.ofJson : Json → Option Constraint :=
  closed ["id", "severity", "satisfied", "reason_code"] fun fields => do
    let id ← required fields "id" asString
    let severity ← required fields "severity"
      (oneOf ConstraintSeverity.value [.mandatory, .reviewRequired, .advisory])
    let satisfied ← required fields "satisfied" asBool
    let reasonCode ← required fields "reason_code" asString
    return ⟨id, severity, satisfied, reasonCode⟩

def Policy.ofJson : Json → Option Policy :=
  closed ["id", "version", "requires_review"] fun fields => do
    let id ← required fields "id" asString
    let version ← required fields "version" asString
    let requiresReview ← required fields "requires_review" asBool
    return ⟨id, version, requiresReview⟩

def readLevel : Json → Option Level := oneOf Level.value [.low, .medium, .high, .critical]

def readOutcome : Json → Option Outcome := oneOf Outcome.value [.pass, .review, .block]

def readStatus : Json → Option CaseStatus :=
  oneOf CaseStatus.value [.draft, .validation, .review, .approved, .blocked]

def Risk.ofJson : Json → Option Risk :=
  closed ["id", "level", "unresolved"] fun fields => do
    let id ← required fields "id" asString
    let level ← required fields "level" readLevel
    let unresolved ← required fields "unresolved" asBool
    return ⟨id, level, unresolved⟩

def Conflict.ofJson : Json → Option Conflict :=
  closed ["id", "severity", "resolved", "description"] fun fields => do
    let id ← required fields "id" asString
    let severity ← required fields "severity" readLevel
    let resolved ← required fields "resolved" asBool
    let description ← optional fields "description" asString
    return ⟨id, severity, resolved, description⟩

def ValidationResult.ofJson : Json → Option ValidationResult :=
  closed ["validator", "result", "reason_codes", "validated_at"] fun fields => do
    let validator ← required fields "validator" Actor.ofJson
    let result ← required fields "result" readOutcome
    let reasonCodes ← required fields "reason_codes" (listOf asString)
    let validatedAt ← required fields "validated_at" asString
    return ⟨validator, result, reasonCodes, validatedAt⟩

def ReviewRequirement.ofJson : Json → Option ReviewRequirement :=
  closed ["id", "required_role", "mandatory", "satisfied"] fun fields => do
    let id ← required fields "id" asString
    let requiredRole ← required fields "required_role"
      (oneOf (fun r => r.role.value) [RequiredRole.reviewer, .approver])
    let mandatory ← required fields "mandatory" asBool
    let satisfied ← required fields "satisfied" asBool
    return ⟨id, requiredRole, mandatory, satisfied⟩

def readTarget : Json → Option (String × String) :=
  closed ["type", "id"] fun fields => do
    let type ← required fields "type" asString
    let id ← required fields "id" asString
    return (type, id)

def CanonicalAction.ofJson : Json → Option CanonicalAction :=
  closed ["action_id", "action_type", "effect", "target", "parameters", "reversibility_class",
    "tenant_id", "execution_context_hash", "canonical_digest"] fun fields => do
    let actionId ← required fields "action_id" asString
    let actionType ← required fields "action_type" asString
    let effect ← required fields "effect" asString
    let target ← required fields "target" readTarget
    let parameters ← required fields "parameters" asObject
    let reversibilityClass ← required fields "reversibility_class" (oneOf Reversibility.value
      [.readOnly, .reversible, .externallyReversible, .irreversible])
    let tenantId ← required fields "tenant_id" asString
    let executionContextHash ← required fields "execution_context_hash" asString
    let canonicalDigest ← required fields "canonical_digest" asString
    return ⟨actionId, actionType, effect, target.1, target.2, parameters, reversibilityClass,
      tenantId, executionContextHash, canonicalDigest⟩

def Approval.ofJson : Json → Option Approval :=
  closed ["requirement_ref", "approver", "decision", "decided_at", "action_digest", "nonce",
    "approval_digest"] fun fields => do
    let requirementRef ← required fields "requirement_ref" asString
    let approver ← required fields "approver" Actor.ofJson
    let decision ← required fields "decision" (oneOf Verdict.value [.approve, .reject])
    let decidedAt ← required fields "decided_at" asString
    let actionDigest ← required fields "action_digest" (nullable asString)
    let nonce ← required fields "nonce" asString
    let approvalDigest ← required fields "approval_digest" asString
    return ⟨requirementRef, approver, decision, decidedAt, actionDigest, nonce, approvalDigest⟩

def AuditEvent.ofJson : Json → Option AuditEvent :=
  closed ["event_id", "event_type", "occurred_at", "actor", "from_status", "to_status",
    "reason_codes", "payload_hash", "previous_event_hash", "tenant_id", "correlation_id",
    "source_channel"] fun fields => do
    let eventId ← required fields "event_id" asString
    let eventType ← required fields "event_type" asString
    let occurredAt ← required fields "occurred_at" asString
    let actor ← required fields "actor" Actor.ofJson
    let fromStatus ← required fields "from_status" (nullable readStatus)
    let toStatus ← required fields "to_status" readStatus
    let reasonCodes ← required fields "reason_codes" (listOf asString)
    let payloadHash ← required fields "payload_hash" asString
    let previousEventHash ← required fields "previous_event_hash" (nullable asString)
    let tenantId ← optional fields "tenant_id" asString
    let correlationId ← optional fields "correlation_id" asString
    let sourceChannel ← optional fields "source_channel"
      (oneOf SourceChannel.value [.api, .cli, .filesystem])
    return ⟨eventId, eventType, occurredAt, actor, fromStatus, toStatus, reasonCodes, payloadHash,
      previousEventHash, tenantId, correlationId, sourceChannel⟩

/-- The body of `decision-file` as far as its shape goes. -/
def DecisionFile.ofJson : Json → Option DecisionFile :=
  closed ["schema_version", "decision_id", "title", "description", "use_case", "status",
    "assurance_level", "created_at", "updated_at", "created_by", "requested_by", "current_owner",
    "canonical_action", "claims", "evidence", "assumptions", "constraints", "policies", "risks",
    "conflicts", "validation_results", "review_requirements", "approvals", "decision_outcome",
    "outcome_reasons", "audit_events"] fun fields => do
    let _ ← required fields "schema_version" (oneOf (fun _ => "0.2.0") [()])
    let decisionId ← required fields "decision_id" asString
    let title ← required fields "title" asString
    let description ← required fields "description" asString
    let useCase ← required fields "use_case" asString
    let status ← required fields "status" readStatus
    let assuranceLevel ← required fields "assurance_level"
      (oneOf AssuranceLevel.value [.basic, .standard, .high])
    let createdAt ← required fields "created_at" asString
    let updatedAt ← required fields "updated_at" asString
    let createdBy ← required fields "created_by" Actor.ofJson
    let requestedBy ← required fields "requested_by" Actor.ofJson
    let currentOwner ← required fields "current_owner" Actor.ofJson
    let canonicalAction ← required fields "canonical_action" (nullable CanonicalAction.ofJson)
    let claims ← required fields "claims" (listOf Claim.ofJson)
    let evidence ← required fields "evidence" (listOf Evidence.ofJson)
    let assumptions ← required fields "assumptions" (listOf Assumption.ofJson)
    let constraints ← required fields "constraints" (listOf Constraint.ofJson)
    let policies ← required fields "policies" (listOf Policy.ofJson)
    let risks ← required fields "risks" (listOf Risk.ofJson)
    let conflicts ← required fields "conflicts" (listOf Conflict.ofJson)
    let validationResults ← required fields "validation_results" (listOf ValidationResult.ofJson)
    let reviewRequirements ← required fields "review_requirements"
      (listOf ReviewRequirement.ofJson)
    let approvals ← required fields "approvals" (listOf Approval.ofJson)
    let decisionOutcome ← required fields "decision_outcome" (nullable readOutcome)
    let outcomeReasons ← required fields "outcome_reasons" (listOf asString)
    let auditEvents ← required fields "audit_events" (listOf AuditEvent.ofJson)
    return { decisionId, title, description, useCase, status, assuranceLevel, createdAt, updatedAt,
             createdBy, requestedBy, currentOwner, canonicalAction, claims, evidence, assumptions,
             constraints, policies, risks, conflicts, validationResults, reviewRequirements,
             approvals, decisionOutcome, outcomeReasons, auditEvents }

/-! ## Lossless readers -/

example : DecisionFile.ofJson draftCase.toJson = some draftCase := by rfl

end DecisionAssurance
