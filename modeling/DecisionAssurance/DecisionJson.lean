import DecisionAssurance.DecisionFile

/-!
# The JSON of Decision Files and the digests over it

Objects are written with the fields of the contract; optional fields are left out where a
record has none.
-/

namespace DecisionAssurance

/-- The field of an optional value, absent without one. -/
def optionalField (key : String) : Option String → List (String × Json)
  | none => []
  | some value => [(key, .str value)]

def Actor.toJson (a : Actor) : Json :=
  .obj [("id", .str a.id), ("role", .str a.role.value), ("kind", .str a.kind.value)]

def Claim.toJson (c : Claim) : Json :=
  .obj [("id", .str c.id), ("statement", .str c.statement),
    ("mandatory_evidence", .bool c.mandatoryEvidence)]

def Evidence.toJson (e : Evidence) : Json :=
  .obj ([("id", .str e.id), ("claim_refs", Json.strings e.claimRefs),
    ("source_ref", .str e.sourceRef), ("status", .str e.status.value)] ++
    optionalField "observed_at" e.observedAt ++ optionalField "content_hash" e.contentHash)

def Assumption.toJson (a : Assumption) : Json :=
  .obj [("id", .str a.id), ("statement", .str a.statement), ("status", .str a.status.value)]

def Constraint.toJson (c : Constraint) : Json :=
  .obj [("id", .str c.id), ("severity", .str c.severity.value), ("satisfied", .bool c.satisfied),
    ("reason_code", .str c.reasonCode)]

def Policy.toJson (p : Policy) : Json :=
  .obj [("id", .str p.id), ("version", .str p.version), ("requires_review", .bool p.requiresReview)]

def Risk.toJson (r : Risk) : Json :=
  .obj [("id", .str r.id), ("level", .str r.level.value), ("unresolved", .bool r.unresolved)]

def Conflict.toJson (c : Conflict) : Json :=
  .obj ([("id", .str c.id), ("severity", .str c.severity.value), ("resolved", .bool c.resolved)] ++
    optionalField "description" c.description)

def ValidationResult.toJson (v : ValidationResult) : Json :=
  .obj [("validator", v.validator.toJson), ("result", .str v.result.value),
    ("reason_codes", Json.strings v.reasonCodes), ("validated_at", .str v.validatedAt)]

def ReviewRequirement.toJson (r : ReviewRequirement) : Json :=
  .obj [("id", .str r.id), ("required_role", .str r.requiredRole.role.value),
    ("mandatory", .bool r.mandatory), ("satisfied", .bool r.satisfied)]

/-- An action without its digest field. -/
def CanonicalAction.payload (a : CanonicalAction) : List (String × Json) :=
  [("action_id", .str a.actionId), ("action_type", .str a.actionType), ("effect", .str a.effect),
    ("target", .obj [("type", .str a.targetType), ("id", .str a.targetId)]),
    ("parameters", .obj a.parameters), ("reversibility_class", .str a.reversibilityClass.value),
    ("tenant_id", .str a.tenantId), ("execution_context_hash", .str a.executionContextHash)]

def CanonicalAction.toJson (a : CanonicalAction) : Json :=
  .obj (a.payload ++ [("canonical_digest", .str a.canonicalDigest)])

def Approval.toJson (a : Approval) : Json :=
  .obj [("requirement_ref", .str a.requirementRef), ("approver", a.approver.toJson),
    ("decision", .str a.decision.value), ("decided_at", .str a.decidedAt),
    ("action_digest", Json.ofOption a.actionDigest), ("nonce", .str a.nonce),
    ("approval_digest", .str a.approvalDigest)]

def AuditEvent.toJson (e : AuditEvent) : Json :=
  .obj ([("event_id", .str e.eventId), ("event_type", .str e.eventType),
    ("occurred_at", .str e.occurredAt), ("actor", e.actor.toJson),
    ("from_status", Json.ofOption (e.fromStatus.map CaseStatus.value)),
    ("to_status", .str e.toStatus.value), ("reason_codes", Json.strings e.reasonCodes),
    ("payload_hash", .str e.payloadHash),
    ("previous_event_hash", Json.ofOption e.previousEventHash)] ++
    optionalField "tenant_id" e.tenantId ++ optionalField "correlation_id" e.correlationId ++
    optionalField "source_channel" (e.sourceChannel.map SourceChannel.value))

def DecisionFile.toJson (d : DecisionFile) : Json :=
  .obj [("schema_version", .str "0.2.0"), ("decision_id", .str d.decisionId),
    ("title", .str d.title), ("description", .str d.description), ("use_case", .str d.useCase),
    ("status", .str d.status.value), ("assurance_level", .str d.assuranceLevel.value),
    ("created_at", .str d.createdAt), ("updated_at", .str d.updatedAt),
    ("created_by", d.createdBy.toJson), ("requested_by", d.requestedBy.toJson),
    ("current_owner", d.currentOwner.toJson),
    ("canonical_action", (d.canonicalAction.map CanonicalAction.toJson).getD .null),
    ("claims", .arr (d.claims.map Claim.toJson)),
    ("evidence", .arr (d.evidence.map Evidence.toJson)),
    ("assumptions", .arr (d.assumptions.map Assumption.toJson)),
    ("constraints", .arr (d.constraints.map Constraint.toJson)),
    ("policies", .arr (d.policies.map Policy.toJson)),
    ("risks", .arr (d.risks.map Risk.toJson)),
    ("conflicts", .arr (d.conflicts.map Conflict.toJson)),
    ("validation_results", .arr (d.validationResults.map ValidationResult.toJson)),
    ("review_requirements", .arr (d.reviewRequirements.map ReviewRequirement.toJson)),
    ("approvals", .arr (d.approvals.map Approval.toJson)),
    ("decision_outcome", Json.ofOption (d.decisionOutcome.map Outcome.value)),
    ("outcome_reasons", Json.strings d.outcomeReasons),
    ("audit_events", .arr (d.auditEvents.map AuditEvent.toJson))]

/-! ## Digests -/

inductive TimeError
  | invalid | naive
  deriving DecidableEq

/-- What the code takes from its surroundings: SHA-256 of the characters of a text, as hex
digits; the comparison `fromisoformat(a) < fromisoformat(b)`; and the check of the format
`date-time`. -/
structure Platform where
  sha256 : List Char → String
  earlier : String → String → Except TimeError Bool
  dateTime : String → Bool

section Digests

variable (pf : Platform)

/-- `payload_hash` -/
def payloadHash (payload : Json) : String := "sha256:" ++ pf.sha256 payload.dumps

def AuditEvent.hash (e : AuditEvent) : String := DecisionAssurance.payloadHash pf e.toJson

def canonicalActionDigest (a : CanonicalAction) : String := payloadHash pf (.obj a.payload)

def approvalDigest (d : DecisionFile) (a : Approval) : String :=
  payloadHash pf (.obj [("decision_id", .str d.decisionId),
    ("requested_by", d.requestedBy.toJson),
    ("requirement_ref", .str a.requirementRef),
    ("approver", a.approver.toJson),
    ("decision", .str a.decision.value),
    ("decided_at", .str a.decidedAt),
    ("action_digest", Json.ofOption a.actionDigest),
    ("nonce", .str a.nonce)])

def bindApproval (d : DecisionFile) (a : Approval) : Approval :=
  { a with approvalDigest := approvalDigest pf d a }

end Digests

end DecisionAssurance
