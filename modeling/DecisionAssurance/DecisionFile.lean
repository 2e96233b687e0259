import DecisionAssurance.Identity
import DecisionAssurance.Json

/-!
# Decision Files

The record of a case under contract version `0.2.0`.
-/

namespace DecisionAssurance

inductive CaseStatus
  | draft | validation | review | approved | blocked
  deriving DecidableEq

def CaseStatus.value : CaseStatus → String
  | .draft => "DRAFT"
  | .validation => "VALIDATION"
  | .review => "REVIEW"
  | .approved => "APPROVED"
  | .blocked => "BLOCKED"

inductive AssuranceLevel
  | basic | standard | high
  deriving DecidableEq

def AssuranceLevel.value : AssuranceLevel → String
  | .basic => "BASIC"
  | .standard => "STANDARD"
  | .high => "HIGH"

inductive Outcome
  | pass | review | block
  deriving DecidableEq

def Outcome.value : Outcome → String
  | .pass => "PASS"
  | .review => "REVIEW"
  | .block => "BLOCK"

inductive EvidenceStatus
  | verified | unverified | outdated | conflicting | fabricated | unavailable
  deriving DecidableEq

def EvidenceStatus.value : EvidenceStatus → String
  | .verified => "VERIFIED"
  | .unverified => "UNVERIFIED"
  | .outdated => "OUTDATED"
  | .conflicting => "CONFLICTING"
  | .fabricated => "FABRICATED"
  | .unavailable => "UNAVAILABLE"

inductive AssumptionStatus
  | accepted | unverified | rejected
  deriving DecidableEq

def AssumptionStatus.value : AssumptionStatus → String
  | .accepted => "ACCEPTED"
  | .unverified => "UNVERIFIED"
  | .rejected => "REJECTED"

inductive ConstraintSeverity
  | mandatory | reviewRequired | advisory
  deriving DecidableEq

def ConstraintSeverity.value : ConstraintSeverity → String
  | .mandatory => "MANDATORY"
  | .reviewRequired => "REVIEW_REQUIRED"
  | .advisory => "ADVISORY"

/-- The levels of risks and the severities of conflicts. -/
inductive Level
  | low | medium | high | critical
  deriving DecidableEq

def Level.value : Level → String
  | .low => "LOW"
  | .medium => "MEDIUM"
  | .high => "HIGH"
  | .critical => "CRITICAL"

inductive RequiredRole
  | reviewer | approver
  deriving DecidableEq

def RequiredRole.role : RequiredRole → Role
  | .reviewer => .reviewer
  | .approver => .approver

inductive Reversibility
  | readOnly | reversible | externallyReversible | irreversible
  deriving DecidableEq

def Reversibility.value : Reversibility → String
  | .readOnly => "READ_ONLY"
  | .reversible => "REVERSIBLE"
  | .externallyReversible => "EXTERNALLY_REVERSIBLE"
  | .irreversible => "IRREVERSIBLE"

inductive Verdict
  | approve | reject
  deriving DecidableEq

def Verdict.value : Verdict → String
  | .approve => "APPROVE"
  | .reject => "REJECT"

structure Actor where
  id : String
  role : Role
  kind : ActorKind
  deriving DecidableEq

structure Claim where
  id : String
  statement : String
  mandatoryEvidence : Bool
  deriving DecidableEq

structure Evidence where
  id : String
  claimRefs : List String
  sourceRef : String
  status : EvidenceStatus
  observedAt : Option String
  contentHash : Option String
  deriving DecidableEq

structure Assumption where
  id : String
  statement : String
  status : AssumptionStatus
  deriving DecidableEq

structure Constraint where
  id : String
  severity : ConstraintSeverity
  satisfied : Bool
  reasonCode : String
  deriving DecidableEq

structure Policy where
  id : String
  version : String
  requiresReview : Bool
  deriving DecidableEq

structure Risk where
  id : String
  level : Level
  unresolved : Bool
  deriving DecidableEq

structure Conflict where
  id : String
  severity : Level
  resolved : Bool
  description : Option String
  deriving DecidableEq

structure ValidationResult where
  validator : Actor
  result : Outcome
  reasonCodes : List String
  validatedAt : String
  deriving DecidableEq

structure ReviewRequirement where
  id : String
  requiredRole : RequiredRole
  mandatory : Bool
  satisfied : Bool
  deriving DecidableEq

structure CanonicalAction where
  actionId : String
  actionType : String
  effect : String
  targetType : String
  targetId : String
  parameters : List (String × Json)
  reversibilityClass : Reversibility
  tenantId : String
  executionContextHash : String
  canonicalDigest : String
  deriving DecidableEq

structure Approval where
  requirementRef : String
  approver : Actor
  decision : Verdict
  decidedAt : String
  actionDigest : Option String
  nonce : String
  approvalDigest : String
  deriving DecidableEq

inductive SourceChannel
  | api | cli | filesystem
  deriving DecidableEq

def SourceChannel.value : SourceChannel → String
  | .api => "api"
  | .cli => "cli"
  | .filesystem => "filesystem"

structure AuditEvent where
  eventId : String
  eventType : String
  occurredAt : String
  actor : Actor
  fromStatus : Option CaseStatus
  toStatus : CaseStatus
  reasonCodes : List String
  payloadHash : String
  previousEventHash : Option String
  tenantId : Option String
  correlationId : Option String
  sourceChannel : Option SourceChannel
  deriving DecidableEq

structure DecisionFile where
  decisionId : String
  title : String
  description : String
  useCase : String
  status : CaseStatus
  assuranceLevel : AssuranceLevel
  createdAt : String
  updatedAt : String
  createdBy : Actor
  requestedBy : Actor
  currentOwner : Actor
  canonicalAction : Option CanonicalAction
  claims : List Claim
  evidence : List Evidence
  assumptions : List Assumption
  constraints : List Constraint
  policies : List Policy
  risks : List Risk
  conflicts : List Conflict
  validationResults : List ValidationResult
  reviewRequirements : List ReviewRequirement
  approvals : List Approval
  decisionOutcome : Option Outcome
  outcomeReasons : List String
  auditEvents : List AuditEvent
  deriving DecidableEq

end DecisionAssurance
