import DecisionAssurance.DecisionJson
import DecisionAssurance.Identity

/-!
# The records of the controlled intake

Candidate facts with the place of the raw input they come from, the reports of extraction and
verification, and what the intake asks of the interpreter it runs on.
-/

namespace DecisionAssurance.Intake

/-- The character data, the calendar and the digests of the interpreter; `decimal` is the value of
a decimal digit of any script, `alike` the comparison of `re.IGNORECASE`, and a date is the number
of its day. -/
structure Interpreter extends Platform where
  decimal : Char → Option ℕ
  isAlnum : Char → Bool
  lower : List Char → List Char
  upper : List Char → List Char
  alike : Char → Char → Bool
  fromisoformat : String → Option ℤ
  isoformat : ℤ → String

/-- `value.lower()` of a text. -/
def Interpreter.lowerText (py : Interpreter) (s : String) : List Char := py.lower s.toList

inductive IntakeStatus
  | received | extracted | needsConfirmation | ready | compiled | rejected
  deriving DecidableEq

def IntakeStatus.value : IntakeStatus → String
  | .received => "RECEIVED"
  | .extracted => "EXTRACTED"
  | .needsConfirmation => "NEEDS_CONFIRMATION"
  | .ready => "READY"
  | .compiled => "COMPILED"
  | .rejected => "REJECTED"

inductive VerificationStatus
  | unresolved | verified | humanConfirmed | rejected
  deriving DecidableEq

def VerificationStatus.value : VerificationStatus → String
  | .unresolved => "UNRESOLVED"
  | .verified => "VERIFIED"
  | .humanConfirmed => "HUMAN_CONFIRMED"
  | .rejected => "REJECTED"

/-- `{VerificationStatus.VERIFIED, VerificationStatus.HUMAN_CONFIRMED}` -/
def VerificationStatus.trusted : VerificationStatus → Bool
  | .verified | .humanConfirmed => true
  | .unresolved | .rejected => false

inductive FactType
  | amount | discountPercent | discountLimitPercent | marginPercent | minMarginPercent
  | paymentTermDays | durationMonths | date | evidenceDate | policyClaim | exceptionClaim
  | approvalClaim | selfApprovalClaim | roleClaim | untrustedInstruction
  deriving DecidableEq

def FactType.value : FactType → String
  | .amount => "AMOUNT"
  | .discountPercent => "DISCOUNT_PERCENT"
  | .discountLimitPercent => "DISCOUNT_LIMIT_PERCENT"
  | .marginPercent => "MARGIN_PERCENT"
  | .minMarginPercent => "MIN_MARGIN_PERCENT"
  | .paymentTermDays => "PAYMENT_TERM_DAYS"
  | .durationMonths => "DURATION_MONTHS"
  | .date => "DATE"
  | .evidenceDate => "EVIDENCE_DATE"
  | .policyClaim => "POLICY_CLAIM"
  | .exceptionClaim => "EXCEPTION_CLAIM"
  | .approvalClaim => "APPROVAL_CLAIM"
  | .selfApprovalClaim => "SELF_APPROVAL_CLAIM"
  | .roleClaim => "ROLE_CLAIM"
  | .untrustedInstruction => "UNTRUSTED_INSTRUCTION"

structure SourceReference where
  sourceId : String
  start : ℤ
  stop : ℤ
  contentHash : String
  deriving DecidableEq

/-- The confidence is kept as the text the float is written with. -/
structure CandidateFact where
  factId : String
  factType : FactType
  rawValue : String
  normalizedValue : Option String
  source : SourceReference
  method : String
  methodVersion : String
  extractionConfidence : String
  verificationStatus : VerificationStatus
  unit : Option String
  currency : Option String
  conflictRefs : List String
  confirmationRequired : Bool
  confirmedByActorId : Option String
  confirmedByRole : Option Role
  deriving DecidableEq

structure IntakeConflict where
  conflictId : String
  factType : FactType
  factRefs : List String
  reasonCode : String
  deriving DecidableEq

structure VerificationRequirement where
  requirementId : String
  factType : FactType
  reasonCode : String
  mandatory : Bool
  deriving DecidableEq

structure ExtractionReport where
  schemaVersion : String
  intakeId : String
  method : String
  methodVersion : String
  locale : String
  candidates : List CandidateFact
  conflicts : List IntakeConflict
  requirements : List VerificationRequirement
  deriving DecidableEq

structure DerivedFinding where
  findingId : String
  ruleId : String
  factRefs : List String
  policyRef : Option String
  calculation : String
  resultCode : String
  uncertainty : Option String
  deriving DecidableEq

structure HumanConfirmation where
  confirmationId : String
  factId : String
  action : String
  actorId : String
  oldValue : Option String
  newValue : Option String
  reason : String
  occurredAt : String
  deriving DecidableEq

structure IntakeAuditEvent where
  eventId : String
  eventType : String
  occurredAt : String
  actorId : String
  fromStatus : IntakeStatus
  toStatus : IntakeStatus
  reasonCodes : List String
  payloadHash : String
  previousEventHash : Option String
  deriving DecidableEq

structure PolicyContext where
  policyId : String
  policyVersion : String
  effectiveDate : String
  maximumDiscountPercent : String
  minimumMarginPercent : String
  maximumDurationMonthsWithoutException : ℤ
  requiresApprovalAboveAmount : String
  maximumEvidenceAgeDays : ℤ
  requiredApprovalCount : ℤ
  deriving DecidableEq

structure VerificationReport where
  schemaVersion : String
  intakeId : String
  candidates : List CandidateFact
  findings : List DerivedFinding
  unresolvedRequirementRefs : List String
  ready : Bool
  reasonCodes : List String
  deriving DecidableEq

/-- The stored record of an intake; its schema version is fixed. -/
structure IntakeRecord where
  intakeId : String
  status : IntakeStatus
  rawInput : String
  rawInputHash : String
  locale : String
  createdAt : String
  updatedAt : String
  contractReady : Bool
  extraction : ExtractionReport
  verification : VerificationReport
  confirmations : List HumanConfirmation
  findings : List DerivedFinding
  auditEvents : List IntakeAuditEvent
  compiledDecisionId : Option String
  deriving DecidableEq

/-- What the functions of the intake raise; every error of a number or a date that cannot be read
is `arithmetic`. -/
inductive IntakeError
  | confirmation (code : String)
  | transition (code : String)
  | compilation (code : String)
  | arithmetic
  deriving DecidableEq

abbrev Raises := Except IntakeError

end DecisionAssurance.Intake
