import DecisionAssurance.Exceptions
import DecisionAssurance.QuoteExtractor

/-!
# Verification and human confirmation

The three passes over the candidates, the comparison with the active policy, the report built
from both, and the confirmation of one fact by a person.
-/

namespace DecisionAssurance.Intake

section Passes

variable (py : Interpreter)

def objectiveFacts : List FactType :=
  [.amount, .discountPercent, .marginPercent, .paymentTermDays, .durationMonths, .date,
    .evidenceDate]

/-- `_REQUIRED_FACTS`, sorted. -/
def requiredFacts : List FactType := [.amount, .discountPercent, .marginPercent]

def verifyCandidate (c : CandidateFact) : CandidateFact :=
  if c.verificationStatus = .humanConfirmed ∨ c.verificationStatus = .rejected then c
  else if c.factType ∈ objectiveFacts ∧ c.normalizedValue.isSome then
    { c with verificationStatus := .verified, confirmationRequired := false }
  else if c.factType = .untrustedInstruction then { c with verificationStatus := .rejected }
  else c

def CandidateFact.reject (c : CandidateFact) : CandidateFact :=
  { c with verificationStatus := .rejected, confirmationRequired := false }

/-- The span of the candidate overlaps the span of an instruction among the candidates. -/
def CandidateFact.embedded (candidates : List CandidateFact) (c : CandidateFact) : Bool :=
  (candidates.filter fun item => item.factType = .untrustedInstruction).any fun instruction =>
    instruction.source.start < c.source.stop ∧ c.source.start < instruction.source.stop

def governanceClaims : List FactType := [.policyClaim, .approvalClaim, .roleClaim]

def rejectEmbeddedGovernanceClaims (candidates : List CandidateFact) : List CandidateFact :=
  candidates.map fun c =>
    if c.factType ∈ governanceClaims ∧ c.embedded candidates then c.reject else c

def verifyPolicyReferences (candidates : List CandidateFact) :
    Option PolicyContext → List CandidateFact
  | none => candidates
  | some policy => candidates.map fun c =>
    if c.factType = .policyClaim ∧ ¬QuoteExtractor.contains (py.lowerText policy.policyId)
        (py.lowerText (c.normalizedValue.getD "")) then c.reject
    else c

/-- The passes in the order in which `verify` and `reverify` make them. -/
def verifyCandidates (policy : Option PolicyContext) (candidates : List CandidateFact) :
    List CandidateFact :=
  verifyPolicyReferences py (rejectEmbeddedGovernanceClaims (candidates.map verifyCandidate)) policy

end Passes

/-! ## The comparison with the policy -/

section Comparison

variable (py : Interpreter) (intakeId : String) (candidates : List CandidateFact)
  (policy : PolicyContext) (referenceDate : ℤ)

def decimal (s : String) : Raises DecimalNumber :=
  orRaise .arithmetic (DecimalNumber.parse py.decimal s.toList)

def fromisoformat (s : String) : Raises ℤ := orRaise .arithmetic (py.fromisoformat s)

def less (a b : DecimalNumber) : Raises Bool := orRaise .arithmetic (a.less b)

def factValue (factType : FactType) : Option CandidateFact :=
  candidates.find? fun item => item.factType = factType

/-- A value that is there and not empty. -/
def truthy : Option String → Option String
  | some "" => none
  | value => value

def addFinding (findings : List DerivedFinding) (ruleId : String) (factRefs : List String)
    (calculation resultCode : String) : List DerivedFinding :=
  findings ++ [{
    findingId := s!"{intakeId}:derived:{toString (findings.length + 1)}"
    ruleId := ruleId
    factRefs := factRefs
    policyRef := some s!"{policy.policyId}@{policy.policyVersion}"
    calculation := calculation
    resultCode := resultCode
    uncertainty := none }]

def checkPolicyReference (findings : List DerivedFinding) : List DerivedFinding :=
  let rejected := candidates.find? fun item =>
    item.factType = .policyClaim ∧ item.verificationStatus = .rejected
  match rejected with
  | none => findings
  | some item => addFinding intakeId policy findings "POLICY_REGISTRY_LOOKUP" [item.factId]
      "claimed policy reference does not match the trusted active registry entry"
      "POLICY_REFERENCE_NOT_REGISTERED"

def checkEffectiveDate (findings : List DerivedFinding) : Raises (List DerivedFinding) := do
  let effective ← fromisoformat py policy.effectiveDate
  if referenceDate < effective then
    pure (addFinding intakeId policy findings "POLICY_EFFECTIVE_DATE" []
      s!"{policy.effectiveDate} compared with {py.isoformat referenceDate}" "POLICY_NOT_EFFECTIVE")
  else pure findings

/-- One row of the table `checks`. -/
def checkLimit (factType : FactType) (limit : DecimalNumber)
    (violates : DecimalNumber → DecimalNumber → Raises Bool) (ruleId resultCode : String)
    (findings : List DerivedFinding) : Raises (List DerivedFinding) :=
  match factValue candidates factType with
  | none => pure findings
  | some item => match item.normalizedValue with
    | none => pure findings
    | some value => do
      let actual ← decimal py value
      if ← violates actual limit then
        pure (addFinding intakeId policy findings ruleId [item.factId]
          s!"{String.ofList actual.text} compared with {String.ofList limit.text}" resultCode)
      else pure findings

def checkEvidence (findings : List DerivedFinding) : Raises (List DerivedFinding) :=
  match factValue candidates .evidenceDate with
  | none => pure findings
  | some item => match truthy item.normalizedValue with
    | none => pure findings
    | some value => do
      let observed ← fromisoformat py value
      let ageDays := referenceDate - observed
      if policy.maximumEvidenceAgeDays < ageDays then
        pure (addFinding intakeId policy findings "EVIDENCE_FRESHNESS" [item.factId]
          s!"{toString ageDays} days compared with {toString policy.maximumEvidenceAgeDays} days"
          "EVIDENCE_OUTDATED")
      else pure findings

def verifiedException : Bool :=
  candidates.any fun item =>
    (item.factType = .policyClaim ∨ item.factType = .exceptionClaim) ∧
      item.verificationStatus = .humanConfirmed ∧
      QuoteExtractor.contains policy.policyId.toList (item.normalizedValue.getD "").toList

def checkDuration (findings : List DerivedFinding) : Raises (List DerivedFinding) :=
  match factValue candidates .durationMonths with
  | none => pure findings
  | some item => match truthy item.normalizedValue with
    | none => pure findings
    | some value => do
      let number ← decimal py value
      let months ← orRaise .arithmetic number.truncate
      if policy.maximumDurationMonthsWithoutException < months ∧
          ¬verifiedException candidates policy then
        let limit := toString policy.maximumDurationMonthsWithoutException
        pure (addFinding intakeId policy findings "DURATION_EXCEPTION" [item.factId]
          s!"{value} months compared with {limit} months" "DURATION_EXCEPTION_REQUIRED")
      else pure findings

def confirmedApprovals : List CandidateFact :=
  candidates.filter fun item => item.factType = .approvalClaim ∧
    item.verificationStatus = .humanConfirmed ∧ item.confirmedByRole = some .approver

def checkApprovals (findings : List DerivedFinding) : Raises (List DerivedFinding) :=
  match factValue candidates .amount with
  | none => pure findings
  | some item => match truthy item.normalizedValue with
    | none => pure findings
    | some value => do
      let approvals := confirmedApprovals candidates
      let distinctApprovers := (approvals.filterMap CandidateFact.confirmedByActorId).dedup.length
      let number ← decimal py value
      let above ← decimal py policy.requiresApprovalAboveAmount
      let below ← less number above
      if !below ∧ (distinctApprovers : ℤ) < policy.requiredApprovalCount then
        let required := toString policy.requiredApprovalCount
        pure (addFinding intakeId policy findings "REQUIRED_APPROVAL_COUNT"
          (item.factId :: approvals.map CandidateFact.factId)
          s!"{toString distinctApprovers} distinct authenticated approvers compared with {required}"
          "REQUIRED_APPROVAL_MISSING")
      else pure findings

def checkSelfApproval (findings : List DerivedFinding) : List DerivedFinding :=
  let confirmed := candidates.find? fun item =>
    item.factType = .selfApprovalClaim ∧ item.verificationStatus = .humanConfirmed
  match confirmed with
  | none => findings
  | some item => addFinding intakeId policy findings "ROLE_INDEPENDENCE" [item.factId]
      "confirmed self-approval violates independent approval" "SEPARATION_OF_DUTIES_VIOLATION"

def checkOverride (findings : List DerivedFinding) : List DerivedFinding :=
  match factValue candidates .untrustedInstruction with
  | none => findings
  | some item =>
    if ["generator", "validator", "approver", "approved"].any fun term =>
        QuoteExtractor.contains term.toList (py.lowerText item.rawValue) then
      addFinding intakeId policy findings "GOVERNANCE_OVERRIDE" [item.factId]
        "untrusted input attempted to override authenticated governance roles"
        "GOVERNANCE_OVERRIDE_ATTEMPT"
    else findings

def comparePolicy : Raises (List DerivedFinding) := do
  let findings := checkPolicyReference intakeId candidates policy []
  let findings ← checkEffectiveDate py intakeId policy referenceDate findings
  let maximum ← decimal py policy.maximumDiscountPercent
  let minimum ← decimal py policy.minimumMarginPercent
  let findings ← checkLimit py intakeId candidates policy .discountPercent maximum
    (fun actual limit => less limit actual) "DISCOUNT_MAXIMUM" "DISCOUNT_ABOVE_POLICY_LIMIT" findings
  let findings ← checkLimit py intakeId candidates policy .marginPercent minimum
    less "MARGIN_MINIMUM" "MARGIN_BELOW_POLICY_MINIMUM" findings
  let findings ← checkEvidence py intakeId candidates policy referenceDate findings
  let findings ← checkDuration py intakeId candidates policy findings
  let findings ← checkApprovals py intakeId candidates policy findings
  let findings := checkSelfApproval intakeId candidates policy findings
  pure (checkOverride py intakeId candidates policy findings)

end Comparison

/-! ## Reports -/

section Reports

variable (py : Interpreter) (policy : Option PolicyContext) (referenceDate : ℤ)

/-- The types of the claims that wait for a person. -/
def waitingClaims : List FactType :=
  [.policyClaim, .exceptionClaim, .approvalClaim, .selfApprovalClaim]

def reportReasons (candidates : List CandidateFact) (unresolvedRequirementRefs : List String)
    (conflictsUnresolved : Bool) : List String :=
  let present := (candidates.filter fun c => c.verificationStatus.trusted).map CandidateFact.factType
  let missing := requiredFacts.filter fun factType => factType ∉ present
  let untrusted := candidates.any fun c => c.confirmationRequired ∧
    c.verificationStatus = .unresolved ∧ c.factType ∈ waitingClaims
  ((if policy.isNone then ["TRUSTED_POLICY_UNAVAILABLE"] else []) ++
    (if conflictsUnresolved then ["CONFLICTS_UNRESOLVED"] else []) ++
    (if unresolvedRequirementRefs.isEmpty then [] else ["MANDATORY_INFORMATION_MISSING"]) ++
    (missing.map fun factType => "REQUIRED_FACT_MISSING:" ++ factType.value) ++
    (if untrusted then ["HUMAN_CONFIRMATION_REQUIRED"] else [])).eraseDups

/-- The findings of a report; without a policy there are none. -/
def policyFindings (intakeId : String) (candidates : List CandidateFact) :
    Raises (List DerivedFinding) :=
  match policy with
  | none => pure []
  | some policy => comparePolicy py intakeId candidates policy referenceDate

def buildReport (intakeId : String) (candidates : List CandidateFact)
    (unresolvedRequirementRefs : List String) (conflictsUnresolved : Bool) :
    Raises VerificationReport := do
  let findings ← policyFindings py policy referenceDate intakeId candidates
  let reasons := reportReasons policy candidates unresolvedRequirementRefs conflictsUnresolved
  pure {
    schemaVersion := "0.3.0"
    intakeId := intakeId
    candidates := candidates
    findings := findings
    unresolvedRequirementRefs := unresolvedRequirementRefs
    ready := reasons.isEmpty
    reasonCodes := reasons }

def verify (extraction : ExtractionReport) : Raises VerificationReport :=
  buildReport py policy referenceDate extraction.intakeId
    (verifyCandidates py policy extraction.candidates)
    (extraction.requirements.map VerificationRequirement.requirementId)
    (!extraction.conflicts.isEmpty)

def confirmedApproval (candidates : List CandidateFact) : Bool :=
  candidates.any fun c => c.factType = .approvalClaim ∧ c.verificationStatus = .humanConfirmed

def approvalMarker : List Char := ":requirement:APPROVAL_CLAIM:".toList

def remainingRequirements (candidates : List CandidateFact) (refs : List String) : List String :=
  refs.filter fun ref =>
    !(confirmedApproval candidates && QuoteExtractor.contains approvalMarker ref.toList)

/-- Recalculates every derived result after a human correction. -/
def reverify (report : VerificationReport) : Raises VerificationReport :=
  let candidates := verifyCandidates py policy report.candidates
  buildReport py policy referenceDate report.intakeId candidates
    (remainingRequirements candidates report.unresolvedRequirementRefs)
    (report.reasonCodes.contains "CONFLICTS_UNRESOLVED")

end Reports

/-! ## Confirmation -/

section Confirmation

variable (py : Interpreter)

/-- The arguments of `confirm_fact` after the report. -/
structure ConfirmationCall where
  factId : String
  action : String
  newValue : Option String
  reason : String
  occurredAt : String
  identity : Identity

variable (call : ConfirmationCall)

def confirmationId (intakeId : String) : String :=
  let payload := Json.obj [("intake_id", .str intakeId),
    ("fact_id", .str call.factId),
    ("action", .str call.action),
    ("actor_id", .str call.identity.actorId),
    ("new_value", Json.ofOption call.newValue),
    ("reason", .str call.reason),
    ("occurred_at", .str call.occurredAt)]
  let digest := String.ofList ((py.sha256 payload.dumpsAscii).toList.take 24)
  s!"{intakeId}:confirmation:{digest}"

def updatedFact (current : CandidateFact) : CandidateFact :=
  { current with
    normalizedValue := if call.action = "CORRECT" then call.newValue else current.normalizedValue
    verificationStatus := if call.action = "REJECT" then .rejected else .humanConfirmed
    confirmationRequired := false
    confirmedByActorId := some call.identity.actorId
    confirmedByRole := some call.identity.role }

def confirmationReasons (candidates : List CandidateFact) (codes : List String) : List String :=
  let stillUnresolved := candidates.any fun c =>
    c.confirmationRequired ∧ c.verificationStatus = .unresolved
  let codes := codes.filter fun code => code ≠ "HUMAN_CONFIRMATION_REQUIRED" ∨ stillUnresolved
  if call.action = "CORRECT" ∧ "REVERIFICATION_REQUIRED" ∉ codes then
    codes ++ ["REVERIFICATION_REQUIRED"]
  else codes

def checkConfirmation : Raises Unit := do
  if call.identity.kind ≠ .human then throw (.confirmation "HUMAN_ACTOR_REQUIRED")
  if !call.identity.authorized .intakeConfirm then
    throw (.confirmation "INTAKE_CONFIRMATION_FORBIDDEN")
  if call.action ∉ ["CONFIRM", "CORRECT", "REJECT"] then
    throw (.confirmation "INVALID_CONFIRMATION_ACTION")
  if call.action = "CORRECT" ∧ truthy call.newValue = none then
    throw (.confirmation "CORRECTED_VALUE_REQUIRED")
  if isBlank call.reason then throw (.confirmation "CONFIRMATION_REASON_REQUIRED")

def confirmFact (report : VerificationReport) : Raises (VerificationReport × HumanConfirmation) := do
  checkConfirmation call
  let current ← orRaise (.confirmation "FACT_NOT_FOUND")
    (report.candidates.find? fun c => c.factId = call.factId)
  let candidates := report.candidates.map fun c =>
    if c.factId = call.factId then updatedFact call current else c
  let reasonCodes := confirmationReasons call candidates report.reasonCodes
  pure ({ report with
      candidates := candidates
      reasonCodes := reasonCodes
      ready := reasonCodes.isEmpty && report.findings.isEmpty &&
        report.unresolvedRequirementRefs.isEmpty },
    { confirmationId := confirmationId py call report.intakeId
      factId := call.factId
      action := call.action
      actorId := call.identity.actorId
      oldValue := current.normalizedValue
      newValue := call.newValue
      reason := call.reason
      occurredAt := call.occurredAt })

end Confirmation

end DecisionAssurance.Intake
