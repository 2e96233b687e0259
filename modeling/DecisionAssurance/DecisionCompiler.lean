import DecisionAssurance.DecisionDatabase
import DecisionAssurance.IntakeVerification

/-!
# The compilation of a verified intake

`DecisionFileCompiler` turns the report of a ready intake into a draft Decision File.
-/

namespace DecisionAssurance.Intake.DecisionFileCompiler

variable (py : Interpreter)

def compiledId (intakeId : String) : String := s!"{intakeId}-decision"

def compilerActor (actorId : String) : Actor := ⟨actorId, .generator, .service⟩

def claimId (index : ℕ) : String := s!"claim-{toString index}"

def compiledClaim (c : CandidateFact) (index : ℕ) : Claim where
  id := claimId index
  statement := c.factType.value ++ " = " ++ c.normalizedValue.getD "None"
  mandatoryEvidence := true

def compiledEvidence (c : CandidateFact) (index : ℕ) : Evidence where
  id := c.factId
  claimRefs := [claimId index]
  sourceRef := s!"{c.source.sourceId}:{toString c.source.start}-{toString c.source.stop}"
  status := .verified
  observedAt := none
  contentHash := some c.source.contentHash

/-- The results of the policy that a decision must satisfy. -/
def mandatoryResults : List String :=
  ["MARGIN_BELOW_POLICY_MINIMUM", "POLICY_NOT_EFFECTIVE", "POLICY_REFERENCE_NOT_REGISTERED",
    "SEPARATION_OF_DUTIES_VIOLATION", "GOVERNANCE_OVERRIDE_ATTEMPT"]

def compiledConstraint (f : DerivedFinding) : Constraint where
  id := f.findingId
  severity := if f.resultCode ∈ mandatoryResults then .mandatory else .reviewRequired
  satisfied := false
  reasonCode := f.resultCode

def compiledEvent (intakeId timestamp : String) (actor : Actor) (facts : List String) :
    AuditEvent where
  eventId := s!"{compiledId intakeId}:audit:1"
  eventType := "intake.compiled"
  occurredAt := timestamp
  actor := actor
  fromStatus := none
  toStatus := .draft
  reasonCodes := ["VERIFIED_INTAKE_COMPILED"]
  payloadHash := "sha256:" ++ py.sha256 (Json.obj [("intake_id", .str intakeId),
    ("used_fact_refs", Json.strings facts)]).dumpsAscii
  previousEventHash := none
  tenantId := none
  correlationId := none
  sourceChannel := none

/-- The Decision File of a report, from its trusted candidates. -/
def compiledDecision (report : VerificationReport) (policy : PolicyContext)
    (actorId timestamp : String) (verified : List CandidateFact) : DecisionFile where
  decisionId := compiledId report.intakeId
  title := s!"Compiled intake {report.intakeId}"
  description := "Decision File compiled exclusively from verified intake facts."
  useCase := "controlled-real-world-intake"
  status := .draft
  assuranceLevel := .standard
  createdAt := timestamp
  updatedAt := timestamp
  createdBy := compilerActor actorId
  requestedBy := compilerActor actorId
  currentOwner := compilerActor actorId
  canonicalAction := none
  claims := verified.mapIdx fun i c => compiledClaim c (i + 1)
  evidence := verified.mapIdx fun i c => compiledEvidence c (i + 1)
  assumptions := []
  constraints := report.findings.map compiledConstraint
  policies := [⟨policy.policyId, policy.policyVersion, false⟩]
  risks := []
  conflicts := []
  validationResults := []
  reviewRequirements := []
  approvals := []
  decisionOutcome := none
  outcomeReasons := []
  auditEvents := [compiledEvent py report.intakeId timestamp (compilerActor actorId)
    (verified.map CandidateFact.factId)]

def compile (report : VerificationReport) (policy : PolicyContext) (actorId : String)
    (intakeStatus : IntakeStatus) (timestamp : String) : Raises DecisionFile :=
  if intakeStatus ≠ .ready ∨ !report.ready ∨ !report.unresolvedRequirementRefs.isEmpty then
    .error (.compilation "NEEDS_CONFIRMATION")
  else
    let verified := report.candidates.filter fun c => c.verificationStatus.trusted
    if verified.isEmpty then .error (.compilation "NEEDS_CONFIRMATION")
    else .ok (compiledDecision py report policy actorId timestamp verified)

variable {py} {report : VerificationReport} {policy : PolicyContext} {actorId timestamp : String}
  {intakeStatus : IntakeStatus} {d : DecisionFile}

/-- Only a ready report is compiled, from what is trusted in it. -/
theorem compile_ok (h : compile py report policy actorId intakeStatus timestamp = .ok d) :
    intakeStatus = .ready ∧ report.ready = true ∧ d = compiledDecision py report policy actorId
      timestamp (report.candidates.filter fun c => c.verificationStatus.trusted) := by
  unfold compile at h
  dsimp only at h
  split_ifs at h with hready
  simp only [not_or, not_not, Bool.not_eq_true'] at hready
  cases h
  exact ⟨hready.1, by simpa using hready.2.1, rfl⟩

theorem compile_decisionId (h : compile py report policy actorId intakeStatus timestamp = .ok d) :
    d.decisionId = compiledId report.intakeId := by
  obtain ⟨-, -, rfl⟩ := compile_ok h
  rfl

theorem compiledId_injective : Function.Injective compiledId := by
  intro i j h
  have hchars := congrArg String.toList h
  simp only [compiledId, toString, String.toList_append, List.append_cancel_right_eq] at hchars
  exact String.toList_inj.mp hchars

end DecisionAssurance.Intake.DecisionFileCompiler
