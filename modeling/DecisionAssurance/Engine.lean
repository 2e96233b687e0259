import DecisionAssurance.DecisionContract

/-!
# The Decision Assurance engine

The governance rules over an assessment request and the evaluation of a Decision File, which
builds its request, assesses it and appends the result and an audit event to the document.
-/

namespace DecisionAssurance

inductive Severity
  | block | review
  deriving DecidableEq

/-- What a rule found: a reason code, its severity and the subject. -/
structure Found where
  reasonCode : String
  severity : Severity
  subjectRef : Option String
  deriving DecidableEq

structure Finding extends Found where
  findingId : String
  deriving DecidableEq

structure AssessedEvidence where
  id : String
  status : EvidenceStatus
  fabricated : Bool
  deriving DecidableEq

structure AssessmentRequest where
  decisionId : String
  evidence : List AssessedEvidence
  mandatoryEvidenceMissing : Bool
  constraints : List Constraint
  policies : List Policy
  conflicts : List Conflict
  generator : String
  approver : Option String
  highImpact : Bool
  unresolvedUncertainty : Bool
  policyVersion : String
  deriving DecidableEq

/-- A finding when a condition holds. -/
def foundWhen (condition : Bool) (reasonCode : String) (severity : Severity)
    (subjectRef : Option String) : List Found :=
  if condition then [⟨reasonCode, severity, subjectRef⟩] else []

theorem foundWhen_eq_nil {condition : Bool} {reasonCode : String} {severity : Severity}
    {subjectRef : Option String} :
    foundWhen condition reasonCode severity subjectRef = [] ↔ condition = false := by
  unfold foundWhen
  split_ifs with h
  · simp only [h, reduceCtorEq]
  · simp only [Bool.not_eq_true] at h
    simp only [h]

/-! ## `_validate` -/

def AssessedEvidence.found (e : AssessedEvidence) : List Found :=
  foundWhen (e.status = .unverified) "EVIDENCE_UNVERIFIABLE" .review (some e.id) ++
  foundWhen e.fabricated "CITATION_FABRICATED" .block (some e.id) ++
  foundWhen (e.status = .outdated) "EVIDENCE_OUTDATED" .review (some e.id) ++
  foundWhen (e.status = .conflicting) "EVIDENCE_CONFLICT" .review (some e.id) ++
  foundWhen (e.status = .unavailable) "MANDATORY_EVIDENCE_MISSING" .review (some e.id)

def Constraint.found (c : Constraint) : List Found :=
  match c.severity with
  | .mandatory => foundWhen (!c.satisfied) "HARD_CONSTRAINT_VIOLATION" .block (some c.id)
  | .reviewRequired => foundWhen (!c.satisfied) c.reasonCode .review (some c.id)
  | .advisory => []

def Conflict.found (c : Conflict) : List Found :=
  match c.severity with
  | .critical => foundWhen (!c.resolved) "CRITICAL_CONFLICT_UNRESOLVED" .block (some c.id)
  | _ => foundWhen (!c.resolved) "CONFLICT_UNRESOLVED" .review (some c.id)

namespace AssessmentRequest

/-- The generator of a case must not be its approver. -/
def separationFound (r : AssessmentRequest) : List Found :=
  foundWhen (nonEmpty r.generator && r.approver = some r.generator)
    "SEPARATION_OF_DUTIES_VIOLATION" .block (some r.generator)

theorem separationFound_of_ne {r : AssessmentRequest} (h : r.approver ≠ some r.generator) :
    r.separationFound = [] := by
  rw [separationFound, foundWhen_eq_nil, decide_eq_false h, Bool.and_false]

def found (r : AssessmentRequest) : List Found :=
  r.evidence.flatMap AssessedEvidence.found ++
  foundWhen r.mandatoryEvidenceMissing "MANDATORY_EVIDENCE_MISSING"
    (if r.highImpact then .block else .review) none ++
  r.constraints.flatMap Constraint.found ++
  r.policies.flatMap (fun p =>
    foundWhen p.requiresReview "POLICY_REQUIRES_REVIEW" .review (some p.id)) ++
  r.separationFound ++
  foundWhen (r.highImpact && r.unresolvedUncertainty) "HIGH_IMPACT_UNCERTAINTY" .review none ++
  r.conflicts.flatMap Conflict.found

/-- `_validate` -/
def findings (r : AssessmentRequest) : List Finding :=
  r.found.zipIdx.map fun (f, index) =>
    { f with findingId := s!"{r.decisionId}:finding:{index + 1}" }

end AssessmentRequest

/-- `_govern` -/
def govern (findings : List Finding) : Outcome :=
  if findings.any fun f => f.severity = .block then .block
  else if findings.isEmpty then .pass
  else .review

def reasonCodesOf (findings : List Finding) : List String :=
  if findings.isEmpty then ["ALL_REQUIRED_CHECKS_SATISFIED"]
  else (findings.map fun f => f.reasonCode).eraseDups

structure Report where
  reportId : String
  decisionId : String
  outcome : Outcome
  reasonCodes : List String
  findingRefs : List String
  evidenceRefs : List String
  reviewRef : Option String
  auditRef : String
  createdAt : String
  policyVersion : String
  deriving DecidableEq

def Report.toJson (r : Report) : Json :=
  .obj [("report_id", .str r.reportId), ("decision_id", .str r.decisionId),
    ("outcome", .str r.outcome.value), ("reason_codes", Json.strings r.reasonCodes),
    ("finding_refs", Json.strings r.findingRefs), ("evidence_refs", Json.strings r.evidenceRefs),
    ("review_ref", Json.ofOption r.reviewRef), ("audit_ref", .str r.auditRef),
    ("created_at", .str r.createdAt), ("limitations", .arr []),
    ("versions", .obj [("das", .str "0.1.0"), ("policy", .str r.policyVersion),
      ("engine", .str "0.1.0")])]

/-- The report of `assess`, at the clock reading `now`. -/
def assess (now : String) (r : AssessmentRequest) : Report :=
  let findings := r.findings
  let outcome := govern findings
  { reportId := s!"{r.decisionId}:report:1"
    decisionId := r.decisionId
    outcome := outcome
    reasonCodes := reasonCodesOf findings
    findingRefs := findings.map Finding.findingId
    evidenceRefs := r.evidence.map AssessedEvidence.id
    reviewRef := if outcome = .review then some s!"{r.decisionId}:review:1" else none
    auditRef := s!"{r.decisionId}:audit"
    createdAt := now
    policyVersion := r.policyVersion }

/-! ## The evaluation of a Decision File -/

namespace DecisionFile

def mandatoryEvidenceMissing (d : DecisionFile) : Bool :=
  d.claims.any fun claim => claim.mandatoryEvidence &&
    !(d.evidence.any fun e => claim.id ∈ e.claimRefs && e.status ≠ .unavailable)

def policyVersion (d : DecisionFile) : String :=
  let versions := ",".intercalate (d.policies.map Policy.version)
  if nonEmpty versions then versions else "none"

def assessmentRequest (d : DecisionFile) : AssessmentRequest where
  decisionId := d.decisionId
  evidence := d.evidence.map fun e => ⟨e.id, e.status, e.status = .fabricated⟩
  mandatoryEvidenceMissing := d.mandatoryEvidenceMissing
  constraints := d.constraints
  policies := d.policies
  conflicts := d.conflicts
  generator := d.createdBy.id
  approver := d.approvals.getLast?.map fun a => a.approver.id
  highImpact := d.risks.any fun r => r.level = .high || r.level = .critical
  unresolvedUncertainty := d.risks.any Risk.unresolved
  policyVersion := d.policyVersion

end DecisionFile

def engineActor : Actor := ⟨"decision-assurance-engine", .validator, .service⟩

/-- The hash an appended event links to. -/
def tipHash (pf : Platform) (events : List AuditEvent) : Option String :=
  events.getLast?.map (AuditEvent.hash pf)

def evaluationEvent (pf : Platform) (d : DecisionFile) (report : Report) : AuditEvent where
  eventId := s!"{d.decisionId}:evaluation:{d.auditEvents.length + 1}"
  eventType := "decision.evaluated"
  occurredAt := report.createdAt
  actor := engineActor
  fromStatus := some d.status
  toStatus := d.status
  reasonCodes := report.reasonCodes
  payloadHash := payloadHash pf report.toJson
  previousEventHash := tipHash pf d.auditEvents
  tenantId := none
  correlationId := none
  sourceChannel := none

def DecisionFile.withEvaluation (pf : Platform) (d : DecisionFile) (report : Report) :
    DecisionFile :=
  { d with
    decisionOutcome := some report.outcome
    outcomeReasons := report.reasonCodes
    updatedAt := report.createdAt
    validationResults := d.validationResults ++
      [⟨engineActor, report.outcome, report.reasonCodes, report.createdAt⟩]
    auditEvents := d.auditEvents ++ [evaluationEvent pf d report] }

/-- `evaluate_decision_file` -/
def evaluateDecisionFile (pf : Platform) (now : String) (d : DecisionFile) :
    Except DecisionError (DecisionFile × Report) := do
  validateContract pf d
  validateSemantics pf d
  let report := assess now d.assessmentRequest
  let updated := d.withEvaluation pf report
  validateContract pf updated
  return (updated, report)

/-- The document an evaluation returns. -/
def evaluatedDocument (pf : Platform) (now : String) (d : DecisionFile) :
    Except DecisionError DecisionFile :=
  Prod.fst <$> evaluateDecisionFile pf now d

theorem evaluateDecisionFile_cases {pf : Platform} {now : String} {d updated : DecisionFile}
    {report : Report} (h : evaluateDecisionFile pf now d = .ok (updated, report)) :
    Semantic pf d ∧ report = assess now d.assessmentRequest ∧
      updated = d.withEvaluation pf report := by
  obtain ⟨u, hcontract, h⟩ := bind_ok_cases h
  obtain ⟨u', hsem, h⟩ := bind_ok_cases h
  obtain ⟨u'', hupdated, h⟩ := bind_ok_cases h
  cases h
  exact ⟨validateSemantics_ok hsem, rfl, rfl⟩

theorem evaluatedDocument_cases {pf : Platform} {now : String} {d updated : DecisionFile}
    (h : evaluatedDocument pf now d = .ok updated) :
    Semantic pf d ∧ updated = d.withEvaluation pf (assess now d.assessmentRequest) := by
  unfold evaluatedDocument at h
  cases he : evaluateDecisionFile pf now d with
  | error e =>
    rw [he] at h
    cases h
  | ok r =>
    rw [he] at h
    cases h
    obtain ⟨hsem, hreport, hupdated⟩ := evaluateDecisionFile_cases he
    exact ⟨hsem, hreport ▸ hupdated⟩

/-- The outcome an evaluation of the document computes. -/
def DecisionFile.evaluatedOutcome (d : DecisionFile) : Outcome :=
  govern d.assessmentRequest.findings

@[simp] theorem assess_outcome (now : String) (r : AssessmentRequest) :
    (assess now r).outcome = govern r.findings := rfl

theorem govern_eq_pass {r : AssessmentRequest} : govern r.findings = .pass ↔ r.found = [] := by
  have hempty : r.findings = [] ↔ r.found = [] := by
    simp only [AssessmentRequest.findings, List.map_eq_nil_iff, List.zipIdx_eq_nil_iff]
  constructor
  · intro h
    unfold govern at h
    split_ifs at h with hblock hnil
    exact hempty.mp (List.isEmpty_iff.mp hnil)
  · intro h
    rw [hempty.mpr h]
    rfl

end DecisionAssurance
