import DecisionAssurance.McpContracts
import DecisionAssurance.ResearchCodec

/-!
# The answers of the tool service

What a tool shows of a run, and the JSON form in which an answer is kept for replays. A reader
takes the values that a field is declared to hold and no other ones.
-/

namespace DecisionAssurance.Mcp

open Json (required getOr closed listOf nullable oneOf asString asBool asInt strings ofOption orNull
  Restores closed_reread restores_strings restores_ofOption)
open Research (ResearchRun SourceCandidate EvidenceCandidate)

structure ResearchSourceView where
  sourceId : String
  canonicalUrl : String
  domain : String
  title : String
  rank : Int
  extractionStatus : String
  reasonCodes : List String
  deriving DecidableEq

structure ResearchEvidenceView where
  evidenceId : String
  claimRefs : List String
  sourceId : String
  snapshotId : String
  contentHash : String
  freshnessStatus : String
  conflictStatus : String
  usableForDecision : Bool
  requiresHumanReview : Bool
  promptInjectionSuspected : Bool
  reasonCodes : List String
  deriving DecidableEq

structure ResearchRunView where
  researchRunId : String
  decisionFileId : String
  status : String
  mode : Option ResearchMode
  resultKind : Option ResearchResultKind
  createdAt : String
  updatedAt : String
  correlationId : String
  auditEventIds : List String
  sourceCount : Int
  evidenceCount : Int
  providerCostUnits : Int
  compiledDecisionFileId : Option String
  requiresHumanReview : Bool
  sources : List ResearchSourceView
  evidenceBundleDraft : List ResearchEvidenceView
  conflictEvidenceIds : List String
  errorCodes : List String
  jobId : Option String
  jobStatus : Option String
  deriving DecidableEq

/-- A `ResearchToolResponse` with a result; those with an error are not kept. -/
structure ResearchToolResponse where
  correlationId : String
  result : ResearchRunView
  deriving DecidableEq

/-! ## What is shown of a run -/

def sourceView (s : SourceCandidate) : ResearchSourceView where
  sourceId := s.sourceId
  canonicalUrl := s.canonicalUrl
  domain := s.domain
  title := s.title
  rank := s.rank
  extractionStatus := s.status
  reasonCodes := s.reasonCodes

def evidenceView (e : EvidenceCandidate) : ResearchEvidenceView where
  evidenceId := e.evidenceId
  claimRefs := e.claimRefs
  sourceId := e.sourceId
  snapshotId := e.snapshotId
  contentHash := e.contentHash
  freshnessStatus := e.assessment.freshnessStatus
  conflictStatus := e.assessment.conflictStatus
  usableForDecision := e.assessment.usableForDecision
  requiresHumanReview := e.assessment.requiresHumanReview
  promptInjectionSuspected := e.risk.promptInjectionSuspected
  reasonCodes := e.assessment.reasonCodes

/-- The arguments of `_success` besides the run. -/
structure Shown where
  mode : Option ResearchMode
  resultKind : Option ResearchResultKind
  jobId : Option String
  jobStatus : Option String

def Shown.nothing : Shown := ⟨none, none, none, none⟩

/-- `_success` -/
def success (run : ResearchRun) (shown : Shown) : ResearchToolResponse :=
  let evidence := run.evidence.map evidenceView
  let conflicts := (evidence.filter fun e => e.conflictStatus = "CONFLICTING").map
    ResearchEvidenceView.evidenceId
  { correlationId := run.correlationId
    result := {
      researchRunId := run.researchRunId
      decisionFileId := run.request.decisionFileId
      status := run.status.value
      mode := shown.mode
      resultKind := shown.resultKind
      createdAt := run.createdAt
      updatedAt := run.updatedAt
      correlationId := run.correlationId
      auditEventIds := run.auditEvents.map fun e => e.eventId
      sourceCount := run.sources.length
      evidenceCount := run.evidence.length
      providerCostUnits := run.providerCostUnits
      compiledDecisionFileId := run.compiledDecisionFileId
      requiresHumanReview := !conflicts.isEmpty || evidence.any fun e => e.requiresHumanReview
      sources := run.sources.map sourceView
      evidenceBundleDraft := evidence
      conflictEvidenceIds := conflicts
      errorCodes := run.errors.map fun e => e.reasonCode
      jobId := shown.jobId
      jobStatus := shown.jobStatus } }

/-! ## `model_dump` -/

def ResearchSourceView.toData (v : ResearchSourceView) : Json :=
  .obj [("source_id", .str v.sourceId), ("canonical_url", .str v.canonicalUrl),
    ("domain", .str v.domain), ("title", .str v.title), ("rank", .int v.rank),
    ("extraction_status", .str v.extractionStatus), ("reason_codes", strings v.reasonCodes)]

def ResearchEvidenceView.toData (v : ResearchEvidenceView) : Json :=
  .obj [("evidence_id", .str v.evidenceId), ("claim_refs", strings v.claimRefs),
    ("source_id", .str v.sourceId), ("snapshot_id", .str v.snapshotId),
    ("content_hash", .str v.contentHash), ("freshness_status", .str v.freshnessStatus),
    ("conflict_status", .str v.conflictStatus),
    ("usable_for_decision", .bool v.usableForDecision),
    ("requires_human_review", .bool v.requiresHumanReview),
    ("prompt_injection_suspected", .bool v.promptInjectionSuspected),
    ("reason_codes", strings v.reasonCodes)]

def ResearchRunView.toData (v : ResearchRunView) : Json :=
  .obj [("research_run_id", .str v.researchRunId), ("decision_file_id", .str v.decisionFileId),
    ("status", .str v.status), ("mode", orNull (fun m => .str m.value) v.mode),
    ("result_kind", orNull (fun k => .str k.value) v.resultKind),
    ("created_at", .str v.createdAt), ("updated_at", .str v.updatedAt),
    ("correlation_id", .str v.correlationId), ("audit_event_ids", strings v.auditEventIds),
    ("source_count", .int v.sourceCount), ("evidence_count", .int v.evidenceCount),
    ("provider_cost_units", .int v.providerCostUnits),
    ("compiled_decision_file_id", ofOption v.compiledDecisionFileId),
    ("requires_human_review", .bool v.requiresHumanReview),
    ("sources", .arr (v.sources.map ResearchSourceView.toData)),
    ("evidence_bundle_draft", .arr (v.evidenceBundleDraft.map ResearchEvidenceView.toData)),
    ("conflict_evidence_ids", strings v.conflictEvidenceIds),
    ("error_codes", strings v.errorCodes), ("job_id", ofOption v.jobId),
    ("job_status", ofOption v.jobStatus)]

def ResearchToolResponse.toData (r : ResearchToolResponse) : Json :=
  .obj [("schema_version", .str schemaVersion), ("ok", .bool true),
    ("correlation_id", .str r.correlationId), ("result", r.result.toData), ("error", .null)]

/-! ## `model_validate` -/

def sourceFromData : Json → Option ResearchSourceView :=
  closed ["source_id", "canonical_url", "domain", "title", "rank", "extraction_status",
    "reason_codes"] fun item => do
    let sourceId ← required item "source_id" asString
    let canonicalUrl ← required item "canonical_url" asString
    let domain ← required item "domain" asString
    let title ← required item "title" asString
    let rank ← required item "rank" asInt
    let extractionStatus ← required item "extraction_status" asString
    let reasonCodes ← required item "reason_codes" (listOf asString)
    return ⟨sourceId, canonicalUrl, domain, title, rank, extractionStatus, reasonCodes⟩

def evidenceFromData : Json → Option ResearchEvidenceView :=
  closed ["evidence_id", "claim_refs", "source_id", "snapshot_id", "content_hash",
    "freshness_status", "conflict_status", "usable_for_decision", "requires_human_review",
    "prompt_injection_suspected", "reason_codes"] fun item => do
    let evidenceId ← required item "evidence_id" asString
    let claimRefs ← required item "claim_refs" (listOf asString)
    let sourceId ← required item "source_id" asString
    let snapshotId ← required item "snapshot_id" asString
    let contentHash ← required item "content_hash" asString
    let freshnessStatus ← required item "freshness_status" asString
    let conflictStatus ← required item "conflict_status" asString
    let usableForDecision ← required item "usable_for_decision" asBool
    let requiresHumanReview ← required item "requires_human_review" asBool
    let promptInjectionSuspected ← required item "prompt_injection_suspected" asBool
    let reasonCodes ← required item "reason_codes" (listOf asString)
    return ⟨evidenceId, claimRefs, sourceId, snapshotId, contentHash, freshnessStatus,
      conflictStatus, usableForDecision, requiresHumanReview, promptInjectionSuspected,
      reasonCodes⟩

def readMode : Json → Option ResearchMode :=
  oneOf ResearchMode.value [.quick, .verified, .deep]

def readKind : Json → Option ResearchResultKind :=
  oneOf ResearchResultKind.value
    [.researchAnswer, .evidenceBundle, .evidenceBundleWithConflictAnalysis]

def runFromData : Json → Option ResearchRunView :=
  closed ["research_run_id", "decision_file_id", "status", "mode", "result_kind", "created_at",
    "updated_at", "correlation_id", "audit_event_ids", "source_count", "evidence_count",
    "provider_cost_units", "compiled_decision_file_id", "requires_human_review", "sources",
    "evidence_bundle_draft", "conflict_evidence_ids", "error_codes", "job_id",
    "job_status"] fun item => do
    let researchRunId ← required item "research_run_id" asString
    let decisionFileId ← required item "decision_file_id" asString
    let status ← required item "status" asString
    let mode ← getOr item "mode" (nullable readMode) none
    let resultKind ← getOr item "result_kind" (nullable readKind) none
    let createdAt ← required item "created_at" asString
    let updatedAt ← required item "updated_at" asString
    let correlationId ← required item "correlation_id" asString
    let auditEventIds ← required item "audit_event_ids" (listOf asString)
    let sourceCount ← required item "source_count" asInt
    let evidenceCount ← required item "evidence_count" asInt
    let providerCostUnits ← required item "provider_cost_units" asInt
    let compiledDecisionFileId ← required item "compiled_decision_file_id" (nullable asString)
    let requiresHumanReview ← required item "requires_human_review" asBool
    let sources ← required item "sources" (listOf sourceFromData)
    let evidenceBundleDraft ← required item "evidence_bundle_draft" (listOf evidenceFromData)
    let conflictEvidenceIds ← required item "conflict_evidence_ids" (listOf asString)
    let errorCodes ← required item "error_codes" (listOf asString)
    let jobId ← getOr item "job_id" (nullable asString) none
    let jobStatus ← getOr item "job_status" (nullable asString) none
    return ⟨researchRunId, decisionFileId, status, mode, resultKind, createdAt, updatedAt,
      correlationId, auditEventIds, sourceCount, evidenceCount, providerCostUnits,
      compiledDecisionFileId, requiresHumanReview, sources, evidenceBundleDraft,
      conflictEvidenceIds, errorCodes, jobId, jobStatus⟩

/-- `ResearchToolResponse.model_validate` of an answer with a result. -/
def responseFromData : Json → Option ResearchToolResponse :=
  closed ["schema_version", "ok", "correlation_id", "result", "error"] fun item => do
    let version ← getOr item "schema_version" asString schemaVersion
    let ok ← required item "ok" asBool
    let correlationId ← required item "correlation_id" asString
    let result ← getOr item "result" (nullable runFromData) none
    let error ← getOr item "error" (nullable fun j => some j) none
    if version = schemaVersion ∧ ok = true ∧ error.isNone = true then
      result.map fun view => ⟨correlationId, view⟩
    else none

/-! ## Answers read back -/

theorem restores_source : Restores sourceFromData ResearchSourceView.toData := by
  intro o v
  apply closed_reread o (by simp) (by simp)
  intro item hitem
  simp [required, hitem, restores_strings o _]

theorem restores_evidence : Restores evidenceFromData ResearchEvidenceView.toData := by
  intro o v
  apply closed_reread o (by simp) (by simp)
  intro item hitem
  simp [required, hitem, restores_strings o _]

theorem restores_mode :
    Restores (nullable readMode) (orNull fun m : ResearchMode => .str m.value) := by
  refine Restores.nullable (fun o m => ?_) fun _ _ => by simp
  cases m <;> rfl

theorem restores_kind :
    Restores (nullable readKind) (orNull fun k : ResearchResultKind => .str k.value) := by
  refine Restores.nullable (fun o k => ?_) fun _ _ => by simp
  cases k <;> rfl

theorem restores_run : Restores runFromData ResearchRunView.toData := by
  intro o v
  apply closed_reread o (by simp) (by simp)
  intro item hitem
  simp [required, getOr, hitem, restores_strings o _, restores_ofOption o _, restores_mode o _,
    restores_kind o _, restores_source.list o _, restores_evidence.list o _]

/-- An answer is read back from the text or the value in which a store keeps it. -/
theorem restores_response : Restores responseFromData ResearchToolResponse.toData := by
  intro o r
  have hview : nullable runFromData (r.result.toData.reread o Json.float) = some (some r.result) :=
    restores_run.nullable (fun _ _ => Json.noConfusion) o (some r.result)
  have herror : nullable (fun j : Json => some j) .null = some none := rfl
  apply closed_reread o (by simp) (by simp)
  intro item hitem
  simp [required, getOr, hitem, hview, herror]

end DecisionAssurance.Mcp
