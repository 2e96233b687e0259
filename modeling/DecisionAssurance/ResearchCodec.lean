import DecisionAssurance.JsonRecords
import DecisionAssurance.ResearchLifecycle

/-!
# The codec of research runs

`to_data` writes a run field by field, `run_from_data` reads it by hand with defaults of its own. A
record that is built from keyword arguments takes no other keys; what a field is not declared to
hold is not read here, though Python keeps it.
-/

namespace DecisionAssurance.Research

open Json (required getOr closed listOf nullable oneOf asString asBool asInt asFloat strings
  ofOption orNull)

/-! ## Writing -/

def FreshnessPolicy.toData (f : FreshnessPolicy) : Json :=
  .obj [("maximum_age_days", .int f.maximumAgeDays), ("prefer_recent", .bool f.preferRecent)]

def ResearchRequest.toData (r : ResearchRequest) : Json :=
  .obj [("decision_file_id", .str r.decisionFileId), ("claim_refs", strings r.claimRefs),
    ("query", .str r.query), ("locale", .str r.locale),
    ("preferred_languages", strings r.preferredLanguages),
    ("max_search_results", .int r.maxSearchResults),
    ("max_sources_to_extract", .int r.maxSourcesToExtract),
    ("allowed_domains", strings r.allowedDomains), ("blocked_domains", strings r.blockedDomains),
    ("freshness", r.freshness.toData), ("research_policy", .str r.researchPolicy),
    ("force_refresh", .bool r.forceRefresh), ("schema_version", .str "0.4.0")]

def SourceCandidate.toData (s : SourceCandidate) : Json :=
  .obj [("source_id", .str s.sourceId), ("original_url", .str s.originalUrl),
    ("canonical_url", .str s.canonicalUrl), ("domain", .str s.domain), ("title", .str s.title),
    ("snippet", .str s.snippet), ("rank", .int s.rank), ("searched_at", .str s.searchedAt),
    ("search_provider", .str s.searchProvider),
    ("search_provider_version", .str s.searchProviderVersion),
    ("published_at", ofOption s.publishedAt), ("status", .str s.status),
    ("reason_codes", strings s.reasonCodes), ("citation_kind", .str s.citationKind),
    ("artifact_type", .str s.artifactType)]

def ContentRisk.toData (r : ContentRisk) : Json :=
  .obj [("prompt_injection_suspected", .bool r.promptInjectionSuspected),
    ("risk_reasons", strings r.riskReasons), ("secret_redacted", .bool r.secretRedacted),
    ("active_content_removed", .bool r.activeContentRemoved)]

def SourceSnapshot.toData (s : SourceSnapshot) : Json :=
  .obj [("snapshot_id", .str s.snapshotId), ("source_id", .str s.sourceId),
    ("original_url", .str s.originalUrl), ("canonical_url", .str s.canonicalUrl),
    ("domain", .str s.domain), ("title", .str s.title), ("retrieved_at", .str s.retrievedAt),
    ("expires_at", .str s.expiresAt), ("content_hash", .str s.contentHash),
    ("http_status", .int s.httpStatus), ("mime_type", .str s.mimeType), ("format", .str s.format),
    ("text", .str s.text), ("language", .str s.language),
    ("content_provider", .str s.contentProvider),
    ("content_provider_version", .str s.contentProviderVersion), ("risk", s.risk.toData),
    ("artifact_type", .str s.artifactType)]

def Provenance.toData (p : Provenance) : Json :=
  .obj [("search_result_rank", .int p.searchResultRank), ("search_query", .str p.searchQuery),
    ("search_provider", .str p.searchProvider),
    ("search_provider_version", .str p.searchProviderVersion),
    ("content_provider", .str p.contentProvider),
    ("content_provider_version", .str p.contentProviderVersion),
    ("policy_version", .str p.policyVersion)]

def EvidenceAssessment.toData (a : EvidenceAssessment) : Json :=
  .obj [("freshness_status", .str a.freshnessStatus), ("source_type", .str a.sourceType),
    ("authority_score", .float a.authorityScore), ("relevance_score", .float a.relevanceScore),
    ("conflict_status", .str a.conflictStatus), ("usable_for_decision", .bool a.usableForDecision),
    ("requires_human_review", .bool a.requiresHumanReview),
    ("reason_codes", strings a.reasonCodes)]

def EvidenceCandidate.toData (e : EvidenceCandidate) : Json :=
  .obj [("evidence_id", .str e.evidenceId), ("tenant_id", .str e.tenantId),
    ("research_run_id", .str e.researchRunId), ("decision_file_id", .str e.decisionFileId),
    ("claim_refs", strings e.claimRefs), ("source_id", .str e.sourceId),
    ("snapshot_id", .str e.snapshotId), ("content_hash", .str e.contentHash),
    ("assessment", e.assessment.toData), ("provenance", e.provenance.toData),
    ("risk", e.risk.toData), ("artifact_type", .str e.artifactType)]

def ResearchAttempt.toData (a : ResearchAttempt) : Json :=
  .obj [("attempt_id", .str a.attemptId), ("provider_id", .str a.providerId),
    ("operation", .str a.operation), ("status", .str a.status), ("occurred_at", .str a.occurredAt),
    ("source_id", ofOption a.sourceId), ("cost_units", .int a.costUnits),
    ("reason_code", ofOption a.reasonCode)]

def ProviderError.toData (e : ProviderError) : Json :=
  .obj [("provider_id", .str e.providerId), ("reason_code", .str e.reasonCode),
    ("retryable", .bool e.retryable), ("status_code", orNull Json.int e.statusCode),
    ("retry_after_seconds", orNull Json.float e.retryAfterSeconds)]

def ResearchError.toData (e : ResearchError) : Json :=
  .obj [("reason_code", .str e.reasonCode), ("provider", orNull ProviderError.toData e.provider),
    ("source_id", ofOption e.sourceId)]

def ResearchRun.toData (run : ResearchRun) : Json :=
  .obj [("research_run_id", .str run.researchRunId), ("tenant_id", .str run.tenantId),
    ("actor_id", .str run.actorId), ("request", run.request.toData),
    ("expected_document_hash", .str run.expectedDocumentHash),
    ("semantic_fingerprint", .str run.semanticFingerprint), ("status", .str run.status.value),
    ("created_at", .str run.createdAt), ("updated_at", .str run.updatedAt),
    ("correlation_id", .str run.correlationId),
    ("sources", .arr (run.sources.map SourceCandidate.toData)),
    ("snapshots", .arr (run.snapshots.map SourceSnapshot.toData)),
    ("evidence", .arr (run.evidence.map EvidenceCandidate.toData)),
    ("attempts", .arr (run.attempts.map ResearchAttempt.toData)),
    ("errors", .arr (run.errors.map ResearchError.toData)),
    ("audit_events", .arr (run.auditEvents.map ResearchAuditEvent.toJson)),
    ("provider_cost_units", .int run.providerCostUnits),
    ("compiled_decision_file_id", ofOption run.compiledDecisionFileId),
    ("search_summary", ofOption run.searchSummary),
    ("search_provider_request_id", ofOption run.searchProviderRequestId)]

/-! ## Reading -/

/-- What the constructors `str`, `int` and `bool` make of values of other types. -/
structure Coercions where
  text : Json → String
  int : Json → Option Int
  isZero : String → Bool

section Readers

variable (c : Coercions)

/-- `str(value)` -/
def Coercions.str : Json → Option String
  | .str s => some s
  | j => some (c.text j)

/-- `int(value)` -/
def Coercions.toInt : Json → Option Int
  | .int n => some n
  | j => c.int j

/-- The truth value. -/
def Coercions.truthy : Json → Bool
  | .null => false
  | .bool b => b
  | .int n => n ≠ 0
  | .float text => !c.isZero text
  | .str s => s ≠ ""
  | .arr items => !items.isEmpty
  | .obj fields => !fields.isEmpty

def readStatus : Json → Option ResearchStatus :=
  oneOf ResearchStatus.value [.created, .searching, .sourcesDiscovered, .extracting,
    .evidenceCompiled, .completed, .partiallyCompleted, .failed, .cancelled]

/-- `FreshnessPolicy(...)` of the number of days read. -/
def buildFreshness (maximumAgeDays : Int) (preferRecent : Bool) : Option FreshnessPolicy :=
  if h : 1 ≤ maximumAgeDays ∧ maximumAgeDays ≤ 3650 then
    some ⟨maximumAgeDays.toNat, preferRecent, by omega⟩
  else none

/-- `ResearchRequest(...)` of the fields read; a negative limit fails the same check as zero. -/
def buildRequest (fields : RequestFields) (schemaVersion : String) : Option ResearchRequest :=
  if schemaVersion = "0.4.0" then
    if h : fields.error = none then some ⟨fields, h⟩ else none
  else none

def requestFromData (raw : List (String × Json)) : Option ResearchRequest := do
  let freshnessRaw ← required raw "freshness" Json.asObject
  let fields : RequestFields := {
    decisionFileId := ← required raw "decision_file_id" c.str
    claimRefs := ← required raw "claim_refs" (listOf asString)
    query := ← required raw "query" c.str
    locale := ← required raw "locale" c.str
    preferredLanguages := ← required raw "preferred_languages" (listOf asString)
    maxSearchResults := (← required raw "max_search_results" c.toInt).toNat
    maxSourcesToExtract := (← required raw "max_sources_to_extract" c.toInt).toNat
    allowedDomains := ← required raw "allowed_domains" (listOf asString)
    blockedDomains := ← required raw "blocked_domains" (listOf asString)
    freshness := ← buildFreshness (← required freshnessRaw "maximum_age_days" c.toInt)
      (← required freshnessRaw "prefer_recent" fun j => some (c.truthy j))
    researchPolicy := ← required raw "research_policy" c.str
    forceRefresh := ← required raw "force_refresh" fun j => some (c.truthy j) }
  buildRequest fields (← required raw "schema_version" c.str)

def sourceFromData : Json → Option SourceCandidate :=
  closed ["source_id", "original_url", "canonical_url", "domain", "title", "snippet", "rank",
      "searched_at", "search_provider", "search_provider_version", "published_at", "status",
      "reason_codes", "citation_kind", "artifact_type"] fun item => do
    return {
      sourceId := ← required item "source_id" asString
      originalUrl := ← required item "original_url" asString
      canonicalUrl := ← required item "canonical_url" asString
      domain := ← required item "domain" asString
      title := ← required item "title" asString
      snippet := ← required item "snippet" asString
      rank := ← required item "rank" asInt
      searchedAt := ← required item "searched_at" asString
      searchProvider := ← required item "search_provider" asString
      searchProviderVersion := ← required item "search_provider_version" asString
      publishedAt := ← getOr item "published_at" (nullable asString) none
      status := ← getOr item "status" asString "DISCOVERED"
      reasonCodes := ← required item "reason_codes" (listOf asString)
      citationKind := ← getOr item "citation_kind" asString "CITED"
      artifactType := ← getOr item "artifact_type" asString "SEARCH_RESULT" }

def riskFromData : Json → Option ContentRisk :=
  closed ["prompt_injection_suspected", "risk_reasons", "secret_redacted",
      "active_content_removed"] fun item => do
    return {
      promptInjectionSuspected := ← getOr item "prompt_injection_suspected" asBool false
      riskReasons := ← required item "risk_reasons" (listOf asString)
      secretRedacted := ← getOr item "secret_redacted" asBool false
      activeContentRemoved := ← getOr item "active_content_removed" asBool false }

def snapshotFromData : Json → Option SourceSnapshot :=
  closed ["snapshot_id", "source_id", "original_url", "canonical_url", "domain", "title",
      "retrieved_at", "expires_at", "content_hash", "http_status", "mime_type", "format", "text",
      "language", "content_provider", "content_provider_version", "risk", "artifact_type"]
    fun item => do
    return {
      snapshotId := ← required item "snapshot_id" asString
      sourceId := ← required item "source_id" asString
      originalUrl := ← required item "original_url" asString
      canonicalUrl := ← required item "canonical_url" asString
      domain := ← required item "domain" asString
      title := ← required item "title" asString
      retrievedAt := ← required item "retrieved_at" asString
      expiresAt := ← required item "expires_at" asString
      contentHash := ← required item "content_hash" asString
      httpStatus := ← required item "http_status" asInt
      mimeType := ← required item "mime_type" asString
      format := ← required item "format" asString
      text := ← required item "text" asString
      language := ← required item "language" asString
      contentProvider := ← required item "content_provider" asString
      contentProviderVersion := ← required item "content_provider_version" asString
      risk := ← required item "risk" riskFromData
      artifactType := ← getOr item "artifact_type" asString "FETCHED_CONTENT" }

def provenanceFromData : Json → Option Provenance :=
  closed ["search_result_rank", "search_query", "search_provider", "search_provider_version",
      "content_provider", "content_provider_version", "policy_version"] fun item => do
    return {
      searchResultRank := ← required item "search_result_rank" asInt
      searchQuery := ← required item "search_query" asString
      searchProvider := ← required item "search_provider" asString
      searchProviderVersion := ← required item "search_provider_version" asString
      contentProvider := ← required item "content_provider" asString
      contentProviderVersion := ← required item "content_provider_version" asString
      policyVersion := ← required item "policy_version" asString }

def assessmentFromData : Json → Option EvidenceAssessment :=
  closed ["freshness_status", "source_type", "authority_score", "relevance_score",
      "conflict_status", "usable_for_decision", "requires_human_review", "reason_codes"]
    fun item => do
    return {
      freshnessStatus := ← required item "freshness_status" asString
      sourceType := ← required item "source_type" asString
      authorityScore := ← required item "authority_score" asFloat
      relevanceScore := ← required item "relevance_score" asFloat
      conflictStatus := ← required item "conflict_status" asString
      usableForDecision := ← required item "usable_for_decision" asBool
      requiresHumanReview := ← required item "requires_human_review" asBool
      reasonCodes := ← required item "reason_codes" (listOf asString) }

def evidenceFromData : Json → Option EvidenceCandidate :=
  closed ["evidence_id", "tenant_id", "research_run_id", "decision_file_id", "claim_refs",
      "source_id", "snapshot_id", "content_hash", "assessment", "provenance", "risk",
      "artifact_type"] fun item => do
    return {
      evidenceId := ← required item "evidence_id" asString
      tenantId := ← required item "tenant_id" asString
      researchRunId := ← required item "research_run_id" asString
      decisionFileId := ← required item "decision_file_id" asString
      claimRefs := ← required item "claim_refs" (listOf asString)
      sourceId := ← required item "source_id" asString
      snapshotId := ← required item "snapshot_id" asString
      contentHash := ← required item "content_hash" asString
      assessment := ← required item "assessment" assessmentFromData
      provenance := ← required item "provenance" provenanceFromData
      risk := ← required item "risk" riskFromData
      artifactType := ← getOr item "artifact_type" asString "DERIVED_CLAIM" }

def attemptFromData : Json → Option ResearchAttempt :=
  closed ["attempt_id", "provider_id", "operation", "status", "occurred_at", "source_id",
      "cost_units", "reason_code"] fun item => do
    return {
      attemptId := ← required item "attempt_id" asString
      providerId := ← required item "provider_id" asString
      operation := ← required item "operation" asString
      status := ← required item "status" asString
      occurredAt := ← required item "occurred_at" asString
      sourceId := ← getOr item "source_id" (nullable asString) none
      costUnits := ← getOr item "cost_units" asInt 1
      reasonCode := ← getOr item "reason_code" (nullable asString) none }

def providerErrorFromData : Json → Option ProviderError :=
  closed ["provider_id", "reason_code", "retryable", "status_code", "retry_after_seconds"]
    fun item => do
    return {
      providerId := ← required item "provider_id" asString
      reasonCode := ← required item "reason_code" asString
      retryable := ← required item "retryable" asBool
      statusCode := ← getOr item "status_code" (nullable asInt) none
      retryAfterSeconds := ← getOr item "retry_after_seconds" (nullable asFloat) none }

/-- `ProviderError(**item["provider"]) if item.get("provider") else None` -/
def providerOf (j : Json) : Option (Option ProviderError) :=
  if c.truthy j then some <$> providerErrorFromData j else some none

def errorFromData (j : Json) : Option ResearchError := do
  let item ← j.asObject
  return {
    reasonCode := ← required item "reason_code" asString
    provider := ← getOr item "provider" (providerOf c) none
    sourceId := ← getOr item "source_id" (nullable asString) none }

def auditEventFromData : Json → Option ResearchAuditEvent :=
  closed ["event_id", "event_type", "occurred_at", "tenant_id", "actor_id", "from_status",
      "to_status", "reason_codes", "correlation_id", "payload_hash", "previous_event_hash",
      "schema_version", "decision", "operating_profile", "policy_version", "provider", "connector",
      "target_host", "requested_processing_location", "evidence_id", "evidence_status"]
    fun item => do
    return {
      eventId := ← required item "event_id" asString
      eventType := ← required item "event_type" asString
      occurredAt := ← required item "occurred_at" asString
      tenantId := ← required item "tenant_id" asString
      actorId := ← required item "actor_id" asString
      fromStatus := ← required item "from_status" readStatus
      toStatus := ← required item "to_status" readStatus
      reasonCodes := ← required item "reason_codes" (listOf asString)
      correlationId := ← required item "correlation_id" asString
      payloadHash := ← required item "payload_hash" asString
      previousEventHash := ← required item "previous_event_hash" (nullable asString)
      schemaVersion := ← getOr item "schema_version" asString "research-audit-v1"
      decision := ← getOr item "decision" (nullable asString) none
      operatingProfile := ← getOr item "operating_profile" (nullable asString) none
      policyVersion := ← getOr item "policy_version" (nullable asString) none
      provider := ← getOr item "provider" (nullable asString) none
      connector := ← getOr item "connector" (nullable asString) none
      targetHost := ← getOr item "target_host" (nullable asString) none
      requestedProcessingLocation :=
        ← getOr item "requested_processing_location" (nullable asString) none
      evidenceId := ← getOr item "evidence_id" (nullable asString) none
      evidenceStatus := ← getOr item "evidence_status" (nullable asString) none }

/-- `run_from_data` -/
def runFromData (j : Json) : Option ResearchRun := do
  let raw ← j.asObject
  let request ← requestFromData c (← required raw "request" Json.asObject)
  let sources ← getOr raw "sources" (listOf sourceFromData) []
  let snapshots ← getOr raw "snapshots" (listOf snapshotFromData) []
  let evidence ← getOr raw "evidence" (listOf evidenceFromData) []
  let attempts ← getOr raw "attempts" (listOf attemptFromData) []
  let errors ← getOr raw "errors" (listOf (errorFromData c)) []
  let auditEvents ← getOr raw "audit_events" (listOf auditEventFromData) []
  return {
    researchRunId := ← required raw "research_run_id" c.str
    tenantId := ← required raw "tenant_id" c.str
    actorId := ← required raw "actor_id" c.str
    request := request
    expectedDocumentHash := ← required raw "expected_document_hash" c.str
    semanticFingerprint := ← required raw "semantic_fingerprint" c.str
    status := ← required raw "status" fun j => (c.str j).bind fun s => readStatus (.str s)
    createdAt := ← required raw "created_at" c.str
    updatedAt := ← required raw "updated_at" c.str
    correlationId := ← required raw "correlation_id" c.str
    sources := sources
    snapshots := snapshots
    evidence := evidence
    attempts := attempts
    errors := errors
    auditEvents := auditEvents
    providerCostUnits := ← getOr raw "provider_cost_units" c.toInt 0
    compiledDecisionFileId := ← getOr raw "compiled_decision_file_id" (nullable asString) none
    searchSummary := ← getOr raw "search_summary" (nullable asString) none
    searchProviderRequestId := ← getOr raw "search_provider_request_id" (nullable asString) none }

end Readers

/-! ## A run read back -/

open Json (Restores closed_reread object_reread restores_strings restores_ofOption)

@[simp] theorem Coercions.str_str (c : Coercions) (s : String) : c.str (.str s) = some s := rfl

@[simp] theorem Coercions.toInt_int (c : Coercions) (n : Int) : c.toInt (.int n) = some n := rfl

@[simp] theorem Coercions.truthy_bool (c : Coercions) (b : Bool) : c.truthy (.bool b) = b := rfl

@[simp] theorem readStatus_value (s : ResearchStatus) : readStatus (.str s.value) = some s := by
  cases s <;> rfl

theorem restores_source : Restores sourceFromData SourceCandidate.toData := by
  intro o s
  apply closed_reread o (by simp) (by simp)
  intro item hitem
  simp [required, getOr, hitem, restores_strings o _, restores_ofOption o _]

theorem restores_risk : Restores riskFromData ContentRisk.toData := by
  intro o r
  apply closed_reread o (by simp) (by simp)
  intro item hitem
  simp [required, getOr, hitem, restores_strings o _]

theorem restores_snapshot : Restores snapshotFromData SourceSnapshot.toData := by
  intro o s
  apply closed_reread o (by simp) (by simp)
  intro item hitem
  simp [required, getOr, hitem, restores_risk o _]

theorem restores_provenance : Restores provenanceFromData Provenance.toData := by
  intro o p
  apply closed_reread o (by simp) (by simp)
  intro item hitem
  simp [required, hitem]

theorem restores_assessment : Restores assessmentFromData EvidenceAssessment.toData := by
  intro o a
  apply closed_reread o (by simp) (by simp)
  intro item hitem
  simp [required, hitem, restores_strings o _]

theorem restores_evidence : Restores evidenceFromData EvidenceCandidate.toData := by
  intro o e
  apply closed_reread o (by simp) (by simp)
  intro item hitem
  simp [required, getOr, hitem, restores_strings o _, restores_assessment o _,
    restores_provenance o _, restores_risk o _]

theorem restores_attempt : Restores attemptFromData ResearchAttempt.toData := by
  intro o a
  apply closed_reread o (by simp) (by simp)
  intro item hitem
  simp [required, getOr, hitem, restores_ofOption o _]

theorem restores_status : Restores (nullable asInt) (orNull Json.int) :=
  Restores.nullable (fun _ _ => rfl) fun _ _ => by simp

theorem restores_retryAfter : Restores (nullable asFloat) (orNull Json.float) :=
  Restores.nullable (fun _ _ => rfl) fun _ _ => by simp

theorem restores_providerError : Restores providerErrorFromData ProviderError.toData := by
  intro o e
  apply closed_reread o (by simp) (by simp)
  intro item hitem
  simp [required, getOr, hitem, restores_status o _, restores_retryAfter o _]

theorem restores_auditEvent : Restores auditEventFromData ResearchAuditEvent.toJson := by
  intro o e
  apply closed_reread o (by simp) (by simp)
  intro item hitem
  simp [required, getOr, hitem, restores_strings o _, restores_ofOption o _]

/-- The provider of an error is an object with fields, which counts as true. -/
theorem restores_provider (c : Coercions) :
    Restores (providerOf c) (orNull ProviderError.toData) := by
  intro o e
  cases e with
  | none => rfl
  | some e =>
    have hread := restores_providerError o e
    obtain ⟨arranged, harranged, hlength, -⟩ :=
      object_reread o (rfl : e.toData = .obj _) (by simp)
    rw [orNull, providerOf, hread, harranged, if_pos]
    · rfl
    · rw [Coercions.truthy]
      cases arranged with
      | nil => simp at hlength
      | cons f fields => rfl

theorem restores_error (c : Coercions) : Restores (errorFromData c) ResearchError.toData := by
  intro o e
  obtain ⟨item, hobject, -, hitem⟩ := object_reread o (rfl : e.toData = .obj _) (by simp)
  rw [errorFromData, hobject]
  simp [Json.asObject, required, getOr, hitem, restores_provider c o _, restores_ofOption o _]

@[simp] theorem buildFreshness_toData (f : FreshnessPolicy) :
    buildFreshness f.maximumAgeDays f.preferRecent = some f := by
  have hvalid := f.valid
  unfold buildFreshness
  rw [dif_pos (by omega)]
  simp

theorem buildRequest_valid (r : ResearchRequest) :
    buildRequest r.toRequestFields "0.4.0" = some r := by
  unfold buildRequest
  rw [if_pos rfl, dif_pos r.valid]

theorem restores_request (c : Coercions) :
    Restores (fun j => j.asObject.bind (requestFromData c)) ResearchRequest.toData := by
  intro o r
  obtain ⟨item, hobject, -, hitem⟩ := object_reread o (rfl : r.toData = .obj _) (by simp)
  obtain ⟨fresh, hfresh, -, hpolicy⟩ :=
    object_reread o (rfl : r.freshness.toData = .obj _) (by simp)
  rw [hobject]
  simp [Json.asObject, requestFromData, required, hitem, restores_strings o _, hfresh, hpolicy]
  exact buildRequest_valid r

theorem restores_run (c : Coercions) : Restores (runFromData c) ResearchRun.toData := by
  intro o run
  obtain ⟨item, hobject, -, hitem⟩ := object_reread o (rfl : run.toData = .obj _) (by simp)
  obtain ⟨request, hfields, -, -⟩ := object_reread o (rfl : run.request.toData = .obj _) (by simp)
  have hrequest : requestFromData c request = some run.request := by
    have hread := restores_request c o run.request
    rwa [hfields] at hread
  rw [runFromData, hobject]
  simp only [Json.asObject, required, getOr, hitem, Json.field?_cons, String.reduceEq, if_true,
    if_false, Option.map_some, Option.bind_some, Json.some_bind, hfields, hrequest, Json.reread_str,
    Json.reread_int, Coercions.str_str, Coercions.toInt_int, readStatus_value,
    restores_ofOption o _, restores_source.list o _, restores_snapshot.list o _,
    restores_evidence.list o _, restores_attempt.list o _, (restores_error c).list o _,
    restores_auditEvent.list o _]
  rfl

/-- A run is read back from its JSON value, as `json.loads` returns what `json.dumps` wrote and
also where a store has arranged the fields. -/
theorem runFromData_toData (c : Coercions) (run : ResearchRun) :
    runFromData c run.toData = some run ∧
      ∀ o : KeyOrder, runFromData c (run.toData.reread o Json.float) = some run :=
  ⟨(restores_run c).read run, fun o => restores_run c o run⟩

end DecisionAssurance.Research
