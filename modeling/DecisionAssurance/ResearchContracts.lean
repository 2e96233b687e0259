import DecisionAssurance.DecisionFile

/-!
# Research records

The data of a research run. Timestamps and floating point numbers are kept as the texts
that the records carry in JSON.
-/

namespace DecisionAssurance.Research

inductive ResearchStatus
  | created | searching | sourcesDiscovered | extracting | evidenceCompiled | completed
  | partiallyCompleted | failed | cancelled
  deriving DecidableEq

def ResearchStatus.value : ResearchStatus → String
  | .created => "CREATED"
  | .searching => "SEARCHING"
  | .sourcesDiscovered => "SOURCES_DISCOVERED"
  | .extracting => "EXTRACTING"
  | .evidenceCompiled => "EVIDENCE_COMPILED"
  | .completed => "COMPLETED"
  | .partiallyCompleted => "PARTIALLY_COMPLETED"
  | .failed => "FAILED"
  | .cancelled => "CANCELLED"

/-- The groups `-[A-Za-z0-9]{2,8}` of a language tag. -/
def isLanguageSubtag (cs : List Char) : Bool :=
  decide (2 ≤ cs.length) && decide (cs.length ≤ 8) && cs.all Char.isAlphanum

/-- `_LANGUAGE_PATTERN` -/
def isLanguageTag (s : String) : Bool :=
  match s.toList.splitOn '-' with
  | [] => false
  | head :: subtags =>
    decide (2 ≤ head.length) && decide (head.length ≤ 3) && head.all Char.isAlpha &&
      subtags.all isLanguageSubtag

structure FreshnessPolicy where
  maximumAgeDays : Nat
  preferRecent : Bool
  valid : 1 ≤ maximumAgeDays ∧ maximumAgeDays ≤ 3650
  deriving DecidableEq

structure RequestFields where
  decisionFileId : String
  claimRefs : List String
  query : String
  locale : String
  preferredLanguages : List String
  maxSearchResults : Nat
  maxSourcesToExtract : Nat
  allowedDomains : List String
  blockedDomains : List String
  freshness : FreshnessPolicy
  researchPolicy : String
  forceRefresh : Bool
  deriving DecidableEq

/-- The first error of `ResearchRequest.__post_init__`, for schema version `0.4.0`. -/
def RequestFields.error (r : RequestFields) : Option String :=
  let query := strip r.query.toList
  if !isContractId r.decisionFileId then some "INVALID_DECISION_FILE_ID"
  else if r.claimRefs.isEmpty || !decide r.claimRefs.Nodup then some "INVALID_CLAIM_REFS"
  else if query.isEmpty then some "QUERY_REQUIRED"
  else if 400 < query.length || 50 < (words query).length then some "QUERY_TOO_LONG"
  else if !isLanguageTag r.locale then some "INVALID_LOCALE"
  else if r.preferredLanguages.isEmpty || 5 < r.preferredLanguages.length ||
      r.preferredLanguages.any (fun l => !isLanguageTag l) then
    some "INVALID_PREFERRED_LANGUAGES"
  else if r.maxSearchResults < 1 || 20 < r.maxSearchResults then some "INVALID_SEARCH_LIMIT"
  else if r.maxSourcesToExtract < 1 || min r.maxSearchResults 10 < r.maxSourcesToExtract then
    some "INVALID_EXTRACTION_LIMIT"
  else if 50 < r.allowedDomains.length || 50 < r.blockedDomains.length then
    some "TOO_MANY_DOMAIN_RULES"
  else if r.researchPolicy ≠ "standard" ∧ r.researchPolicy ≠ "high-assurance" then
    some "INVALID_RESEARCH_POLICY"
  else none

theorem refusal_eq_none {p : Prop} [Decidable p] {code : String} {next : Option String} :
    (if p then some code else next) = none ↔ ¬p ∧ next = none := by
  by_cases hp : p
  · rw [if_pos hp]
    exact ⟨nofun, fun h => absurd hp h.1⟩
  · rw [if_neg hp, and_iff_right hp]

theorem refusal_isSome {p : Prop} [Decidable p] {code : String} {next : Option String} :
    (if p then some code else next).isSome = true ↔ p ∨ next.isSome = true := by
  by_cases hp : p
  · rw [if_pos hp]
    exact ⟨fun _ => .inl hp, fun _ => rfl⟩
  · rw [if_neg hp, or_iff_right hp]

/-- Every check of an admitted request has passed, in their order. -/
theorem RequestFields.error_eq_none {r : RequestFields} (h : r.error = none) :
    ¬(!isContractId r.decisionFileId) = true ∧
    ¬(r.claimRefs.isEmpty || !decide r.claimRefs.Nodup) = true ∧
    ¬(strip r.query.toList).isEmpty = true ∧
    ¬(400 < (strip r.query.toList).length || 50 < (words (strip r.query.toList)).length) = true ∧
    ¬(!isLanguageTag r.locale) = true ∧
    ¬(r.preferredLanguages.isEmpty || 5 < r.preferredLanguages.length ||
      r.preferredLanguages.any (fun l => !isLanguageTag l)) = true ∧
    ¬(r.maxSearchResults < 1 || 20 < r.maxSearchResults) = true ∧
    ¬(r.maxSourcesToExtract < 1 || min r.maxSearchResults 10 < r.maxSourcesToExtract) = true ∧
    ¬(50 < r.allowedDomains.length || 50 < r.blockedDomains.length) = true ∧
    ¬(r.researchPolicy ≠ "standard" ∧ r.researchPolicy ≠ "high-assurance") := by
  unfold RequestFields.error at h
  simpa only [refusal_eq_none, and_true] using h

structure ResearchRequest extends RequestFields where
  valid : toRequestFields.error = none
  deriving DecidableEq

structure SourceCandidate where
  sourceId : String
  originalUrl : String
  canonicalUrl : String
  domain : String
  title : String
  snippet : String
  rank : Int
  searchedAt : String
  searchProvider : String
  searchProviderVersion : String
  publishedAt : Option String
  status : String
  reasonCodes : List String
  citationKind : String
  artifactType : String
  deriving DecidableEq

structure ProviderError where
  providerId : String
  reasonCode : String
  retryable : Bool
  statusCode : Option Int
  retryAfterSeconds : Option String
  deriving DecidableEq

structure ResearchError where
  reasonCode : String
  provider : Option ProviderError
  sourceId : Option String
  deriving DecidableEq

structure ContentRisk where
  promptInjectionSuspected : Bool
  riskReasons : List String
  secretRedacted : Bool
  activeContentRemoved : Bool
  deriving DecidableEq

structure SourceSnapshot where
  snapshotId : String
  sourceId : String
  originalUrl : String
  canonicalUrl : String
  domain : String
  title : String
  retrievedAt : String
  expiresAt : String
  contentHash : String
  httpStatus : Int
  mimeType : String
  format : String
  text : String
  language : String
  contentProvider : String
  contentProviderVersion : String
  risk : ContentRisk
  artifactType : String
  deriving DecidableEq

structure Provenance where
  searchResultRank : Int
  searchQuery : String
  searchProvider : String
  searchProviderVersion : String
  contentProvider : String
  contentProviderVersion : String
  policyVersion : String
  deriving DecidableEq

structure EvidenceAssessment where
  freshnessStatus : String
  sourceType : String
  authorityScore : String
  relevanceScore : String
  conflictStatus : String
  usableForDecision : Bool
  requiresHumanReview : Bool
  reasonCodes : List String
  deriving DecidableEq

structure EvidenceCandidate where
  evidenceId : String
  tenantId : String
  researchRunId : String
  decisionFileId : String
  claimRefs : List String
  sourceId : String
  snapshotId : String
  contentHash : String
  assessment : EvidenceAssessment
  provenance : Provenance
  risk : ContentRisk
  artifactType : String
  deriving DecidableEq

structure ResearchAttempt where
  attemptId : String
  providerId : String
  operation : String
  status : String
  occurredAt : String
  sourceId : Option String
  costUnits : Int
  reasonCode : Option String
  deriving DecidableEq

structure ResearchAuditEvent where
  eventId : String
  eventType : String
  occurredAt : String
  tenantId : String
  actorId : String
  fromStatus : ResearchStatus
  toStatus : ResearchStatus
  reasonCodes : List String
  correlationId : String
  payloadHash : String
  previousEventHash : Option String
  schemaVersion : String
  decision : Option String
  operatingProfile : Option String
  policyVersion : Option String
  provider : Option String
  connector : Option String
  targetHost : Option String
  requestedProcessingLocation : Option String
  evidenceId : Option String
  evidenceStatus : Option String
  deriving DecidableEq

structure ResearchRun where
  researchRunId : String
  tenantId : String
  actorId : String
  request : ResearchRequest
  expectedDocumentHash : String
  semanticFingerprint : String
  status : ResearchStatus
  createdAt : String
  updatedAt : String
  correlationId : String
  sources : List SourceCandidate
  snapshots : List SourceSnapshot
  evidence : List EvidenceCandidate
  attempts : List ResearchAttempt
  errors : List ResearchError
  auditEvents : List ResearchAuditEvent
  providerCostUnits : Int
  compiledDecisionFileId : Option String
  searchSummary : Option String
  searchProviderRequestId : Option String
  deriving DecidableEq

/-- The evidence a run hands off to its Decision File. -/
structure DecisionEvidence where
  evidenceId : String
  researchRunId : String
  claimRefs : List String
  sourceRef : String
  status : EvidenceStatus
  observedAt : String
  contentHash : String
  correlationId : Option String
  deriving DecidableEq

end DecisionAssurance.Research
