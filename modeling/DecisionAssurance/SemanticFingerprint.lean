import DecisionAssurance.EvidencePolicies

/-!
# The identity of research requests

Requests that differ in case, in white space or in the order of their lists have one
fingerprint; the id of a run is derived from it.
-/

namespace DecisionAssurance.Research

structure ResearchPolicy where
  policyVersion : String
  providerConfigurationVersion : String
  providerBudget : ℕ
  cacheTtlSeconds : ℕ
  maxContentBytes : ℕ
  maxAttemptsPerOperation : ℕ
  maxSearchResults : ℕ
  maxExtractions : ℕ
  budget_ok : 1 ≤ providerBudget ∧ providerBudget ≤ 10000
  attempts_ok : 1 ≤ maxAttemptsPerOperation ∧ maxAttemptsPerOperation ≤ 5
  search_ok : 1 ≤ maxSearchResults ∧ maxSearchResults ≤ 20
  extractions_ok : 1 ≤ maxExtractions ∧ maxExtractions ≤ min maxSearchResults 10

/-- `ResearchPolicy()` -/
def ResearchPolicy.standard : ResearchPolicy where
  policyVersion := "research-policy-v1"
  providerConfigurationVersion := "providers-v1"
  providerBudget := 100
  cacheTtlSeconds := 86400
  maxContentBytes := 1000000
  maxAttemptsPerOperation := 2
  maxSearchResults := 10
  maxExtractions := 5
  budget_ok := by decide
  attempts_ok := by decide
  search_ok := by decide
  extractions_ok := by decide

structure ResearchLibrary extends TextLibrary where
  /-- `unicodedata.normalize("NFKC", value)` -/
  nfkc : String → String
  /-- `uuid.uuid5(uuid.NAMESPACE_URL, name)` -/
  uuid5 : String → String
  /-- `timedelta(seconds=value)` of a floating point number, in microseconds. -/
  timedelta : String → Raises Int

section Fingerprint

variable (pf : Platform) (lib : ResearchLibrary)

def normalizeQuery (value : String) : String :=
  String.ofList ([' '].intercalate (words (lib.casefold (lib.nfkc value)).toList))

def sortedStrings (items : List String) : Json :=
  Json.strings (items.insertionSort fun a b => a ≤ b)

/-- What `semantic_fingerprint` hashes, with the normalised domains. -/
def fingerprintPayload (tenantId : String) (request : ResearchRequest)
    (documentHash policyVersion providerVersion : String) (refreshGeneration : Option String)
    (allowed blocked : List String) : Json :=
  .obj [("tenant_id", .str tenantId), ("decision_file_id", .str request.decisionFileId),
    ("decision_file_version_hash", .str documentHash),
    ("claim_refs", sortedStrings request.claimRefs),
    ("query", .str (normalizeQuery lib request.query)),
    ("locale", .str (lib.casefold request.locale)),
    ("preferred_languages", sortedStrings (request.preferredLanguages.map lib.casefold)),
    ("allowed_domains", sortedStrings allowed), ("blocked_domains", sortedStrings blocked),
    ("freshness", .obj [("maximum_age_days", .int request.freshness.maximumAgeDays),
      ("prefer_recent", .bool request.freshness.preferRecent)]),
    ("max_search_results", .int request.maxSearchResults),
    ("max_sources_to_extract", .int request.maxSourcesToExtract),
    ("research_policy", .str request.researchPolicy),
    ("research_policy_version", .str policyVersion),
    ("provider_configuration_version", .str providerVersion),
    ("refresh_generation",
      Json.ofOption (if request.forceRefresh then refreshGeneration else none))]

def semanticFingerprint (tenantId : String) (request : ResearchRequest)
    (documentHash policyVersion providerVersion : String) (refreshGeneration : Option String) :
    Raises String := do
  let domains ← forDomains lib.toUrlLibrary request.allowedDomains request.blockedDomains
  return payloadHash pf (fingerprintPayload lib tenantId request documentHash policyVersion
    providerVersion refreshGeneration domains.allowed domains.blocked)

/-- The limits a request must keep within. -/
def ResearchPolicy.checkLimits (policy : ResearchPolicy) (request : ResearchRequest) :
    Raises Unit :=
  if policy.maxSearchResults < request.maxSearchResults then
    .error (.valueError "SEARCH_LIMIT_EXCEEDS_CONFIGURATION")
  else if policy.maxExtractions < request.maxSourcesToExtract then
    .error (.valueError "EXTRACTION_LIMIT_EXCEEDS_CONFIGURATION")
  else .ok ()

/-- The fingerprint of a request under a policy, unless the request is refused. -/
def proposedFingerprint (policy : ResearchPolicy) (tenantId : String) (request : ResearchRequest)
    (documentHash : String) (refreshGeneration : Option String) : Raises String := do
  policy.checkLimits request
  semanticFingerprint pf lib tenantId request documentHash policy.policyVersion
    policy.providerConfigurationVersion refreshGeneration

/-- The run that `propose` returns for a fingerprint. -/
def proposedRun (tenantId actorId : String) (request : ResearchRequest)
    (documentHash fingerprint correlationId now : String) : ResearchRun where
  researchRunId := "research-" ++ lib.uuid5 fingerprint
  tenantId := tenantId
  actorId := actorId
  request := request
  expectedDocumentHash := documentHash
  semanticFingerprint := fingerprint
  status := .created
  createdAt := now
  updatedAt := now
  correlationId := correlationId
  sources := []
  snapshots := []
  evidence := []
  attempts := []
  errors := []
  auditEvents := []
  providerCostUnits := 0
  compiledDecisionFileId := none
  searchSummary := none
  searchProviderRequestId := none

end Fingerprint

/-! ## A library -/

/-- The standard library on the lower case and the few values that the examples use. -/
def plainLibrary : ResearchLibrary where
  encodes _ := true
  urlsplit url :=
    if url = "https://example.org/" then
      some ⟨"https", none, none, some "example.org", some none, "/", ""⟩
    else none
  idna := some
  casefold s := s
  ipAddress s :=
    if s = "93.184.215.14" then some ⟨s, 4, true, false, false, false, false, false, false⟩
    else none
  parseQsl _ := []
  urlencode _ := ""
  fromisoformat s := if s = "2026-01-01T00:00:00+00:00" then some ⟨1767225600000000, some 0⟩ else none
  isoformat _ := "2026-01-01T00:00:00+00:00"
  relevance rank := if rank = 1 then some "1.0" else none
  hasActiveHtml _ := false
  subActiveHtml s := s
  hasActiveLink _ := false
  subActiveLink s := s
  subHtml s := s
  hasSecret _ := false
  subSecret s := s
  injections := []
  nfkc s := s
  uuid5 s := s
  timedelta _ := .error .overflowError

end DecisionAssurance.Research
