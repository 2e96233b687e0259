import DecisionAssurance.DecisionContract
import DecisionAssurance.JsonRecords

/-!
# The contracts of the tool service

The inputs of the tools and the limits that a mode of research grants.
-/

namespace DecisionAssurance.Mcp

open Json (strings ofOption orNull)

/-- `MCP_SCHEMA_VERSION` -/
def schemaVersion : String := "0.5.0"

inductive ResearchMode
  | quick | verified | deep
  deriving DecidableEq

def ResearchMode.value : ResearchMode → String
  | .quick => "QUICK"
  | .verified => "VERIFIED"
  | .deep => "DEEP"

inductive ResearchResultKind
  | researchAnswer | evidenceBundle | evidenceBundleWithConflictAnalysis
  deriving DecidableEq

def ResearchResultKind.value : ResearchResultKind → String
  | .researchAnswer => "RESEARCH_ANSWER"
  | .evidenceBundle => "EVIDENCE_BUNDLE"
  | .evidenceBundleWithConflictAnalysis => "EVIDENCE_BUNDLE_WITH_CONFLICT_ANALYSIS"

/-! ## Inputs -/

structure StartFields where
  decisionFileId : Option String
  caseId : Option String
  claimRefs : List String
  query : String
  locale : String
  preferredLanguages : List String
  mode : ResearchMode
  maximumAgeDays : ℕ
  allowedDomains : List String
  blockedDomains : List String
  maxSearchResults : Option ℕ
  maxSourcesToExtract : Option ℕ
  idempotencyKey : String
  deriving DecidableEq

/-- The declared bounds of the fields, and `validate_target_and_limits`. -/
structure StartFields.Valid (f : StartFields) : Prop where
  decisionFileId : ∀ id ∈ f.decisionFileId, lengthBetween 1 256 id = true
  caseId : ∀ id ∈ f.caseId, lengthBetween 1 256 id = true
  claimRefs : 1 ≤ f.claimRefs.length ∧ f.claimRefs.length ≤ 100
  query : lengthBetween 1 400 f.query = true
  locale : lengthBetween 2 35 f.locale = true
  preferredLanguages : 1 ≤ f.preferredLanguages.length ∧ f.preferredLanguages.length ≤ 5
  maximumAgeDays : 1 ≤ f.maximumAgeDays ∧ f.maximumAgeDays ≤ 3650
  allowedDomains : f.allowedDomains.length ≤ 50
  blockedDomains : f.blockedDomains.length ≤ 50
  maxSearchResults : ∀ n ∈ f.maxSearchResults, 1 ≤ n ∧ n ≤ 20
  maxSourcesToExtract : ∀ n ∈ f.maxSourcesToExtract, 1 ≤ n ∧ n ≤ 10
  idempotencyKey : lengthBetween 1 128 f.idempotencyKey = true
  /-- `EXACTLY_ONE_RESEARCH_TARGET_REQUIRED` -/
  target : f.decisionFileId.isNone ≠ f.caseId.isNone
  /-- `INVALID_CLAIM_REFS` -/
  distinct : f.claimRefs.Nodup
  /-- `INVALID_EXTRACTION_LIMIT` -/
  extractions : ∀ n ∈ f.maxSearchResults, ∀ m ∈ f.maxSourcesToExtract, m ≤ n

structure ResearchStartInput extends StartFields where
  valid : toStartFields.Valid

namespace ResearchStartInput

theorem target_isSome (r : ResearchStartInput) :
    (r.decisionFileId.or r.caseId).isSome = true := by
  have h := r.valid.target
  cases hd : r.decisionFileId with
  | some id => rfl
  | none =>
    rw [hd] at h
    cases hc : r.caseId with
    | some id => rfl
    | none => exact absurd (by rw [hc]) h

/-- `target_id` -/
def targetId (r : ResearchStartInput) : String :=
  (r.decisionFileId.or r.caseId).get r.target_isSome

def toData (r : ResearchStartInput) : Json :=
  .obj [("schema_version", .str schemaVersion), ("decision_file_id", ofOption r.decisionFileId),
    ("case_id", ofOption r.caseId), ("claim_refs", strings r.claimRefs), ("query", .str r.query),
    ("locale", .str r.locale), ("preferred_languages", strings r.preferredLanguages),
    ("mode", .str r.mode.value), ("maximum_age_days", .int r.maximumAgeDays),
    ("allowed_domains", strings r.allowedDomains), ("blocked_domains", strings r.blockedDomains),
    ("max_search_results", orNull (fun n : ℕ => .int n) r.maxSearchResults),
    ("max_sources_to_extract", orNull (fun n : ℕ => .int n) r.maxSourcesToExtract),
    ("idempotency_key", .str r.idempotencyKey)]

end ResearchStartInput

structure ResearchMutationInput where
  researchRunId : String
  locale : String
  idempotencyKey : String
  runId_ok : lengthBetween 1 256 researchRunId = true
  locale_ok : lengthBetween 2 35 locale = true
  key_ok : lengthBetween 1 128 idempotencyKey = true

def ResearchMutationInput.toData (r : ResearchMutationInput) : Json :=
  .obj [("schema_version", .str schemaVersion), ("research_run_id", .str r.researchRunId),
    ("locale", .str r.locale), ("idempotency_key", .str r.idempotencyKey)]

/-! ## Limits -/

structure EffectiveResearchLimits where
  maxSearchResults : ℕ
  maxSourcesToExtract : ℕ
  resultKind : ResearchResultKind
  deriving DecidableEq

/-- `McpResearchPolicy`, with the checks of its constructor. -/
structure McpResearchPolicy where
  serverMaxSearchResults : ℕ
  serverMaxSourcesToExtract : ℕ
  search_ok : 1 ≤ serverMaxSearchResults ∧ serverMaxSearchResults ≤ 20
  extract_ok : 1 ≤ serverMaxSourcesToExtract ∧
    serverMaxSourcesToExtract ≤ min serverMaxSearchResults 10

def ResearchMode.limits : ResearchMode → EffectiveResearchLimits
  | .quick => ⟨5, 2, .researchAnswer⟩
  | .verified => ⟨10, 5, .evidenceBundle⟩
  | .deep => ⟨20, 10, .evidenceBundleWithConflictAnalysis⟩

/-- `requested or limit` -/
def requestedOr (requested : Option ℕ) (limit : ℕ) : ℕ :=
  match requested with
  | some (n + 1) => n + 1
  | some 0 | none => limit

def McpResearchPolicy.effectiveLimits (policy : McpResearchPolicy) (mode : ResearchMode)
    (requestedSearchResults requestedExtractions : Option ℕ) : EffectiveResearchLimits :=
  let search := min (min (requestedOr requestedSearchResults mode.limits.maxSearchResults)
    mode.limits.maxSearchResults) policy.serverMaxSearchResults
  let extractions := min (requestedOr requestedExtractions mode.limits.maxSourcesToExtract)
    mode.limits.maxSourcesToExtract
  ⟨search, min (min extractions policy.serverMaxSourcesToExtract) search, mode.limits.resultKind⟩

section Limits

variable (policy : McpResearchPolicy) (mode : ResearchMode) (search extractions : Option ℕ)

theorem requestedOr_pos {requested : Option ℕ} {limit : ℕ} (h : 1 ≤ limit) :
    1 ≤ requestedOr requested limit := by
  unfold requestedOr
  split <;> omega

theorem ResearchMode.limits_ok (mode : ResearchMode) : 1 ≤ mode.limits.maxSourcesToExtract ∧
    mode.limits.maxSourcesToExtract ≤ min mode.limits.maxSearchResults 10 ∧
    mode.limits.maxSearchResults ≤ 20 := by
  cases mode <;> decide

/-- The limits that are granted are limits that a research request may have. -/
theorem effectiveLimits_ok :
    1 ≤ (policy.effectiveLimits mode search extractions).maxSourcesToExtract ∧
    (policy.effectiveLimits mode search extractions).maxSourcesToExtract ≤
      min (policy.effectiveLimits mode search extractions).maxSearchResults 10 ∧
    (policy.effectiveLimits mode search extractions).maxSearchResults ≤ 20 := by
  obtain ⟨hlow, hhigh, hmode⟩ := mode.limits_ok
  have hsearch : 1 ≤ requestedOr search mode.limits.maxSearchResults :=
    requestedOr_pos (by omega)
  have hextract : 1 ≤ requestedOr extractions mode.limits.maxSourcesToExtract :=
    requestedOr_pos hlow
  have hserver := policy.search_ok
  have hserver' := policy.extract_ok
  simp only [McpResearchPolicy.effectiveLimits]
  omega

end Limits

end DecisionAssurance.Mcp
