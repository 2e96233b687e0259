import DecisionAssurance.JobContracts
import DecisionAssurance.ResearchContracts

/-!
# What research exchanges with its surroundings

The records passed to and from the providers, and the exceptions that the modules of research
raise or meet.
-/

namespace DecisionAssurance.Research

structure SearchQuery where
  query : String
  locale : String
  preferredLanguages : List String
  count : ℕ
  freshness : FreshnessPolicy
  allowedDomains : List String
  blockedDomains : List String
  deriving DecidableEq

structure SearchResult where
  url : String
  title : String
  snippet : String
  rank : Int
  publishedAt : Option String
  citationKind : String
  deriving DecidableEq

structure SearchResponse where
  providerId : String
  providerVersion : String
  searchedAt : String
  results : List SearchResult
  summary : String
  providerRequestId : Option String
  deriving DecidableEq

structure ExtractionRequest where
  sourceId : String
  url : String
  locale : String
  maxContentBytes : ℕ
  cacheTtlSeconds : ℕ
  deriving DecidableEq

structure ExtractedContent where
  markdown : String
  title : String
  canonicalUrl : String
  retrievedAt : String
  mimeType : String
  httpStatus : Int
  language : String
  contentProvider : String
  contentProviderVersion : String
  deriving DecidableEq

/-- Either a content or an error. -/
structure ExtractionResponse where
  content : Option ExtractedContent
  error : Option ProviderError
  valid : content.isNone ≠ error.isNone
  deriving DecidableEq

/-- A residency decision that the egress guard has recorded for a provider's request. -/
structure EgressDecision where
  decision : String
  occurredAt : String
  tenantId : String
  actorId : String
  correlationId : String
  operatingProfile : String
  policyVersion : String
  provider : String
  connector : String
  targetHost : String
  requestedProcessingLocation : Option String
  evidenceId : Option String
  evidenceStatus : Option String
  reasonCode : String
  deriving DecidableEq

inductive ResearchException
  /-- `ResearchExecutionCancelled` -/
  | cancelled
  /-- `ProviderCircuitOpen` -/
  | circuitOpen
  /-- `ProviderRequestFailed` -/
  | requestFailed (error : ProviderError)
  /-- `UrlPolicyRejected` -/
  | urlRejected (reason : String)
  /-- `EvidenceNormalizationRejected` -/
  | normalizationRejected (reason : String)
  /-- `ResearchTransitionRejected` -/
  | transitionRejected (reason : String)
  | valueError (message : String)
  | keyError (message : String)
  | overflowError
  | stopIteration
  | other (name : String)
  deriving DecidableEq

namespace ResearchException

/-- `isinstance(error, ValueError)` -/
def isValueError : ResearchException → Bool
  | .urlRejected _ | .normalizationRejected _ | .transitionRejected _ | .valueError _ => true
  | .cancelled | .circuitOpen | .requestFailed _ | .keyError _ | .overflowError
  | .stopIteration | .other _ => false

/-- `str(error)` of a `ValueError`. -/
def message : ResearchException → String
  | .urlRejected m | .normalizationRejected m | .transitionRejected m | .valueError m
  | .keyError m | .other m => m
  | .requestFailed error => error.reasonCode
  | .cancelled => "RESEARCH_EXECUTION_CANCELLED"
  | .circuitOpen => "PROVIDER_CIRCUIT_OPEN"
  | .overflowError | .stopIteration => ""

end ResearchException

abbrev Raises := Except ResearchException

end DecisionAssurance.Research
