import DecisionAssurance.WorkflowRoutes
import DecisionAssurance.ResearchOrchestrator
import DecisionAssurance.ServiceCalls

/-!
# The research routes

The routes that create, retry and cancel a run. A route looks its idempotency key up, acts, and
stores its answer under the key in the end.
-/

namespace DecisionAssurance.Research

open Interactions Interaction
open Json (strings ofOption orNull)

/-- What a route raises: an `ApiError`, or what the application answers with status 500. -/
inductive ResearchFailure
  | route (e : RouteError)
  | research (e : ResearchException)
  | idempotency (e : IdempotencyError)
  deriving DecidableEq

abbrev RouteProgram := Interaction serviceCalls ResearchFailure

namespace ResearchRoutes

def call (c : ServiceCall) : RouteProgram c.Answer := ask (S := serviceCalls) (.inr c)

/-- A program of the orchestrator. -/
def research {α : Type} (p : Program α) : RouteProgram α := p.left .research

def apiError {α : Type} (statusCode : ℕ) (code : String) (details : ErrorDetails) :
    RouteProgram α :=
  raise (.route (.api statusCode code details))

/-! ## The request body -/

structure BodyFields where
  decisionFileId : String
  claimRefs : List String
  query : String
  locale : String
  preferredLanguages : List String
  maxSearchResults : ℕ
  maxSourcesToExtract : ℕ
  allowedDomains : List String
  blockedDomains : List String
  freshness : FreshnessPolicy
  researchPolicy : String
  forceRefresh : Bool
  refreshGeneration : Option String
  deriving DecidableEq

/-- The declared bounds of the fields, and `validate_limits`. -/
structure BodyFields.Valid (f : BodyFields) : Prop where
  decisionFileId : lengthBetween 1 256 f.decisionFileId = true
  claimRefs : 1 ≤ f.claimRefs.length ∧ f.claimRefs.length ≤ 100
  query : lengthBetween 1 400 f.query = true
  locale : lengthBetween 2 35 f.locale = true
  preferredLanguages : 1 ≤ f.preferredLanguages.length ∧ f.preferredLanguages.length ≤ 5
  maxSearchResults : 1 ≤ f.maxSearchResults ∧ f.maxSearchResults ≤ 20
  maxSourcesToExtract : 1 ≤ f.maxSourcesToExtract ∧ f.maxSourcesToExtract ≤ 10
  allowedDomains : f.allowedDomains.length ≤ 50
  blockedDomains : f.blockedDomains.length ≤ 50
  researchPolicy : f.researchPolicy = "standard" ∨ f.researchPolicy = "high-assurance"
  refreshGeneration : ∀ g ∈ f.refreshGeneration, lengthBetween 1 128 g = true
  /-- `INVALID_EXTRACTION_LIMIT` -/
  extractions : f.maxSourcesToExtract ≤ f.maxSearchResults
  /-- `INVALID_CLAIM_REFS` -/
  distinct : f.claimRefs.Nodup
  /-- `INVALID_REFRESH_GENERATION` -/
  generation : f.forceRefresh = f.refreshGeneration.isSome

structure ResearchRequestBody extends BodyFields where
  valid : toBodyFields.Valid

namespace ResearchRequestBody

def toData (b : ResearchRequestBody) : Json :=
  .obj [("schema_version", .str "0.4.0"), ("decision_file_id", .str b.decisionFileId),
    ("claim_refs", strings b.claimRefs), ("query", .str b.query), ("locale", .str b.locale),
    ("preferred_languages", strings b.preferredLanguages),
    ("max_search_results", .int b.maxSearchResults),
    ("max_sources_to_extract", .int b.maxSourcesToExtract),
    ("allowed_domains", strings b.allowedDomains), ("blocked_domains", strings b.blockedDomains),
    ("freshness", .obj [("maximum_age_days", .int b.freshness.maximumAgeDays),
      ("prefer_recent", .bool b.freshness.preferRecent)]),
    ("research_policy", .str b.researchPolicy), ("force_refresh", .bool b.forceRefresh),
    ("refresh_generation", ofOption b.refreshGeneration)]

/-- `to_contract` -/
def toContract (b : ResearchRequestBody) : Raises ResearchRequest :=
  ResearchRequest.build {
    decisionFileId := b.decisionFileId
    claimRefs := b.claimRefs
    query := b.query
    locale := b.locale
    preferredLanguages := b.preferredLanguages
    maxSearchResults := b.maxSearchResults
    maxSourcesToExtract := b.maxSourcesToExtract
    allowedDomains := b.allowedDomains
    blockedDomains := b.blockedDomains
    freshness := b.freshness
    researchPolicy := b.researchPolicy
    forceRefresh := b.forceRefresh }

end ResearchRequestBody

/-! ## Idempotency -/

section Idempotency

variable (k : IdempotencyKey) (digest : String)

/-- `_begin` after the check of the key and the digest of the payload. -/
def begin : RouteProgram (Option (ℕ × Json)) := do
  let replay ← call (.getIdempotency k digest)
  match replay with
  | .ok answer => return answer
  | .error .reused => apiError 409 "CONFLICT" (.reasonCode "IDEMPOTENCY_KEY_REUSED")
  | .error e => raise (.idempotency e)

/-- `_finish` -/
def finish (statusCode : ℕ) (body : Json) : RouteProgram Unit := do
  let done ← call (.storeIdempotency k digest statusCode body)
  lift (done.mapError .idempotency)

end Idempotency

/-! ## The routes -/

def require (identity : Identity) (p : Permission) : RouteProgram Unit :=
  lift ((DecisionAssurance.require identity p).mapError .route)

/-- `_required` -/
def required (identity : Identity) (runId : String) : RouteProgram ResearchRun := do
  let answer ← research (perform (.getRun identity.tenant runId))
  let found ← lift (answer.mapError .research)
  match found with
  | some run => return run
  | none => apiError 404 "NOT_FOUND" .none

/-- The fields of `_summary`. -/
def summary (run : ResearchRun) : List (String × Json) :=
  [("schema_version", .str "0.4.0"), ("research_run_id", .str run.researchRunId),
    ("decision_file_id", .str run.request.decisionFileId), ("status", .str run.status.value),
    ("created_at", .str run.createdAt), ("updated_at", .str run.updatedAt),
    ("correlation_id", .str run.correlationId), ("source_count", .int run.sources.length),
    ("evidence_count", .int run.evidence.length),
    ("provider_cost_units", .int run.providerCostUnits),
    ("compiled_decision_file_id", ofOption run.compiledDecisionFileId),
    ("errors", .arr (run.errors.map fun item => .obj [("reason_code", .str item.reasonCode),
      ("source_id", ofOption item.sourceId),
      ("provider_id", ofOption (item.provider.map fun p => p.providerId)),
      ("retryable", .bool (item.provider.any fun p => p.retryable)),
      ("status_code", orNull Json.int (item.provider.bind fun p => p.statusCode))]))]

/-- `except ValueError` and its like: an error of the operation as the client is told of it. -/
def failure (statusCode : ℕ) (code : String) : ResearchFailure → ResearchFailure
  | .research e =>
    if e.isValueError then .route (.api statusCode code (.reasonCode e.message)) else .research e
  | e => e

/-- A `try` whose handler makes no call. -/
def tried {α : Type} (statusCode : ℕ) (code : String) (body : RouteProgram α) :
    RouteProgram α := do
  let result ← body.attempt
  lift (result.mapError (failure statusCode code))

/-- An answer of a route: the status and the body. -/
abbrev RouteAnswer := ℕ × Json

section Routes

variable (o : ResearchOrchestrator) (submission : Bool) (c : Caller)

/-- The document that a run is created for. -/
def target (body : ResearchRequestBody) : RouteProgram DecisionFile := do
  let answer ← call (.getDecision c.identity.tenant body.decisionFileId)
  let found ← lift (answer.mapError .research)
  match found with
  | none => apiError 404 "NOT_FOUND" .none
  | some document =>
    if document.status ≠ .draft then
      apiError 409 "CONFLICT" (.reasonCode "DECISION_NOT_DRAFT")
    else if body.claimRefs.all fun id => document.claims.any fun claim => claim.id = id then
      return document
    else apiError 422 "INVALID_REQUEST" (.reasonCode "CLAIM_REFERENCE_NOT_FOUND")

/-- The `try` of `create_research_run`: the status and the body of the answer. -/
def created (body : ResearchRequestBody) (documentHash : String) : RouteProgram RouteAnswer := do
  let contract ← lift (body.toContract.mapError .research)
  if submission then
    let answer ← call (.submit c.identity.tenant c.identity.actorId contract documentHash
      c.correlationId body.refreshGeneration)
    let (run, job) ← lift (answer.mapError .research)
    return (202, .obj (summary run ++ [("job_id", .str job.jobId),
      ("job_status", .str job.status.value)]))
  else
    let run ← research (o.execute c.identity.tenant c.identity.actorId contract documentHash
      c.correlationId body.refreshGeneration)
    return (201, .obj (summary run))

def createKey (key : String) : IdempotencyKey :=
  ⟨c.identity.tenant.tenantId, c.identity.actorId, "research:create", key⟩

def createResearchRun (body : ResearchRequestBody) : RouteProgram RouteAnswer := do
  require c.identity .researchCreate
  if body.forceRefresh then require c.identity .researchForceRefresh
  let key ← lift ((requireIdempotencyKey c.idempotencyKey).mapError .route)
  let k := createKey c key
  let digest := payloadHash o.pf body.toData
  let replay ← begin k digest
  match replay with
  | some answer => return answer
  | none =>
    let document ← target c body
    let answer ← tried 422 "INVALID_REQUEST"
      (created o submission c body (payloadHash o.pf document.toJson))
    finish k digest answer.1 answer.2
    return answer

inductive ResearchAction
  | retry | cancel
  deriving DecidableEq

def ResearchAction.value : ResearchAction → String
  | .retry => "retry"
  | .cancel => "cancel"

def ResearchAction.permission : ResearchAction → Permission
  | .retry => .researchRetry
  | .cancel => .researchCancel

def ResearchAction.program (action : ResearchAction) (runId : String) : Program ResearchRun :=
  match action with
  | .retry => o.retry c.identity.tenant c.identity.actorId runId c.correlationId
  | .cancel => o.cancel c.identity.tenant c.identity.actorId runId c.correlationId

def actionKey (action : ResearchAction) (runId key : String) : IdempotencyKey :=
  ⟨c.identity.tenant.tenantId, c.identity.actorId, s!"research:{action.value}:{runId}", key⟩

/-- `_action`. The body is an empty object. -/
def action (action : ResearchAction) (runId : String) : RouteProgram RouteAnswer := do
  require c.identity action.permission
  let _ ← required c.identity runId
  let key ← lift ((requireIdempotencyKey c.idempotencyKey).mapError .route)
  let k := actionKey c action runId key
  let digest := payloadHash o.pf (.obj [])
  let replay ← begin k digest
  match replay with
  | some answer => return answer
  | none =>
    let run ← tried 409 "CONFLICT" (research (action.program o c runId))
    finish k digest 200 (.obj (summary run))
    return (200, .obj (summary run))

def retryResearchRun (runId : String) : RouteProgram RouteAnswer := action o c .retry runId

def cancelResearchRun (runId : String) : RouteProgram RouteAnswer := action o c .cancel runId

end Routes

end ResearchRoutes

end DecisionAssurance.Research
