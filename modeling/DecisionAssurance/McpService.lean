import DecisionAssurance.WorkflowRoutes
import DecisionAssurance.McpAnswers
import DecisionAssurance.ResearchOrchestrator
import DecisionAssurance.ServiceCalls

/-!
# The tool service

The tools start a run, show it, retry and cancel it and hand its evidence off. All but the second
reserve an idempotency key first; an operation that raises releases the key, and the answer of one
that returns is kept under it.
-/

namespace DecisionAssurance.Mcp

open Interactions Interaction Research
open Jobs (JobError ResearchJob)

/-- What a tool raises: an `McpApplicationError`, or what the server reports as internal. -/
inductive ToolFailure
  | application (code : String) (reasonCode : Option String)
  | research (e : ResearchException)
  | job (e : JobError)
  | idempotency (e : IdempotencyError)
  /-- `ValidationError` of an answer that was kept. -/
  | invalidResponse
  deriving DecidableEq

abbrev ToolProgram := Interaction serviceCalls ToolFailure

/-- A service's configuration; `submission` and `jobs` tell whether they are there. -/
structure McpResearchService where
  orchestrator : ResearchOrchestrator
  policy : McpResearchPolicy
  submission : Bool
  jobs : Bool
  /-- `str.isalnum` of one character. -/
  isAlnum : Char → Bool

def call (c : ServiceCall) : ToolProgram c.Answer := ask (S := serviceCalls) (.inr c)

/-- A program of the orchestrator. -/
def research {α : Type} (p : Program α) : ToolProgram α := p.left .research

/-! ## Failures -/

def notFound : ToolFailure := .application "NOT_FOUND" none

def conflict (reasonCode : String) : ToolFailure := .application "CONFLICT" (some reasonCode)

def invalidRequest (reasonCode : String) : ToolFailure :=
  .application "INVALID_REQUEST" (some reasonCode)

/-- `str` of a `KeyError`. -/
def quoted (message : String) : String := "'" ++ message ++ "'"

namespace McpResearchService

variable (s : McpResearchService)

/-- `_safe_reason` -/
def safeReason (text : String) : String :=
  let kept := text.toList.filter fun c => c ≠ '_'
  if lengthBetween 1 128 text && !kept.isEmpty && kept.all s.isAlnum then text
  else "OPERATION_REJECTED"

/-- `except ValueError` of `start`. -/
def startFailure : ToolFailure → ToolFailure
  | .research e => if e.isValueError then invalidRequest (s.safeReason e.message) else .research e
  | e => e

/-- `except (ResearchTransitionRejected, ValueError)` -/
def mutationFailure : ToolFailure → ToolFailure
  | .research e => if e.isValueError then conflict (s.safeReason e.message) else .research e
  | .job (.value m) => conflict (s.safeReason m)
  | .job (.conflict m) => conflict (s.safeReason m)
  | e => e

/-- `except (KeyError, ResearchTransitionRejected, ValueError)` -/
def requeueFailure : ToolFailure → ToolFailure
  | .research (.keyError m) => conflict (s.safeReason (quoted m))
  | .job (.key m) => conflict (s.safeReason (quoted m))
  | e => s.mutationFailure e

end McpResearchService

/-! ## Idempotency -/

section Idempotency

variable (k : IdempotencyKey) (digest : String)

/-- `_begin` -/
def begin : ToolProgram (Option ResearchToolResponse) := do
  let replay ← call (.reserveIdempotency k digest)
  match replay with
  | .ok none => return none
  | .ok (some answer) => do
    let response ← lift (orRaise .invalidResponse (responseFromData answer.2))
    return some response
  | .error .reused => raise (conflict "IDEMPOTENCY_KEY_REUSED")
  | .error .inProgress => raise (conflict "IDEMPOTENCY_REQUEST_IN_PROGRESS")
  | .error (.failed m) => raise (.idempotency (.failed m))

/-- `_finish` -/
def finish (response : ResearchToolResponse) : ToolProgram Unit := do
  let done ← call (.completeIdempotency k digest 200 response.toData)
  lift (done.mapError .idempotency)

/-- `_release` -/
def release : ToolProgram Unit := do
  let done ← call (.releaseIdempotency k digest)
  lift (done.mapError .idempotency)

/-- The `try` around an operation. -/
def guarded {α : Type} (body : ToolProgram α) (failure : ToolFailure → ToolFailure) :
    ToolProgram α := do
  let result ← body.attempt
  match result with
  | .ok a => return a
  | .error e => do
    release k digest
    raise (failure e)

/-- An operation under a key that has been reserved. -/
def reserved (body : ToolProgram (ResearchRun × Shown)) (failure : ToolFailure → ToolFailure) :
    ToolProgram ResearchToolResponse := do
  let (run, shown) ← guarded k digest body failure
  let response := success run shown
  finish k digest response
  return response

end Idempotency

/-! ## The tools -/

/-- `_require` -/
def require (identity : Identity) (p : Permission) : ToolProgram Unit :=
  if identity.authorized p then return () else raise (.application "FORBIDDEN" none)

/-- `_required` -/
def required (identity : Identity) (runId : String) : ToolProgram ResearchRun := do
  let answer ← research (perform (.getRun identity.tenant runId))
  let found ← lift (answer.mapError .research)
  lift (orRaise notFound found)

def jobIdOf (lib : ResearchLibrary) (runId : String) : String := "job-" ++ lib.uuid5 runId

namespace McpResearchService

variable (s : McpResearchService) (identity : Identity)

def startKey (request : ResearchStartInput) : IdempotencyKey :=
  ⟨identity.tenant.tenantId, identity.actorId, "mcp:research_start", request.idempotencyKey⟩

def startDigest (request : ResearchStartInput) : String :=
  payloadHash s.orchestrator.pf request.toData

/-- The document that a run is started for. -/
def target (request : ResearchStartInput) : ToolProgram DecisionFile := do
  let answer ← call (.getDecision identity.tenant request.targetId)
  let found ← lift (answer.mapError .research)
  let document ← lift (orRaise notFound found)
  if document.status ≠ .draft then raise (conflict "DECISION_NOT_DRAFT")
  else if request.claimRefs.all fun id => document.claims.any fun claim => claim.id = id then
    return document
  else raise (invalidRequest "CLAIM_REFERENCE_NOT_FOUND")

def limitsOf (request : ResearchStartInput) : EffectiveResearchLimits :=
  s.policy.effectiveLimits request.mode request.maxSearchResults request.maxSourcesToExtract

/-- The arguments of the `ResearchRequest` that is built. -/
def contractFields (request : ResearchStartInput) : RequestFields where
  decisionFileId := request.targetId
  claimRefs := request.claimRefs
  query := request.query
  locale := request.locale
  preferredLanguages := request.preferredLanguages
  maxSearchResults := (s.limitsOf request).maxSearchResults
  maxSourcesToExtract := (s.limitsOf request).maxSourcesToExtract
  allowedDomains := request.allowedDomains
  blockedDomains := request.blockedDomains
  freshness := ⟨request.maximumAgeDays, true, request.valid.maximumAgeDays⟩
  researchPolicy := if request.mode = .quick then "standard" else "high-assurance"
  forceRefresh := false

/-- The `try` of `start`. -/
def submitted (request : ResearchStartInput) (contract : ResearchRequest)
    (documentHash correlationId : String) : ToolProgram (ResearchRun × Shown) := do
  let shown : Shown := ⟨some request.mode, some (s.limitsOf request).resultKind, none, none⟩
  if s.submission then
    let answer ← call (.submit identity.tenant identity.actorId contract documentHash correlationId
      none)
    let (run, job) ← lift (answer.mapError .research)
    return (run, { shown with jobId := some job.jobId, jobStatus := some job.status.value })
  else
    let run ← research (s.orchestrator.execute identity.tenant identity.actorId contract
      documentHash correlationId none)
    return (run, shown)

def start (request : ResearchStartInput) : ToolProgram ResearchToolResponse := do
  require identity .researchCreate
  let correlationId ← call .newId
  let document ← target identity request
  let k := startKey identity request
  let digest := s.startDigest request
  let replay ← begin k digest
  match replay with
  | some response => return response
  | none =>
    -- outside the `try`: what is raised here releases nothing
    let contract ← lift ((ResearchRequest.build (s.contractFields request)).mapError .research)
    reserved k digest (s.submitted identity request contract
      (payloadHash s.orchestrator.pf document.toJson) correlationId) s.startFailure

def get (runId : String) : ToolProgram ResearchToolResponse := do
  require identity .researchRead
  let run ← required identity runId
  return success run .nothing

def mutationKey (action : String) (request : ResearchMutationInput) : IdempotencyKey :=
  ⟨identity.tenant.tenantId, identity.actorId, s!"mcp:{action}:{request.researchRunId}",
    request.idempotencyKey⟩

def mutationDigest (request : ResearchMutationInput) : String :=
  payloadHash s.orchestrator.pf request.toData

/-- A tool that changes a run. -/
def mutate (p : Permission) (action : String) (request : ResearchMutationInput)
    (body : String → ToolProgram (ResearchRun × Shown)) (failure : ToolFailure → ToolFailure) :
    ToolProgram ResearchToolResponse := do
  require identity p
  let _ ← required identity request.researchRunId
  let k := mutationKey identity action request
  let digest := s.mutationDigest request
  let replay ← begin k digest
  match replay with
  | some response => return response
  | none =>
    let correlationId ← call .newId
    reserved k digest (body correlationId) failure

/-- The `try` of `retry` where there are jobs. -/
def requeued (request : ResearchMutationInput) (correlationId : String) :
    ToolProgram (ResearchRun × Shown) := do
  let run ← research (s.orchestrator.validateRetry identity.tenant request.researchRunId)
  let now ← call .now
  let answer ← call (.requeue identity.tenant
    (jobIdOf s.orchestrator.lib run.researchRunId) correlationId now)
  let job ← lift (answer.mapError .job)
  return (run, ⟨none, none, some job.jobId, some job.status.value⟩)

def retry (request : ResearchMutationInput) : ToolProgram ResearchToolResponse :=
  if s.jobs then
    s.mutate identity .researchRetry "research_retry" request (s.requeued identity request)
      s.requeueFailure
  else
    s.mutate identity .researchRetry "research_retry" request
      (fun correlationId => do
        let run ← research (s.orchestrator.retry identity.tenant identity.actorId
          request.researchRunId correlationId)
        return (run, .nothing))
      s.mutationFailure

/-- `try: self._jobs.cancel(…)`, which passes over a `KeyError` or a `ValueError`. -/
def cancelJob (run : ResearchRun) : ToolProgram Unit := do
  let answer ← call (.cancelJob identity.tenant
    (jobIdOf s.orchestrator.lib run.researchRunId) run.updatedAt)
  match answer with
  | .ok _ | .error (.key _) | .error (.value _) | .error (.conflict _) => return ()
  | .error e => raise (.job e)

def cancel (request : ResearchMutationInput) : ToolProgram ResearchToolResponse :=
  s.mutate identity .researchCancel "research_cancel" request
    (fun correlationId => do
      let run ← research (s.orchestrator.cancel identity.tenant identity.actorId
        request.researchRunId correlationId)
      if s.jobs then s.cancelJob identity run
      return (run, .nothing))
    s.mutationFailure

def handoff (request : ResearchMutationInput) : ToolProgram ResearchToolResponse :=
  s.mutate identity .researchHandoff "research_handoff" request
    (fun correlationId => do
      let run ← research (s.orchestrator.handoff identity.tenant identity.actorId
        request.researchRunId correlationId)
      return (run, .nothing))
    s.mutationFailure

end McpResearchService

end DecisionAssurance.Mcp
