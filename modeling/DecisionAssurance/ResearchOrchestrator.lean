import DecisionAssurance.ResearchLifecycle
import DecisionAssurance.ResearchPorts

/-!
# The research orchestrator

`execute`, `retry`, `cancel` and `handoff` as programs over their calls. The run that the source
changes in place is passed along; a source under way is a pair of its record and its index.
-/

namespace DecisionAssurance.Research

open Interactions Interaction

namespace ResearchOrchestrator

variable (o : ResearchOrchestrator) (tenant : TenantContext)

/-- `_time` -/
def time : Program String := do
  let now ← perform .clock
  return o.lib.isoformat now

/-- `_ensure_active` -/
def ensureActive : Program Unit := do
  let cancelled ← perform .cancelled
  if cancelled then raise .cancelled else pure ()

def save (run : ResearchRun) : Program Unit := do
  let saved ← perform (.save tenant run)
  lift saved

/-- A change of status at the time of the clock. -/
def advance (run : ResearchRun) (target : ResearchStatus) (actorId : String)
    (reasonCodes : List String) (payload : Json) (retry : Bool) : Program ResearchRun := do
  let occurredAt ← o.time
  lift (applyTransition o.pf run target occurredAt actorId reasonCodes payload retry)

/-- `_fail_run` -/
def failRun (run : ResearchRun) (actorId reasonCode : String) : Program ResearchRun := do
  let run ← o.advance run .failed actorId [reasonCode] (.obj [("errors", .int run.errors.length)])
    false
  save tenant run
  return run

/-! ## Attempts -/

/-- `_can_attempt` -/
def canAttempt (run : ResearchRun) (operation : String) (sourceId : Option String) : Bool :=
  (run.attempts.filter fun a => a.operation = operation && a.sourceId = sourceId).length <
    o.policy.maxAttemptsPerOperation

/-- `_record_error` -/
def recordError (run : ResearchRun) (error : ProviderError) (sourceId : Option String) :
    ResearchRun :=
  { run with errors := run.errors ++ [⟨error.reasonCode, some error, sourceId⟩] }

def changeLast (f : ResearchAttempt → ResearchAttempt) (attempts : List ResearchAttempt) :
    List ResearchAttempt :=
  attempts.modify (attempts.length - 1) f

/-- `_succeed_attempt` -/
def succeedAttempt (run : ResearchRun) : ResearchRun :=
  { run with attempts := changeLast (fun a => { a with status := "SUCCEEDED" }) run.attempts }

/-- `_fail_attempt` -/
def failAttempt (run : ResearchRun) (error : ProviderError) : ResearchRun :=
  { run with
    attempts := changeLast
      (fun a => { a with status := "FAILED", reasonCode := some error.reasonCode }) run.attempts }

def attemptOf (run : ResearchRun) (providerId operation occurredAt : String)
    (sourceId : Option String) : ResearchAttempt where
  attemptId := s!"{run.researchRunId}:attempt:{toString (run.attempts.length + 1)}"
  providerId := providerId
  operation := operation
  status := "STARTED"
  occurredAt := occurredAt
  sourceId := sourceId
  costUnits := 1
  reasonCode := none

/-- `_reserve` -/
def reserve (run : ResearchRun) (providerId operation : String) (sourceId : Option String) :
    Program ResearchRun := do
  let reserved ← perform (.reserveBudget tenant run.researchRunId o.policy.providerBudget)
  let used ← lift reserved
  let occurredAt ← o.time
  return { run with
    providerCostUnits := used
    attempts := run.attempts ++ [attemptOf run providerId operation occurredAt sourceId] }

/-- The reservation of a call, with what its `ValueError` of the budget says. -/
def reserveCall (run : ResearchRun) (providerId operation : String) (sourceId : Option String) :
    Program (Option ResearchRun) := do
  let reserved ← attempt (do
    ensureActive
    o.reserve tenant run providerId operation sourceId)
  match reserved with
  | .ok run => return some run
  | .error e =>
    if e.isValueError && e.message = "BUDGET_EXCEEDED" then return none else raise e

/-- `before_call`; whether the circuit is closed. -/
def beforeCall (providerId : String) : Program Bool := do
  let called ← perform (.beforeCall tenant.tenantId providerId)
  match called with
  | .ok () => return true
  | .error .circuitOpen => return false
  | .error e => raise e

def recordFailure (providerId : String) (retryable : Bool) : Program Unit := do
  let recorded ← perform (.recordFailure tenant.tenantId providerId retryable)
  lift recorded

def recordSuccess (providerId : String) : Program Unit := do
  let recorded ← perform (.recordSuccess tenant.tenantId providerId)
  lift recorded

/-- The records of a provider's residency decisions, up to the first that raises. -/
def recordDecisions : ResearchRun → List EgressDecision →
    Program (ResearchRun × Option ResearchException)
  | run, [] => return (run, none)
  | run, d :: ds => do
    let run := appendEgressDecision o.pf run d
    let recorded ← perform (.record tenant run)
    match recorded with
    | .ok () => recordDecisions run ds
    | .error e => return (run, some e)

/-- The end of a provider's call, with the run after its records. -/
def replied {α : Type} (run : ResearchRun) (reply : ProviderReply α) :
    Program (ResearchRun × Raises α) := do
  let (run, refusal) ← o.recordDecisions tenant run reply.decisions
  match refusal with
  | none => return (run, reply.outcome)
  | some e => return (run, reply.refused e)

def providerError (providerId reasonCode : String) (retryable : Bool) : ProviderError :=
  ⟨providerId, reasonCode, retryable, none, none⟩

def budgetExceeded : ProviderError := providerError "research-budget" "BUDGET_EXCEEDED" false

/-! ## Discovery -/

/-- `_source_id` of a URL that can be encoded. -/
def sourceId (runId url : String) : String :=
  s!"{runId}:source:" ++ String.ofList ((o.pf.sha256 url.toList).toList.take 16)

def discoveredSource (run : ResearchRun) (response : SearchResponse) (result : SearchResult)
    (safe : SafeUrl) : SourceCandidate where
  sourceId := o.sourceId run.researchRunId safe.canonicalUrl
  originalUrl := result.url
  canonicalUrl := safe.canonicalUrl
  domain := safe.domain
  title := result.title
  snippet := result.snippet
  rank := result.rank
  searchedAt := response.searchedAt
  searchProvider := response.providerId
  searchProviderVersion := response.providerVersion
  publishedAt := result.publishedAt
  status := "DISCOVERED"
  reasonCodes := []
  citationKind := result.citationKind
  artifactType := "SEARCH_RESULT"

def blockedSource (run : ResearchRun) (response : SearchResponse) (result : SearchResult)
    (reason : String) : SourceCandidate :=
  { o.discoveredSource run response result ⟨result.url, result.url, ""⟩ with
    status := "BLOCKED"
    reasonCodes := [reason] }

def addSource (run : ResearchRun) (source : SourceCandidate) : ResearchRun :=
  { run with sources := run.sources ++ [source] }

/-- A new source, whose id needs the bytes of its URL. -/
def storeSource (run : ResearchRun) (source : SourceCandidate) : Program ResearchRun := do
  let encoded ← perform (.encodeUrl source.canonicalUrl)
  lift encoded
  return addSource run source

/-- The loop of `_store_discovery`, with the canonical URLs seen so far. -/
def storeResults (policy : PublicUrlPolicy) (response : SearchResponse) :
    ResearchRun → List String → List SearchResult → Program ResearchRun
  | run, _, [] => return run
  | run, seen, result :: rest => do
    let validated ← perform (.validateUrl policy result.url)
    match validated with
    | .error (.urlRejected reason) =>
      let run ← storeSource run (o.blockedSource run response result reason)
      storeResults policy response run seen rest
    | .error e => raise e
    | .ok safe =>
      if safe.canonicalUrl ∈ seen then storeResults policy response run seen rest
      else
        let run ← storeSource run (o.discoveredSource run response result safe)
        storeResults policy response run (safe.canonicalUrl :: seen) rest

def urlPolicy (run : ResearchRun) : Raises PublicUrlPolicy :=
  forDomains o.lib.toUrlLibrary run.request.allowedDomains run.request.blockedDomains

/-- `_store_discovery` -/
def storeDiscovery (run : ResearchRun) (response : SearchResponse) : Program ResearchRun := do
  let policy ← lift (o.urlPolicy run)
  o.storeResults policy response
    { run with
      searchSummary := if response.summary.isEmpty then none else some response.summary
      searchProviderRequestId := response.providerRequestId }
    [] (response.results.take run.request.maxSearchResults)

/-- The end of a discovery that failed. -/
def failDiscovery (run : ResearchRun) (actorId : String) (error : ProviderError) :
    Program (ResearchRun × Bool) := do
  let run ← o.failRun tenant (recordError run error none) actorId error.reasonCode
  return (run, false)

def searchQuery (run : ResearchRun) : SearchQuery where
  query := run.request.query
  locale := run.request.locale
  preferredLanguages := run.request.preferredLanguages
  count := run.request.maxSearchResults
  freshness := run.request.freshness
  allowedDomains := run.request.allowedDomains
  blockedDomains := run.request.blockedDomains

/-- The `try` around the search: a cancellation seen there is an exception like any other. -/
def searchOutcome (run : ResearchRun) : Program (ResearchRun × Raises SearchResponse) := do
  let cancelled ← perform .cancelled
  if cancelled then return (run, .error .cancelled)
  else
    let reply ← perform (.search (searchQuery run))
    o.replied tenant run reply

/-- The end of a discovery whose provider raised. -/
def failSearch (run : ResearchRun) (actorId : String) (error : ProviderError) :
    Program (ResearchRun × Bool) := do
  ensureActive
  recordFailure tenant o.searchProviderId error.retryable
  o.failDiscovery tenant (failAttempt run error) actorId error

def succeedSearch (run : ResearchRun) (actorId : String) (response : SearchResponse) :
    Program (ResearchRun × Bool) := do
  ensureActive
  recordSuccess tenant o.searchProviderId
  let run ← o.storeDiscovery (succeedAttempt run) response
  let run ← o.advance run .sourcesDiscovered actorId ["SOURCES_DISCOVERED"]
    (.obj [("count", .int run.sources.length)]) false
  save tenant run
  return (run, true)

/-- `_discover` -/
def discover (run : ResearchRun) (actorId : String) : Program (ResearchRun × Bool) := do
  ensureActive
  if !o.canAttempt run "search" none then
    o.failDiscovery tenant run actorId
      (providerError o.searchProviderId "RETRY_LIMIT_EXCEEDED" false)
  else
    let closed ← beforeCall tenant o.searchProviderId
    if !closed then
      o.failDiscovery tenant run actorId
        (providerError o.searchProviderId "PROVIDER_CIRCUIT_OPEN" true)
    else
      let reserved ← o.reserveCall tenant run o.searchProviderId "search" none
      match reserved with
      | none => o.failDiscovery tenant run actorId budgetExceeded
      | some run =>
        let (run, outcome) ← o.searchOutcome tenant run
        match outcome with
        | .error (.requestFailed error) => o.failSearch tenant run actorId error
        | .error _ =>
          o.failSearch tenant run actorId
            (providerError o.searchProviderId "PROVIDER_UNAVAILABLE" true)
        | .ok response => o.succeedSearch tenant run actorId response

/-! ## Extraction -/

/-- A source under way with its index in the run. -/
abbrev Candidate := SourceCandidate × ℕ

def changeSource (run : ResearchRun) (c : Candidate) (f : SourceCandidate → SourceCandidate) :
    ResearchRun :=
  { run with sources := run.sources.modify c.2 f }

def withStatus (status : String) (reasonCodes : List String) (s : SourceCandidate) :
    SourceCandidate :=
  { s with status := status, reasonCodes := reasonCodes }

/-- `_mark_citation_only` and `_record_error`. -/
def giveUp (run : ResearchRun) (c : Candidate) (error : ProviderError) : ResearchRun :=
  recordError (changeSource run c
    (withStatus "CITATION_ONLY" ["SEARCH_CITATION_ONLY", error.reasonCode]))
    error (some c.1.sourceId)

/-- A cached snapshot under the ids of the source. -/
def cachedSnapshot (c : Candidate) (cached : SourceSnapshot) : SourceSnapshot :=
  { cached with
    snapshotId := s!"{c.1.sourceId}:snapshot:" ++ hashPrefix cached.contentHash
    sourceId := c.1.sourceId
    originalUrl := c.1.originalUrl
    canonicalUrl := c.1.canonicalUrl
    domain := c.1.domain }

def extractionRequest (run : ResearchRun) (c : Candidate) : ExtractionRequest where
  sourceId := c.1.sourceId
  url := c.1.canonicalUrl
  locale := run.request.locale
  maxContentBytes := o.policy.maxContentBytes
  cacheTtlSeconds := o.policy.cacheTtlSeconds

/-- The `try` around the extraction. -/
def extractOutcome (run : ResearchRun) (c : Candidate) :
    Program (ResearchRun × Raises ExtractionResponse) := do
  let cancelled ← perform .cancelled
  if cancelled then return (run, .error .cancelled)
  else
    let reply ← perform (.extract (o.extractionRequest run c))
    o.replied tenant run reply

/-- The check of the final URL and the normalisation. -/
def acceptContent (policy : PublicUrlPolicy) (c : Candidate) (content : ExtractedContent) :
    Program SourceSnapshot := do
  let validated ← perform (.validateUrl policy content.canonicalUrl)
  let final ← lift validated
  if final.domain ≠ c.1.domain then raise (.urlRejected "CROSS_DOMAIN_REDIRECT")
  else
    let normalized ← perform (.normalize c.1 content)
    lift normalized

/-- A failure of the extractor: the circuit and the run record it. -/
def failExtraction (run : ResearchRun) (c : Candidate) (error : ProviderError) :
    Program (ResearchRun × Option SourceSnapshot) := do
  recordFailure tenant o.extractorProviderId error.retryable
  return (giveUp (failAttempt run error) c error, none)

/-- A content that the policies accept or refuse. -/
def useContent (run : ResearchRun) (policy : PublicUrlPolicy) (c : Candidate)
    (content : ExtractedContent) : Program (ResearchRun × Option SourceSnapshot) := do
  let accepted ← attempt (acceptContent policy c content)
  match accepted with
  | .ok snapshot =>
    recordSuccess tenant o.extractorProviderId
    return (succeedAttempt run, some snapshot)
  | .error e =>
    match e with
    | .urlRejected reason | .normalizationRejected reason =>
      let error := providerError "normalizer" reason false
      return (giveUp (failAttempt run error) c error, none)
    | e => raise e

def extractContent (run : ResearchRun) (policy : PublicUrlPolicy) (c : Candidate) :
    Program (ResearchRun × Option SourceSnapshot) := do
  let (run, outcome) ← o.extractOutcome tenant run c
  ensureActive
  match outcome with
  | .error _ =>
    o.failExtraction tenant run c (providerError o.extractorProviderId "PROVIDER_UNAVAILABLE" true)
  | .ok extraction =>
    match extraction.error, extraction.content with
    | some error, _ => o.failExtraction tenant run c error
    | none, none =>
      o.failExtraction tenant run c
        (providerError o.extractorProviderId "EMPTY_EXTRACTION_RESPONSE" false)
    | none, some content => o.useContent tenant run policy c content

/-- The cached snapshot of a source, unless the request forces a refresh. -/
def cachedContent (run : ResearchRun) (c : Candidate) : Program (Option SourceSnapshot) := do
  if run.request.forceRefresh then return none
  else
    let currentTime ← o.time
    let found ← perform (.getSnapshot tenant c.1.canonicalUrl currentTime)
    lift found

/-- `_obtain_snapshot` -/
def obtainSnapshot (run : ResearchRun) (policy : PublicUrlPolicy) (c : Candidate) :
    Program (ResearchRun × Option SourceSnapshot) := do
  ensureActive
  let run := changeSource run c fun s =>
    { s with status := "SELECTED", artifactType := "SELECTED_SOURCE",
             reasonCodes := ["SOURCE_SELECTED"] }
  let cached ← o.cachedContent tenant run c
  match cached with
  | some cached => return (run, some (cachedSnapshot c cached))
  | none =>
    if !o.canAttempt run "extract" (some c.1.sourceId) then
      return (giveUp run c (providerError o.extractorProviderId "RETRY_LIMIT_EXCEEDED" false), none)
    else
      let closed ← beforeCall tenant o.extractorProviderId
      if !closed then
        return (giveUp run c (providerError o.extractorProviderId "PROVIDER_CIRCUIT_OPEN" true),
          none)
      else
        let reserved ← o.reserveCall tenant run o.extractorProviderId "extract"
          (some c.1.sourceId)
        match reserved with
        | none => return (giveUp run c budgetExceeded, none)
        | some run => o.extractContent tenant run policy c

/-! ## Evidence -/

def evidenceId (run : ResearchRun) (snapshot : SourceSnapshot) : String :=
  "research-" ++ String.ofList
    ((o.pf.sha256 s!"{run.researchRunId}:{snapshot.contentHash}".toList).toList.take 24)

def evidenceOf (run : ResearchRun) (c : Candidate) (snapshot : SourceSnapshot)
    (assessment : EvidenceAssessment) : EvidenceCandidate where
  evidenceId := o.evidenceId run snapshot
  tenantId := tenant.tenantId
  researchRunId := run.researchRunId
  decisionFileId := run.request.decisionFileId
  claimRefs := run.request.claimRefs
  sourceId := c.1.sourceId
  snapshotId := snapshot.snapshotId
  contentHash := snapshot.contentHash
  assessment := assessment
  provenance := {
    searchResultRank := c.1.rank
    searchQuery := run.request.query
    searchProvider := c.1.searchProvider
    searchProviderVersion := c.1.searchProviderVersion
    contentProvider := snapshot.contentProvider
    contentProviderVersion := snapshot.contentProviderVersion
    policyVersion := evidencePolicyVersion }
  risk := snapshot.risk
  artifactType := "DERIVED_CLAIM"

/-- A run with a new snapshot, its evidence unless there is one of its id, and the source's
status. -/
def addSnapshot (run : ResearchRun) (c : Candidate) (snapshot : SourceSnapshot)
    (assessment : EvidenceAssessment) : ResearchRun :=
  let evidence := o.evidenceOf tenant run c snapshot assessment
  changeSource
    { run with
      snapshots := run.snapshots ++ [snapshot]
      evidence := if run.evidence.any fun e => e.evidenceId = evidence.evidenceId then run.evidence
        else run.evidence ++ [evidence] }
    c fun s => { s with
      status := if assessment.usableForDecision then "EXTRACTED" else "REVIEW_REQUIRED" }

def duplicateContent (run : ResearchRun) (c : Candidate) : ResearchRun :=
  changeSource run c (withStatus "DUPLICATE_CONTENT" ["CONTENT_DUPLICATE"])

/-- What the loop of `_extract_and_finalize` makes of a snapshot. -/
def useSnapshot (run : ResearchRun) (seen : List String) (c : Candidate)
    (snapshot : SourceSnapshot) : Program (ResearchRun × List String) := do
  ensureActive
  if snapshot.contentHash ∈ seen then return (duplicateContent run c, seen)
  else
    let now ← perform .clock
    let assessed ← perform (.assess snapshot c.1 run.request.freshness.maximumAgeDays now)
    let assessment ← lift assessed
    return (o.addSnapshot tenant run c snapshot assessment, snapshot.contentHash :: seen)

/-- The loop of `_extract_and_finalize`, with the content hashes seen so far. -/
def extractAll (policy : PublicUrlPolicy) : ResearchRun → List String → List Candidate →
    Program ResearchRun
  | run, _, [] => return run
  | run, seen, c :: rest => do
    ensureActive
    let (run, snapshot) ← o.obtainSnapshot tenant run policy c
    match snapshot with
    | none => extractAll policy run seen rest
    | some snapshot =>
      let (run, seen) ← o.useSnapshot tenant run seen c snapshot
      extractAll policy run seen rest

def candidates (run : ResearchRun) (retryOnly : Bool) : List Candidate :=
  let statuses := if retryOnly then ["FAILED", "CITATION_ONLY"] else ["DISCOVERED"]
  (selectSources run.sources run.request.maxSourcesToExtract statuses).filterMap fun i =>
    run.sources[i]?.map fun s => (s, i)

/-- The discovered sources beyond the limit. -/
def skipUnselected (run : ResearchRun) (selected : List Candidate) : ResearchRun :=
  { run with
    sources := run.sources.map fun s =>
      if s.status = "DISCOVERED" ∧ s.sourceId ∉ selected.map (fun c => c.1.sourceId) then
        withStatus "SKIPPED_LIMIT" ["SOURCE_LIMIT_REACHED"] s
      else s }

/-! ## The end of an attempt -/

def countStatus (run : ResearchRun) (status : String) : ℕ :=
  (run.sources.filter fun s => s.status = status).length

def partialStatuses : List String :=
  ["BLOCKED", "FAILED", "REJECTED", "REVIEW_REQUIRED", "CITATION_ONLY"]

/-- The reason of a handoff that raised a `ValueError`. -/
def handoffReason (e : ResearchException) : String :=
  if e.message ∈ ["DECISION_DOCUMENT_CHANGED", "DECISION_NOT_DRAFT", "CLAIM_REFERENCE_NOT_FOUND",
    "DECISION_NOT_FOUND"] then e.message else "EVIDENCE_HANDOFF_REJECTED"

def handedOff (run : ResearchRun) (updated : DecisionFile) : ResearchRun :=
  { run with
    expectedDocumentHash := payloadHash o.pf updated.toJson
    compiledDecisionFileId := some run.request.decisionFileId }

/-- The handoff of compiled evidence, with whether it failed. -/
def deliver (run : ResearchRun) (compiled : List DecisionEvidence) :
    Program (ResearchRun × Bool) := do
  if compiled.isEmpty then return (run, false)
  else
    ensureActive
    let attached ← perform (.attach tenant run.request.decisionFileId
      run.expectedDocumentHash compiled)
    match attached with
    | .ok updated => return (o.handedOff run updated, false)
    | .error e =>
      if e.isValueError then
        return ({ run with errors := run.errors ++ [⟨handoffReason e, none, none⟩] }, true)
      else raise e

/-- A last change of status, saved. -/
def finish (run : ResearchRun) (target : ResearchStatus) (actorId reasonCode : String)
    (payload : Json) : Program ResearchRun := do
  let run ← o.advance run target actorId [reasonCode] payload false
  save tenant run
  return run

/-- The compilation and handoff of the evidence of a run with snapshots. -/
def compileEvidence (run : ResearchRun) (actorId : String) : Program ResearchRun := do
  let run ← o.advance run .evidenceCompiled actorId ["EVIDENCE_CANDIDATES_COMPILED"]
    (.obj [("count", .int run.evidence.length)]) false
  let run := markConflictingEvidence o.lib.casefold run
  let compiled ← lift (orRaise .stopIteration (ResearchEvidenceCompiler.compile run))
  let (run, failed) ← o.deliver tenant run compiled
  ensureActive
  let isPartial := failed || run.sources.any fun s => s.status ∈ partialStatuses
  o.finish tenant run (if isPartial then .partiallyCompleted else .completed) actorId
    (if isPartial then "RESEARCH_PARTIALLY_COMPLETED" else "RESEARCH_COMPLETED")
    (.obj [("evidence", .int run.evidence.length), ("handoff", .int compiled.length)])

/-- The end of `_extract_and_finalize`. -/
def finalize (run : ResearchRun) (actorId : String) : Program ResearchRun := do
  ensureActive
  if !run.snapshots.isEmpty then o.compileEvidence tenant run actorId
  else if run.sources.any fun s => s.status = "CITATION_ONLY" then
    o.finish tenant run .partiallyCompleted actorId "SEARCH_CITATIONS_ONLY"
      (.obj [("citations", .int (countStatus run "CITATION_ONLY"))])
  else o.failRun tenant run actorId "NO_CONTENT_EXTRACTED"

/-- `_start_extraction` -/
def startExtraction (run : ResearchRun) (actorId : String) (retry : Bool) :
    Program ResearchRun := do
  let run ← o.advance run .extracting actorId
    [if retry then "RESEARCH_RETRY_STARTED" else "EXTRACTION_STARTED"]
    (.obj [("limit", .int run.request.maxSourcesToExtract)]) retry
  save tenant run
  return run

/-- `_extract_and_finalize` -/
def extractAndFinalize (run : ResearchRun) (actorId : String) (retryOnly : Bool) :
    Program ResearchRun := do
  ensureActive
  let policy ← lift (o.urlPolicy run)
  let selected := candidates run retryOnly
  let run := if retryOnly then run else skipUnselected run selected
  let run ← o.extractAll tenant policy run (run.snapshots.map SourceSnapshot.contentHash) selected
  o.finalize tenant run actorId

/-! ## `execute` -/

/-- `propose` -/
def propose (actorId : String) (request : ResearchRequest) (documentHash correlationId : String)
    (refreshGeneration : Option String) : Program ResearchRun := do
  let fingerprint ← lift (proposedFingerprint o.pf o.lib o.policy tenant.tenantId request
    documentHash refreshGeneration)
  let now ← o.time
  return proposedRun o.lib tenant.tenantId actorId request documentHash fingerprint correlationId
    now

/-- `prepare` -/
def prepare (actorId : String) (request : ResearchRequest) (documentHash correlationId : String)
    (refreshGeneration : Option String) : Program ResearchRun := do
  let proposed ← o.propose tenant actorId request documentHash correlationId refreshGeneration
  let stored ← perform (.createOrGet tenant proposed)
  lift stored

/-- The search and the extraction of a run that has been advanced to the search. -/
def continueSearch (run : ResearchRun) (actorId : String) : Program ResearchRun := do
  save tenant run
  let (run, found) ← o.discover tenant run actorId
  if !found then return run
  else
    ensureActive
    let run ← o.startExtraction tenant run actorId false
    o.extractAndFinalize tenant run actorId false

/-- `execute` on the run that `prepare` has returned. -/
def executeRun (run : ResearchRun) (actorId query : String) : Program ResearchRun := do
  ensureActive
  let run ← o.advance run .searching actorId ["SEARCH_STARTED"]
    (.obj [("query_hash", .str (o.pf.sha256 query.toList))]) false
  o.continueSearch tenant run actorId

def execute (actorId : String) (request : ResearchRequest) (documentHash correlationId : String)
    (refreshGeneration : Option String) : Program ResearchRun := do
  ensureActive
  let run ← o.prepare tenant actorId request documentHash correlationId refreshGeneration
  if !run.auditEvents.isEmpty || run.status ≠ .created then return run
  else o.executeRun tenant run actorId request.query

/-! ## `retry` -/

/-- `_required` -/
def required (runId : String) : Program ResearchRun := do
  let found ← perform (.getRun tenant runId)
  let run ← lift found
  lift (orRaise (.keyError "RESEARCH_RUN_NOT_FOUND") run)

/-- The time from which `_enforce_retry_window` lets a run be retried, where it looks at it. -/
def retryAt (run : ResearchRun) : Raises (Option Jobs.Instant) :=
  match run.errors.reverse.findSome? fun e => e.provider.bind ProviderError.retryAfterSeconds with
  | none => .ok none
  | some delay =>
    match run.attempts.reverse.find? fun a => a.status = "FAILED" with
    | none => .ok none
    | some attempt => do
      let occurredAt ← orRaise (.valueError "Invalid isoformat string")
        (o.lib.fromisoformat (zuluOffset attempt.occurredAt))
      let delta ← o.lib.timedelta delay
      let wall ← inTimeRange (occurredAt.wall + delta)
      let opensAt ← WallTime.utc { occurredAt with wall := wall }
      return some opensAt

/-- `_enforce_retry_window` -/
def enforceRetryWindow (run : ResearchRun) : Program Unit := do
  let window ← lift (o.retryAt run)
  match window with
  | none => return ()
  | some opensAt =>
    let now ← perform .clock
    if now < opensAt then raise (.valueError "PROVIDER_RETRY_AFTER_ACTIVE") else return ()

/-- `validate_retry` -/
def validateRetry (runId : String) : Program ResearchRun := do
  let run ← required tenant runId
  if run.status ≠ .failed ∧ run.status ≠ .partiallyCompleted then
    raise (.transitionRejected s!"RESEARCH_TRANSITION_NOT_ALLOWED:{run.status.value}:RETRY")
  else
    o.enforceRetryWindow run
    return run

/-- `retry` on the run that `validate_retry` has returned. -/
def retryRun (run : ResearchRun) (actorId : String) : Program ResearchRun := do
  if run.sources.isEmpty then
    let run ← o.advance run .searching actorId ["RESEARCH_RETRY_STARTED"]
      (.obj [("phase", .str "search")]) true
    o.continueSearch tenant run actorId
  else
    let run ← o.startExtraction tenant run actorId true
    o.extractAndFinalize tenant run actorId true

def retry (actorId runId correlationId : String) : Program ResearchRun := do
  ensureActive
  let run ← o.validateRetry tenant runId
  o.retryRun tenant { run with actorId := actorId, correlationId := correlationId } actorId

/-! ## `cancel` and `handoff` -/

def cancel (actorId runId correlationId : String) : Program ResearchRun := do
  let run ← required tenant runId
  if run.status = .cancelled then return run
  else
    o.finish tenant { run with actorId := actorId, correlationId := correlationId } .cancelled
      actorId "RESEARCH_CANCELLED" (.obj [("run_id", .str runId)])

def handoff (actorId runId correlationId : String) : Program ResearchRun := do
  let run ← required tenant runId
  if run.compiledDecisionFileId.isSome then return run
  else if run.status ≠ .evidenceCompiled ∧ run.status ≠ .completed ∧
      run.status ≠ .partiallyCompleted then
    raise (.valueError "RESEARCH_NOT_READY_FOR_HANDOFF")
  else
    let compiled ← lift (orRaise .stopIteration (ResearchEvidenceCompiler.compile run))
    if compiled.isEmpty then raise (.valueError "NO_USABLE_EVIDENCE")
    else
      let attached ← perform (.attach tenant run.request.decisionFileId
        run.expectedDocumentHash compiled)
      let updated ← lift attached
      let run := o.handedOff { run with actorId := actorId, correlationId := correlationId } updated
      save tenant run
      return run

end ResearchOrchestrator

end DecisionAssurance.Research
