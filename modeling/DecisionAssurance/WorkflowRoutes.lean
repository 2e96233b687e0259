import DecisionAssurance.EvidenceHandoff
import DecisionAssurance.Transitions

/-!
# The decision routes

The routes that create, evaluate and transition a decision and the handoff of research
evidence to it. A route returns its reply with the tables it leaves, or raises.
-/

namespace DecisionAssurance

open Research

inductive ErrorDetails
  | none
  | reasonCode (code : String)
  | reasonCodes (codes : List String)
  | validation (e : DecisionError)
  | field (name : String)
  deriving DecidableEq

/-- What a route raises: an `ApiError`, or what the application answers with status 500. -/
inductive RouteError
  | api (statusCode : ℕ) (code : String) (details : ErrorDetails)
  | decision (e : DecisionError)
  | repository (e : RepositoryError)
  | handoff (e : HandoffError)
  | snapshotMissing
  deriving DecidableEq

abbrev Answers := Except RouteError

/-- Who sends a request, and when it is served. -/
structure Caller where
  identity : Identity
  idempotencyKey : Option String
  correlationId : String
  now : String
  deriving DecidableEq

/-! ## Dependencies -/

def roleRequired : RouteError := .api 403 "FORBIDDEN" (.reasonCode "AUTH_ROLE_REQUIRED")

def require (identity : Identity) (p : Permission) : Answers Unit :=
  if identity.authorized p then .ok () else .error roleRequired

def requireOneOf (identity : Identity) (ps : List Permission) : Answers Unit :=
  if ps.any identity.authorized then .ok () else .error roleRequired

def requireIdempotencyKey (key : Option String) : Answers String :=
  match key with
  | some value =>
    if lengthBetween 1 128 value then .ok value
    else .error (.api 422 "INVALID_REQUEST" (.field "Idempotency-Key"))
  | none => .error (.api 422 "INVALID_REQUEST" (.field "Idempotency-Key"))

def preferredRole : Permission → Option Role
  | .decisionCreate => some .generator
  | .decisionEvaluate => some .validator
  | .decisionValidate => some .validator
  | .decisionApprove => some .approver
  | _ => none

/-- `_actor` -/
def Identity.actor (identity : Identity) (p : Permission) : Actor where
  id := identity.actorId
  role :=
    match preferredRole p with
    | some role => if role ∈ identity.roles then role else identity.role
    | none => identity.role
  kind := identity.kind

/-- `_operation` after the digest of the payload. -/
def replayOf (identity : Identity) (key operation digest : String) (t : DecisionTables) :
    Answers (Option (ℕ × Json)) :=
  (t.getIdempotency identity.tenant identity.actorId operation key digest).mapError fun _ =>
    .api 409 "CONFLICT" (.reasonCode "IDEMPOTENCY_KEY_REUSED")

inductive Reply
  | replayed (statusCode : ℕ) (body : Json)
  | created (document : DecisionFile)
  | evaluated (report : Report)
  | transitioned (document : DecisionFile)
  | attached (document : DecisionFile)
  deriving DecidableEq

/-- The stored reply where there is one, else the work of the route. -/
def unlessReplayed (replay : Option (ℕ × Json)) (t : DecisionTables)
    (work : Answers (Reply × DecisionTables)) : Answers (Reply × DecisionTables) :=
  match replay with
  | some (statusCode, body) => .ok (.replayed statusCode body, t)
  | none => work

def AuditEvent.stamp (c : Caller) (e : AuditEvent) : AuditEvent :=
  { e with
    tenantId := some c.identity.tenant.tenantId
    correlationId := some c.correlationId
    sourceChannel := some .api }

/-! ## `create_decision` -/

/-- `ValueError` is answered with 422; a comparison of naive and aware times is a `TypeError`. -/
def bodyError : DecisionError → RouteError
  | .time .naive => .decision (.time .naive)
  | e => .api 422 "INVALID_REQUEST" (.validation e)

/-- The checks of a body, in the order of the route. -/
def checkBody (pf : Platform) (c : Caller) (body : DecisionFile) : Answers Unit := do
  (validateContract pf body).mapError bodyError
  (validateSemantics pf body).mapError bodyError
  if body.createdBy ≠ c.identity.actor .decisionCreate then
    .error (.api 403 "FORBIDDEN" (.reasonCode "ACTOR_SPOOFING"))
  else if body.canonicalAction.any fun a => a.tenantId ≠ c.identity.tenant.tenantId then
    .error (.api 403 "FORBIDDEN" (.reasonCode "CROSS_TENANT_ACTION"))
  else .ok ()

def createdEvent (pf : Platform) (c : Caller) (body : DecisionFile) : AuditEvent where
  eventId := s!"{body.decisionId}:created:1"
  eventType := "decision.created"
  occurredAt := c.now
  actor := c.identity.actor .decisionCreate
  fromStatus := none
  toStatus := .draft
  reasonCodes := ["DECISION_CREATED"]
  payloadHash := payloadHash pf body.toJson
  previousEventHash := none
  tenantId := some c.identity.tenant.tenantId
  correlationId := some c.correlationId
  sourceChannel := some .api

def DecisionFile.withCreation (pf : Platform) (c : Caller) (body : DecisionFile) : DecisionFile :=
  { body with auditEvents := body.auditEvents ++ [createdEvent pf c body] }

/-- SQLite's `IntegrityError` is answered with 409. -/
def createError : RepositoryError → RouteError
  | .integrityError => .api 409 "CONFLICT" (.reasonCode "DECISION_ALREADY_EXISTS")
  | e => .repository e

def storeCreated (b : Backend) (pf : Platform) (c : Caller) (key : String) (body : DecisionFile)
    (t : DecisionTables) : Answers (Reply × DecisionTables) := do
  checkBody pf c body
  let document := body.withCreation pf c
  let t ← (t.createDecision b c.identity.tenant document [createdEvent pf c body]
    (some ⟨c.identity.actorId, "decision:create", key, payloadHash pf body.toJson, 201,
      document.toJson⟩)).mapError createError
  return (.created document, t)

/-- `POST /v1/decisions` -/
def createDecision (b : Backend) (pf : Platform) (c : Caller) (body : DecisionFile)
    (t : DecisionTables) : Answers (Reply × DecisionTables) := do
  require c.identity .decisionCreate
  let key ← requireIdempotencyKey c.idempotencyKey
  let replay ← replayOf c.identity key "decision:create" (payloadHash pf body.toJson) t
  unlessReplayed replay t (storeCreated b pf c key body t)

/-! ## Results that are saved over a loaded document -/

/-- The arguments of `save_result`. -/
structure SavedResult where
  document : DecisionFile
  report : Option Report
  events : List AuditEvent
  idempotency : IdempotencyWrite
  deriving DecidableEq

/-- The document with its events from the `n`-th on stamped. -/
def DecisionFile.stampFrom (c : Caller) (n : ℕ) (d : DecisionFile) : DecisionFile :=
  { d with auditEvents := d.auditEvents.take n ++ (d.auditEvents.drop n).map (AuditEvent.stamp c) }

def save (b : Backend) (c : Caller) (r : SavedResult) (t : DecisionTables) :
    Answers DecisionTables :=
  (t.saveResult b c.identity.tenant r.document r.report r.events (some r.idempotency)).mapError
    .repository

def load (c : Caller) (decisionId : String) (t : DecisionTables) : Answers DecisionFile :=
  orRaise (.api 404 "NOT_FOUND" .none) (t.getDecision c.identity.tenant decisionId)

/-! ## `evaluate` -/

def evaluateOperation (decisionId : String) : String := s!"decision:evaluate:{decisionId}"

/-- What the route computes from the document it loaded. -/
def evaluateResult (pf : Platform) (c : Caller) (key decisionId : String) (d : DecisionFile) :
    Answers (Report × SavedResult) := do
  let (updated, report) ← (evaluateDecisionFile pf c.now d).mapError .decision
  let before := d.auditEvents.length
  return (report,
    { document := updated.stampFrom c before
      report := some report
      events := (updated.auditEvents.drop before).map (AuditEvent.stamp c)
      idempotency := ⟨c.identity.actorId, evaluateOperation decisionId, key,
        payloadHash pf (.obj []), 200, report.toJson⟩ })

/-- `POST /v1/decisions/{decision_id}/evaluate` -/
def evaluate (b : Backend) (pf : Platform) (c : Caller) (decisionId : String)
    (t : DecisionTables) : Answers (Reply × DecisionTables) := do
  require c.identity .decisionEvaluate
  let key ← requireIdempotencyKey c.idempotencyKey
  let replay ← replayOf c.identity key (evaluateOperation decisionId) (payloadHash pf (.obj [])) t
  unlessReplayed replay t do
    let document ← load c decisionId t
    let (report, result) ← evaluateResult pf c key decisionId document
    let t ← save b c result t
    return (.evaluated report, t)

/-! ## `transition` -/

/-- `TransitionRequest.target` -/
inductive Target
  | validation | review | approved | blocked
  deriving DecidableEq

def Target.status : Target → CaseStatus
  | .validation => .validation
  | .review => .review
  | .approved => .approved
  | .blocked => .blocked

/-- The permission a target asks for before the document is loaded. -/
def requireTarget (identity : Identity) : Target → Answers Unit
  | .approved => require identity .decisionApprove
  | .blocked => requireOneOf identity [.decisionValidate, .decisionApprove]
  | _ => require identity .decisionValidate

/-- The permission the actor of a transition acts under. -/
def transitionPermission (target : Target) (d : DecisionFile) : Permission :=
  if target = .approved ∨ (target = .blocked ∧ d.status = .review) then .decisionApprove
  else .decisionValidate

def requireBlocked (identity : Identity) (target : Target) (d : DecisionFile) : Answers Unit :=
  if target = .blocked then require identity (transitionPermission target d) else .ok ()

def transitionOperation (decisionId : String) (target : Target) : String :=
  s!"decision:transition:{decisionId}:{target.status.value}"

/-- The document the policy is applied to: a human approver's approvals are bound first. -/
def boundDocument (pf : Platform) (c : Caller) (decidedAt : String) (tokens : ℕ → String)
    (target : Target) (d : DecisionFile) : DecisionFile :=
  if target = .approved ∧ d.status = .review ∧ c.identity.kind = .human then
    bindApprovals pf d (c.identity.actor .decisionApprove) decidedAt tokens
  else d

def transitionError : DecisionError → RouteError
  | .transitionRejected codes => .api 409 "CONFLICT" (.reasonCodes codes)
  | e => .decision e

def targetJson (target : Target) : Json := .obj [("target", .str target.status.value)]

/-- What the route computes from the document it loaded. -/
def transitionResult (pf : Platform) (c : Caller) (key decisionId : String) (target : Target)
    (decidedAt : String) (tokens : ℕ → String) (d : DecisionFile) : Answers SavedResult := do
  let updated ← (TransitionPolicy.transition pf c.now (boundDocument pf c decidedAt tokens target d)
    target.status (c.identity.actor (transitionPermission target d))).mapError transitionError
  let stamped := updated.stampFrom c (updated.auditEvents.length - 1)
  return { document := stamped
           report := none
           events := stamped.auditEvents.getLast?.toList
           idempotency := ⟨c.identity.actorId, transitionOperation decisionId target, key,
             payloadHash pf (targetJson target), 200, stamped.toJson⟩ }

/-- `POST /v1/decisions/{decision_id}/transitions`; `tokens` are the nonces drawn. -/
def transition (b : Backend) (pf : Platform) (c : Caller) (decisionId : String) (target : Target)
    (decidedAt : String) (tokens : ℕ → String) (t : DecisionTables) :
    Answers (Reply × DecisionTables) := do
  let key ← requireIdempotencyKey c.idempotencyKey
  requireTarget c.identity target
  let document ← load c decisionId t
  requireBlocked c.identity target document
  let replay ← replayOf c.identity key (transitionOperation decisionId target)
    (payloadHash pf (targetJson target)) t
  unlessReplayed replay t do
    let result ← transitionResult pf c key decisionId target decidedAt tokens document
    let t ← save b c result t
    return (.transitioned result.document, t)

/-! ## The handoff of a research run -/

/-- The run is one that the store of the runs has returned, so it is stored. -/
def handoff (b : Backend) (pf : Platform) (tenant : TenantContext) (run : ResearchRun)
    (t : DecisionTables) : Answers (Reply × DecisionTables) := do
  let evidence ← orRaise .snapshotMissing (ResearchEvidenceCompiler.compile run)
  let (t, document) ← (attach b pf [(tenant.tenantId, run.researchRunId)] tenant
    run.request.decisionFileId run.expectedDocumentHash evidence t).mapError .handoff
  return (.attached document, t)

/-! ## Requests -/

inductive DecisionRequest
  | create (c : Caller) (body : DecisionFile)
  | evaluate (c : Caller) (decisionId : String)
  | transition (c : Caller) (decisionId : String) (target : Target) (decidedAt : String)
    (tokens : ℕ → String)
  | handoff (tenant : TenantContext) (run : ResearchRun)

def respond (b : Backend) (pf : Platform) (t : DecisionTables) :
    DecisionRequest → Answers (Reply × DecisionTables)
  | .create c body => createDecision b pf c body t
  | .evaluate c decisionId => evaluate b pf c decisionId t
  | .transition c decisionId target decidedAt tokens =>
    transition b pf c decisionId target decidedAt tokens t
  | .handoff tenant run => handoff b pf tenant run t

/-- The tables after a request; one that raises leaves them as they were. -/
def served (b : Backend) (pf : Platform) (t : DecisionTables) (r : DecisionRequest) :
    DecisionTables :=
  valueOr (Prod.snd <$> respond b pf t r) t

/-! ## A caller -/

def authorIdentity : Identity where
  actorId := "author"
  tenant := tenantA
  role := .generator
  kind := .human
  roles := [.generator]
  named := by decide
  primary := List.mem_singleton_self _

def authorCaller : Caller := ⟨authorIdentity, some "key", "corr", "2026-01-01"⟩

example : (served .sqlite plainPlatform .empty (.create authorCaller draftCase)).decisions =
    [⟨"tenant-a", "case-1", draftCase.withCreation plainPlatform authorCaller⟩] := by
  rfl

end DecisionAssurance
