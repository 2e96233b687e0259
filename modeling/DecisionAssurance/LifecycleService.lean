import DecisionAssurance.WovenRuns
import DecisionAssurance.LifecycleRepositories

/-!
# The pilot lifecycle service

`PilotLifecycleService` over any lifecycle repository. A service call is a procedure: each
repository read, each reading of the clock and each repository write is one atomic step.
-/

namespace DecisionAssurance.Lifecycle

open Interleaving

/-- The digests of the service: SHA-256 and the HMAC under its secret, from the characters
of a text to hex digits. -/
structure Digests where
  sha256 : List Char → String
  hmac : List Char → String

abbrev ServiceProc (σ α : Type) := Proc σ String LifecycleError Reply α

/-- Texts joined by the null character. -/
def joined (parts : List String) : List Char := ['\x00'].intercalate (parts.map String.toList)

/-- `_digest` -/
def Digests.digest (g : Digests) (purpose tenantId value : String) : String :=
  "sha256:" ++ g.hmac (joined [purpose, tenantId, value])

def take (n : Nat) (s : String) : String := String.ofList (s.toList.take n)

/-- `removeprefix("sha256:")[:16]`, or `root` without a previous event. -/
def chainRef : Option String → String
  | none => "root"
  | some previous =>
    let hex := if "sha256:".toList.isPrefixOf previous.toList then previous.toList.drop 7
      else previous.toList
    String.ofList (hex.take 16)

variable {σ : Type}

/-- The event of `_event` and `_hold_event` after `previous`, with its hash. -/
def makeEvent (g : Digests) (tenantId subjectId caseRefHash eventType occurredAt reasonCode
    correlationId actorHash : String) (previous : Option String) : LifecycleEvent :=
  let eventId := s!"{subjectId}:{eventType}:{occurredAt}:{chainRef previous}"
  let payload := Json.obj [("event_id", .str eventId),
    ("request_id", .str subjectId),
    ("case_ref_hash", .str caseRefHash),
    ("event_type", .str eventType),
    ("occurred_at", .str occurredAt),
    ("reason_code", .str reasonCode),
    ("correlation_id", .str correlationId),
    ("actor_hash", .str actorHash),
    ("previous_event_hash", Json.ofOption previous)]
  { tenantId := tenantId
    eventId := eventId
    requestId := subjectId
    caseRefHash := caseRefHash
    eventType := eventType
    occurredAt := occurredAt
    reasonCode := reasonCode
    correlationId := correlationId
    actorHash := actorHash
    eventHash := "sha256:" ++ g.sha256 payload.dumps
    previousEventHash := previous }

section Service

variable (g : Digests) (repo : LifecycleRepository σ)

/-- `_event` -/
def event (request : DeletionRequest) (eventType : String) (identity : Identity)
    (correlationId : String) : ServiceProc σ LifecycleEvent := do
  let prior ← Proc.get (repo.lastEvent identity.tenant request.requestId)
  let occurredAt ← Proc.now
  return makeEvent g identity.tenant.tenantId request.requestId request.caseRefHash eventType
    occurredAt request.reasonCode correlationId request.actorHash
    (prior.map LifecycleEvent.eventHash)

/-- `_hold_event` -/
def holdEvent (identity : Identity) (decisionId holdId eventType reasonCode
    correlationId : String) : ServiceProc σ LifecycleEvent := do
  let prior ← Proc.get (repo.lastHoldEvent identity.tenant holdId)
  let occurredAt ← Proc.now
  return makeEvent g identity.tenant.tenantId holdId
    (g.digest "case" identity.tenant.tenantId decisionId) eventType occurredAt reasonCode
    correlationId (g.digest "actor" identity.tenant.tenantId identity.actorId)
    (prior.map LifecycleEvent.eventHash)

def holdIdOf (tenant : TenantContext) (decisionId : String) : String :=
  "hold-" ++ take 24 (g.sha256 (joined [tenant.tenantId, decisionId]))

/-- `_record` -/
def record (request : DeletionRequest) (eventType : String) (identity : Identity)
    (correlationId : String) (expected : Option DeletionStatus) : ServiceProc σ Reply := do
  let event ← event g repo request eventType identity correlationId
  Proc.commit (repo.persistTransition (request.withEvent event) event expected)

def requestDeletion (identity : Identity) (decisionId reasonCode idempotencyKey
    correlationId : String) : ServiceProc σ Reply := do
  if !identity.authorized .dataDelete then Proc.raise .forbidden
  else
    let tenant := identity.tenant
    let actorHash := g.digest "actor" tenant.tenantId identity.actorId
    let keyHash := g.digest "idempotency" tenant.tenantId idempotencyKey
    let caseHash := g.digest "case" tenant.tenantId decisionId
    let replay ← Proc.get (repo.getByIdempotency tenant actorHash keyHash)
    match replay with
    | some replay =>
      if replay.caseRefHash ≠ caseHash ∨ replay.reasonCode ≠ reasonCode then
        Proc.raise (.conflict "IDEMPOTENCY_KEY_REUSED")
      else return .request replay
    | none =>
      let found ← Proc.get (repo.caseExists tenant decisionId)
      if !found then Proc.raise (.conflict "CASE_NOT_FOUND")
      else
        let occurredAt ← Proc.now
        let requestId := "delete-" ++
          take 24 (g.sha256 (joined [tenant.tenantId, actorHash, keyHash]))
        let hold ← Proc.get (repo.activeHold tenant decisionId)
        let request : DeletionRequest := {
          tenantId := tenant.tenantId
          requestId := requestId
          decisionId := some decisionId
          caseRefHash := caseHash
          actorHash := actorHash
          idempotencyKeyHash := keyHash
          status := if hold then .blockedByHold else .requested
          reasonCode := reasonCode
          requestedAt := occurredAt
          completedAt := none
          legalHoldActive := hold
          eventHash := ""
          previousEventHash := none }
        record g repo request "data.deletion-requested" identity correlationId none

/-- How `execute_deletion` takes the outcome of `complete_deletion`. -/
def settleDeletion (executing : DeletionRequest) (identity : Identity) (correlationId : String) :
    Raises Reply → ServiceProc σ Reply
  | .ok reply => return reply
  | .error .legalHoldActive =>
    record g repo (executing.withStatus .blockedByHold true none false) "data.deletion-blocked"
      identity correlationId (some executing.status)
  | .error e => Proc.raise e

/-- The part of `execute_deletion` after the request was moved to EXECUTING. -/
def finishDeletion (executing : DeletionRequest) (identity : Identity)
    (correlationId : String) : ServiceProc σ Reply := do
  let completedAt ← Proc.now
  let completed := executing.withStatus .completed false (some completedAt) true
  let event ← event g repo completed "data.deletion-completed" identity correlationId
  let result ← Proc.attempt (repo.completeDeletion (completed.withEvent event) event)
  settleDeletion g repo executing identity correlationId result

def executeDeletion (identity : Identity) (requestId correlationId : String) :
    ServiceProc σ Reply := do
  if !identity.authorized .dataDelete then Proc.raise .forbidden
  else
    let request ← Proc.get (repo.getRequest identity.tenant requestId)
    match request with
    | none => Proc.raise (.conflict "CASE_NOT_FOUND")
    | some request =>
      if request.status = .completed then return .request request
      else
        match request.decisionId with
        | none => Proc.raise (.conflict "INVALID_DELETION_STATE")
        | some decisionId =>
          let hold ← Proc.get (repo.activeHold identity.tenant decisionId)
          if hold then
            record g repo (request.withStatus .blockedByHold true none false)
              "data.deletion-blocked" identity correlationId (some request.status)
          else
            let executing ← record g repo (request.withStatus .executing false none false)
              "data.deletion-executing" identity correlationId (some request.status)
            match executing with
            | .request executing => finishDeletion g repo executing identity correlationId
            | .changed b => return .changed b

def placeLegalHold (identity : Identity) (decisionId reasonCode correlationId : String) :
    ServiceProc σ Reply := do
  if !identity.authorized .legalHoldManage then Proc.raise .forbidden
  else
    let found ← Proc.get (repo.caseExists identity.tenant decisionId)
    if !found then Proc.raise (.conflict "CASE_NOT_FOUND")
    else
      let holdId := holdIdOf g identity.tenant decisionId
      let event ← holdEvent g repo identity decisionId holdId "data.legal-hold-placed" reasonCode
        correlationId
      Proc.commit (repo.setHold identity.tenant decisionId holdId
        (g.digest "actor" identity.tenant.tenantId identity.actorId) reasonCode
        event.occurredAt event)

def releaseLegalHold (identity : Identity) (decisionId correlationId : String) :
    ServiceProc σ Reply := do
  if !identity.authorized .legalHoldManage then Proc.raise .forbidden
  else
    let event ← holdEvent g repo identity decisionId (holdIdOf g identity.tenant decisionId)
      "data.legal-hold-released" "LEGAL_HOLD_RELEASED" correlationId
    Proc.commit (repo.releaseHold identity.tenant decisionId
      (g.digest "actor" identity.tenant.tenantId identity.actorId) event.occurredAt event)

/-- The calls clients make. -/
inductive ServiceCall : ServiceProc σ Reply → Prop
  | requestDeletion (identity : Identity) (decisionId reasonCode idempotencyKey
      correlationId : String) :
      ServiceCall (requestDeletion g repo identity decisionId reasonCode idempotencyKey
        correlationId)
  | executeDeletion (identity : Identity) (requestId correlationId : String) :
      ServiceCall (executeDeletion g repo identity requestId correlationId)
  | placeLegalHold (identity : Identity) (decisionId reasonCode correlationId : String) :
      ServiceCall (placeLegalHold g repo identity decisionId reasonCode correlationId)
  | releaseLegalHold (identity : Identity) (decisionId correlationId : String) :
      ServiceCall (releaseLegalHold g repo identity decisionId correlationId)

end Service

end DecisionAssurance.Lifecycle
