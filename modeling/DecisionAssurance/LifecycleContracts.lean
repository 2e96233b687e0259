import DecisionAssurance.Identity
import DecisionAssurance.Json

/-!
# Deletion requests, lifecycle events and the repository port

The records of the pilot lifecycle and the interface both of its repositories implement.
-/

namespace DecisionAssurance.Lifecycle

inductive DeletionStatus
  | requested | blockedByHold | executing | completed | failed
  deriving DecidableEq

structure LifecycleEvent where
  tenantId : String
  eventId : String
  requestId : String
  caseRefHash : String
  eventType : String
  occurredAt : String
  reasonCode : String
  correlationId : String
  actorHash : String
  eventHash : String
  previousEventHash : Option String
  deriving DecidableEq

structure DeletionRequest where
  tenantId : String
  requestId : String
  decisionId : Option String
  caseRefHash : String
  actorHash : String
  idempotencyKeyHash : String
  status : DeletionStatus
  reasonCode : String
  requestedAt : String
  completedAt : Option String
  legalHoldActive : Bool
  eventHash : String
  previousEventHash : Option String
  deriving DecidableEq

abbrev RequestKey := String × String

def DeletionRequest.key (r : DeletionRequest) : RequestKey := (r.tenantId, r.requestId)

namespace DeletionRequest

def withStatus (r : DeletionRequest) (status : DeletionStatus) (legalHoldActive : Bool)
    (completedAt : Option String) (forgetDecision : Bool) : DeletionRequest :=
  { r with
    status := status
    legalHoldActive := legalHoldActive
    completedAt := completedAt
    decisionId := if forgetDecision then none else r.decisionId }

def withEvent (r : DeletionRequest) (event : LifecycleEvent) : DeletionRequest :=
  { r with eventHash := event.eventHash, previousEventHash := event.previousEventHash }

@[simp] theorem withStatus_key (r : DeletionRequest) (st : DeletionStatus) (l : Bool)
    (c : Option String) (f : Bool) : (r.withStatus st l c f).key = r.key := rfl

@[simp] theorem withStatus_status (r : DeletionRequest) (st : DeletionStatus) (l : Bool)
    (c : Option String) (f : Bool) : (r.withStatus st l c f).status = st := rfl

@[simp] theorem withEvent_key (r : DeletionRequest) (e : LifecycleEvent) :
    (r.withEvent e).key = r.key := rfl

@[simp] theorem withEvent_status (r : DeletionRequest) (e : LifecycleEvent) :
    (r.withEvent e).status = r.status := rfl

end DeletionRequest

/-- `LifecycleEvent.payload()` -/
def LifecycleEvent.payload (e : LifecycleEvent) : Json :=
  .obj [("schema_version", .str "0.8.0"),
    ("event_id", .str e.eventId),
    ("request_id", .str e.requestId),
    ("case_ref_hash", .str e.caseRefHash),
    ("event_type", .str e.eventType),
    ("occurred_at", .str e.occurredAt),
    ("reason_code", .str e.reasonCode),
    ("correlation_id", .str e.correlationId),
    ("actor_hash", .str e.actorHash),
    ("previous_event_hash", Json.ofOption e.previousEventHash)]

inductive LifecycleError
  | forbidden
  | conflict (message : String)
  | legalHoldActive
  | transitionConflict (message : String)
  | caseNotFound
  | integrity (constraint : String)
  | dataError
  deriving DecidableEq

/-- What a repository write returns. -/
inductive Reply
  | request (r : DeletionRequest)
  | changed (b : Bool)
  deriving DecidableEq

abbrev Raises := Except LifecycleError

/-- `LifecycleRepository`, over the states `σ` of the repository. -/
structure LifecycleRepository (σ : Type) where
  caseExists : TenantContext → String → σ → Bool
  getByIdempotency : TenantContext → String → String → σ → Option DeletionRequest
  getRequest : TenantContext → String → σ → Option DeletionRequest
  persistTransition : DeletionRequest → LifecycleEvent → Option DeletionStatus →
    σ → Raises (Reply × σ)
  activeHold : TenantContext → String → σ → Bool
  setHold : TenantContext → String → String → String → String → String → LifecycleEvent →
    σ → Raises (Reply × σ)
  releaseHold : TenantContext → String → String → String → LifecycleEvent →
    σ → Raises (Reply × σ)
  lastEvent : TenantContext → String → σ → Option LifecycleEvent
  lastHoldEvent : TenantContext → String → σ → Option LifecycleEvent
  completeDeletion : DeletionRequest → LifecycleEvent → σ → Raises (Reply × σ)

end DecisionAssurance.Lifecycle
