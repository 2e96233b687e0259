import DecisionAssurance.LifecycleContracts
import DecisionAssurance.Tables

/-!
# The two lifecycle repositories

`InMemoryLifecycleRepository` keeps dictionaries and one event list; the PostgreSQL
repository keeps its tables beside the other tables of the case, which are a parameter here:
all a deletion needs of them is whether the case has a row and what remains without it.
-/

namespace DecisionAssurance.Lifecycle

open Tables

def lastOf (events : List LifecycleEvent) (tenantId requestId : String) :
    Option LifecycleEvent :=
  (events.filter fun e => e.tenantId = tenantId && e.requestId = requestId).getLast?

def sameRequest (left right : DeletionRequest) : Bool :=
  left.caseRefHash = right.caseRefHash && left.actorHash = right.actorHash &&
    left.idempotencyKeyHash = right.idempotencyKeyHash && left.reasonCode = right.reasonCode

/-- What `persist_transition` makes of the stored request: return it, refuse, or write. -/
def persistCheck (current : Option DeletionRequest) (request : DeletionRequest)
    (event : LifecycleEvent) (expected : Option DeletionStatus) :
    Raises (Option DeletionRequest) :=
  match current with
  | some current =>
    match expected with
    | none =>
      if sameRequest current request then .ok (some current)
      else .error (.transitionConflict "IDEMPOTENCY_KEY_REUSED")
    | some expected =>
      if current.status ≠ expected then
        if current.status = request.status ∨ current.status = .completed then .ok (some current)
        else .error (.transitionConflict "LIFECYCLE_STATUS_CONFLICT")
      else if event.previousEventHash ≠ some current.eventHash then
        .error (.transitionConflict "LIFECYCLE_EVENT_CHAIN_CONFLICT")
      else .ok none
  | none =>
    if expected.isSome then .error (.transitionConflict "LIFECYCLE_STATUS_CONFLICT")
    else if event.previousEventHash.isSome then
      .error (.transitionConflict "LIFECYCLE_EVENT_CHAIN_CONFLICT")
    else .ok none

/-- What `complete_deletion` finds before it removes a case: the completed request, or the
case of an executing one. -/
def completeCheck (current : Option DeletionRequest) (event : LifecycleEvent) :
    Raises (DeletionRequest ⊕ String) :=
  match current with
  | none => .error (.transitionConflict "LIFECYCLE_STATUS_CONFLICT")
  | some current =>
    match current.status, current.decisionId with
    | .completed, _ => .ok (.inl current)
    | .executing, some decisionId =>
      if event.previousEventHash = some current.eventHash then .ok (.inr decisionId)
      else .error (.transitionConflict "LIFECYCLE_EVENT_CHAIN_CONFLICT")
    | _, _ => .error (.transitionConflict "LIFECYCLE_STATUS_CONFLICT")

/-! ## In memory -/

structure MemoryStore where
  cases : List (String × String)
  requests : List DeletionRequest
  idempotency : List ((String × String × String) × String)
  holds : List (String × String)
  events : List LifecycleEvent
  deriving DecidableEq

namespace MemoryStore

def request (s : MemoryStore) (k : RequestKey) : Option DeletionRequest :=
  lookup DeletionRequest.key k s.requests

def persistTransition (r : DeletionRequest) (event : LifecycleEvent)
    (expected : Option DeletionStatus) (s : MemoryStore) : Raises (Reply × MemoryStore) :=
  match persistCheck (s.request r.key) r event expected with
  | .error e => .error e
  | .ok (some current) => .ok (.request current, s)
  | .ok none =>
    .ok (.request r, { s with
      requests := upsert DeletionRequest.key r s.requests
      idempotency := upsert Prod.fst ((r.tenantId, r.actorHash, r.idempotencyKeyHash),
        r.requestId) s.idempotency
      events := s.events ++ [event] })

/-- The guard on the event chain of a hold. -/
def holdTip (s : MemoryStore) (tenant : TenantContext) (event : LifecycleEvent) : Bool :=
  event.previousEventHash =
    (lastOf s.events tenant.tenantId event.requestId).map LifecycleEvent.eventHash

def setHold (tenant : TenantContext) (decisionId _holdId _actorHash _reasonCode
    _occurredAt : String) (event : LifecycleEvent) (s : MemoryStore) :
    Raises (Reply × MemoryStore) :=
  if (tenant.tenantId, decisionId) ∈ s.holds then .ok (.changed false, s)
  else if !s.holdTip tenant event then
    .error (.transitionConflict "LIFECYCLE_EVENT_CHAIN_CONFLICT")
  else
    .ok (.changed true, { s with
      holds := s.holds ++ [(tenant.tenantId, decisionId)]
      events := s.events ++ [event] })

def releaseHold (tenant : TenantContext) (decisionId _actorHash _occurredAt : String)
    (event : LifecycleEvent) (s : MemoryStore) : Raises (Reply × MemoryStore) :=
  if (tenant.tenantId, decisionId) ∉ s.holds then .ok (.changed false, s)
  else if !s.holdTip tenant event then
    .error (.transitionConflict "LIFECYCLE_EVENT_CHAIN_CONFLICT")
  else
    .ok (.changed true, { s with
      holds := s.holds.filter fun k => k ≠ (tenant.tenantId, decisionId)
      events := s.events ++ [event] })

def completeDeletion (r : DeletionRequest) (event : LifecycleEvent) (s : MemoryStore) :
    Raises (Reply × MemoryStore) :=
  match completeCheck (s.request r.key) event with
  | .error e => .error e
  | .ok (.inl current) => .ok (.request current, s)
  | .ok (.inr decisionId) =>
    if (r.tenantId, decisionId) ∈ s.holds then .error .legalHoldActive
    else
      .ok (.request r, { s with
        requests := upsert DeletionRequest.key r s.requests
        events := s.events ++ [event]
        cases := s.cases.filter fun k => k ≠ (r.tenantId, decisionId) })

end MemoryStore

def inMemory : LifecycleRepository MemoryStore where
  caseExists tenant decisionId s := decide ((tenant.tenantId, decisionId) ∈ s.cases)
  getByIdempotency tenant actorHash keyHash s :=
    (lookup Prod.fst (tenant.tenantId, actorHash, keyHash) s.idempotency).bind fun entry =>
      s.request (tenant.tenantId, entry.2)
  getRequest tenant requestId s := s.request (tenant.tenantId, requestId)
  persistTransition := MemoryStore.persistTransition
  activeHold tenant decisionId s := decide ((tenant.tenantId, decisionId) ∈ s.holds)
  setHold := MemoryStore.setHold
  releaseHold := MemoryStore.releaseHold
  lastEvent tenant requestId s := lastOf s.events tenant.tenantId requestId
  lastHoldEvent tenant holdId s := lastOf s.events tenant.tenantId holdId
  completeDeletion := MemoryStore.completeDeletion

/-! ## PostgreSQL -/

/-- The tables that hold the data of cases, as far as the lifecycle store needs them: the
row of a case in `decisions` and the effect of the `DELETE` statements for a case. -/
class CaseTables (δ : Type) where
  hasCase : δ → String → String → Bool
  eraseCase : δ → String → String → δ
  hasCase_eraseCase : ∀ tables t d t' d', hasCase (eraseCase tables t d) t' d' =
    (hasCase tables t' d' && !(t' = t && d' = d))

/-- A row of `legal_holds`. -/
structure HoldRow where
  tenantId : String
  decisionId : String
  holdId : String
  active : Bool
  reasonCode : String
  createdByActorHash : String
  createdAt : String
  releasedByActorHash : Option String
  releasedAt : Option String
  deriving DecidableEq

def HoldRow.key (h : HoldRow) : String × String × String := (h.tenantId, h.decisionId, h.holdId)

/-- A row of `deletion_requests`. -/
structure RequestRow where
  tenantId : String
  requestId : String
  decisionId : Option String
  caseRefHash : String
  actorHash : String
  idempotencyKeyHash : String
  status : DeletionStatus
  reasonCode : String
  requestedAt : String
  completedAt : Option String
  deriving DecidableEq

def RequestRow.key (r : RequestRow) : RequestKey := (r.tenantId, r.requestId)

/-- The columns `_update_request` sets. -/
def RequestRow.setFrom (row : RequestRow) (r : DeletionRequest) : RequestRow :=
  { row with decisionId := r.decisionId, status := r.status, completedAt := r.completedAt }

@[simp] theorem RequestRow.setFrom_key (row : RequestRow) (r : DeletionRequest) :
    (row.setFrom r).key = row.key := rfl

@[simp] theorem RequestRow.setFrom_status (row : RequestRow) (r : DeletionRequest) :
    (row.setFrom r).status = r.status := rfl

@[simp] theorem RequestRow.setFrom_decisionId (row : RequestRow) (r : DeletionRequest) :
    (row.setFrom r).decisionId = r.decisionId := rfl

/-- `holdEvents` and `events` are `legal_hold_audit_events` and `lifecycle_audit_events`, in
the order of their sequence. -/
structure PostgresStore (δ : Type) where
  tables : δ
  holds : List HoldRow
  holdEvents : List LifecycleEvent
  requests : List RequestRow
  events : List LifecycleEvent

namespace PostgresStore

variable {δ : Type} [CaseTables δ]

/-- `_request`; `isoformat` is the text a stored timestamp is read back as. -/
def toRequest (isoformat : String → String) (row : RequestRow) (event : Option LifecycleEvent) :
    DeletionRequest where
  tenantId := row.tenantId
  requestId := row.requestId
  decisionId := row.decisionId
  caseRefHash := row.caseRefHash
  actorHash := row.actorHash
  idempotencyKeyHash := row.idempotencyKeyHash
  status := row.status
  reasonCode := row.reasonCode
  requestedAt := isoformat row.requestedAt
  completedAt := row.completedAt.map isoformat
  legalHoldActive := row.status = .blockedByHold
  eventHash := (event.map LifecycleEvent.eventHash).getD ""
  previousEventHash := event.bind LifecycleEvent.previousEventHash

def toRow (r : DeletionRequest) : RequestRow where
  tenantId := r.tenantId
  requestId := r.requestId
  decisionId := r.decisionId
  caseRefHash := r.caseRefHash
  actorHash := r.actorHash
  idempotencyKeyHash := r.idempotencyKeyHash
  status := r.status
  reasonCode := r.reasonCode
  requestedAt := r.requestedAt
  completedAt := r.completedAt

def read (isoformat : String → String) (s : PostgresStore δ) (row : RequestRow) :
    DeletionRequest :=
  toRequest isoformat row (lastOf s.events row.tenantId row.requestId)

def request (isoformat : String → String) (s : PostgresStore δ) (k : RequestKey) :
    Option DeletionRequest :=
  (lookup RequestRow.key k s.requests).map (s.read isoformat)

def held (s : PostgresStore δ) (tenantId decisionId : String) : Bool :=
  s.holds.any fun h => h.tenantId = tenantId && h.decisionId = decisionId && h.active

/-- `_insert_request` -/
def insertRequest (r : DeletionRequest) (s : PostgresStore δ) : Raises (PostgresStore δ) :=
  if s.requests.any fun row => row.tenantId = r.tenantId && row.actorHash = r.actorHash &&
      row.idempotencyKeyHash = r.idempotencyKeyHash then
    .error (.integrity "deletion_requests_tenant_id_actor_hash_idempotency_key_hash_key")
  else .ok { s with requests := s.requests ++ [toRow r] }

/-- `_update_request` -/
def updateRequest (r : DeletionRequest) (s : PostgresStore δ) : PostgresStore δ :=
  { s with
    requests := updateWhere (fun row => row.key = r.key) (fun row => row.setFrom r) s.requests }

/-- The two ways `persist_transition` writes the row of a request. -/
def writeRequest (isoformat : String → String) (r : DeletionRequest) (s : PostgresStore δ) :
    Raises (PostgresStore δ) :=
  if (s.request isoformat r.key).isSome then .ok (s.updateRequest r) else s.insertRequest r

/-- The unique key of `lifecycle_audit_events`. -/
def eventRecorded (s : PostgresStore δ) (event : LifecycleEvent) : Bool :=
  s.events.any fun e => e.tenantId = event.tenantId && e.eventId = event.eventId

def appendEvent (event : LifecycleEvent) (s : PostgresStore δ) : Raises (PostgresStore δ) :=
  if s.eventRecorded event then
    .error (.integrity "lifecycle_audit_events_tenant_id_event_id_key")
  else .ok { s with events := s.events ++ [event] }

def appendHoldEvent (event : LifecycleEvent) (s : PostgresStore δ) : Raises (PostgresStore δ) :=
  if s.holdEvents.any fun e => e.tenantId = event.tenantId && e.eventId = event.eventId then
    .error (.integrity "legal_hold_audit_events_tenant_id_event_id_key")
  else .ok { s with holdEvents := s.holdEvents ++ [event] }

def persistTransition (isoformat : String → String) (r : DeletionRequest)
    (event : LifecycleEvent) (expected : Option DeletionStatus) (s : PostgresStore δ) :
    Raises (Reply × PostgresStore δ) :=
  match persistCheck (s.request isoformat r.key) r event expected with
  | .error e => .error e
  | .ok (some current) => .ok (.request current, s)
  | .ok none => do
    let s ← s.writeRequest isoformat r
    let s ← s.appendEvent event
    .ok (.request r, s)

/-- `_assert_hold_event_tip` -/
def holdTip (s : PostgresStore δ) (event : LifecycleEvent) : Bool :=
  event.previousEventHash =
    (lastOf s.holdEvents event.tenantId event.requestId).map LifecycleEvent.eventHash

def setHold (tenant : TenantContext) (decisionId holdId actorHash reasonCode
    occurredAt : String) (event : LifecycleEvent) (s : PostgresStore δ) :
    Raises (Reply × PostgresStore δ) :=
  let row : HoldRow := ⟨tenant.tenantId, decisionId, holdId, true, reasonCode, actorHash,
    occurredAt, none, none⟩
  if s.held tenant.tenantId decisionId then .ok (.changed false, s)
  else if !s.holdTip event then
    .error (.transitionConflict "LIFECYCLE_EVENT_CHAIN_CONFLICT")
  else if (lookup HoldRow.key row.key s.holds).isNone &&
      !CaseTables.hasCase s.tables tenant.tenantId decisionId then
    .error (.integrity "legal_holds_tenant_id_decision_id_fkey")
  else do
    let s ← appendHoldEvent event { s with holds := upsert HoldRow.key row s.holds }
    .ok (.changed true, s)

def releaseHold (tenant : TenantContext) (decisionId actorHash occurredAt : String)
    (event : LifecycleEvent) (s : PostgresStore δ) : Raises (Reply × PostgresStore δ) :=
  if !s.held tenant.tenantId decisionId then .ok (.changed false, s)
  else if !s.holdTip event then
    .error (.transitionConflict "LIFECYCLE_EVENT_CHAIN_CONFLICT")
  else do
    let s ← appendHoldEvent event { s with
      holds := updateWhere
        (fun h => h.tenantId = tenant.tenantId && h.decisionId = decisionId && h.active)
        (fun h => { h with
          active := false
          releasedByActorHash := some actorHash
          releasedAt := some occurredAt }) s.holds }
    .ok (.changed true, s)

/-- `_delete_case_data` -/
def deleteCaseData (tenantId decisionId : String) (s : PostgresStore δ) :
    Raises (PostgresStore δ) :=
  if s.held tenantId decisionId then .error .legalHoldActive
  else if !CaseTables.hasCase s.tables tenantId decisionId then .error .caseNotFound
  else
    .ok { s with
      tables := CaseTables.eraseCase s.tables tenantId decisionId
      holds := deleteWhere (fun h => h.tenantId = tenantId && h.decisionId = decisionId)
        s.holds }

def completeDeletion (isoformat : String → String) (r : DeletionRequest)
    (event : LifecycleEvent) (s : PostgresStore δ) : Raises (Reply × PostgresStore δ) :=
  match completeCheck (s.request isoformat r.key) event with
  | .error e => .error e
  | .ok (.inl current) => .ok (.request current, s)
  | .ok (.inr decisionId) => do
    let s ← s.deleteCaseData r.tenantId decisionId
    let s ← (s.updateRequest r).appendEvent event
    .ok (.request r, s)

end PostgresStore

def postgres (isoformat : String → String) (δ : Type) [CaseTables δ] :
    LifecycleRepository (PostgresStore δ) where
  caseExists tenant decisionId s := CaseTables.hasCase s.tables tenant.tenantId decisionId
  getByIdempotency tenant actorHash keyHash s :=
    (s.requests.find? fun row => row.tenantId = tenant.tenantId && row.actorHash = actorHash &&
      row.idempotencyKeyHash = keyHash).map (s.read isoformat)
  getRequest tenant requestId s := s.request isoformat (tenant.tenantId, requestId)
  persistTransition := PostgresStore.persistTransition isoformat
  activeHold tenant decisionId s := s.held tenant.tenantId decisionId
  setHold := PostgresStore.setHold
  releaseHold := PostgresStore.releaseHold
  lastEvent tenant requestId s := lastOf s.events tenant.tenantId requestId
  lastHoldEvent tenant holdId s := lastOf s.holdEvents tenant.tenantId holdId
  completeDeletion := PostgresStore.completeDeletion isoformat

end DecisionAssurance.Lifecycle
