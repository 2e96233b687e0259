import DecisionAssurance.DeletionResume
import DecisionAssurance.LifecycleChains

/-!
# The two lifecycle repositories side by side

Service calls are made one after another on either repository. The rows and logs of PostgreSQL
are those of the in-memory repository as long as no deletion is executed for a case that is gone,
which only the in-memory repository completes, no event id repeats and no text has a NUL, which
only PostgreSQL refuses. A request read back from PostgreSQL has its timestamps as the database
formats them; where the calls that read one find them unaltered, the results are equal.
-/

namespace DecisionAssurance.Lifecycle

open Interleaving Tables

/-! ## Texts in PostgreSQL -/

/-- psycopg sends no text with a NUL. -/
def bindable (text : String) : Bool := !text.toList.contains (Char.ofNat 0)

/-- The texts of a call that an event has. -/
def LifecycleEvent.bindable (e : LifecycleEvent) : Bool :=
  Lifecycle.bindable e.reasonCode && Lifecycle.bindable e.correlationId

section Texts

variable {δ : Type}

def PostgresStore.logged (s : PostgresStore δ) : Nat := s.events.length + s.holdEvents.length

/-- A transaction that may write an event. Its texts are refused before the database compares
its keys, and nothing of the transaction stays. -/
def refusing (e : LifecycleEvent) (write : PostgresStore δ → Raises (Reply × PostgresStore δ))
    (s : PostgresStore δ) : Raises (Reply × PostgresStore δ) :=
  match write s with
  | .ok (reply, s') =>
    if !e.bindable && decide (s.logged < s'.logged) then .error .dataError else .ok (reply, s')
  | .error (.integrity constraint) =>
    if e.bindable then .error (.integrity constraint) else .error .dataError
  | .error err => .error err

theorem refusing_of_bindable {e : LifecycleEvent} (he : e.bindable = true)
    (write : PostgresStore δ → Raises (Reply × PostgresStore δ)) (s : PostgresStore δ) :
    refusing e write s = write s := by
  unfold refusing
  rw [he]
  cases write s with
  | ok result => rfl
  | error err => cases err <;> rfl

/-- `PostgresLifecycleRepository`, with the texts that it refuses to write. -/
def refusingPostgres (isoformat : String → String) (δ : Type) [CaseTables δ] :
    LifecycleRepository (PostgresStore δ) :=
  { postgres isoformat δ with
    persistTransition := fun r event expected =>
      refusing event ((postgres isoformat δ).persistTransition r event expected)
    setHold := fun tenant decisionId holdId actorHash reasonCode occurredAt event =>
      refusing event
        ((postgres isoformat δ).setHold tenant decisionId holdId actorHash reasonCode occurredAt event)
    releaseHold := fun tenant decisionId actorHash occurredAt event =>
      refusing event ((postgres isoformat δ).releaseHold tenant decisionId actorHash occurredAt event)
    completeDeletion := fun r event =>
      refusing event ((postgres isoformat δ).completeDeletion r event) }

end Texts

/-! ## Calls -/

inductive LifecycleCall
  | requestDeletion (identity : Identity) (decisionId reasonCode idempotencyKey
      correlationId : String)
  | executeDeletion (identity : Identity) (requestId correlationId : String)
  | placeLegalHold (identity : Identity) (decisionId reasonCode correlationId : String)
  | releaseLegalHold (identity : Identity) (decisionId correlationId : String)

section Calls

variable {σ : Type} (g : Digests) (repo : LifecycleRepository σ)

def LifecycleCall.proc : LifecycleCall → ServiceProc σ Reply
  | .requestDeletion identity decisionId reasonCode idempotencyKey correlationId =>
    Lifecycle.requestDeletion g repo identity decisionId reasonCode idempotencyKey correlationId
  | .executeDeletion identity requestId correlationId =>
    Lifecycle.executeDeletion g repo identity requestId correlationId
  | .placeLegalHold identity decisionId reasonCode correlationId =>
    Lifecycle.placeLegalHold g repo identity decisionId reasonCode correlationId
  | .releaseLegalHold identity decisionId correlationId =>
    Lifecycle.releaseLegalHold g repo identity decisionId correlationId

/-- A call with the clock readings it makes. -/
abbrev TimedCall := LifecycleCall × (ℕ → String)

def answer (s : σ) (call : TimedCall) : Raises Reply × σ := (call.1.proc g repo).run call.2 s

/-- The results of calls made one after another, each with the store after it. -/
def answers (step : σ → TimedCall → Raises Reply × σ) (s : σ) :
    List TimedCall → List (Raises Reply × σ)
  | [] => []
  | call :: calls => step s call :: answers step (step s call).2 calls

def LifecycleCall.authorized : LifecycleCall → Bool
  | .requestDeletion identity .. | .executeDeletion identity .. => identity.authorized .dataDelete
  | .placeLegalHold identity .. | .releaseLegalHold identity .. =>
    identity.authorized .legalHoldManage

/-- The request that a repeated `request_deletion` finds. -/
def replayed (s : σ) (identity : Identity) (idempotencyKey : String) : Option DeletionRequest :=
  repo.getByIdempotency identity.tenant
    (g.digest "actor" identity.tenant.tenantId identity.actorId)
    (g.digest "idempotency" identity.tenant.tenantId idempotencyKey) s

/-- The id a call looks up first; a replay looks up none. -/
def LifecycleCall.sends (s : σ) : LifecycleCall → Option String
  | .requestDeletion identity decisionId _ idempotencyKey _ =>
    if (replayed g repo s identity idempotencyKey).isSome then none else some decisionId
  | .executeDeletion _ requestId _ => some requestId
  | .placeLegalHold _ decisionId _ _ | .releaseLegalHold _ decisionId _ => some decisionId

/-- The texts a call hands to the repository. -/
def LifecycleCall.texts : LifecycleCall → List String
  | .requestDeletion _ decisionId reasonCode _ correlationId
  | .placeLegalHold _ decisionId reasonCode correlationId => [decisionId, reasonCode, correlationId]
  | .executeDeletion _ subjectId correlationId
  | .releaseLegalHold _ subjectId correlationId => [subjectId, correlationId]

end Calls

/-- A call on PostgreSQL. -/
def answerPostgres {δ : Type} [CaseTables δ] (g : Digests) (isoformat : String → String)
    (p : PostgresStore δ) (call : TimedCall) : Raises Reply × PostgresStore δ :=
  if call.1.authorized && !(call.1.sends g (postgres isoformat δ) p).all bindable then
    (.error .dataError, p)
  else answer g (refusingPostgres isoformat δ) p call

/-! ## Agreement -/

section Agreement

variable {δ : Type} [CaseTables δ] (g : Digests) (isoformat : String → String)

/-- The same request but for the text of its timestamps. -/
def Twin (a b : DeletionRequest) : Prop :=
  (b.requestedAt = a.requestedAt ∨ b.requestedAt = isoformat a.requestedAt) ∧
    (b.completedAt = a.completedAt ∨ b.completedAt = a.completedAt.map isoformat) ∧
    { b with requestedAt := a.requestedAt, completedAt := a.completedAt } = a

/-- The same result or the same rejection, but for the text of timestamps. -/
def SameResult : Raises Reply → Raises Reply → Prop
  | .ok (.request a), .ok (.request b) => Twin isoformat a b
  | .ok (.changed a), .ok (.changed b) => a = b
  | .error a, .error b => a = b
  | _, _ => False

/-- The same statuses, active holds and event chains. -/
structure SameLifecycle (m : MemoryStore) (p : PostgresStore δ) : Prop where
  statuses : ∀ k, (p.request isoformat k).map DeletionRequest.status =
    (m.request k).map DeletionRequest.status
  holds : ∀ tenantId decisionId, p.held tenantId decisionId = decide ((tenantId, decisionId) ∈ m.holds)
  requestChains : ∀ k, (m.request k).isSome → eventsOf p.events k = eventsOf m.events k
  holdChains : ∀ tenant decisionId, eventsOf p.holdEvents (holdKey g tenant decisionId) =
    eventsOf m.events (holdKey g tenant decisionId)

/-- An open request is executed whose case is gone and not on hold. -/
def Orphaned (m : MemoryStore) : LifecycleCall → Prop
  | .executeDeletion identity requestId _ => identity.authorized .dataDelete = true ∧
      ∃ r decisionId, m.request (identity.tenant.tenantId, requestId) = some r ∧
        r.status ≠ .completed ∧ r.decisionId = some decisionId ∧
        (identity.tenant.tenantId, decisionId) ∉ m.holds ∧
        (identity.tenant.tenantId, decisionId) ∉ m.cases
  | _ => False

/-- No text that an authorised call hands to the repository has a NUL. -/
def LifecycleCall.Bindable (call : LifecycleCall) : Prop :=
  call.authorized = true → ∀ text ∈ call.texts, bindable text = true

def isRequestEvent (e : LifecycleEvent) : Bool := isDeletionId e.requestId

def eventIds (events : List LifecycleEvent) : List (String × String) :=
  events.map fun e => (e.tenantId, e.eventId)

/-- No id repeats among the events of requests, and none among those of holds. -/
structure Distinct (events : List LifecycleEvent) : Prop where
  requests : (eventIds (events.filter isRequestEvent)).Nodup
  holds : (eventIds (events.filter fun e => !isRequestEvent e)).Nodup

/-! ## Simulation -/

def requestIdOf (tenantId actorHash keyHash : String) : String :=
  "delete-" ++ take 24 (g.sha256 (joined [tenantId, actorHash, keyHash]))

/-- What a transition of a request does not change. -/
def DeletionRequest.origin (r : DeletionRequest) : List String :=
  [r.tenantId, r.requestId, r.caseRefHash, r.actorHash, r.idempotencyKeyHash, r.reasonCode,
    r.requestedAt]

/-- A request as PostgreSQL reads it back. -/
def DeletionRequest.readBack (r : DeletionRequest) : DeletionRequest :=
  { r with requestedAt := isoformat r.requestedAt, completedAt := r.completedAt.map isoformat }

/-- The stored request that a call returns or goes on with. -/
def LifecycleCall.reads (m : MemoryStore) : LifecycleCall → Option DeletionRequest
  | .requestDeletion identity decisionId reasonCode idempotencyKey _ =>
    if identity.authorized .dataDelete then
      (replayed g inMemory m identity idempotencyKey).filter fun r =>
        r.caseRefHash = g.digest "case" identity.tenant.tenantId decisionId &&
          r.reasonCode = reasonCode
    else none
  | .executeDeletion identity requestId _ =>
    if identity.authorized .dataDelete then m.request (identity.tenant.tenantId, requestId) else none
  | _ => none

/-- A call reads no request whose timestamps the database alters. -/
def LifecycleCall.Unaltered (m : MemoryStore) (call : LifecycleCall) : Prop :=
  ∀ r ∈ call.reads g m, r.readBack isoformat = r

/-- The dictionary entry of a request. -/
def idempotencyEntry (r : DeletionRequest) : (String × String × String) × String :=
  ((r.tenantId, r.actorHash, r.idempotencyKeyHash), r.requestId)

/-- What a stored request has of the last event of its chain. -/
def chainEnd (r : DeletionRequest) : String × Option String := (r.eventHash, r.previousEventHash)

/-- A request as the service builds it. -/
structure Regular (r : DeletionRequest) : Prop where
  flag : r.legalHoldActive = decide (r.status = .blockedByHold)
  named : r.requestId = requestIdOf g r.tenantId r.actorHash r.idempotencyKeyHash
  bindable : bindable r.reasonCode = true

/-- The rows of the requests and the log of their events are those of the dictionaries. -/
structure SameRows (requests : List DeletionRequest)
    (idempotency : List ((String × String × String) × String)) (rows : List RequestRow)
    (log : List LifecycleEvent) : Prop where
  keyed : Keyed DeletionRequest.key requests
  regular : ∀ r ∈ requests, Regular g r
  entries : idempotency = requests.map idempotencyEntry
  rows : rows = requests.map PostgresStore.toRow
  ends : ∀ r ∈ requests, (lastOf log r.tenantId r.requestId).map
    (fun e => (e.eventHash, e.previousEventHash)) = some (chainEnd r)

/-- The tables of PostgreSQL hold what the in-memory repository holds. -/
structure Mirrors (m : MemoryStore) (p : PostgresStore δ) : Prop where
  cases : ∀ t d, CaseTables.hasCase p.tables t d = decide ((t, d) ∈ m.cases)
  holds : ∀ t d, p.held t d = decide ((t, d) ∈ m.holds)
  requests : SameRows g m.requests m.idempotency p.requests p.events
  events : p.events = m.events.filter isRequestEvent
  holdEvents : p.holdEvents = m.events.filter fun e => !isRequestEvent e

end Agreement

section Rows

variable {g : Digests} {isoformat : String → String} {requests : List DeletionRequest}
  {idempotency : List ((String × String × String) × String)} {rows : List RequestRow}
  {log : List LifecycleEvent} {r r' stored : DeletionRequest} {e : LifecycleEvent} {k : RequestKey}

theorem lastOf_append (e : LifecycleEvent) (k : RequestKey) : lastOf (log ++ [e]) k.1 k.2 =
    if k = eventKey e then some e else lastOf log k.1 k.2 := by
  change (eventsOf (log ++ [e]) k).getLast? = _
  split_ifs with hk
  · rw [hk, eventsOf_append_self, List.getLast?_concat]
  · rw [eventsOf_append_of_ne hk]
    rfl

theorem eventsOf_filter {q : LifecycleEvent → Bool} (hq : ∀ e, eventKey e = k → q e = true)
    (events : List LifecycleEvent) : eventsOf (events.filter q) k = eventsOf events k := by
  unfold eventsOf
  rw [List.filter_filter]
  refine List.filter_congr fun e _ => ?_
  by_cases hk : eventKey e = k
  · rw [hq e hk, Bool.and_true]
  · have hother : (decide (e.tenantId = k.1) && decide (e.requestId = k.2)) = false := by
      rw [Bool.and_eq_false_iff, decide_eq_false_iff_not, decide_eq_false_iff_not, ← not_and_or]
      rintro ⟨htenant, hid⟩
      exact hk (Prod.ext htenant hid)
    rw [hother, Bool.false_and]

theorem SameRows.unique (h : SameRows g requests idempotency rows log) {x : DeletionRequest}
    (hx : x ∈ requests) (hstored : lookup DeletionRequest.key k requests = some stored)
    (hkey : x.key = k) : x = stored :=
  h.keyed.eq_of_mem hx (mem_of_lookup hstored) (hkey.trans (key_of_lookup hstored).symm)

theorem toRow_setFrom {t : String} (horigin : stored.origin = r.origin) :
    (PostgresStore.toRow stored).setFrom { r with requestedAt := t } = PostgresStore.toRow r := by
  unfold DeletionRequest.origin at horigin
  simp only [List.cons.injEq, and_true] at horigin
  obtain ⟨h₁, h₂, h₃, h₄, h₅, h₆, h₇⟩ := horigin
  simp only [PostgresStore.toRow, RequestRow.setFrom, h₁, h₂, h₃, h₄, h₅, h₆, h₇]

theorem SameRows.ends_append (h : SameRows g requests idempotency rows log)
    (hkey : eventKey e = r.key) (hend : chainEnd r = (e.eventHash, e.previousEventHash))
    {x : DeletionRequest} (hx : x = r ∨ (x ∈ requests ∧ x.key ≠ r.key)) :
    (lastOf (log ++ [e]) x.tenantId x.requestId).map
      (fun e => (e.eventHash, e.previousEventHash)) = some (chainEnd x) := by
  have hlast : lastOf (log ++ [e]) x.key.1 x.key.2 = _ := lastOf_append e x.key
  rcases hx with rfl | ⟨hx, hne⟩
  · rw [if_pos hkey.symm] at hlast
    rw [hend]
    exact congrArg _ hlast
  · rw [if_neg (hkey ▸ hne)] at hlast
    rw [← h.ends x hx]
    exact congrArg _ hlast

/-- A transition of a stored request. -/
theorem SameRows.update (h : SameRows g requests idempotency rows log)
    (hstored : lookup DeletionRequest.key r.key requests = some stored)
    (horigin : stored.origin = r.origin) (hregular : Regular g r) (hkey : eventKey e = r.key)
    (hend : chainEnd r = (e.eventHash, e.previousEventHash)) (t : String) :
    SameRows g (upsert DeletionRequest.key r requests) idempotency
      (updateWhere (fun row => row.key = r.key)
        (fun row => row.setFrom { r with requestedAt := t }) rows) (log ++ [e]) := by
  have hupsert : upsert DeletionRequest.key r requests =
      updateWhere (fun x => x.key = r.key) (fun _ => r) requests := by
    unfold upsert
    rw [hstored]
    rfl
  have hkeep : ∀ x : DeletionRequest, decide (x.key = r.key) = true → r.key = x.key :=
    fun x hx => (of_decide_eq_true hx).symm
  have hmem : ∀ x ∈ updateWhere (fun x => x.key = r.key) (fun _ => r) requests,
      x = r ∨ (x ∈ requests ∧ x.key ≠ r.key) := by
    intro x hx
    obtain ⟨x₀, hx₀, rfl⟩ := mem_updateWhere.mp hx
    by_cases hk : x₀.key = r.key
    · exact .inl (if_pos (decide_eq_true hk))
    · rw [if_neg (by simpa only [decide_eq_true_eq] using hk)]
      exact .inr ⟨hx₀, hk⟩
  rw [hupsert]
  refine ⟨keyed_updateWhere hkeep h.keyed, fun x hx => ?_, ?_, ?_, fun x hx => ?_⟩
  · rcases hmem x hx with rfl | ⟨hx, -⟩
    · exact hregular
    · exact h.regular x hx
  · rw [h.entries, updateWhere, List.map_map]
    refine List.map_congr_left fun x hx => ?_
    by_cases hk : x.key = r.key
    · rw [Function.comp_apply, if_pos (decide_eq_true hk), h.unique hx hstored hk]
      unfold DeletionRequest.origin at horigin
      simp only [List.cons.injEq, and_true] at horigin
      obtain ⟨h₁, h₂, -, h₄, h₅, -⟩ := horigin
      rw [idempotencyEntry, idempotencyEntry, h₁, h₂, h₄, h₅]
    · rw [Function.comp_apply, if_neg (by simpa only [decide_eq_true_eq] using hk)]
  · rw [h.rows, updateWhere, updateWhere, List.map_map, List.map_map]
    refine List.map_congr_left fun x hx => ?_
    by_cases hk : x.key = r.key
    · have hrow : (PostgresStore.toRow x).key = r.key := hk
      simp only [Function.comp_apply, hrow, hk, decide_true, if_true]
      rw [h.unique hx hstored hk]
      exact toRow_setFrom horigin
    · have hrow : (PostgresStore.toRow x).key ≠ r.key := hk
      simp only [Function.comp_apply, hrow, hk, decide_false, Bool.false_eq_true, if_false]
  · exact h.ends_append hkey hend (hmem x hx)

/-- A new request. -/
theorem SameRows.insert (h : SameRows g requests idempotency rows log)
    (hnone : lookup DeletionRequest.key r.key requests = none) (hregular : Regular g r)
    (hkey : eventKey e = r.key) (hend : chainEnd r = (e.eventHash, e.previousEventHash)) :
    SameRows g (requests ++ [r]) (idempotency ++ [idempotencyEntry r])
      (rows ++ [PostgresStore.toRow r]) (log ++ [e]) := by
  have hne := lookup_eq_none.mp hnone
  refine ⟨keyed_append_singleton h.keyed hne, fun x hx => ?_, ?_, ?_, fun x hx => ?_⟩
  · rcases List.mem_append.mp hx with hx | hx
    · exact h.regular x hx
    · rw [List.mem_singleton.mp hx]
      exact hregular
  · rw [h.entries, List.map_append, List.map_singleton]
  · rw [h.rows, List.map_append, List.map_singleton]
  · refine h.ends_append hkey hend ?_
    rcases List.mem_append.mp hx with hx | hx
    · exact .inr ⟨hx, hne x hx⟩
    · exact .inl (List.mem_singleton.mp hx)

theorem Regular.entry_inj {x : DeletionRequest} (hx : Regular g x) (hr : Regular g r)
    (h : (idempotencyEntry x).1 = (idempotencyEntry r).1) :
    idempotencyEntry x = idempotencyEntry r ∧ x.key = r.key := by
  obtain ⟨htenant, htriple⟩ := Prod.mk.inj h
  obtain ⟨hactor, hkey⟩ := Prod.mk.inj htriple
  have hid : x.requestId = r.requestId := by
    rw [hx.named, hr.named, htenant, hactor, hkey]
  exact ⟨Prod.ext h hid, Prod.ext htenant hid⟩

theorem SameRows.upsert_stored (h : SameRows g requests idempotency rows log)
    (hstored : lookup DeletionRequest.key r.key requests = some stored)
    (horigin : stored.origin = r.origin) (hregular : Regular g r) :
    upsert Prod.fst (idempotencyEntry r) idempotency = idempotency := by
  have hentry : idempotencyEntry stored = idempotencyEntry r := by
    refine ((h.regular stored (mem_of_lookup hstored)).entry_inj hregular ?_).1
    unfold DeletionRequest.origin at horigin
    simp only [List.cons.injEq, and_true] at horigin
    obtain ⟨h₁, -, -, h₄, h₅, -⟩ := horigin
    simp only [idempotencyEntry, h₁, h₄, h₅]
  have hfound : (lookup Prod.fst (idempotencyEntry r).1 idempotency).isSome := by
    rw [Option.isSome_iff_ne_none]
    intro hnone
    refine lookup_eq_none.mp hnone (idempotencyEntry r) ?_ rfl
    rw [h.entries, ← hentry]
    exact List.mem_map_of_mem (mem_of_lookup hstored)
  unfold upsert
  rw [if_pos hfound, h.entries, updateWhere, List.map_map]
  refine List.map_congr_left fun x hx => ?_
  rw [Function.comp_apply]
  split_ifs with hsame
  · exact ((h.regular x hx).entry_inj hregular (of_decide_eq_true hsame)).1.symm
  · rfl

theorem SameRows.upsert_new (h : SameRows g requests idempotency rows log)
    (hnone : lookup DeletionRequest.key r.key requests = none) (hregular : Regular g r) :
    upsert Prod.fst (idempotencyEntry r) idempotency = idempotency ++ [idempotencyEntry r] := by
  have hmissing : lookup Prod.fst (idempotencyEntry r).1 idempotency = none := by
    rw [lookup_eq_none]
    intro entry hentry hsame
    rw [h.entries] at hentry
    obtain ⟨x, hx, rfl⟩ := List.mem_map.mp hentry
    exact lookup_eq_none.mp hnone x hx ((h.regular x hx).entry_inj hregular hsame).2
  unfold upsert
  rw [hmissing]
  rfl

/-- The row of a new request breaks no unique key. -/
theorem SameRows.unused (h : SameRows g requests idempotency rows log)
    (hnone : lookup DeletionRequest.key r.key requests = none) (hregular : Regular g r) :
    (rows.any fun row => row.tenantId = r.tenantId && row.actorHash = r.actorHash &&
      row.idempotencyKeyHash = r.idempotencyKeyHash) = false := by
  rw [List.any_eq_false]
  intro row hrow hsame
  rw [h.rows] at hrow
  obtain ⟨x, hx, rfl⟩ := List.mem_map.mp hrow
  simp only [Bool.and_eq_true, decide_eq_true_eq] at hsame
  refine lookup_eq_none.mp hnone x hx ((h.regular x hx).entry_inj hregular ?_).2
  exact Prod.ext hsame.1.1 (Prod.ext hsame.1.2 hsame.2)

end Rows

section Mirrors

variable {δ : Type} [CaseTables δ] {g : Digests} {isoformat : String → String} {m : MemoryStore}
  {p : PostgresStore δ} {r : DeletionRequest} {e : LifecycleEvent} {k : RequestKey}

omit [CaseTables δ] in
theorem SameRows.read {requests : List DeletionRequest}
    {idempotency : List ((String × String × String) × String)} {rows : List RequestRow}
    (h : SameRows g requests idempotency rows p.events) (hr : r ∈ requests) :
    p.read isoformat (PostgresStore.toRow r) = r.readBack isoformat := by
  obtain ⟨e, he, hchain⟩ := Option.map_eq_some_iff.mp (h.ends r hr)
  obtain ⟨hhash, hprevious⟩ := Prod.mk.inj hchain
  have hflag := (h.regular r hr).flag
  change PostgresStore.toRequest isoformat (PostgresStore.toRow r)
    (lastOf p.events r.tenantId r.requestId) = _
  rw [he]
  simp only [PostgresStore.toRequest, PostgresStore.toRow, DeletionRequest.readBack,
    Option.map_some, Option.getD_some, Option.bind_some, ← hhash, ← hprevious, hflag]
  rfl

/-- A request is read back from PostgreSQL as it is in the dictionary. -/
theorem Mirrors.request (h : Mirrors g m p) (k : RequestKey) :
    p.request isoformat k = (m.request k).map (DeletionRequest.readBack isoformat) := by
  unfold PostgresStore.request
  rw [h.requests.rows, lookup_map (fun _ => rfl), Option.map_map]
  exact Option.map_congr fun r hr => h.requests.read (mem_of_lookup hr)

/-- The dictionaries find a replay among the requests. -/
theorem Mirrors.findReplay (h : Mirrors g m p) (tenant : TenantContext) (actorHash keyHash : String) :
    inMemory.getByIdempotency tenant actorHash keyHash m = m.requests.find? fun r =>
      r.tenantId = tenant.tenantId && r.actorHash = actorHash && r.idempotencyKeyHash = keyHash := by
  let q : DeletionRequest → Bool := fun r => r.tenantId = tenant.tenantId && r.actorHash = actorHash &&
    r.idempotencyKeyHash = keyHash
  change (lookup Prod.fst (tenant.tenantId, actorHash, keyHash) m.idempotency).bind _ =
    m.requests.find? q
  have hlookup : lookup Prod.fst (tenant.tenantId, actorHash, keyHash) m.idempotency =
      (m.requests.find? q).map idempotencyEntry := by
    rw [h.requests.entries, lookup, List.find?_map]
    refine congrArg (Option.map idempotencyEntry) ?_
    refine congrArg (fun q => m.requests.find? q) (funext fun r => ?_)
    simp only [Function.comp_apply, idempotencyEntry, Prod.mk.injEq, Bool.decide_and, q, Bool.and_assoc]
  rw [hlookup]
  cases hfound : m.requests.find? q with
  | none => rfl
  | some r =>
    have hq := List.find?_some hfound
    simp only [q, Bool.and_eq_true, decide_eq_true_eq] at hq
    have hkey : r.key = (tenant.tenantId, r.requestId) := Prod.ext hq.1.1 rfl
    exact (h.requests.keyed.lookup_eq_some).mpr ⟨List.mem_of_find?_eq_some hfound, hkey⟩

/-- The replay of a request is found on both sides. -/
theorem Mirrors.getByIdempotency (h : Mirrors g m p) (tenant : TenantContext)
    (actorHash keyHash : String) :
    (postgres isoformat δ).getByIdempotency tenant actorHash keyHash p =
      (inMemory.getByIdempotency tenant actorHash keyHash m).map
        (DeletionRequest.readBack isoformat) := by
  rw [h.findReplay]
  change (p.requests.find? _).map _ = _
  rw [h.requests.rows, List.find?_map, Option.map_map]
  refine Option.map_congr fun r hr => ?_
  exact h.requests.read (List.mem_of_find?_eq_some hr)

theorem Mirrors.requestChain (h : Mirrors g m p) (hid : isDeletionId k.2) :
    eventsOf p.events k = eventsOf m.events k := by
  rw [h.events]
  refine eventsOf_filter (fun e he => ?_) m.events
  rw [← he] at hid
  exact hid

theorem Mirrors.holdChain (h : Mirrors g m p) (hid : isDeletionId k.2 = false) :
    eventsOf p.holdEvents k = eventsOf m.events k := by
  rw [h.holdEvents]
  refine eventsOf_filter (fun e he => ?_) m.events
  rw [← he] at hid
  unfold isRequestEvent
  rw [Bool.not_eq_true']
  exact hid

theorem Distinct.of_prefix {events events' : List LifecycleEvent} (h : Distinct events')
    (hinitial : events <+: events') : Distinct events := by
  have hsublist := hinitial.sublist
  exact ⟨h.requests.sublist ((hsublist.filter _).map _), h.holds.sublist ((hsublist.filter _).map _)⟩

theorem Mirrors.unrecorded (h : Mirrors g m p) (he : isRequestEvent e)
    (hdistinct : Distinct (m.events ++ [e])) : p.eventRecorded e = false := by
  have hnodup := hdistinct.requests
  rw [List.filter_append, ← h.events, List.filter_singleton, he, eventIds, List.map_append,
    List.nodup_append] at hnodup
  unfold PostgresStore.eventRecorded
  rw [List.any_eq_false]
  intro e' he' hsame
  simp only [Bool.and_eq_true, decide_eq_true_eq] at hsame
  refine hnodup.2.2 _ (List.mem_map_of_mem he') _ (List.mem_map_of_mem (List.mem_singleton_self e)) ?_
  exact Prod.ext hsame.1 hsame.2

theorem Mirrors.unrecorded_hold (h : Mirrors g m p) (he : isRequestEvent e = false)
    (hdistinct : Distinct (m.events ++ [e])) :
    (p.holdEvents.any fun e' => e'.tenantId = e.tenantId && e'.eventId = e.eventId) = false := by
  have hnodup := hdistinct.holds
  rw [List.filter_append, ← h.holdEvents, List.filter_singleton, he, eventIds, List.map_append,
    List.nodup_append] at hnodup
  rw [List.any_eq_false]
  intro e' he' hsame
  simp only [Bool.and_eq_true, decide_eq_true_eq] at hsame
  refine hnodup.2.2 _ (List.mem_map_of_mem he') _ (List.mem_map_of_mem (List.mem_singleton_self e)) ?_
  exact Prod.ext hsame.1 hsame.2

theorem Mirrors.same (h : Mirrors g m p) : SameLifecycle g isoformat m p where
  statuses k := by
    rw [h.request, Option.map_map]
    rfl
  holds := h.holds
  requestChains k hk := by
    obtain ⟨r, hr⟩ := Option.isSome_iff_exists.mp hk
    refine h.requestChain ?_
    rw [← key_of_lookup hr, DeletionRequest.key, (h.requests.regular r (mem_of_lookup hr)).named]
    unfold isDeletionId requestIdOf
    rw [String.toList_append]
    rfl
  holdChains tenant decisionId := h.holdChain (holdKey_not_deletion tenant decisionId)

/-! ## Writes of requests -/

/-- A request in the hands of the PostgreSQL call, where the in-memory call has `r`. -/
def DeletionRequest.requestedOn (r : DeletionRequest) (t : String) : DeletionRequest :=
  { r with requestedAt := t }

/-- A twin, and the same request where the call finds its timestamps `unaltered`. -/
def Matching (isoformat : String → String) (unaltered : Prop) (a b : DeletionRequest) : Prop :=
  Twin isoformat a b ∧ (unaltered → b = a)

/-- The time of a request in the hands of the PostgreSQL call. -/
def ReadAs (isoformat : String → String) (unaltered : Prop) (r : DeletionRequest) (t : String) : Prop :=
  (t = r.requestedAt ∨ t = isoformat r.requestedAt) ∧ (unaltered → t = r.requestedAt)

theorem ReadAs.matching {unaltered : Prop} {t : String} (h : ReadAs isoformat unaltered r t) :
    Matching isoformat unaltered r (r.requestedOn t) :=
  ⟨⟨h.1, .inl rfl, rfl⟩, fun hu => congrArg r.requestedOn (h.2 hu)⟩

theorem Matching.readBack {unaltered : Prop} (h : unaltered → r.readBack isoformat = r) :
    Matching isoformat unaltered r (r.readBack isoformat) :=
  ⟨⟨.inr rfl, .inr rfl, rfl⟩, h⟩

theorem Matching.readAs {unaltered : Prop} {r' : DeletionRequest}
    (h : Matching isoformat unaltered r r') : ReadAs isoformat unaltered r r'.requestedAt :=
  ⟨h.1.1, fun hu => congrArg DeletionRequest.requestedAt (h.2 hu)⟩

theorem readAs_isoformat {unaltered : Prop} (h : unaltered → isoformat r.requestedAt = r.requestedAt) :
    ReadAs isoformat unaltered r (isoformat r.requestedAt) := ⟨.inr rfl, h⟩

theorem Twin.eq {a b : DeletionRequest} (h : Twin isoformat a b) :
    b = { a with requestedAt := b.requestedAt, completedAt := b.completedAt } := by
  obtain ⟨-, -, hfields⟩ := h
  cases a
  cases b
  simp only [DeletionRequest.mk.injEq] at hfields ⊢
  simp only [hfields, and_self]

theorem persistCheck_readBack (current : Option DeletionRequest) (t : String)
    (expected : Option DeletionStatus) :
    persistCheck (current.map (DeletionRequest.readBack isoformat)) (r.requestedOn t) e expected =
      (persistCheck current r e expected).map (Option.map (DeletionRequest.readBack isoformat)) := by
  cases current with
  | none =>
    simp only [persistCheck, Option.map_none]
    split_ifs <;> rfl
  | some c =>
    cases expected with
    | none =>
      have hsame : sameRequest (c.readBack isoformat) (r.requestedOn t) = sameRequest c r := rfl
      simp only [persistCheck, Option.map_some, hsame]
      split_ifs <;> rfl
    | some expected =>
      have hstatus : (c.readBack isoformat).status = c.status := rfl
      have hstatus' : (r.requestedOn t).status = r.status := rfl
      have hhash : (c.readBack isoformat).eventHash = c.eventHash := rfl
      simp only [persistCheck, Option.map_some, hstatus, hstatus', hhash]
      split_ifs <;> rfl

/-- What is known of a transition that a call records. -/
structure Transition (g : Digests) (m : MemoryStore) (r : DeletionRequest) (e : LifecycleEvent) :
    Prop where
  key : eventKey e = r.key
  ends : chainEnd r = (e.eventHash, e.previousEventHash)
  regular : Regular g r

theorem Transition.isRequestEvent (ht : Transition g m r e) : isRequestEvent e = true := by
  obtain ⟨-, hid⟩ := Prod.mk.inj ht.key
  unfold Lifecycle.isRequestEvent isDeletionId
  rw [hid, ht.regular.named, requestIdOf, String.toList_append]
  rfl

/-- The rest of the stores when a request is written. -/
theorem Mirrors.write (h : Mirrors g m p) (ht : Transition g m r e) {m' : MemoryStore}
    {p' : PostgresStore δ} (hrows : SameRows g m'.requests m'.idempotency p'.requests (p.events ++ [e]))
    (hevents : m'.events = m.events ++ [e]) (hlog : p'.events = p.events ++ [e])
    (hholdLog : p'.holdEvents = p.holdEvents)
    (hcases : ∀ t d, CaseTables.hasCase p'.tables t d = decide ((t, d) ∈ m'.cases))
    (hholds : ∀ t d, p'.held t d = decide ((t, d) ∈ m'.holds)) : Mirrors g m' p' := by
  refine ⟨hcases, hholds, hlog ▸ hrows, ?_, ?_⟩
  · rw [hlog, hevents, h.events, List.filter_append, List.filter_singleton, ht.isRequestEvent]
    rfl
  · rw [hholdLog, hevents, h.holdEvents, List.filter_append, List.filter_singleton,
      ht.isRequestEvent]
    simp

/-- What `persist_transition` does on the two repositories. -/
structure Persisted (g : Digests) (isoformat : String → String) (unaltered : Prop)
    (m m' : MemoryStore) (x : DeletionRequest) (r : DeletionRequest)
    (outcome : Raises (Reply × PostgresStore δ)) : Prop where
  log : m.events <+: m'.events
  cases : m'.cases = m.cases
  holds : m'.holds = m.holds
  stored : m'.request r.key = some x
  kept : x = r ∨ m.request r.key = some x
  same : Distinct m'.events → ∃ x' p', outcome = .ok (.request x', p') ∧
    Matching isoformat unaltered x x' ∧ Mirrors g m' p'

/-- Storing the request: the rows are written as the dictionaries are. -/
theorem Mirrors.writeRequest (isoformat : String → String) (h : Mirrors g m p)
    (ht : Transition g m r e) (t : String)
    (hnew : m.request r.key = none → t = r.requestedAt)
    (hknown : ∀ stored, m.request r.key = some stored → stored.origin = r.origin) :
    ∃ rows, p.writeRequest isoformat (r.requestedOn t) = .ok { p with requests := rows } ∧
      SameRows g (upsert DeletionRequest.key r m.requests)
        (upsert Prod.fst (idempotencyEntry r) m.idempotency) rows (p.events ++ [e]) := by
  have hsome : (p.request isoformat (r.requestedOn t).key).isSome = (m.request r.key).isSome := by
    rw [h.request, Option.isSome_map]
    rfl
  unfold PostgresStore.writeRequest
  rw [hsome]
  cases hstored : m.request r.key with
  | some stored =>
    have horigin := hknown stored hstored
    refine ⟨_, rfl, ?_⟩
    rw [h.requests.upsert_stored hstored horigin ht.regular]
    exact h.requests.update hstored horigin ht.regular ht.key ht.ends t
  | none =>
    have hunused := h.requests.unused hstored ht.regular
    refine ⟨p.requests ++ [PostgresStore.toRow r], ?_, ?_⟩
    · rw [hnew hstored]
      unfold PostgresStore.insertRequest
      change (if (p.requests.any fun row => row.tenantId = r.tenantId && row.actorHash = r.actorHash &&
        row.idempotencyKeyHash = r.idempotencyKeyHash) = true then _ else _) = _
      rw [hunused]
      rfl
    · have hupsert : upsert DeletionRequest.key r m.requests = m.requests ++ [r] := by
        have hlookup : lookup DeletionRequest.key r.key m.requests = none := hstored
        unfold upsert
        rw [hlookup]
        rfl
      rw [h.requests.upsert_new hstored ht.regular, hupsert]
      exact h.requests.insert hstored ht.regular ht.key ht.ends

theorem Mirrors.appendEvent (h : Mirrors g m p) (ht : Transition g m r e)
    (hdistinct : Distinct (m.events ++ [e])) {s : PostgresStore δ} (hs : s.events = p.events) :
    s.appendEvent e = .ok { s with events := p.events ++ [e] } := by
  have hfresh : s.eventRecorded e = false := by
    have hfresh := h.unrecorded ht.isRequestEvent hdistinct
    unfold PostgresStore.eventRecorded at hfresh ⊢
    rw [hs]
    exact hfresh
  unfold PostgresStore.appendEvent
  rw [hfresh, hs]
  rfl

theorem persist_mirrors (expected : Option DeletionStatus) (h : Mirrors g m p)
    (ht : Transition g m r e) {unaltered : Prop} {t : String} (hread : ReadAs isoformat unaltered r t)
    (hnew : expected = none → t = r.requestedAt)
    (hknown : ∀ stored, m.request r.key = some stored → expected.isSome → stored.origin = r.origin)
    (hkept : ∀ c, persistCheck (m.request r.key) r e expected = .ok (some c) →
      unaltered → c.readBack isoformat = c) :
    match MemoryStore.persistTransition r e expected m with
    | .error err =>
      PostgresStore.persistTransition isoformat (r.requestedOn t) e expected p = .error err
    | .ok (reply, m') => ∃ x, reply = .request x ∧ Persisted g isoformat unaltered m m' x r
        (PostgresStore.persistTransition isoformat (r.requestedOn t) e expected p) := by
  have hcheck : persistCheck (p.request isoformat (r.requestedOn t).key) (r.requestedOn t) e expected =
      (persistCheck (m.request r.key) r e expected).map
        (Option.map (DeletionRequest.readBack isoformat)) := by
    rw [h.request]
    exact persistCheck_readBack _ t expected
  unfold MemoryStore.persistTransition PostgresStore.persistTransition
  rw [hcheck]
  cases hc : persistCheck (m.request r.key) r e expected with
  | error err => rfl
  | ok c =>
    cases c with
    | some c =>
      refine ⟨c, rfl, List.prefix_refl _, rfl, rfl, persistCheck_some hc, .inr (persistCheck_some hc),
        fun _ => ?_⟩
      exact ⟨c.readBack isoformat, p, rfl, Matching.readBack (hkept c hc), h⟩
    | none =>
      have hexpected : m.request r.key = none → expected = none := fun hnone =>
        ((persistCheck_none hc).2 hnone).1
      have hstored : ∀ stored, m.request r.key = some stored → stored.origin = r.origin := by
        intro stored hs
        refine hknown stored hs ?_
        rw [((persistCheck_none hc).1 stored hs).1]
        rfl
      refine ⟨r, rfl, List.prefix_append _ _, rfl, rfl, ?_, .inl rfl, fun hdistinct => ?_⟩
      · change lookup _ _ (upsert _ _ _) = _
        rw [lookup_upsert, if_pos rfl]
      · obtain ⟨rows, hwrite, hrows⟩ := h.writeRequest isoformat ht t
          (fun hnone => hnew (hexpected hnone)) hstored
        refine ⟨r.requestedOn t, { p with requests := rows, events := p.events ++ [e] }, ?_,
          hread.matching, ?_⟩
        · simp only [Except.map, Option.map_none]
          rw [hwrite, ok_bind, h.appendEvent ht hdistinct, ok_bind]
          rfl
        · exact h.write ht hrows rfl rfl rfl h.cases h.holds

theorem completeCheck_readBack (current : Option DeletionRequest) :
    completeCheck (current.map (DeletionRequest.readBack isoformat)) e =
      (completeCheck current e).map (Sum.map (DeletionRequest.readBack isoformat) id) := by
  cases current with
  | none => rfl
  | some c =>
    have hstatus : (c.readBack isoformat).status = c.status := rfl
    have hdecision : (c.readBack isoformat).decisionId = c.decisionId := rfl
    have hhash : (c.readBack isoformat).eventHash = c.eventHash := rfl
    simp only [completeCheck, Option.map_some, hstatus, hdecision, hhash]
    split
    · rfl
    · split_ifs <;> rfl
    · rfl

omit [CaseTables δ] in
/-- The holds of a case without active hold can be deleted. -/
theorem held_deleteWhere {t d : String} (hheld : p.held t d = false)
    (t' d' : String) : ((deleteWhere (fun h => h.tenantId = t && h.decisionId = d) p.holds).any
      fun h => h.tenantId = t' && h.decisionId = d' && h.active) = p.held t' d' := by
  rw [Bool.eq_iff_iff]
  unfold PostgresStore.held at hheld ⊢
  simp only [List.any_eq_true, mem_deleteWhere]
  constructor
  · rintro ⟨hold, ⟨hmem, -⟩, hsame⟩
    exact ⟨hold, hmem, hsame⟩
  · rintro ⟨hold, hmem, hsame⟩
    refine ⟨hold, ⟨hmem, ?_⟩, hsame⟩
    have hother := List.any_eq_false.mp hheld hold hmem
    simp only [Bool.and_eq_true, decide_eq_true_eq, not_and, Bool.not_eq_true, Bool.and_eq_false_iff,
      decide_eq_false_iff_not] at hother hsame ⊢
    by_contra hdeleted
    push Not at hdeleted
    rw [hother hdeleted] at hsame
    cases hsame.2

/-- What `complete_deletion` does on the two repositories, for a request whose case is there. -/
theorem complete_mirrors (h : Mirrors g m p) (ht : Transition g m r e) {unaltered : Prop} {t : String}
    (hread : ReadAs isoformat unaltered r t) {stored : DeletionRequest}
    (hstored : m.request r.key = some stored) (horigin : stored.origin = r.origin)
    (hkept : unaltered → stored.readBack isoformat = stored)
    (hcase : ∀ d, stored.decisionId = some d → (r.tenantId, d) ∉ m.holds → (r.tenantId, d) ∈ m.cases) :
    match MemoryStore.completeDeletion r e m with
    | .error err => PostgresStore.completeDeletion isoformat (r.requestedOn t) e p = .error err
    | .ok (reply, m') => m.events <+: m'.events ∧ ∃ x, reply = .request x ∧
        (Distinct m'.events → ∃ x' p', PostgresStore.completeDeletion isoformat (r.requestedOn t) e p =
          .ok (.request x', p') ∧ Matching isoformat unaltered x x' ∧ Mirrors g m' p') := by
  have hcheck : completeCheck (p.request isoformat (r.requestedOn t).key) e =
      (completeCheck (m.request r.key) e).map (Sum.map (DeletionRequest.readBack isoformat) id) := by
    rw [h.request]
    exact completeCheck_readBack _
  unfold MemoryStore.completeDeletion PostgresStore.completeDeletion
  rw [hcheck]
  cases hc : completeCheck (m.request r.key) e with
  | error err => rfl
  | ok c =>
    cases c with
    | inl c =>
      have hcurrent := (completeCheck_inl hc).1
      rw [hstored] at hcurrent
      cases hcurrent
      refine ⟨List.prefix_refl _, stored, rfl, fun _ => ?_⟩
      exact ⟨stored.readBack isoformat, p, rfl, Matching.readBack hkept, h⟩
    | inr d =>
      obtain ⟨c, hcurrent, -, hd, -⟩ := completeCheck_inr hc
      rw [hstored] at hcurrent
      cases hcurrent
      simp only [Except.map, Sum.map_inr, id]
      by_cases hheld : (r.tenantId, d) ∈ m.holds
      · have hheld' : p.held r.tenantId d = true := by
          rw [h.holds]
          exact decide_eq_true hheld
        simp only [hheld, if_true]
        change (PostgresStore.deleteCaseData r.tenantId d p >>= _) = _
        rw [PostgresStore.deleteCaseData, if_pos hheld', error_bind]
      · have hheld' : p.held r.tenantId d = false := by
          rw [h.holds]
          exact decide_eq_false hheld
        have hcase' : CaseTables.hasCase p.tables r.tenantId d = true := by
          rw [h.cases]
          exact decide_eq_true (hcase d hd hheld)
        simp only [hheld, if_false]
        refine ⟨List.prefix_append _ _, r, rfl, fun hdistinct => ?_⟩
        refine ⟨r.requestedOn t, { p with
          tables := CaseTables.eraseCase p.tables r.tenantId d
          holds := deleteWhere (fun h => h.tenantId = r.tenantId && h.decisionId = d) p.holds
          requests := updateWhere (fun row => row.key = r.key)
            (fun row => row.setFrom (r.requestedOn t)) p.requests
          events := p.events ++ [e] }, ?_, hread.matching, ?_⟩
        · change (PostgresStore.deleteCaseData r.tenantId d p >>= _) = _
          rw [PostgresStore.deleteCaseData, hheld', hcase']
          simp only [Bool.false_eq_true, if_false, Bool.not_true]
          rw [ok_bind, h.appendEvent ht hdistinct, ok_bind]
          · rfl
          · rfl
        · refine h.write ht (h.requests.update hstored horigin ht.regular ht.key ht.ends t) rfl rfl rfl
            (fun t' d' => ?_) fun t' d' => ?_
          · rw [CaseTables.hasCase_eraseCase, h.cases]
            simp [Bool.and_comm]
          · rw [← h.holds t' d']
            exact held_deleteWhere hheld' t' d'

/-! ## Recording a transition -/

section Recording

variable {identity : Identity} {eventType corr : String} {expected : Option DeletionStatus}

/-- The event that a call makes next for a request. -/
def nextEvent (g : Digests) (m : MemoryStore) (identity : Identity) (r : DeletionRequest)
    (eventType corr occurredAt : String) : LifecycleEvent :=
  makeEvent g identity.tenant.tenantId r.requestId r.caseRefHash eventType occurredAt r.reasonCode
    corr r.actorHash ((lastOf m.events identity.tenant.tenantId r.requestId).map
      LifecycleEvent.eventHash)

theorem Regular.isDeletionId (h : Regular g r) : isDeletionId r.requestId = true := by
  unfold Lifecycle.isDeletionId
  rw [h.named, requestIdOf, String.toList_append]
  rfl

/-- Both repositories lead to the same event. -/
theorem Mirrors.nextEvent (h : Mirrors g m p) (hregular : Regular g r) (identity : Identity)
    (eventType corr t occurredAt : String) :
    nextEvent g m identity r eventType corr occurredAt =
      makeEvent g identity.tenant.tenantId (r.requestedOn t).requestId (r.requestedOn t).caseRefHash
        eventType occurredAt (r.requestedOn t).reasonCode corr (r.requestedOn t).actorHash
        ((lastOf p.events identity.tenant.tenantId (r.requestedOn t).requestId).map
          LifecycleEvent.eventHash) := by
  have hchain := h.requestChain (k := (identity.tenant.tenantId, r.requestId)) hregular.isDeletionId
  have hlast : lastOf p.events identity.tenant.tenantId r.requestId =
      lastOf m.events identity.tenant.tenantId r.requestId := congrArg List.getLast? hchain
  change _ = makeEvent g _ r.requestId r.caseRefHash _ _ r.reasonCode _ r.actorHash
    ((lastOf p.events _ r.requestId).map _)
  rw [hlast]
  rfl

theorem transition_nextEvent (htenant : r.tenantId = identity.tenant.tenantId)
    (hregular : Regular g r) (occurredAt : String) :
    Transition g m (r.withEvent (nextEvent g m identity r eventType corr occurredAt))
      (nextEvent g m identity r eventType corr occurredAt) :=
  ⟨Prod.ext htenant.symm rfl, rfl, hregular.flag, hregular.named, hregular.bindable⟩

theorem makeEvent_bindable {tenantId subjectId caseRefHash occurredAt reasonCode actorHash : String}
    {previous : Option String} (hreason : bindable reasonCode = true)
    (hcorr : bindable corr = true) :
    (makeEvent g tenantId subjectId caseRefHash eventType occurredAt reasonCode corr actorHash
      previous).bindable = true :=
  Bool.and_eq_true_iff.mpr ⟨hreason, hcorr⟩

theorem nextEvent_bindable (hregular : Regular g r) (hcorr : bindable corr = true)
    (occurredAt : String) : (nextEvent g m identity r eventType corr occurredAt).bindable = true :=
  makeEvent_bindable hregular.bindable hcorr

/-- Where both calls get to in the same way, and the stores still mirror each other. -/
def Alongside (g : Digests) (isoformat : String → String) (unaltered : Prop) (m : MemoryStore)
    (a : Raises Reply × MemoryStore) (b : Raises Reply × PostgresStore δ) : Prop :=
  m.events <+: a.2.events ∧ (Distinct a.2.events →
    SameResult isoformat a.1 b.1 ∧ (unaltered → a.1 = b.1) ∧ Mirrors g a.2 b.2)

variable {unaltered : Prop}

theorem alongside_error (h : Mirrors g m p) (err : LifecycleError) :
    Alongside g isoformat unaltered m (.error err, m) (.error err, p) :=
  ⟨List.prefix_refl _, fun _ => ⟨rfl, fun _ => rfl, h⟩⟩

theorem alongside_matching {r' : DeletionRequest} {m' : MemoryStore} (h : Mirrors g m' p)
    (hinitial : m.events <+: m'.events) (hmatching : Matching isoformat unaltered r r') :
    Alongside g isoformat unaltered m (.ok (.request r), m') (.ok (.request r'), p) := by
  refine ⟨hinitial, fun _ => ⟨hmatching.1, fun hu => ?_, h⟩⟩
  rw [hmatching.2 hu]

theorem Alongside.after {m₀ : MemoryStore} {a : Raises Reply × MemoryStore}
    {b : Raises Reply × PostgresStore δ} (h : Alongside g isoformat unaltered m a b)
    (hinitial : m₀.events <+: m.events) : Alongside g isoformat unaltered m₀ a b :=
  ⟨hinitial.trans h.1, h.2⟩

/-- A transition is recorded on both sides, and the calls go on from there. -/
theorem record_alongside (h : Mirrors g m p) (htenant : r.tenantId = identity.tenant.tenantId)
    (hregular : Regular g r) (hcorr : bindable corr = true) {t : String}
    (hread : ReadAs isoformat unaltered r t) (hnew : expected = none → t = r.requestedAt)
    (hknown : ∀ stored, m.request r.key = some stored → expected.isSome → stored.origin = r.origin)
    (hkept : ∀ e c, persistCheck (m.request r.key) (r.withEvent e) e expected = .ok (some c) →
      unaltered → c.readBack isoformat = c)
    {k : Reply → ServiceProc MemoryStore Reply} {k' : Reply → ServiceProc (PostgresStore δ) Reply}
    (hgrows : ∀ x c m', m'.events <+: ((k (.request x)).run c m').2.events)
    (hk : ∀ x x' m' p' c, m'.cases = m.cases → m'.holds = m.holds → m'.request r.key = some x →
      ((∃ e, x = r.withEvent e) ∨ m.request r.key = some x) → Matching isoformat unaltered x x' →
      Mirrors g m' p' →
      Alongside g isoformat unaltered m' ((k (.request x)).run c m') ((k' (.request x')).run c p'))
    (c : ℕ → String) : Alongside g isoformat unaltered m
      ((record g inMemory r eventType identity corr expected >>= k).run c m)
      ((record g (refusingPostgres isoformat δ) (r.requestedOn t) eventType identity corr expected >>=
        k').run c p) := by
  let e := nextEvent g m identity r eventType corr (c 0)
  have hevent := h.nextEvent hregular identity eventType corr t (c 0)
  have htransition : Transition g m (r.withEvent e) e := transition_nextEvent htenant hregular (c 0)
  have hpersist := persist_mirrors expected h htransition (t := t) hread hnew hknown (hkept e)
  have hsent := refusing_of_bindable (e := e) (nextEvent_bindable hregular hcorr (c 0))
    (PostgresStore.persistTransition isoformat ((r.withEvent e).requestedOn t) e expected) p
  rw [← hsent] at hpersist
  cases hm : MemoryStore.persistTransition (r.withEvent e) e expected m with
  | error err =>
    simp only [hm] at hpersist
    rw [record_run_error (e := e) rfl hm, record_run_error (e := e) hevent hpersist]
    exact alongside_error h err
  | ok result =>
    obtain ⟨reply, m'⟩ := result
    simp only [hm] at hpersist
    obtain ⟨x, rfl, hpersisted⟩ := hpersist
    rw [record_run_ok (e := e) rfl hm]
    by_cases hdistinct : Distinct m'.events
    · obtain ⟨x', p', hp, hmatching, hmirrors⟩ := hpersisted.same hdistinct
      rw [record_run_ok (e := e) hevent hp]
      exact (hk x x' m' p' _ hpersisted.cases hpersisted.holds hpersisted.stored
        (hpersisted.kept.imp (fun hx => ⟨e, hx⟩) id) hmatching hmirrors).after hpersisted.log
    · -- the id of the event was recorded before: PostgreSQL refuses it
      have hinitial := hgrows x (fun n => c (n + 1)) m'
      exact ⟨hpersisted.log.trans hinitial, fun hd => absurd (hd.of_prefix hinitial) hdistinct⟩

theorem record_pure {σ : Type} (repo : LifecycleRepository σ) :
    record g repo r eventType identity corr expected >>= pure =
      record g repo r eventType identity corr expected := by
  change Proc.read _ = Proc.read _
  congr 1
  funext s
  change Proc.clock _ = Proc.clock _
  congr 1
  funext t
  change Proc.write _ _ = Proc.write _ _
  congr 1
  funext result
  cases result <;> rfl

/-- A transition is recorded on both sides, and the calls return. -/
theorem record_alongside_last (h : Mirrors g m p) (htenant : r.tenantId = identity.tenant.tenantId)
    (hregular : Regular g r) (hcorr : bindable corr = true) {t : String}
    (hread : ReadAs isoformat unaltered r t) (hnew : expected = none → t = r.requestedAt)
    (hknown : ∀ stored, m.request r.key = some stored → expected.isSome → stored.origin = r.origin)
    (hkept : ∀ e c, persistCheck (m.request r.key) (r.withEvent e) e expected = .ok (some c) →
      unaltered → c.readBack isoformat = c)
    (c : ℕ → String) : Alongside g isoformat unaltered m
      ((record g inMemory r eventType identity corr expected).run c m)
      ((record g (refusingPostgres isoformat δ) (r.requestedOn t) eventType identity corr expected).run
        c p) := by
  rw [← record_pure inMemory, ← record_pure (refusingPostgres isoformat δ)]
  refine record_alongside h htenant hregular hcorr hread hnew hknown hkept ?_ ?_ c
  · intro x c' m'
    exact List.prefix_refl _
  · intro x x' m' p' c' _ _ _ _ hmatching hmirrors
    exact alongside_matching hmirrors (List.prefix_refl _) hmatching

/-! ## The calls -/

theorem record_log (c : ℕ → String) (m : MemoryStore) :
    m.events <+: ((record g inMemory r eventType identity corr expected).run c m).2.events := by
  rw [← record_pure inMemory]
  let e := nextEvent g m identity r eventType corr (c 0)
  cases hm : MemoryStore.persistTransition (r.withEvent e) e expected m with
  | error err =>
    have hrun : ((record g inMemory r eventType identity corr expected >>= pure).run c m).2 = m := by
      rw [record_run_error (e := e) rfl hm]
    exact (congrArg MemoryStore.events hrun) ▸ List.prefix_refl m.events
  | ok result =>
    rw [record_run_ok (e := e) rfl hm]
    change m.events <+: result.2.events
    rcases memory_laws.persist _ _ _ _ _ _ hm with ⟨he, -⟩ | ⟨-, -, hstores, -⟩
    · exact he ▸ List.prefix_refl _
    · have hlog : result.2.events = m.events ++ [e] := hstores.logged
      rw [hlog]
      exact List.prefix_append _ _

/-- The completion of a request, with its event. -/
def completion (r : DeletionRequest) (completedAt : String) : DeletionRequest :=
  r.withStatus .completed false (some completedAt) true

theorem finishDeletion_run {σ : Type} (repo : LifecycleRepository σ) (r : DeletionRequest)
    (identity : Identity) (corr : String) (c : ℕ → String) (s : σ) {e : LifecycleEvent}
    (he : e = makeEvent g identity.tenant.tenantId r.requestId r.caseRefHash "data.deletion-completed"
      (c 1) r.reasonCode corr r.actorHash
      ((repo.lastEvent identity.tenant r.requestId s).map LifecycleEvent.eventHash)) :
    (finishDeletion g repo r identity corr).run c s =
      match repo.completeDeletion ((completion r (c 0)).withEvent e) e s with
      | .ok (x, s') => (.ok x, s')
      | .error err =>
        (settleDeletion g repo r identity corr (.error err)).run (fun n => c (n + 2)) s := by
  subst he
  unfold finishDeletion
  rw [Proc.run_now_bind]
  dsimp only
  rw [event_run]
  cases hw : repo.completeDeletion _ _ s with
  | ok result => exact Proc.run_attempt_ok hw _ _
  | error err => exact Proc.run_attempt_error hw _ _

theorem finishDeletion_log (c : ℕ → String) (m : MemoryStore) :
    m.events <+: ((finishDeletion g inMemory r identity corr).run c m).2.events := by
  rw [finishDeletion_run inMemory r identity corr c m
    (e := nextEvent g m identity r "data.deletion-completed" corr (c 1)) rfl]
  cases hm : inMemory.completeDeletion _ _ m with
  | ok result =>
    change m.events <+: result.2.events
    rcases memory_laws.complete _ _ _ _ _ hm with he | ⟨-, -, -, -, -, -, hstores, -⟩
    · exact he ▸ List.prefix_refl _
    · have hlog : result.2.events = m.events ++ [_] := hstores.logged
      rw [hlog]
      exact List.prefix_append _ _
  | error err =>
    cases err with
    | legalHoldActive => exact record_log _ m
    | _ => exact List.prefix_refl _

/-- Both calls handle the rejection of a completion in the same way. -/
theorem settleDeletion_alongside (h : Mirrors g m p) (htenant : r.tenantId = identity.tenant.tenantId)
    (hregular : Regular g r) (hcorr : bindable corr = true) (hstored : m.request r.key = some r)
    (hkept : unaltered → r.readBack isoformat = r) {t : String}
    (hread : ReadAs isoformat unaltered r t) (completedAt : Option String)
    (err : LifecycleError) (c : ℕ → String) : Alongside g isoformat unaltered m
      ((settleDeletion g inMemory r identity corr (.error err)).run c m)
      ((settleDeletion g (refusingPostgres isoformat δ)
        { r with requestedAt := t, completedAt := completedAt } identity corr
        (.error err)).run c p) := by
  cases err with
  | legalHoldActive =>
    refine record_alongside_last (r := r.withStatus .blockedByHold true none false) (t := t) h htenant
      ⟨rfl, hregular.named, hregular.bindable⟩ hcorr hread ?_ (fun stored hs _ => ?_)
      (fun e x hx => ?_) c
    · exact nofun
    · rw [DeletionRequest.withStatus_key, hstored] at hs
      cases hs
      rfl
    · have hcurrent := persistCheck_some hx
      rw [DeletionRequest.withStatus_key, hstored] at hcurrent
      cases hcurrent
      exact hkept
  | _ => exact alongside_error h _

theorem finishDeletion_alongside (h : Mirrors g m p) (htenant : r.tenantId = identity.tenant.tenantId)
    (hcorr : bindable corr = true) (hstored : m.request r.key = some r)
    (hkept : unaltered → r.readBack isoformat = r) {r' : DeletionRequest}
    (hmatching : Matching isoformat unaltered r r')
    (hcase : ∀ d, r.decisionId = some d → (r.tenantId, d) ∉ m.holds → (r.tenantId, d) ∈ m.cases)
    (c : ℕ → String) : Alongside g isoformat unaltered m
      ((finishDeletion g inMemory r identity corr).run c m)
      ((finishDeletion g (refusingPostgres isoformat δ) r' identity corr).run c p) := by
  have hregular := h.requests.regular r (mem_of_lookup hstored)
  have hread := hmatching.readAs
  rw [hmatching.1.eq]
  generalize r'.requestedAt = t at hread
  generalize r'.completedAt = completedAt
  obtain ⟨e, he⟩ : ∃ e, e = nextEvent g m identity r "data.deletion-completed" corr (c 1) := ⟨_, rfl⟩
  have hregular' : Regular g (completion r (c 0)) := ⟨rfl, hregular.named, hregular.bindable⟩
  have htransition : Transition g m ((completion r (c 0)).withEvent e) e := by
    subst he
    exact transition_nextEvent (r := completion r (c 0)) htenant hregular' (c 1)
  have hevent := he.trans (h.nextEvent hregular identity "data.deletion-completed" corr t (c 1))
  rw [finishDeletion_run inMemory r identity corr c m he, finishDeletion_run
    (refusingPostgres isoformat δ) { r with requestedAt := t, completedAt := completedAt } identity
    corr c p hevent]
  have hbindable : e.bindable = true := he ▸ nextEvent_bindable hregular hcorr (c 1)
  have hcomplete := complete_mirrors h htransition hread hstored rfl hkept hcase
  have hsent := refusing_of_bindable hbindable (PostgresStore.completeDeletion isoformat
    (((completion r (c 0)).withEvent e).requestedOn t) e) p
  rw [← hsent] at hcomplete
  cases hm : MemoryStore.completeDeletion ((completion r (c 0)).withEvent e) e m with
  | error err =>
    simp only [hm] at hcomplete
    have hmemory : inMemory.completeDeletion ((completion r (c 0)).withEvent e) e m = .error err := hm
    have hpostgres : (refusingPostgres isoformat δ).completeDeletion
        ((completion { r with requestedAt := t, completedAt := completedAt } (c 0)).withEvent e) e p =
          .error err := hcomplete
    rw [hmemory, hpostgres]
    exact settleDeletion_alongside h htenant hregular hcorr hstored hkept hread completedAt err _
  | ok result =>
    obtain ⟨reply, m'⟩ := result
    simp only [hm] at hcomplete
    obtain ⟨hlog, x, rfl, hsame⟩ := hcomplete
    have hmemory : inMemory.completeDeletion ((completion r (c 0)).withEvent e) e m =
      .ok (.request x, m') := hm
    rw [hmemory]
    refine ⟨hlog, fun hdistinct => ?_⟩
    obtain ⟨x', p', hp, hmatching', hmirrors⟩ := hsame hdistinct
    have hpostgres : (refusingPostgres isoformat δ).completeDeletion
        ((completion { r with requestedAt := t, completedAt := completedAt } (c 0)).withEvent e) e p =
          .ok (.request x', p') := hp
    rw [hpostgres]
    exact (alongside_matching hmirrors hlog hmatching').2 hdistinct

/-- A request that is stored under its key is the one found there, whatever status it is given. -/
theorem origin_of_stored {stored : DeletionRequest} {status : DeletionStatus} {held : Bool}
    (hself : m.request r.key = some r)
    (hstored : m.request (r.withStatus status held none false).key = some stored) :
    stored.origin = (r.withStatus status held none false).origin := by
  rw [DeletionRequest.withStatus_key, hself] at hstored
  cases hstored
  rfl

theorem readBack_of_found {current : DeletionRequest} {status : DeletionStatus} {held : Bool}
    (hself : m.request r.key = some r) (hkept : unaltered → r.readBack isoformat = r)
    (hfound : persistCheck (m.request (r.withStatus status held none false).key)
      ((r.withStatus status held none false).withEvent e) e (some r.status) = .ok (some current)) :
    unaltered → current.readBack isoformat = current := by
  have hcurrent := persistCheck_some hfound
  rw [DeletionRequest.withStatus_key, hself] at hcurrent
  cases hcurrent
  exact hkept

/-- What is known of the request that stands once one of them is executing. -/
theorem executing_written {x : DeletionRequest} (hself : m.request r.key = some r)
    (hkept : unaltered → r.readBack isoformat = r)
    (hwritten : (∃ e, x = (r.withStatus .executing false none false).withEvent e) ∨
      m.request (r.withStatus .executing false none false).key = some x) :
    x.decisionId = r.decisionId ∧ (unaltered → x.readBack isoformat = x) := by
  rcases hwritten with ⟨e, rfl⟩ | hcurrent
  · refine ⟨rfl, fun hu => ?_⟩
    have htime : isoformat r.requestedAt = r.requestedAt :=
      congrArg DeletionRequest.requestedAt (hkept hu)
    -- executing, it has no completion yet
    simp only [DeletionRequest.readBack, DeletionRequest.withEvent, DeletionRequest.withStatus,
      htime, Option.map_none]
  · rw [DeletionRequest.withStatus_key, hself] at hcurrent
    cases hcurrent
    exact ⟨rfl, hkept⟩

theorem executeDeletion_alongside (h : Mirrors g m p) {requestId : String}
    (hcase : ¬ Orphaned m (.executeDeletion identity requestId corr))
    (htexts : LifecycleCall.Bindable (.executeDeletion identity requestId corr))
    (hreads : unaltered → LifecycleCall.Unaltered g isoformat m
      (.executeDeletion identity requestId corr)) (c : ℕ → String) :
    Alongside g isoformat unaltered m ((executeDeletion g inMemory identity requestId corr).run c m)
      ((executeDeletion g (refusingPostgres isoformat δ) identity requestId corr).run c p) := by
  unfold executeDeletion
  by_cases hauth : identity.authorized .dataDelete = true
  · have hcorr : bindable corr = true := htexts hauth corr (by simp [LifecycleCall.texts])
    have hread : (refusingPostgres isoformat δ).getRequest identity.tenant requestId p =
        (inMemory.getRequest identity.tenant requestId m).map (DeletionRequest.readBack isoformat) :=
      h.request _
    simp only [hauth, Bool.not_true, Bool.false_eq_true, if_false, Proc.run_get_bind, hread]
    cases hrequest : inMemory.getRequest identity.tenant requestId m with
    | none => exact alongside_error h _
    | some request =>
      have hstored : m.request (identity.tenant.tenantId, requestId) = some request := hrequest
      have hkey := key_of_lookup hstored
      have hself : m.request request.key = some request := hkey ▸ hstored
      have htenant : request.tenantId = identity.tenant.tenantId := congrArg Prod.fst hkey
      have hregular := h.requests.regular request (mem_of_lookup hstored)
      have hkept : unaltered → request.readBack isoformat = request := by
        refine fun hu => hreads hu request ?_
        simp only [LifecycleCall.reads, hauth, if_true, hstored, Option.mem_def]
      have htime : unaltered → isoformat request.requestedAt = request.requestedAt :=
        fun hu => congrArg DeletionRequest.requestedAt (hkept hu)
      have hstatus : (request.readBack isoformat).status = request.status := rfl
      have hdecision : (request.readBack isoformat).decisionId = request.decisionId := rfl
      simp only [Option.map_some, hstatus, hdecision]
      by_cases hdone : request.status = .completed
      · simp only [hdone, if_true]
        exact alongside_matching h (List.prefix_refl _) (Matching.readBack hkept)
      · simp only [hdone, if_false]
        cases hd : request.decisionId with
        | none => exact alongside_error h _
        | some decisionId =>
          have hheld : (refusingPostgres isoformat δ).activeHold identity.tenant decisionId p =
            inMemory.activeHold identity.tenant decisionId m := h.holds _ _
          simp only [Proc.run_get_bind, hheld]
          cases hhold : inMemory.activeHold identity.tenant decisionId m with
          | true =>
            simp only [if_true]
            refine record_alongside_last (r := request.withStatus .blockedByHold true none false)
              (t := isoformat request.requestedAt) h htenant
              ⟨rfl, hregular.named, hregular.bindable⟩ hcorr (readAs_isoformat htime) ?_
              (fun _ hs _ => origin_of_stored hself hs) (fun _ _ => readBack_of_found hself hkept) c
            exact nofun
          | false =>
            simp only [Bool.false_eq_true, if_false]
            refine record_alongside (r := request.withStatus .executing false none false)
              (t := isoformat request.requestedAt) h htenant
              ⟨rfl, hregular.named, hregular.bindable⟩ hcorr (readAs_isoformat htime) ?_
              (fun _ hs _ => origin_of_stored hself hs) (fun _ _ => readBack_of_found hself hkept)
              ?_ ?_ c
            · exact nofun
            · intro x c' m'
              exact finishDeletion_log c' m'
            · intro x x' m' p' c' hcases hholds hx hwritten hmatching hmirrors
              have hkeyx : x.key = request.key := key_of_lookup hx
              have htenantx : x.tenantId = identity.tenant.tenantId :=
                (congrArg Prod.fst hkeyx).trans htenant
              obtain ⟨hdx, hkeptx⟩ := executing_written hself hkept hwritten
              refine finishDeletion_alongside hmirrors htenantx hcorr (hkeyx ▸ hx) hkeptx hmatching
                ?_ c'
              intro d hdecision hfree
              rw [hdx, hd] at hdecision
              cases hdecision
              rw [htenantx, hholds] at hfree
              rw [htenantx, hcases]
              by_contra hgone
              exact hcase ⟨hauth, request, decisionId, hstored, hdone, hd, hfree, hgone⟩
  · simp only [Bool.not_eq_true] at hauth
    simp only [hauth, Bool.not_false, if_true]
    exact alongside_error h _

/-- Only a request with the same hashes is taken for the one that a call makes. -/
theorem persistCheck_same {current : Option DeletionRequest} {c : DeletionRequest}
    (h : persistCheck current r e none = .ok (some c)) : sameRequest c r = true := by
  unfold persistCheck at h
  cases current with
  | none =>
    dsimp only at h
    split_ifs at h
    cases h
  | some current =>
    dsimp only at h
    split_ifs at h with hsame
    cases h
    exact hsame

theorem requestDeletion_alongside (h : Mirrors g m p)
    {decisionId reasonCode idempotencyKey : String}
    (htexts : LifecycleCall.Bindable
      (.requestDeletion identity decisionId reasonCode idempotencyKey corr))
    (hreads : unaltered → LifecycleCall.Unaltered g isoformat m
      (.requestDeletion identity decisionId reasonCode idempotencyKey corr))
    (c : ℕ → String) : Alongside g isoformat unaltered m
      ((requestDeletion g inMemory identity decisionId reasonCode idempotencyKey corr).run c m)
      ((requestDeletion g (refusingPostgres isoformat δ) identity decisionId reasonCode idempotencyKey
        corr).run c p) := by
  unfold requestDeletion
  by_cases hauth : identity.authorized .dataDelete = true
  · have hcorr : bindable corr = true := htexts hauth corr (by simp [LifecycleCall.texts])
    have hreason : bindable reasonCode = true :=
      htexts hauth reasonCode (by simp [LifecycleCall.texts])
    have hread : ∀ actorHash keyHash,
        (refusingPostgres isoformat δ).getByIdempotency identity.tenant actorHash keyHash p =
          (inMemory.getByIdempotency identity.tenant actorHash keyHash m).map
            (DeletionRequest.readBack isoformat) := h.getByIdempotency identity.tenant
    simp only [hauth, Bool.not_true, Bool.false_eq_true, if_false, Proc.run_get_bind, hread]
    cases hreplay : inMemory.getByIdempotency identity.tenant _ _ m with
    | some replay =>
      have hcase : (replay.readBack isoformat).caseRefHash = replay.caseRefHash := rfl
      have hreason : (replay.readBack isoformat).reasonCode = replay.reasonCode := rfl
      simp only [Option.map_some, hcase, hreason]
      split_ifs with hreused
      · exact alongside_error h _
      · refine alongside_matching h (List.prefix_refl _) (Matching.readBack fun hu => ?_)
        refine hreads hu replay ?_
        push Not at hreused
        simp only [LifecycleCall.reads, hauth, if_true, replayed, hreplay, Option.mem_def,
          Option.filter_some, hreused, decide_true, Bool.and_self]
    | none =>
      have hfound : (refusingPostgres isoformat δ).caseExists identity.tenant decisionId p =
        inMemory.caseExists identity.tenant decisionId m := h.cases _ _
      simp only [Option.map_none, Proc.run_get_bind, hfound]
      cases inMemory.caseExists identity.tenant decisionId m with
      | false => exact alongside_error h _
      | true =>
        have hheld : (refusingPostgres isoformat δ).activeHold identity.tenant decisionId p =
          inMemory.activeHold identity.tenant decisionId m := h.holds _ _
        simp only [Bool.not_true, Bool.false_eq_true, if_false, Proc.run_now_bind, Proc.run_get_bind,
          hheld]
        refine record_alongside_last (t := c 0) h rfl ⟨?_, rfl, ?_⟩ hcorr
          ⟨.inl rfl, fun _ => rfl⟩ ?_ ?_ (fun e x hx => ?_) _
        · cases inMemory.activeHold identity.tenant decisionId m <;> rfl
        · exact hreason
        · exact fun _ => rfl
        · exact nofun
        · -- a request with these hashes would have been found as a replay
          have hkey := key_of_lookup (persistCheck_some hx)
          have hsame := persistCheck_same hx
          rw [h.findReplay, List.find?_eq_none] at hreplay
          refine absurd ?_ (hreplay x (mem_of_lookup (persistCheck_some hx)))
          simp only [sameRequest, Bool.and_eq_true, decide_eq_true_eq] at hsame
          simp only [Bool.and_eq_true, decide_eq_true_eq]
          exact ⟨⟨congrArg Prod.fst hkey, hsame.1.1.2⟩, hsame.1.2⟩
  · simp only [Bool.not_eq_true] at hauth
    simp only [hauth, Bool.not_false, if_true]
    exact alongside_error h _

end Recording

/-! ## Holds -/

section Holds

variable {identity : Identity} {corr : String} {unaltered : Prop}

/-- The rest of the stores when an event of a hold is logged. -/
theorem Mirrors.hold (h : Mirrors g m p) {tenant : TenantContext} {decisionId : String}
    (hkey : eventKey e = holdKey g tenant decisionId) {holds : List (String × String)}
    {rows : List HoldRow} (hholds : ∀ t d, (rows.any fun row => row.tenantId = t &&
      row.decisionId = d && row.active) = decide ((t, d) ∈ holds)) :
    Mirrors g { m with holds := holds, events := m.events ++ [e] }
      { p with holds := rows, holdEvents := p.holdEvents ++ [e] } := by
  have hevent : isRequestEvent e = false := by
    unfold isRequestEvent
    rw [show e.requestId = (holdKey g tenant decisionId).2 from congrArg Prod.snd hkey]
    exact holdKey_not_deletion tenant decisionId
  refine ⟨h.cases, hholds, h.requests, ?_, ?_⟩
  · rw [h.events, List.filter_append, List.filter_singleton, hevent]
    simp
  · rw [h.holdEvents, List.filter_append, List.filter_singleton, hevent]
    rfl

theorem Mirrors.appendHoldEvent (h : Mirrors g m p) {tenant : TenantContext} {decisionId : String}
    (hkey : eventKey e = holdKey g tenant decisionId) (hdistinct : Distinct (m.events ++ [e]))
    {s : PostgresStore δ} (hs : s.holdEvents = p.holdEvents) :
    s.appendHoldEvent e = .ok { s with holdEvents := p.holdEvents ++ [e] } := by
  have hevent : isRequestEvent e = false := by
    unfold isRequestEvent
    rw [show e.requestId = (holdKey g tenant decisionId).2 from congrArg Prod.snd hkey]
    exact holdKey_not_deletion tenant decisionId
  have hfresh := h.unrecorded_hold hevent hdistinct
  unfold PostgresStore.appendHoldEvent
  rw [hs, hfresh]
  rfl

theorem Mirrors.lastHoldEvent (h : Mirrors g m p) (tenant : TenantContext) (decisionId : String) :
    lastOf p.holdEvents tenant.tenantId (holdIdOf g tenant decisionId) =
      lastOf m.events tenant.tenantId (holdIdOf g tenant decisionId) :=
  congrArg List.getLast? (h.holdChain (holdKey_not_deletion tenant decisionId))

theorem holdEvent_run {σ : Type} {repo : LifecycleRepository σ}
    {decisionId holdId eventType reasonCode : String} (k : LifecycleEvent → ServiceProc σ Reply)
    (c : ℕ → String) (s : σ) :
    (holdEvent g repo identity decisionId holdId eventType reasonCode corr >>= k).run c s =
      (k (makeEvent g identity.tenant.tenantId holdId
        (g.digest "case" identity.tenant.tenantId decisionId) eventType (c 0) reasonCode corr
        (g.digest "actor" identity.tenant.tenantId identity.actorId)
        ((repo.lastHoldEvent identity.tenant holdId s).map
          LifecycleEvent.eventHash))).run (fun n => c (n + 1)) s := rfl

theorem commit_run {σ : Type} {w : σ → Raises (Reply × σ)} (c : ℕ → String) (s : σ) :
    (Proc.commit w : ServiceProc σ Reply).run c s =
      match w s with
      | .ok (x, s') => (.ok x, s')
      | .error err => (.error err, s) := by
  unfold Proc.commit Proc.run
  cases w s with
  | ok result => rfl
  | error err => rfl

omit [CaseTables δ] in
/-- Activating the hold of a case. -/
theorem held_upsert (h : ∀ t d, p.held t d = decide ((t, d) ∈ m.holds)) (row : HoldRow)
    (hactive : row.active = true) (t d : String) :
    ((upsert HoldRow.key row p.holds).any fun row => row.tenantId = t && row.decisionId = d &&
      row.active) = decide ((t, d) ∈ m.holds ++ [(row.tenantId, row.decisionId)]) := by
  have hbefore := h t d
  rw [Bool.eq_iff_iff] at hbefore ⊢
  unfold PostgresStore.held at hbefore
  simp only [List.any_eq_true, decide_eq_true_eq, List.mem_append, List.mem_singleton] at hbefore ⊢
  rw [← hbefore]
  constructor
  · rintro ⟨x, hx, hsame⟩
    rcases mem_upsert hx with rfl | hx
    · simp only [Bool.and_eq_true, decide_eq_true_eq] at hsame
      exact .inr (Prod.ext hsame.1.1.symm hsame.1.2.symm)
    · exact .inl ⟨x, hx, hsame⟩
  · have hrow : row ∈ upsert HoldRow.key row p.holds := by
      have hlookup : lookup HoldRow.key row.key (upsert HoldRow.key row p.holds) = _ :=
        lookup_upsert row p.holds row.key
      rw [if_pos rfl] at hlookup
      exact mem_of_lookup hlookup
    rintro (⟨x, hx, hsame⟩ | hnew)
    · by_cases hkey : x.key = row.key
      · simp only [Bool.and_eq_true, decide_eq_true_eq] at hsame
        obtain ⟨htenant, hrest⟩ := Prod.mk.inj hkey
        have hdecision := (Prod.mk.inj hrest).1
        exact ⟨row, hrow, by simp [← htenant, ← hdecision, hsame.1.1, hsame.1.2, hactive]⟩
      · refine ⟨x, ?_, hsame⟩
        unfold upsert
        split_ifs
        · rw [mem_updateWhere]
          exact ⟨x, hx, if_neg (by simpa only [decide_eq_true_eq] using hkey)⟩
        · exact List.mem_append_left _ hx
    · obtain ⟨rfl, rfl⟩ := Prod.mk.inj hnew
      exact ⟨row, hrow, by simp [hactive]⟩

omit [CaseTables δ] in
/-- Releasing the hold of a case. -/
theorem held_release (h : ∀ t d, p.held t d = decide ((t, d) ∈ m.holds)) (tenantId decisionId : String)
    (actorHash occurredAt : Option String) (t d : String) :
    ((updateWhere (fun row => row.tenantId = tenantId && row.decisionId = decisionId && row.active)
      (fun row => { row with
        active := false
        releasedByActorHash := actorHash
        releasedAt := occurredAt }) p.holds).any fun row => row.tenantId = t &&
          row.decisionId = d && row.active) =
      decide ((t, d) ∈ m.holds.filter fun k => k ≠ (tenantId, decisionId)) := by
  have hbefore := h t d
  rw [Bool.eq_iff_iff] at hbefore ⊢
  unfold PostgresStore.held at hbefore
  simp only [List.any_eq_true, decide_eq_true_eq, List.mem_filter, ne_eq, decide_not,
    Bool.not_eq_true', decide_eq_false_iff_not] at hbefore ⊢
  rw [← hbefore]
  constructor
  · rintro ⟨x, hx, hsame⟩
    obtain ⟨x₀, hx₀, rfl⟩ := mem_updateWhere.mp hx
    split_ifs at hsame with hreleased
    · simp only [Bool.and_false, Bool.false_eq_true] at hsame
    · refine ⟨⟨x₀, hx₀, hsame⟩, ?_⟩
      simp only [Bool.and_eq_true, decide_eq_true_eq] at hsame hreleased
      rintro hcase
      obtain ⟨rfl, rfl⟩ := Prod.mk.inj hcase
      exact hreleased hsame
  · rintro ⟨⟨x, hx, hsame⟩, hother⟩
    refine ⟨x, mem_updateWhere.mpr ⟨x, hx, if_neg ?_⟩, hsame⟩
    simp only [Bool.and_eq_true, decide_eq_true_eq] at hsame ⊢
    rintro ⟨⟨htenant, hdecision⟩, -⟩
    exact hother (Prod.ext (hsame.1.1.symm.trans htenant) (hsame.1.2.symm.trans hdecision))

/-- Both repositories check an event of a hold against the same tip. -/
theorem Mirrors.holdTip (h : Mirrors g m p) {tenant : TenantContext} {decisionId : String}
    (hkey : eventKey e = holdKey g tenant decisionId) : p.holdTip e = m.holdTip tenant e := by
  obtain ⟨htenant, hid⟩ := Prod.mk.inj hkey
  unfold PostgresStore.holdTip MemoryStore.holdTip
  rw [htenant, hid, h.lastHoldEvent]

theorem setHold_alongside (h : Mirrors g m p) {tenant : TenantContext} {decisionId : String}
    (hkey : eventKey e = holdKey g tenant decisionId) (hcase : (tenant.tenantId, decisionId) ∈ m.cases)
    (hevent : e.bindable = true) (actorHash reasonCode occurredAt : String) (c : ℕ → String) :
    Alongside g isoformat unaltered m
      ((Proc.commit (inMemory.setHold tenant decisionId (holdIdOf g tenant decisionId) actorHash
        reasonCode occurredAt e)).run c m)
      ((Proc.commit ((refusingPostgres isoformat δ).setHold tenant decisionId
        (holdIdOf g tenant decisionId) actorHash reasonCode occurredAt e)).run c p) := by
  have hheld : p.held tenant.tenantId decisionId = decide ((tenant.tenantId, decisionId) ∈ m.holds) :=
    h.holds _ _
  have hfound : CaseTables.hasCase p.tables tenant.tenantId decisionId = true := by
    rw [h.cases]
    exact decide_eq_true hcase
  simp only [commit_run, inMemory, refusingPostgres, refusing_of_bindable hevent, postgres,
    MemoryStore.setHold, PostgresStore.setHold, hheld, h.holdTip hkey, hfound, Bool.not_true,
    Bool.and_false, Bool.false_eq_true, if_false, decide_eq_true_eq]
  by_cases hactive : (tenant.tenantId, decisionId) ∈ m.holds
  · simp only [if_pos hactive]
    exact ⟨List.prefix_refl _, fun _ => ⟨rfl, fun _ => rfl, h⟩⟩
  · simp only [if_neg hactive]
    by_cases htip : (!m.holdTip tenant e) = true
    · simp only [if_pos htip]
      exact alongside_error h _
    · simp only [if_neg htip]
      refine ⟨List.prefix_append _ _, fun hdistinct => ?_⟩
      rw [h.appendHoldEvent hkey hdistinct]
      · exact ⟨rfl, fun _ => rfl, h.hold hkey (held_upsert h.holds _ rfl)⟩
      · rfl

theorem releaseHold_alongside (h : Mirrors g m p) {tenant : TenantContext} {decisionId : String}
    (hkey : eventKey e = holdKey g tenant decisionId) (hevent : e.bindable = true)
    (actorHash occurredAt : String) (c : ℕ → String) : Alongside g isoformat unaltered m
      ((Proc.commit (inMemory.releaseHold tenant decisionId actorHash occurredAt e)).run c m)
      ((Proc.commit ((refusingPostgres isoformat δ).releaseHold tenant decisionId actorHash occurredAt
        e)).run c p) := by
  have hheld : p.held tenant.tenantId decisionId = decide ((tenant.tenantId, decisionId) ∈ m.holds) :=
    h.holds _ _
  simp only [commit_run, inMemory, refusingPostgres, refusing_of_bindable hevent, postgres,
    MemoryStore.releaseHold, PostgresStore.releaseHold, hheld, h.holdTip hkey, Bool.not_eq_true',
    decide_eq_false_iff_not]
  by_cases hactive : (tenant.tenantId, decisionId) ∉ m.holds
  · simp only [if_pos hactive]
    exact ⟨List.prefix_refl _, fun _ => ⟨rfl, fun _ => rfl, h⟩⟩
  · simp only [if_neg hactive]
    by_cases htip : m.holdTip tenant e = false
    · simp only [if_pos htip]
      exact alongside_error h _
    · simp only [if_neg htip]
      refine ⟨List.prefix_append _ _, fun hdistinct => ?_⟩
      rw [h.appendHoldEvent hkey hdistinct]
      · exact ⟨rfl, fun _ => rfl, h.hold hkey (held_release h.holds _ _ _ _)⟩
      · rfl

theorem placeLegalHold_alongside (h : Mirrors g m p) {decisionId reasonCode : String}
    (htexts : LifecycleCall.Bindable (.placeLegalHold identity decisionId reasonCode corr))
    (c : ℕ → String) : Alongside g isoformat unaltered m
      ((placeLegalHold g inMemory identity decisionId reasonCode corr).run c m)
      ((placeLegalHold g (refusingPostgres isoformat δ) identity decisionId reasonCode corr).run
        c p) := by
  unfold placeLegalHold
  by_cases hauth : identity.authorized .legalHoldManage = true
  · have hcorr : bindable corr = true := htexts hauth corr (by simp [LifecycleCall.texts])
    have hreason : bindable reasonCode = true :=
      htexts hauth reasonCode (by simp [LifecycleCall.texts])
    have hfound : (refusingPostgres isoformat δ).caseExists identity.tenant decisionId p =
      inMemory.caseExists identity.tenant decisionId m := h.cases _ _
    simp only [hauth, Bool.not_true, Bool.false_eq_true, if_false, Proc.run_get_bind, hfound]
    cases hcase : inMemory.caseExists identity.tenant decisionId m with
    | false => exact alongside_error h _
    | true =>
      have hlast : (refusingPostgres isoformat δ).lastHoldEvent identity.tenant
          (holdIdOf g identity.tenant decisionId) p =
          inMemory.lastHoldEvent identity.tenant (holdIdOf g identity.tenant decisionId) m :=
        h.lastHoldEvent identity.tenant decisionId
      simp only [Bool.not_true, Bool.false_eq_true, if_false, holdEvent_run, hlast]
      exact setHold_alongside h rfl (of_decide_eq_true hcase) (makeEvent_bindable hreason hcorr)
        _ _ _ _
  · simp only [Bool.not_eq_true] at hauth
    simp only [hauth, Bool.not_false, if_true]
    exact alongside_error h _

theorem releaseLegalHold_alongside (h : Mirrors g m p) {decisionId : String}
    (htexts : LifecycleCall.Bindable (.releaseLegalHold identity decisionId corr)) (c : ℕ → String) :
    Alongside g isoformat unaltered m ((releaseLegalHold g inMemory identity decisionId corr).run c m)
      ((releaseLegalHold g (refusingPostgres isoformat δ) identity decisionId corr).run c p) := by
  unfold releaseLegalHold
  by_cases hauth : identity.authorized .legalHoldManage = true
  · have hcorr : bindable corr = true := htexts hauth corr (by simp [LifecycleCall.texts])
    have hlast : (refusingPostgres isoformat δ).lastHoldEvent identity.tenant
        (holdIdOf g identity.tenant decisionId) p =
        inMemory.lastHoldEvent identity.tenant (holdIdOf g identity.tenant decisionId) m :=
      h.lastHoldEvent identity.tenant decisionId
    simp only [hauth, Bool.not_true, Bool.false_eq_true, if_false, holdEvent_run, hlast]
    have hreason : bindable "LEGAL_HOLD_RELEASED" = true := by decide
    exact releaseHold_alongside h rfl (makeEvent_bindable hreason hcorr) _ _ _
  · simp only [Bool.not_eq_true] at hauth
    simp only [hauth, Bool.not_false, if_true]
    exact alongside_error h _

end Holds

theorem LifecycleCall.sends_texts {σ : Type} {repo : LifecycleRepository σ} {s : σ}
    {call : LifecycleCall} {text : String} (h : call.sends g repo s = some text) :
    text ∈ call.texts := by
  cases call with
  | requestDeletion identity decisionId reasonCode idempotencyKey correlationId =>
    simp only [LifecycleCall.sends] at h
    split_ifs at h
    cases h
    exact List.mem_cons_self
  | executeDeletion identity requestId correlationId =>
    cases h
    exact List.mem_cons_self
  | placeLegalHold identity decisionId reasonCode correlationId =>
    cases h
    exact List.mem_cons_self
  | releaseLegalHold identity decisionId correlationId =>
    cases h
    exact List.mem_cons_self

/-- One call on both sides. -/
theorem answer_alongside (isoformat : String → String) (h : Mirrors g m p) (call : TimedCall)
    (hcase : ¬ Orphaned m call.1) (htexts : call.1.Bindable) :
    Alongside g isoformat (call.1.Unaltered g isoformat m) m (answer g inMemory m call)
      (answerPostgres g isoformat p call) := by
  obtain ⟨call, c⟩ := call
  have hsent : (call.authorized && !(call.sends g (postgres isoformat δ) p).all bindable) = false := by
    rw [Bool.and_eq_false_iff, Bool.not_eq_false', or_iff_not_imp_left, Bool.not_eq_false]
    intro hauth
    rw [Option.all_eq_true]
    exact fun text htext => htexts hauth text (LifecycleCall.sends_texts htext)
  unfold answerPostgres
  rw [hsent]
  cases call with
  | requestDeletion => exact requestDeletion_alongside h htexts id c
  | executeDeletion => exact executeDeletion_alongside h hcase htexts id c
  | placeLegalHold => exact placeLegalHold_alongside h htexts c
  | releaseLegalHold => exact releaseLegalHold_alongside h htexts c

/-! ## Sequences of calls -/

/-- No call executes an open request whose case is gone, no text has a NUL and no event id
repeats. -/
def Undivided (g : Digests) (m : MemoryStore) : List TimedCall → Prop
  | [] => True
  | call :: calls => ¬ Orphaned m call.1 ∧ call.1.Bindable ∧
      Distinct (answer g inMemory m call).2.events ∧ Undivided g (answer g inMemory m call).2 calls

/-- No call reads a request whose timestamps the database alters. -/
def Unaltered (g : Digests) (isoformat : String → String) (m : MemoryStore) : List TimedCall → Prop
  | [] => True
  | call :: calls => call.1.Unaltered g isoformat m ∧
      Unaltered g isoformat (answer g inMemory m call).2 calls

theorem answers_mirror (isoformat : String → String) (h : Mirrors g m p) (calls : List TimedCall)
    (hcalls : Undivided g m calls) :
    List.Forall₂ (fun a b => SameResult isoformat a.1 b.1 ∧ SameLifecycle g isoformat a.2 b.2)
      (answers (answer g inMemory) m calls) (answers (answerPostgres g isoformat) p calls) ∧
    (Unaltered g isoformat m calls →
      List.Forall₂ (fun a b => a.1 = b.1 ∧ SameLifecycle g isoformat a.2 b.2)
        (answers (answer g inMemory) m calls) (answers (answerPostgres g isoformat) p calls)) := by
  induction calls generalizing m p with
  | nil => exact ⟨.nil, fun _ => .nil⟩
  | cons call calls ih =>
    obtain ⟨hcase, htexts, hdistinct, hrest⟩ := hcalls
    obtain ⟨hresult, hequal, hmirrors⟩ :=
      (answer_alongside isoformat h call hcase htexts).2 hdistinct
    obtain ⟨hall, hallEqual⟩ := ih hmirrors hrest
    exact ⟨.cons ⟨hresult, hmirrors.same⟩ hall, fun hunaltered =>
      .cons ⟨hequal hunaltered.1, hmirrors.same⟩ (hallEqual hunaltered.2)⟩

theorem mirrors_empty {cases : List (String × String)} {tables : δ}
    (hcases : ∀ t d, CaseTables.hasCase tables t d = decide ((t, d) ∈ cases)) :
    Mirrors g ⟨cases, [], [], [], []⟩ ⟨tables, [], [], [], []⟩ where
  cases := hcases
  holds t d := by
    rw [decide_eq_false List.not_mem_nil]
    rfl
  requests := ⟨List.nodup_nil, fun _ hr => absurd hr List.not_mem_nil, rfl, rfl,
    fun _ hr => absurd hr List.not_mem_nil⟩
  events := rfl
  holdEvents := rfl

theorem SameResult.isSome {a b : Raises Reply} (h : SameResult isoformat a b) :
    (toOption a).isSome = (toOption b).isSome := by
  unfold SameResult at h
  split at h
  · rfl
  · rfl
  · rfl
  · cases h

end Mirrors

/-- From the same cases, the repositories give the same statuses, holds and chains in every
sequence of calls that never executes an open request for a case that is gone, as long as no text
has a NUL and no event id repeats. Results are the same up to the text of timestamps, and equal
where no call reads a request whose timestamps the database alters. -/
theorem repositories_agree (g : Digests) (isoformat : String → String) {δ : Type} [CaseTables δ]
    {cases : List (String × String)} {tables : δ}
    (hcases : ∀ t d, CaseTables.hasCase tables t d = decide ((t, d) ∈ cases))
    {calls : List TimedCall} (hcalls : Undivided g ⟨cases, [], [], [], []⟩ calls) :
    List.Forall₂ (fun a b => SameResult isoformat a.1 b.1 ∧ SameLifecycle g isoformat a.2 b.2)
      (answers (answer g inMemory) ⟨cases, [], [], [], []⟩ calls)
      (answers (answerPostgres g isoformat) (⟨tables, [], [], [], []⟩ : PostgresStore δ) calls) ∧
    (Unaltered g isoformat ⟨cases, [], [], [], []⟩ calls →
      List.Forall₂ (fun a b => a.1 = b.1 ∧ SameLifecycle g isoformat a.2 b.2)
        (answers (answer g inMemory) ⟨cases, [], [], [], []⟩ calls)
        (answers (answerPostgres g isoformat) (⟨tables, [], [], [], []⟩ : PostgresStore δ) calls)) :=
  answers_mirror isoformat (mirrors_empty hcases) calls hcalls

attribute [local instance] caseRows

/-- How the database formats a time that the service wrote: the offset stands for the Z. -/
def withOffset (text : String) : String :=
  if text.toList.getLast? = some 'Z' then
    String.ofList (text.toList.dropLast ++ "+00:00".toList)
  else text

def pilotCases : MemoryStore := ⟨[("tenant-a", "case-1")], [], [], [], []⟩

def pilotRequest (reasonCode idempotencyKey : String) : LifecycleCall :=
  .requestDeletion tenantAdmin "case-1" reasonCode idempotencyKey "corr"

/-- A call in a minute of one morning. -/
def callAt (minute : String) (call : LifecycleCall) : TimedCall :=
  (call, fun _ => "2026-01-05T09:" ++ minute ++ ":00Z")

/-- A case is deleted once. -/
def deletedOnce : List TimedCall :=
  [callAt "01" (pilotRequest "OBSOLETE" "key-1"),
    callAt "02" (.executeDeletion tenantAdmin "delete-key-1" "corr")]

theorem deletedOnce_undivided : Undivided plainDigests pilotCases deletedOnce := by
  refine ⟨id, fun _ => by decide, ⟨by decide, by decide⟩, ?_, fun _ => by decide,
    ⟨by decide +kernel, by decide +kernel⟩, trivial⟩
  rintro ⟨-, r, d, hr, -, hd, -, hgone⟩
  have hnamed : ((answer plainDigests inMemory pilotCases
      (callAt "01" (pilotRequest "OBSOLETE" "key-1"))).2.request ("tenant-a", "delete-key-1")).bind
        DeletionRequest.decisionId = some "case-1" := by
    rfl
  have hcase : r.decisionId = some "case-1" := by
    rw [← hnamed]
    exact (congrArg (Option.bind · DeletionRequest.decisionId) hr).symm
  rw [hcase] at hd
  cases hd
  exact hgone (by decide)

/-- A request, a hold, a second request that the hold blocks, the release of the hold and the first
request again for another reason, which is refused. -/
def requestedAndHeld : List TimedCall :=
  [callAt "01" (pilotRequest "OBSOLETE" "key-1"),
    callAt "02" (.placeLegalHold tenantAdmin "case-1" "AUDIT" "corr"),
    callAt "03" (pilotRequest "OBSOLETE" "key-2"),
    callAt "04" (.releaseLegalHold tenantAdmin "case-1" "corr"),
    callAt "05" (pilotRequest "EXPIRED" "key-1")]

theorem requestedAndHeld_undivided : Undivided plainDigests pilotCases requestedAndHeld := by
  refine ⟨id, fun _ => by decide, ⟨?_, ?_⟩, id, fun _ => by decide, ⟨?_, ?_⟩, id, fun _ => by decide,
    ⟨?_, ?_⟩, id, fun _ => by decide, ⟨?_, ?_⟩, id, fun _ => by decide, ⟨?_, ?_⟩, trivial⟩
  all_goals decide +kernel

theorem unaltered_of_reads {g : Digests} {isoformat : String → String} {m : MemoryStore}
    {call : LifecycleCall} (h : call.reads g m = none) : call.Unaltered g isoformat m := by
  intro r hr
  rw [h] at hr
  cases hr

theorem requestedAndHeld_unaltered :
    Unaltered plainDigests withOffset pilotCases requestedAndHeld := by
  refine ⟨unaltered_of_reads ?_, unaltered_of_reads rfl, unaltered_of_reads ?_,
    unaltered_of_reads rfl, unaltered_of_reads ?_, trivial⟩
  all_goals decide +kernel

theorem repositories_agree_pilot :
    List.Forall₂ (fun a b => SameResult withOffset a.1 b.1 ∧
        SameLifecycle plainDigests withOffset a.2 b.2)
      (answers (answer plainDigests inMemory) pilotCases deletedOnce)
      (answers (answerPostgres plainDigests withOffset) oneCase deletedOnce) ∧
    List.Forall₂ (fun a b => a.1 = b.1 ∧ SameLifecycle plainDigests withOffset a.2 b.2)
      (answers (answer plainDigests inMemory) pilotCases requestedAndHeld)
      (answers (answerPostgres plainDigests withOffset) oneCase requestedAndHeld) := by
  have hcases : ∀ t d, CaseTables.hasCase [("tenant-a", "case-1")] t d =
      decide ((t, d) ∈ [("tenant-a", "case-1")]) := fun _ _ => rfl
  exact ⟨(repositories_agree plainDigests withOffset hcases deletedOnce_undivided).1,
    (repositories_agree plainDigests withOffset hcases requestedAndHeld_undivided).2
      requestedAndHeld_unaltered⟩

/-- Two requests for one case are executed. -/
def deletedTwice : List TimedCall :=
  [callAt "01" (pilotRequest "OBSOLETE" "key-1"), callAt "02" (pilotRequest "OBSOLETE" "key-2"),
    callAt "03" (.executeDeletion tenantAdmin "delete-key-1" "corr"),
    callAt "04" (.executeDeletion tenantAdmin "delete-key-2" "corr")]

/-- The second deletion is completed in memory and fails in PostgreSQL. -/
theorem second_deletion_differs :
    ¬ List.Forall₂ (fun a b => SameResult withOffset a.1 b.1 ∧
        SameLifecycle plainDigests withOffset a.2 b.2)
      (answers (answer plainDigests inMemory) pilotCases deletedTwice)
      (answers (answerPostgres plainDigests withOffset) oneCase deletedTwice) := by
  intro h
  have hoks : (answers (answer plainDigests inMemory) pilotCases deletedTwice).map
        (fun a => (toOption a.1).isSome) =
      (answers (answerPostgres plainDigests withOffset) oneCase deletedTwice).map
        fun b => (toOption b.1).isSome := by
    rw [← List.forall₂_eq_eq_eq, List.forall₂_map_left_iff, List.forall₂_map_right_iff]
    exact h.imp fun a b h => h.1.isSome
  have hdiffer : ((answers (answer plainDigests inMemory) pilotCases deletedTwice).map
      fun a => (toOption a.1).isSome) = [true, true, true, true] ∧
      ((answers (answerPostgres plainDigests withOffset) oneCase deletedTwice).map
        fun b => (toOption b.1).isSome) = [true, true, true, false] := by
    decide +kernel
  obtain ⟨hmemory, hpostgres⟩ := hdiffer
  have hsame := hmemory.symm.trans (hoks.trans hpostgres)
  cases hsame

end DecisionAssurance.Lifecycle
