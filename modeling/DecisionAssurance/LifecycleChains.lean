import DecisionAssurance.Chains
import DecisionAssurance.LegalHolds

/-!
# The event chains of the lifecycle

Each event of a deletion request or of a hold links to the tip its service call read, and is
written only where that is still the tip. Over any interleaving of service calls, on either
repository, the events of a request and of a hold form one chain, and a stored request carries
the hash of the last of its events.
-/

namespace DecisionAssurance.Lifecycle

open Interleaving Runs Tables Chains

variable {σ : Type}

def eventKey (e : LifecycleEvent) : RequestKey := (e.tenantId, e.requestId)

/-- The events of a request or of a hold, in insertion order. -/
def eventsOf (events : List LifecycleEvent) (k : RequestKey) : List LifecycleEvent :=
  events.filter fun e => e.tenantId = k.1 && e.requestId = k.2

abbrev Linear (events : List LifecycleEvent) : Prop :=
  Linked LifecycleEvent.eventHash LifecycleEvent.previousEventHash events

abbrev lastHash (events : List LifecycleEvent) : Option String :=
  tip LifecycleEvent.eventHash events

/-- The dictionary `payload` of `_event` and `_hold_event`. -/
def LifecycleEvent.hashed (e : LifecycleEvent) : Json :=
  .obj [("event_id", .str e.eventId),
    ("request_id", .str e.requestId),
    ("case_ref_hash", .str e.caseRefHash),
    ("event_type", .str e.eventType),
    ("occurred_at", .str e.occurredAt),
    ("reason_code", .str e.reasonCode),
    ("correlation_id", .str e.correlationId),
    ("actor_hash", .str e.actorHash),
    ("previous_event_hash", Json.ofOption e.previousEventHash)]

/-- The hash of an event is the hash of its own payload. -/
def Sealed (g : Digests) (e : LifecycleEvent) : Prop :=
  e.eventHash = "sha256:" ++ g.sha256 e.hashed.dumps

/-- What is observed of a store: its requests and the logs in which the events of requests and of
holds are kept. -/
structure ChainView (σ : Type) where
  request : σ → RequestKey → Option DeletionRequest
  requestLog : σ → List LifecycleEvent
  holdLog : σ → List LifecycleEvent

def isDeletionId (requestId : String) : Bool := "delete-".toList.isPrefixOf requestId.toList

variable (g : Digests) (v : ChainView σ)

/-- The key of the chain of a hold. -/
def holdKey (tenant : TenantContext) (decisionId : String) : RequestKey :=
  (tenant.tenantId, holdIdOf g tenant decisionId)

/-- The chains of requests and holds do not fork. -/
structure Unforked (s : σ) : Prop where
  requests : ∀ k r, v.request s k = some r →
    Linear (eventsOf (v.requestLog s) k) ∧ lastHash (eventsOf (v.requestLog s) k) = some r.eventHash
  holds : ∀ tenant decisionId, Linear (eventsOf (v.holdLog s) (holdKey g tenant decisionId))
  sealed : ∀ e ∈ v.requestLog s ++ v.holdLog s, Sealed g e
  owned : ∀ e ∈ v.requestLog s ++ v.holdLog s, (v.request s (eventKey e)).isSome ∨
    ∃ tenant decisionId, eventKey e = holdKey g tenant decisionId

/-- What every step keeps: besides the chains, a request that is not stored has no events. -/
structure Chained (s : σ) : Prop where
  linked : ∀ k, isDeletionId k.2 → Linear (eventsOf (v.requestLog s) k)
  holdLinked : ∀ k, isDeletionId k.2 = false → Linear (eventsOf (v.holdLog s) k)
  stored : ∀ k r, v.request s k = some r → isDeletionId k.2 ∧
    lastHash (eventsOf (v.requestLog s) k) = some r.eventHash
  unstarted : ∀ k, isDeletionId k.2 → v.request s k = none → eventsOf (v.requestLog s) k = []
  sealed : ∀ e ∈ v.requestLog s ++ v.holdLog s, Sealed g e
  owned : ∀ e ∈ v.requestLog s ++ v.holdLog s, (v.request s (eventKey e)).isSome ∨
    ∃ tenant decisionId, eventKey e = holdKey g tenant decisionId

/-- A write that stores a request with the hash of the event it logs. -/
structure Extends (r : DeletionRequest) (e : LifecycleEvent) (s s' : σ) : Prop where
  written : ∃ r', v.request s' r.key = some r' ∧ r'.eventHash = e.eventHash
  others : ∀ k, k ≠ r.key → v.request s' k = v.request s k
  logged : v.requestLog s' = v.requestLog s ++ [e]
  holdLogged : v.holdLog s' = v.holdLog s ∨ v.holdLog s' = v.holdLog s ++ [e]

/-- A write that logs an event of a hold. -/
structure Noted (e : LifecycleEvent) (s s' : σ) : Prop where
  requests : ∀ k, v.request s' k = v.request s k
  logged : v.holdLog s' = v.holdLog s ++ [e]
  requestLogged : v.requestLog s' = v.requestLog s ∨ v.requestLog s' = v.requestLog s ++ [e]

/-! ## Appending to the logs -/

section Appending

variable {g v} {k : RequestKey} {e : LifecycleEvent} {events : List LifecycleEvent} {s s' : σ}
  {r : DeletionRequest}

theorem eventsOf_append_self : eventsOf (events ++ [e]) (eventKey e) =
    eventsOf events (eventKey e) ++ [e] := by
  simp [eventsOf, eventKey]

theorem eventsOf_append_of_ne (h : k ≠ eventKey e) :
    eventsOf (events ++ [e]) k = eventsOf events k := by
  have hother : (decide (e.tenantId = k.1) && decide (e.requestId = k.2)) = false := by
    rw [Bool.and_eq_false_iff, decide_eq_false_iff_not, decide_eq_false_iff_not, ← not_and_or]
    rintro ⟨htenant, hid⟩
    exact h (Prod.ext htenant.symm hid.symm)
  simp [eventsOf, hother]

theorem holdKey_not_deletion (tenant : TenantContext) (decisionId : String) :
    isDeletionId (holdKey g tenant decisionId).2 = false := by
  unfold isDeletionId holdKey holdIdOf
  rw [String.toList_append]
  rfl

theorem Chained.unforked (h : Chained g v s) : Unforked g v s where
  requests k r hr := ⟨h.linked k (h.stored k r hr).1, (h.stored k r hr).2⟩
  holds tenant decisionId := h.holdLinked _ (holdKey_not_deletion tenant decisionId)
  sealed := h.sealed
  owned := h.owned

theorem Chained.recorded (h : Chained g v s) (hw : Extends v r e s s') (hkey : eventKey e = r.key)
    (hid : isDeletionId r.requestId) (hsealed : Sealed g e)
    (hprevious : e.previousEventHash = (v.request s r.key).map DeletionRequest.eventHash) :
    Chained g v s' := by
  have hmem : ∀ e' ∈ v.requestLog s' ++ v.holdLog s', e' = e ∨ e' ∈ v.requestLog s ++ v.holdLog s := by
    intro e' he'
    rw [hw.logged] at he'
    rcases hw.holdLogged with hlog | hlog <;> rw [hlog] at he' <;>
      simp only [List.mem_append, List.mem_singleton] at he' ⊢ <;> tauto
  obtain ⟨r', hr', hhash⟩ := hw.written
  refine ⟨fun k hk => ?_, fun k hk => ?_, fun k q hq => ?_, fun k hk hnone => ?_, fun e' he' => ?_,
    fun e' he' => ?_⟩
  · rw [hw.logged]
    by_cases hke : k = eventKey e
    · subst hke
      rw [eventsOf_append_self, Linear, linked_append_singleton]
      refine ⟨h.linked _ hk, ?_⟩
      rw [hprevious, hkey]
      cases hq : v.request s r.key with
      | none =>
        rw [h.unstarted _ (hkey ▸ hk) hq]
        rfl
      | some q => exact (h.stored _ q hq).2.symm
    · rw [eventsOf_append_of_ne hke]
      exact h.linked k hk
  · have hke : k ≠ eventKey e := by
      rintro rfl
      rw [hkey, DeletionRequest.key, hid] at hk
      cases hk
    rcases hw.holdLogged with hlog | hlog
    · rw [hlog]
      exact h.holdLinked k hk
    · rw [hlog, eventsOf_append_of_ne hke]
      exact h.holdLinked k hk
  · rw [hw.logged]
    by_cases hkr : k = r.key
    · subst hkr
      rw [hr'] at hq
      cases hq
      refine ⟨hid, ?_⟩
      rw [← hkey, eventsOf_append_self, hhash, lastHash, tip, List.getLast?_concat]
      rfl
    · rw [hw.others k hkr] at hq
      rw [eventsOf_append_of_ne (hkey ▸ hkr)]
      exact h.stored k q hq
  · by_cases hkr : k = r.key
    · rw [hkr, hr'] at hnone
      cases hnone
    · rw [hw.others k hkr] at hnone
      rw [hw.logged, eventsOf_append_of_ne (hkey ▸ hkr)]
      exact h.unstarted k hk hnone
  · rcases hmem e' he' with rfl | he'
    · exact hsealed
    · exact h.sealed e' he'
  · rcases hmem e' he' with rfl | he'
    · left
      rw [hkey, hr']
      rfl
    · rcases h.owned e' he' with hsome | hhold
      · left
        by_cases hkr : eventKey e' = r.key
        · rw [hkr, hr']
          rfl
        · rw [hw.others _ hkr]
          exact hsome
      · exact .inr hhold

theorem Chained.noted (h : Chained g v s) (hw : Noted v e s s') {tenant : TenantContext}
    {decisionId : String} (hkey : eventKey e = holdKey g tenant decisionId) (hsealed : Sealed g e)
    (hprevious : e.previousEventHash = lastHash (eventsOf (v.holdLog s) (eventKey e))) :
    Chained g v s' := by
  have hmem : ∀ e' ∈ v.requestLog s' ++ v.holdLog s', e' = e ∨ e' ∈ v.requestLog s ++ v.holdLog s := by
    intro e' he'
    rw [hw.logged] at he'
    rcases hw.requestLogged with hlog | hlog <;> rw [hlog] at he' <;>
      simp only [List.mem_append, List.mem_singleton] at he' ⊢ <;> tauto
  -- the events of a deletion request are where they were
  have hkept : ∀ k : RequestKey, isDeletionId k.2 →
      eventsOf (v.requestLog s') k = eventsOf (v.requestLog s) k := by
    intro k hk
    have hke : k ≠ eventKey e := by
      rintro rfl
      rw [hkey, holdKey_not_deletion] at hk
      cases hk
    rcases hw.requestLogged with hlog | hlog
    · rw [hlog]
    · rw [hlog, eventsOf_append_of_ne hke]
  refine ⟨fun k hk => ?_, fun k hk => ?_, fun k q hq => ?_, fun k hk hnone => ?_, fun e' he' => ?_,
    fun e' he' => ?_⟩
  · rw [hkept k hk]
    exact h.linked k hk
  · rw [hw.logged]
    by_cases hke : k = eventKey e
    · subst hke
      rw [eventsOf_append_self, Linear, linked_append_singleton]
      exact ⟨h.holdLinked _ hk, hprevious⟩
    · rw [eventsOf_append_of_ne hke]
      exact h.holdLinked k hk
  · rw [hw.requests] at hq
    have hstored := h.stored k q hq
    rw [hkept k hstored.1]
    exact hstored
  · rw [hw.requests] at hnone
    rw [hkept k hk]
    exact h.unstarted k hk hnone
  · rcases hmem e' he' with rfl | he'
    · exact hsealed
    · exact h.sealed e' he'
  · rcases hmem e' he' with rfl | he'
    · exact .inr ⟨tenant, decisionId, hkey⟩
    · rw [hw.requests]
      exact h.owned e' he'

end Appending

/-- What the writes of a repository do to the chains. -/
structure ChainLaws (repo : LifecycleRepository σ) (v : ChainView σ) : Prop where
  getRequest : ∀ tenant requestId s,
    repo.getRequest tenant requestId s = v.request s (tenant.tenantId, requestId)
  request_key : ∀ s k r, v.request s k = some r → r.key = k
  persist : ∀ r e expected s reply s', eventKey e = r.key → r.eventHash = e.eventHash →
    repo.persistTransition r e expected s = .ok (reply, s') →
    (s' = s ∧ ∃ current, v.request s r.key = some current ∧ reply = .request current) ∨
      (reply = .request r ∧ Extends v r e s s' ∧
        e.previousEventHash = (v.request s r.key).map DeletionRequest.eventHash)
  complete : ∀ r e s reply s', eventKey e = r.key → r.eventHash = e.eventHash →
    repo.completeDeletion r e s = .ok (reply, s') →
    s' = s ∨ (Extends v r e s s' ∧
      e.previousEventHash = (v.request s r.key).map DeletionRequest.eventHash)
  setHold : ∀ tenant d h a c t e s reply s', e.tenantId = tenant.tenantId →
    repo.setHold tenant d h a c t e s = .ok (reply, s') →
    s' = s ∨ (Noted v e s s' ∧
      e.previousEventHash = lastHash (eventsOf (v.holdLog s) (eventKey e)))
  releaseHold : ∀ tenant d a t e s reply s', e.tenantId = tenant.tenantId →
    repo.releaseHold tenant d a t e s = .ok (reply, s') →
    s' = s ∨ (Noted v e s s' ∧
      e.previousEventHash = lastHash (eventsOf (v.holdLog s) (eventKey e)))

/-! ## The service calls -/

section Calls

variable {g v} {repo : LifecycleRepository σ}

/-- The chains stay as they should be. -/
def ChainsKept (g : Digests) (v : ChainView σ) (s s' : σ) : Prop := Chained g v s → Chained g v s'

theorem ChainsKept.refl (s : σ) : ChainsKept g v s s := id

theorem ChainsKept.trans (s t u : σ) (h : ChainsKept g v s t) (h' : ChainsKept g v t u) :
    ChainsKept g v s u := fun hs => h' (h hs)

theorem chained_stable : Proc.Stable (ChainsKept g v) (Chained g v) := fun _ _ hs h => h hs

/-- What a procedure reads does not matter to the chains. -/
theorem chained_get {α β : Type} {f : σ → α} {k : α → ServiceProc σ β} {Q : Raises β → σ → Prop}
    (h : ∀ s, (k (f s)).Guarantees (ChainsKept g v) (ChainsKept g v) Q (Chained g v)) :
    (Proc.get f >>= k).Guarantees (ChainsKept g v) (ChainsKept g v) Q (Chained g v) :=
  Proc.guarantees_get fun s hs => (h s).mono fun _ hu => hu hs

abbrev KeepsChains (g : Digests) (v : ChainView σ) {α : Type} (Q : Raises α → Prop)
    (p : ServiceProc σ α) : Prop :=
  p.Guarantees (ChainsKept g v) (ChainsKept g v) (fun r s => Chained g v s ∧ Q r) (Chained g v)

theorem keepsChains_raise {α : Type} {Q : Raises α → Prop} {e : LifecycleError} (h : Q (.error e)) :
    KeepsChains g v Q (Proc.raise e : ServiceProc σ α) :=
  Proc.guarantees_raise fun _ hs => ⟨hs, h⟩

theorem keepsChains_pure {α : Type} {Q : Raises α → Prop} {a : α} (h : Q (.ok a)) :
    KeepsChains g v Q (pure a : ServiceProc σ α) :=
  Proc.guarantees_pure fun _ hs => ⟨hs, h⟩

theorem keepsChains_bind {α β : Type} {Q : Raises α → Prop} {Q' : Raises β → Prop}
    {p : ServiceProc σ α} {f : α → ServiceProc σ β} (h : KeepsChains g v Q p)
    (hok : ∀ a, Q (.ok a) → KeepsChains g v Q' (f a)) (herror : ∀ e, Q' (.error e)) :
    KeepsChains g v Q' (p >>= f) := by
  exact Proc.Guarantees.bind h (fun a => Proc.Guarantees.assume (hok a)) fun e s hs => ⟨hs.1, herror e⟩

theorem event_chained (request : DeletionRequest) (eventType : String) (identity : Identity)
    (corr : String) : KeepsChains g v (fun r => ∀ e, r = .ok e → Sealed g e ∧
      eventKey e = (identity.tenant.tenantId, request.requestId))
      (event g repo request eventType identity corr) := by
  refine chained_get fun s => Proc.guarantees_now fun t => keepsChains_pure fun e he => ?_
  cases he
  exact ⟨rfl, rfl⟩

theorem holdEvent_chained (identity : Identity) (decisionId holdId eventType reasonCode corr : String) :
    KeepsChains g v (fun r => ∀ e, r = .ok e → Sealed g e ∧
      eventKey e = (identity.tenant.tenantId, holdId))
      (holdEvent g repo identity decisionId holdId eventType reasonCode corr) := by
  refine chained_get fun s => Proc.guarantees_now fun t => keepsChains_pure fun e he => ?_
  cases he
  exact ⟨rfl, rfl⟩

/-- Recording a transition of a request extends its chain, and returns a request of its key. -/
theorem record_chained (hl : ChainLaws repo v) {request : DeletionRequest} {eventType : String}
    {identity : Identity} {corr : String} {expected : Option DeletionStatus}
    (htenant : request.tenantId = identity.tenant.tenantId) (hid : isDeletionId request.requestId) :
    KeepsChains g v (fun r => ∀ x, r = .ok x → ∀ q, x = .request q → q.key = request.key)
      (record g repo request eventType identity corr expected) := by
  have herror : ∀ (err : LifecycleError) (x : Reply), Except.error err = Except.ok x →
      ∀ q, x = .request q → q.key = request.key := by
    intro err x hx
    cases hx
  refine keepsChains_bind (event_chained _ _ identity corr) (fun e he => ?_) herror
  obtain ⟨hsealed, hkey⟩ := he e rfl
  have hkey : eventKey e = (request.withEvent e).key := by
    rw [hkey, ← htenant]
    rfl
  refine Proc.guarantees_commit (fun s x s' hs hw => ?_) fun s err hs _ u hu =>
    ⟨hu hs, herror err⟩
  rcases hl.persist _ _ _ _ _ _ hkey rfl hw with ⟨rfl, current, hc, rfl⟩ | ⟨rfl, hext, hprevious⟩
  · refine ⟨id, fun u hu => ⟨hu hs, fun x hx q hq => ?_⟩⟩
    cases hx
    cases hq
    exact hl.request_key _ _ _ hc
  · have hs' : Chained g v s' := hs.recorded hext hkey hid hsealed hprevious
    refine ⟨fun _ => hs', fun u hu => ⟨hu hs', fun x hx q hq => ?_⟩⟩
    cases hx
    cases hq
    rfl

theorem finishDeletion_chained (hl : ChainLaws repo v) {executing : DeletionRequest}
    {identity : Identity} {corr : String}
    (htenant : executing.tenantId = identity.tenant.tenantId)
    (hid : isDeletionId executing.requestId) :
    KeepsChains g v (fun _ => True) (finishDeletion g repo executing identity corr) := by
  refine Proc.guarantees_now fun t => ?_
  refine keepsChains_bind (event_chained _ _ identity corr) (fun e he => ?_) fun _ => trivial
  obtain ⟨hsealed, hkey⟩ := he e rfl
  have hkey : eventKey e =
      ((executing.withStatus .completed false (some t) true).withEvent e).key := by
    rw [hkey, ← htenant]
    rfl
  refine Proc.guarantees_attempt (fun s x s' hs hw => ?_) fun s err hs _ => ?_
  · rcases hl.complete _ _ _ _ _ hkey rfl hw with rfl | ⟨hext, hprevious⟩
    · exact ⟨id, (keepsChains_pure trivial).mono fun u hu => hu hs⟩
    · have hs' : Chained g v s' := hs.recorded hext hkey hid hsealed hprevious
      exact ⟨fun _ => hs', (keepsChains_pure trivial).mono fun u hu => hu hs'⟩
  · refine Proc.Guarantees.mono ?_ fun u (hu : ChainsKept g v s u) => hu hs
    cases err with
    | legalHoldActive =>
      refine (record_chained hl ?_ ?_).post fun r s h => ⟨h.1, trivial⟩
      · exact htenant
      · exact hid
    | _ => exact keepsChains_raise trivial

theorem requestDeletion_chained (hl : ChainLaws repo v) (identity : Identity)
    (decisionId reasonCode idempotencyKey corr : String) :
    KeepsChains g v (fun _ => True)
      (requestDeletion g repo identity decisionId reasonCode idempotencyKey corr) := by
  unfold requestDeletion
  split_ifs with hauth
  · exact keepsChains_raise trivial
  refine chained_get fun s => ?_
  cases repo.getByIdempotency _ _ _ s with
  | some replay =>
    dsimp only
    split_ifs
    · exact keepsChains_raise trivial
    · exact keepsChains_pure trivial
  | none =>
    refine chained_get fun s => ?_
    split_ifs
    · exact keepsChains_raise trivial
    refine Proc.guarantees_now fun t => chained_get fun s => ?_
    refine (record_chained hl rfl ?_).post fun r s h => ⟨h.1, trivial⟩
    unfold isDeletionId
    rw [String.toList_append]
    rfl

theorem executeDeletion_chained (hl : ChainLaws repo v) (identity : Identity)
    (requestId corr : String) :
    KeepsChains g v (fun _ => True) (executeDeletion g repo identity requestId corr) := by
  unfold executeDeletion
  split_ifs with hauth
  · exact keepsChains_raise trivial
  refine Proc.guarantees_get fun s hs => ?_
  refine Proc.Guarantees.mono ?_ fun u (hu : ChainsKept g v s u) => hu hs
  rw [hl.getRequest]
  cases hreq : v.request s (identity.tenant.tenantId, requestId) with
  | none => exact keepsChains_raise trivial
  | some request =>
    have hkey : request.key = (identity.tenant.tenantId, requestId) := hl.request_key _ _ _ hreq
    obtain ⟨htenant, hid⟩ := Prod.mk.inj hkey
    have hdeletion : isDeletionId request.requestId := by
      rw [hid]
      exact (hs.stored _ _ hreq).1
    dsimp only
    split_ifs with hcomp
    · exact keepsChains_pure trivial
    cases request.decisionId with
    | none => exact keepsChains_raise trivial
    | some decisionId =>
      refine chained_get fun s => ?_
      cases repo.activeHold identity.tenant decisionId s with
      | true =>
        refine (record_chained hl ?_ ?_).post fun r s h => ⟨h.1, trivial⟩
        · exact htenant
        · exact hdeletion
      | false =>
        refine keepsChains_bind (record_chained hl ?_ ?_) (fun x hx => ?_) fun _ => trivial
        · exact htenant
        · exact hdeletion
        cases x with
        | changed b => exact keepsChains_pure trivial
        | request executing =>
          obtain ⟨htenant', hid'⟩ := Prod.mk.inj (hx _ rfl _ rfl)
          refine finishDeletion_chained hl (htenant'.trans htenant) ?_
          rw [hid']
          exact hdeletion

theorem placeLegalHold_chained (hl : ChainLaws repo v) (identity : Identity)
    (decisionId reasonCode corr : String) :
    KeepsChains g v (fun _ => True) (placeLegalHold g repo identity decisionId reasonCode corr) := by
  unfold placeLegalHold
  split_ifs with hauth
  · exact keepsChains_raise trivial
  refine chained_get fun s => ?_
  split_ifs
  · exact keepsChains_raise trivial
  refine keepsChains_bind (holdEvent_chained identity _ _ _ _ corr) (fun e he => ?_) fun _ => trivial
  obtain ⟨hsealed, hkey⟩ := he e rfl
  refine Proc.guarantees_commit (fun s x s' hs hw => ?_) fun s err hs _ u hu => ⟨hu hs, trivial⟩
  rcases hl.setHold _ _ _ _ _ _ _ _ _ _ (congrArg Prod.fst hkey) hw with rfl | ⟨hnoted, hprevious⟩
  · exact ⟨id, fun u hu => ⟨hu hs, trivial⟩⟩
  · have hs' : Chained g v s' := hs.noted hnoted hkey hsealed hprevious
    exact ⟨fun _ => hs', fun u hu => ⟨hu hs', trivial⟩⟩

theorem releaseLegalHold_chained (hl : ChainLaws repo v) (identity : Identity)
    (decisionId corr : String) :
    KeepsChains g v (fun _ => True) (releaseLegalHold g repo identity decisionId corr) := by
  unfold releaseLegalHold
  split_ifs with hauth
  · exact keepsChains_raise trivial
  refine keepsChains_bind (holdEvent_chained identity _ _ _ _ corr) (fun e he => ?_) fun _ => trivial
  obtain ⟨hsealed, hkey⟩ := he e rfl
  refine Proc.guarantees_commit (fun s x s' hs hw => ?_) fun s err hs _ u hu => ⟨hu hs, trivial⟩
  rcases hl.releaseHold _ _ _ _ _ _ _ _ (congrArg Prod.fst hkey) hw with rfl | ⟨hnoted, hprevious⟩
  · exact ⟨id, fun u hu => ⟨hu hs, trivial⟩⟩
  · have hs' : Chained g v s' := hs.noted hnoted hkey hsealed hprevious
    exact ⟨fun _ => hs', fun u hu => ⟨hu hs', trivial⟩⟩

theorem serviceCall_chained (hl : ChainLaws repo v) {p : ServiceProc σ Reply}
    (h : ServiceCall g repo p) : KeepsChains g v (fun _ => True) p := by
  cases h with
  | requestDeletion => exact requestDeletion_chained hl ..
  | executeDeletion => exact executeDeletion_chained hl ..
  | placeLegalHold => exact placeLegalHold_chained hl ..
  | releaseLegalHold => exact releaseLegalHold_chained hl ..

/-- The chains are kept by every interleaving of service calls. -/
theorem chained_of_run (hl : ChainLaws repo v) {s₀ : σ} {tr : ServiceTrace σ} {sys : ServiceSystem σ}
    (hs : Chained g v s₀) (hr : Run (SystemStep (ServiceCall g repo)) (System.idle s₀) tr sys) :
    Chained g v sys.shared :=
  (guarantee_of_run ChainsKept.refl ChainsKept.trans (fun _ _ h => h) chained_stable
    (fun _ hp => serviceCall_chained hl hp) hs (fun _ => rfl) hr).1

theorem chained_of_empty {s₀ : σ} (hrequests : ∀ k, v.request s₀ k = none)
    (hlog : v.requestLog s₀ = []) (hholds : v.holdLog s₀ = []) : Chained g v s₀ := by
  refine ⟨fun k _ => ?_, fun k _ => ?_, fun k r hr => ?_, fun k _ _ => ?_, fun e he => ?_,
    fun e he => ?_⟩
  · rw [hlog]
    trivial
  · rw [hholds]
    trivial
  · rw [hrequests] at hr
    cases hr
  · rw [hlog]
    rfl
  · simp [hlog, hholds] at he
  · simp [hlog, hholds] at he

end Calls

/-! ## In memory -/

/-- One list holds the events of requests and of holds. -/
def memoryChains : ChainView MemoryStore where
  request := MemoryStore.request
  requestLog := MemoryStore.events
  holdLog := MemoryStore.events

section Memory

variable {r : DeletionRequest} {e : LifecycleEvent} {s s' : MemoryStore}

theorem memory_extends (hhash : r.eventHash = e.eventHash)
    (hrequests : s'.requests = upsert DeletionRequest.key r s.requests)
    (hevents : s'.events = s.events ++ [e]) : Extends memoryChains r e s s' := by
  have hrequest : ∀ k, memoryChains.request s' k =
      if r.key = k then some r else memoryChains.request s k := by
    intro k
    change lookup DeletionRequest.key k s'.requests = _
    rw [hrequests, lookup_upsert]
    rfl
  refine ⟨⟨r, ?_, hhash⟩, fun k hk => ?_, hevents, .inr hevents⟩
  · rw [hrequest, if_pos rfl]
  · rw [hrequest, if_neg (Ne.symm hk)]

theorem previous_of_persistCheck {current : Option DeletionRequest} {expected : Option DeletionStatus}
    (h : persistCheck current r e expected = .ok none) :
    e.previousEventHash = current.map DeletionRequest.eventHash := by
  obtain ⟨hsome, hnone⟩ := persistCheck_none h
  cases current with
  | none => exact (hnone rfl).2
  | some c => exact (hsome c rfl).2

theorem previous_of_completeCheck {current : Option DeletionRequest} {d : String}
    (h : completeCheck current e = .ok (.inr d)) :
    e.previousEventHash = current.map DeletionRequest.eventHash := by
  obtain ⟨c, rfl, -, -, hprevious⟩ := completeCheck_inr h
  exact hprevious

theorem holdTip_lastHash {tenant : TenantContext} (htenant : e.tenantId = tenant.tenantId)
    (htip : ¬ (!s.holdTip tenant e) = true) :
    e.previousEventHash = lastHash (eventsOf s.events (eventKey e)) := by
  simp only [Bool.not_eq_true', Bool.not_eq_false, MemoryStore.holdTip, decide_eq_true_eq] at htip
  rw [← htenant] at htip
  exact htip

theorem memory_chainLaws : ChainLaws inMemory memoryChains where
  getRequest _ _ _ := rfl
  request_key s k r h := key_of_lookup h
  persist r e expected s reply s' hkey hhash h := by
    change MemoryStore.persistTransition r e expected s = _ at h
    unfold MemoryStore.persistTransition at h
    cases hc : persistCheck (s.request r.key) r e expected with
    | error err => simp only [hc, reduceCtorEq] at h
    | ok c =>
      cases c with
      | some c =>
        simp only [hc] at h
        cases h
        exact .inl ⟨rfl, c, persistCheck_some hc, rfl⟩
      | none =>
        simp only [hc] at h
        cases h
        exact .inr ⟨rfl, memory_extends hhash rfl rfl, previous_of_persistCheck hc⟩
  complete r e s reply s' hkey hhash h := by
    change MemoryStore.completeDeletion r e s = _ at h
    unfold MemoryStore.completeDeletion at h
    cases hc : completeCheck (s.request r.key) e with
    | error err => simp only [hc, reduceCtorEq] at h
    | ok c =>
      cases c with
      | inl current =>
        simp only [hc] at h
        cases h
        exact .inl rfl
      | inr d =>
        simp only [hc] at h
        split_ifs at h with hheld
        cases h
        exact .inr ⟨memory_extends hhash rfl rfl, previous_of_completeCheck hc⟩
  setHold tenant d hid a c t e s reply s' htenant h := by
    change MemoryStore.setHold tenant d hid a c t e s = _ at h
    unfold MemoryStore.setHold at h
    split_ifs at h with hheld htip
    · cases h
      exact .inl rfl
    · cases h
      exact .inr ⟨⟨fun _ => rfl, rfl, .inr rfl⟩, holdTip_lastHash htenant htip⟩
  releaseHold tenant d a t e s reply s' htenant h := by
    change MemoryStore.releaseHold tenant d a t e s = _ at h
    unfold MemoryStore.releaseHold at h
    split_ifs at h with hheld htip
    · cases h
      exact .inr ⟨⟨fun _ => rfl, rfl, .inr rfl⟩, holdTip_lastHash htenant htip⟩
    · cases h
      exact .inl rfl

end Memory

/-! ## PostgreSQL -/

section Postgres

variable {δ : Type} [CaseTables δ] (isoformat : String → String)

def postgresChains : ChainView (PostgresStore δ) where
  request := PostgresStore.request isoformat
  requestLog := PostgresStore.events
  holdLog := PostgresStore.holdEvents

variable {r : DeletionRequest} {e : LifecycleEvent} {s s₁ s' : PostgresStore δ}

omit [CaseTables δ] in
theorem read_eventsOf (row : RequestRow) : s.read isoformat row =
    PostgresStore.toRequest isoformat row (eventsOf s.events row.key).getLast? := rfl

/-- What a write does to the rows of the requests. -/
structure WritesRow (r : DeletionRequest) (s s' : PostgresStore δ) : Prop where
  written : (lookup RequestRow.key r.key s'.requests).isSome
  others : ∀ k, k ≠ r.key → lookup RequestRow.key k s'.requests = lookup RequestRow.key k s.requests
  events : s'.events = s.events
  holdEvents : s'.holdEvents = s.holdEvents

omit [CaseTables δ] in
/-- A row is read with the event that the write of the request appends. -/
theorem postgres_extends (hkey : eventKey e = r.key) (hw : WritesRow r s s₁) :
    Extends (postgresChains isoformat) r e s { s₁ with events := s₁.events ++ [e] } := by
  refine ⟨?_, fun k hk => ?_, congrArg (· ++ [e]) hw.events, .inl hw.holdEvents⟩
  · obtain ⟨row, hrow⟩ := Option.isSome_iff_exists.mp hw.written
    have hrowkey : row.key = eventKey e := (key_of_lookup hrow).trans hkey.symm
    refine ⟨PostgresStore.toRequest isoformat row (some e), ?_, rfl⟩
    change (lookup RequestRow.key r.key s₁.requests).map _ = _
    rw [hrow, Option.map_some, read_eventsOf, hrowkey]
    change some (PostgresStore.toRequest isoformat row
      (eventsOf (s₁.events ++ [e]) (eventKey e)).getLast?) = _
    rw [eventsOf_append_self, List.getLast?_concat]
  · change (lookup RequestRow.key k s₁.requests).map _ = (lookup RequestRow.key k s.requests).map _
    rw [hw.others k hk]
    refine Option.map_congr fun row hrow => ?_
    rw [read_eventsOf, read_eventsOf, key_of_lookup hrow]
    change PostgresStore.toRequest isoformat row (eventsOf (s₁.events ++ [e]) k).getLast? = _
    rw [eventsOf_append_of_ne (hkey ▸ hk), hw.events]

omit [CaseTables δ] in
theorem writesRow_update (hstored : (lookup RequestRow.key r.key s.requests).isSome) :
    WritesRow r s (s.updateRequest r) := by
  have hkey : ∀ row : RequestRow, decide (row.key = r.key) = true →
      (row.setFrom r).key = row.key := fun _ _ => rfl
  refine ⟨?_, fun k hk => ?_, rfl, rfl⟩
  · rw [PostgresStore.updateRequest, lookup_updateWhere hkey, Option.isSome_map]
    exact hstored
  · rw [PostgresStore.updateRequest, lookup_updateWhere hkey]
    cases hrow : lookup RequestRow.key k s.requests with
    | none => rfl
    | some row =>
      have hne : row.key ≠ r.key := by
        rw [key_of_lookup hrow]
        exact hk
      simp only [Option.map_some, hne, decide_false, Bool.false_eq_true, if_false]

omit [CaseTables δ] in
theorem writesRow_insert (hnone : lookup RequestRow.key r.key s.requests = none)
    (h : s.insertRequest r = .ok s') : WritesRow r s s' := by
  have hrow := insertRequest_cases h
  subst hrow
  have hkey : (PostgresStore.toRow r).key = r.key := rfl
  refine ⟨?_, fun k hk => ?_, rfl, rfl⟩
  · rw [← hkey, lookup_append_self (hkey ▸ hnone)]
    rfl
  · rw [lookup_append_of_ne (hkey ▸ Ne.symm hk)]

omit [CaseTables δ] in
theorem writesRow_of_writeRequest (h : s.writeRequest isoformat r = .ok s') : WritesRow r s s' := by
  have hsome : (s.request isoformat r.key).isSome =
      (lookup RequestRow.key r.key s.requests).isSome := Option.isSome_map
  unfold PostgresStore.writeRequest at h
  rw [hsome] at h
  split_ifs at h with hstored
  · cases h
    exact writesRow_update hstored
  · rw [Bool.not_eq_true, Option.isSome_eq_false_iff, Option.isNone_iff_eq_none] at hstored
    exact writesRow_insert hstored h

omit [CaseTables δ] in
theorem holdTip_lastHash_postgres (htip : ¬ (!s.holdTip e) = true) :
    e.previousEventHash = lastHash (eventsOf s.holdEvents (eventKey e)) := by
  simp only [Bool.not_eq_true', Bool.not_eq_false, PostgresStore.holdTip, decide_eq_true_eq] at htip
  exact htip

theorem postgres_chainLaws : ChainLaws (postgres isoformat δ) (postgresChains isoformat) where
  getRequest _ _ _ := rfl
  request_key := (postgres_laws isoformat).request_key
  persist r e expected s reply s' hkey hhash h := by
    change PostgresStore.persistTransition isoformat r e expected s = _ at h
    unfold PostgresStore.persistTransition at h
    cases hc : persistCheck (s.request isoformat r.key) r e expected with
    | error err => simp only [hc, reduceCtorEq] at h
    | ok c =>
      cases c with
      | some c =>
        simp only [hc] at h
        cases h
        exact .inl ⟨rfl, c, persistCheck_some hc, rfl⟩
      | none =>
        simp only [hc] at h
        obtain ⟨s₁, hs₁, h⟩ := bind_ok_cases h
        obtain ⟨s₂, hs₂, h⟩ := bind_ok_cases h
        cases h
        have happended := appendEvent_cases hs₂
        subst happended
        exact .inr ⟨rfl, postgres_extends isoformat hkey (writesRow_of_writeRequest isoformat hs₁),
          previous_of_persistCheck hc⟩
  complete r e s reply s' hkey hhash h := by
    change PostgresStore.completeDeletion isoformat r e s = _ at h
    unfold PostgresStore.completeDeletion at h
    cases hc : completeCheck (s.request isoformat r.key) e with
    | error err => simp only [hc, reduceCtorEq] at h
    | ok c =>
      cases c with
      | inl current =>
        simp only [hc] at h
        cases h
        exact .inl rfl
      | inr d =>
        simp only [hc] at h
        obtain ⟨s₁, hs₁, h⟩ := bind_ok_cases h
        obtain ⟨s₂, hs₂, h⟩ := bind_ok_cases h
        cases h
        obtain ⟨-, -, rfl⟩ := deleteCaseData_cases hs₁
        have happended := appendEvent_cases hs₂
        subst happended
        obtain ⟨current, hcur, -⟩ := completeCheck_inr hc
        have hstored : (lookup RequestRow.key r.key s.requests).isSome := by
          obtain ⟨row, hrow, -⟩ := Option.map_eq_some_iff.mp hcur
          rw [hrow]
          rfl
        have hrow := writesRow_update hstored
        refine .inr ⟨postgres_extends isoformat hkey ⟨hrow.written, hrow.others, rfl, rfl⟩,
          previous_of_completeCheck hc⟩
  setHold tenant d hid a c t e s reply s' htenant h := by
    change PostgresStore.setHold tenant d hid a c t e s = _ at h
    unfold PostgresStore.setHold at h
    dsimp only at h
    split_ifs at h with hheld htip hfk
    · cases h
      exact .inl rfl
    · obtain ⟨s₁, hs₁, h⟩ := bind_ok_cases h
      cases h
      have happended := appendHoldEvent_cases hs₁
      subst happended
      exact .inr ⟨⟨fun _ => rfl, rfl, .inl rfl⟩, holdTip_lastHash_postgres htip⟩
  releaseHold tenant d a t e s reply s' htenant h := by
    change PostgresStore.releaseHold tenant d a t e s = _ at h
    unfold PostgresStore.releaseHold at h
    split_ifs at h with hheld htip
    · cases h
      exact .inl rfl
    · obtain ⟨s₁, hs₁, h⟩ := bind_ok_cases h
      cases h
      have happended := appendHoldEvent_cases hs₁
      subst happended
      exact .inr ⟨⟨fun _ => rfl, rfl, .inl rfl⟩, holdTip_lastHash_postgres htip⟩

end Postgres

/-- On both repositories, from any cases, no interleaving of service calls forks the chain of a
deletion request or of a hold. -/
theorem chains_unforked (g : Digests) (isoformat : String → String) (δ : Type) [CaseTables δ] :
    (∀ cases tr sys, Run (SystemStep (ServiceCall g inMemory))
      (System.idle (⟨cases, [], [], [], []⟩ : MemoryStore)) tr sys →
      Unforked g memoryChains sys.shared) ∧
    (∀ tables tr sys, Run (SystemStep (ServiceCall g (postgres isoformat δ)))
      (System.idle (⟨tables, [], [], [], []⟩ : PostgresStore δ)) tr sys →
      Unforked g (postgresChains isoformat) sys.shared) := by
  refine ⟨fun cases tr sys hr => ?_, fun tables tr sys hr => ?_⟩
  · exact (chained_of_run memory_chainLaws (chained_of_empty (fun _ => rfl) rfl rfl) hr).unforked
  · refine (chained_of_run (postgres_chainLaws isoformat) ?_ hr).unforked
    exact chained_of_empty (fun _ => rfl) rfl rfl

section Lifetime

variable {σ : Type} (repo : LifecycleRepository σ)

/-- `case-1` is held, released and deleted on request. -/
def heldAndDeleted (s : σ) : σ :=
  let held := ((placeLegalHold plainDigests repo tenantAdmin "case-1" "AUDIT" "corr").run
    (fun _ => "t1") s).2
  let released := ((releaseLegalHold plainDigests repo tenantAdmin "case-1" "corr").run
    (fun _ => "t2") held).2
  let requested := ((requestDeletion plainDigests repo tenantAdmin "case-1" "OBSOLETE" "key-1"
    "corr").run (fun _ => "t3") released).2
  ((executeDeletion plainDigests repo tenantAdmin "delete-key-1" "corr").run (fun _ => "t4")
    requested).2

theorem run_heldAndDeleted (s : σ) : ∃ tr, Run (SystemStep (ServiceCall plainDigests repo))
    (System.idle s) tr (System.idle (heldAndDeleted repo s)) := by
  obtain ⟨tr₁, hr₁⟩ := run_alone (ServiceCall plainDigests repo) 0
    (ServiceCall.placeLegalHold tenantAdmin "case-1" "AUDIT" "corr") (fun _ => "t1") s
  obtain ⟨tr₂, hr₂⟩ := run_alone (ServiceCall plainDigests repo) 0
    (ServiceCall.releaseLegalHold tenantAdmin "case-1" "corr") (fun _ => "t2") _
  obtain ⟨tr₃, hr₃⟩ := run_alone (ServiceCall plainDigests repo) 0
    (ServiceCall.requestDeletion tenantAdmin "case-1" "OBSOLETE" "key-1" "corr")
    (fun _ => "t3") _
  obtain ⟨tr₄, hr₄⟩ := run_alone (ServiceCall plainDigests repo) 0
    (ServiceCall.executeDeletion tenantAdmin "delete-key-1" "corr") (fun _ => "t4") _
  exact ⟨_, ((hr₁.append hr₂).append hr₃).append hr₄⟩

end Lifetime

attribute [local instance] caseRows

theorem chains_unforked_requested :
    (∃ tr sys, Run (SystemStep (ServiceCall plainDigests inMemory))
        (System.idle ⟨[("tenant-a", "case-1")], [], [], [], []⟩) tr sys ∧
      sys.shared.events.map (fun e => (e.eventType, e.previousEventHash.isSome)) =
        [("data.legal-hold-placed", false), ("data.legal-hold-released", true),
          ("data.deletion-requested", false), ("data.deletion-executing", true),
          ("data.deletion-completed", true)] ∧
      Unforked plainDigests memoryChains sys.shared) ∧
    ∃ tr sys, Run (SystemStep (ServiceCall plainDigests pilotRepository)) (System.idle oneCase) tr
        sys ∧
      sys.shared.events.map (fun e => e.previousEventHash.isSome) = [false, true, true] ∧
      sys.shared.holdEvents.map (fun e => e.previousEventHash.isSome) = [false, true] ∧
      Unforked plainDigests (postgresChains id) sys.shared := by
  obtain ⟨hmemory, hpostgres⟩ := chains_unforked plainDigests id (List (String × String))
  obtain ⟨tr, hr⟩ := run_heldAndDeleted inMemory ⟨[("tenant-a", "case-1")], [], [], [], []⟩
  obtain ⟨tr', hr'⟩ := run_heldAndDeleted pilotRepository oneCase
  exact ⟨⟨tr, _, hr, by decide +kernel, hmemory _ _ _ hr⟩,
    tr', _, hr', by decide +kernel, by decide +kernel, hpostgres _ _ _ hr'⟩

end DecisionAssurance.Lifecycle
