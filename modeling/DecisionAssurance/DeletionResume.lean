import DecisionAssurance.LegalHolds

/-!
# When a deletion can be resumed

`execute_deletion` commits twice. On the PostgreSQL repository a later call, made while no
hold is active, completes a request of a reachable store exactly when the case still has its
row in `decisions`: where another request for the same case was executed first, the row is
gone and the request stays in EXECUTING.
-/

namespace DecisionAssurance.Lifecycle

open Interleaving Runs Tables

/-! ## A call that raises keeps the case data -/

section Raising

variable {σ γ : Type} {repo : LifecycleRepository σ} {v : StoreView σ γ} (g : Digests)

theorem record_keeps (hl : Laws repo v) (request : DeletionRequest) (eventType : String)
    (identity : Identity) (corr : String) (expected : Option DeletionStatus) (data : γ) :
    (record g repo request eventType identity corr expected).Guarantees (fun s s' => s = s')
      (fun _ _ => True) (fun _ s => v.caseData s = data) fun s => v.caseData s = data := by
  refine Proc.guarantees_get fun s hs => Proc.guarantees_now fun t => ?_
  refine Proc.guarantees_commit (fun u reply u' hu hw => ⟨trivial, ?_⟩) ?_
  · rintro w rfl
    subst hu
    rcases hl.persist _ _ _ _ _ _ hw with ⟨rfl, -⟩ | ⟨-, -, -, hcase⟩
    · exact hs
    · rw [hcase]
      exact hs
  · rintro u e rfl - w rfl
    exact hs

theorem finishDeletion_raises (hl : Laws repo v) (executing : DeletionRequest)
    (identity : Identity) (corr : String) (data : γ) :
    (finishDeletion g repo executing identity corr).Guarantees (fun s s' => s = s')
      (fun _ _ => True) (fun r s => ∀ e, r = .error e → v.caseData s = data)
      fun s => v.caseData s = data := by
  refine Proc.guarantees_now fun t => Proc.guarantees_get fun s hs => ?_
  refine Proc.guarantees_now fun t' => Proc.guarantees_attempt (fun u reply u' _ _ => ?_) ?_
  · exact ⟨trivial, Proc.guarantees_pure fun w _ e he => by cases he⟩
  · rintro u err rfl -
    have hraise : ∀ w, s = w → v.caseData w = data := fun w hw => hw ▸ hs
    cases err with
    | legalHoldActive =>
      refine ((record_keeps g hl _ _ identity corr _ data).mono hraise).post ?_
      exact fun r w hw e _ => hw
    | _ => exact Proc.guarantees_raise fun w hw e _ => hraise w hw

theorem executeDeletion_raises (hl : Laws repo v) (identity : Identity)
    (requestId corr : String) (data : γ) :
    (executeDeletion g repo identity requestId corr).Guarantees (fun s s' => s = s')
      (fun _ _ => True) (fun r s => ∀ e, r = .error e → v.caseData s = data)
      fun s => v.caseData s = data := by
  unfold executeDeletion
  split_ifs with hauth
  · exact Proc.guarantees_raise fun s hs e _ => hs
  refine Proc.guarantees_get fun s hs => ?_
  have hkeep : ∀ w, s = w → v.caseData w = data := fun w hw => hw ▸ hs
  cases repo.getRequest identity.tenant requestId s with
  | none => exact Proc.guarantees_raise fun w hw e _ => hkeep w hw
  | some request =>
    dsimp only
    split_ifs with hcomp
    · exact Proc.guarantees_pure fun w hw e _ => hkeep w hw
    cases request.decisionId with
    | none => exact Proc.guarantees_raise fun w hw e _ => hkeep w hw
    | some decisionId =>
      refine Proc.guarantees_get fun u hu => ?_
      subst hu
      cases repo.activeHold identity.tenant decisionId s with
      | true =>
        refine ((record_keeps g hl _ _ identity corr _ data).mono hkeep).post ?_
        exact fun r w hw e _ => hw
      | false =>
        refine ((record_keeps g hl _ _ identity corr _ data).mono hkeep).bind (fun reply => ?_) ?_
        · cases reply with
          | changed b => exact Proc.guarantees_pure fun w hw e _ => hw
          | request executing => exact finishDeletion_raises g hl executing identity corr data
        · exact fun e w hw e' _ => hw

end Raising

/-! ## One execution on PostgreSQL -/

/-- The event an execution records first, read at the clock `t`. -/
def executingEvent (g : Digests) (request : DeletionRequest) (corr t : String) : LifecycleEvent :=
  makeEvent g request.tenantId request.requestId request.caseRefHash "data.deletion-executing" t
    request.reasonCode corr request.actorHash (some request.eventHash)

/-- The event it records with the deletion, read at the clock `t'`. -/
def completedEvent (g : Digests) (request : DeletionRequest) (corr t t' : String) :
    LifecycleEvent :=
  makeEvent g request.tenantId request.requestId request.caseRefHash "data.deletion-completed" t'
    request.reasonCode corr request.actorHash (some (executingEvent g request corr t).eventHash)

theorem executingEvent_ne_completedEvent (g : Digests) (request : DeletionRequest)
    (corr t t' : String) : (executingEvent g request corr t).eventId ≠
      (completedEvent g request corr t t').eventId := by
  intro h
  have hchars := congrArg String.toList h
  simp only [executingEvent, completedEvent, makeEvent, String.toList_append,
    List.append_assoc] at hchars
  have htail := List.append_cancel_left (List.append_cancel_left hchars)
  have htype := (List.append_inj htail (by decide)).1
  exact absurd htype (by decide)

section Execution

variable {δ : Type} (isoformat : String → String)

theorem lastOf_append_self (events : List LifecycleEvent) (e : LifecycleEvent) :
    lastOf (events ++ [e]) e.tenantId e.requestId = some e := by
  rw [lastOf, List.filter_append, List.filter_singleton, List.getLast?_append]
  simp only [decide_true, Bool.and_self, cond_true, List.getLast?_singleton, Option.some_or]

/-- The store after the transition of a stored request was recorded. -/
def PostgresStore.recorded (r : DeletionRequest) (e : LifecycleEvent) (s : PostgresStore δ) :
    PostgresStore δ :=
  { s.updateRequest r with events := s.events ++ [e] }

theorem persistTransition_current {s : PostgresStore δ} {r current : DeletionRequest}
    {e : LifecycleEvent} (hcur : s.request isoformat r.key = some current)
    (hprev : e.previousEventHash = some current.eventHash) :
    PostgresStore.persistTransition isoformat r e (some current.status) s =
      if s.eventRecorded e then
        .error (.integrity "lifecycle_audit_events_tenant_id_event_id_key")
      else .ok (.request r, s.recorded r e) := by
  have hcheck : persistCheck (s.request isoformat r.key) r e (some current.status) = .ok none := by
    simp only [persistCheck, hcur, ne_eq, not_true_eq_false, if_false, hprev]
  have hwrite : s.writeRequest isoformat r = .ok (s.updateRequest r) := by
    rw [PostgresStore.writeRequest, hcur, Option.isSome_some, if_pos rfl]
  unfold PostgresStore.persistTransition
  simp only [hcheck, hwrite, ok_bind, PostgresStore.appendEvent]
  by_cases hused : s.eventRecorded e = true
  · have hused' : (s.updateRequest r).eventRecorded e = true := hused
    rw [if_pos hused, if_pos hused', error_bind]
  · have hused' : ¬ (s.updateRequest r).eventRecorded e = true := hused
    rw [if_neg hused, if_neg hused', ok_bind]
    rfl

theorem eventRecorded_recorded (s : PostgresStore δ) (r : DeletionRequest)
    {e e' : LifecycleEvent} (h : e.eventId ≠ e'.eventId) :
    (s.recorded r e).eventRecorded e' = s.eventRecorded e' := by
  rw [PostgresStore.eventRecorded, PostgresStore.recorded, List.any_append, List.any_cons,
    List.any_nil, decide_eq_false h, Bool.and_false, Bool.or_false, Bool.or_false]
  rfl

theorem request_recorded {s : PostgresStore δ} {r current : DeletionRequest}
    {e : LifecycleEvent} (hcur : s.request isoformat r.key = some current)
    (hkey : (e.tenantId, e.requestId) = r.key) : ∃ current',
      (s.recorded r e).request isoformat r.key = some current' ∧ current'.status = r.status ∧
        current'.decisionId = r.decisionId ∧ current'.eventHash = e.eventHash := by
  obtain ⟨row, hrow, -⟩ := Option.map_eq_some_iff.mp hcur
  have hrowkey := key_of_lookup hrow
  have hkeep : ∀ row : RequestRow, decide (row.key = r.key) = true →
      (row.setFrom r).key = row.key := fun _ _ => rfl
  have hrow' : lookup RequestRow.key r.key (s.recorded r e).requests = some (row.setFrom r) := by
    rw [PostgresStore.recorded, PostgresStore.updateRequest, lookup_updateWhere hkeep, hrow,
      Option.map_some, if_pos (decide_eq_true hrowkey)]
  refine ⟨(s.recorded r e).read isoformat (row.setFrom r), ?_, rfl, rfl, ?_⟩
  · rw [PostgresStore.request, hrow']
    rfl
  · have htip : lastOf (s.recorded r e).events row.tenantId row.requestId = some e := by
      obtain ⟨htenant, hid⟩ := Prod.mk.inj (hkey.trans hrowkey.symm)
      rw [← htenant, ← hid]
      exact lastOf_append_self s.events e
    change (Option.map _ (lastOf (s.recorded r e).events row.tenantId row.requestId)).getD "" = _
    rw [htip]
    rfl

section Calls

variable {σ : Type} {g : Digests} {repo : LifecycleRepository σ} {request : DeletionRequest}
  {eventType corr : String} {identity : Identity} {expected : Option DeletionStatus}

theorem event_run (k : LifecycleEvent → ServiceProc σ Reply) (c : ℕ → String) (s : σ) :
    (event g repo request eventType identity corr >>= k).run c s =
      (k (makeEvent g identity.tenant.tenantId request.requestId request.caseRefHash eventType (c 0)
        request.reasonCode corr request.actorHash
        ((repo.lastEvent identity.tenant request.requestId s).map
          LifecycleEvent.eventHash))).run (fun n => c (n + 1)) s := rfl

theorem record_bind (k : Reply → ServiceProc σ Reply) :
    (record g repo request eventType identity corr expected >>= k) =
      event g repo request eventType identity corr >>= fun e =>
        Proc.commit (repo.persistTransition (request.withEvent e) e expected) >>= k := rfl

/-- A recorded transition, run in a store in which the next event of the request is `e`. -/
theorem record_run_ok {k : Reply → ServiceProc σ Reply} {c : ℕ → String} {s s' : σ}
    {e : LifecycleEvent} {r : Reply}
    (he : e = makeEvent g identity.tenant.tenantId request.requestId request.caseRefHash eventType
      (c 0) request.reasonCode corr request.actorHash
      ((repo.lastEvent identity.tenant request.requestId s).map LifecycleEvent.eventHash))
    (h : repo.persistTransition (request.withEvent e) e expected s = .ok (r, s')) :
    (record g repo request eventType identity corr expected >>= k).run c s =
      (k r).run (fun n => c (n + 1)) s' := by
  subst he
  rw [record_bind, event_run]
  exact Proc.run_commit_ok h k _

theorem record_run_error {k : Reply → ServiceProc σ Reply} {c : ℕ → String} {s : σ}
    {e : LifecycleEvent} {err : LifecycleError}
    (he : e = makeEvent g identity.tenant.tenantId request.requestId request.caseRefHash eventType
      (c 0) request.reasonCode corr request.actorHash
      ((repo.lastEvent identity.tenant request.requestId s).map LifecycleEvent.eventHash))
    (h : repo.persistTransition (request.withEvent e) e expected s = .error err) :
    (record g repo request eventType identity corr expected >>= k).run c s = (.error err, s) := by
  subst he
  rw [record_bind, event_run]
  exact Proc.run_commit_error h k _

end Calls

variable [CaseTables δ]

/-- A stored request carries the hash of its last event. -/
theorem lastOf_of_tracked {s : PostgresStore δ} (ht : Tracked (postgresView isoformat) s)
    {k : RequestKey} {request : DeletionRequest} (h : s.request isoformat k = some request) :
    (lastOf s.events k.1 k.2).map LifecycleEvent.eventHash = some request.eventHash := by
  obtain ⟨row, hrow, rfl⟩ := Option.map_eq_some_iff.mp h
  obtain ⟨-, e, he, hkey⟩ := ht k (row.status, row.decisionId)
    (by rw [postgres_standing, hrow]; rfl)
  have hk := key_of_lookup hrow
  cases hlast : lastOf s.events k.1 k.2 with
  | none =>
    have hnone := List.getLast?_eq_none_iff.mp hlast
    have hmem : e ∈ s.events.filter fun e => e.tenantId = k.1 && e.requestId = k.2 := by
      refine List.mem_filter.mpr ⟨he, ?_⟩
      rw [← hkey, decide_eq_true rfl, decide_eq_true rfl, Bool.and_self]
    rw [hnone] at hmem
    cases hmem
  | some last =>
    subst hk
    have hrow' : lastOf s.events row.tenantId row.requestId = some last := hlast
    unfold PostgresStore.read PostgresStore.toRequest
    rw [hrow']
    rfl

theorem completeDeletion_executing {s : PostgresStore δ} {r current : DeletionRequest}
    {e : LifecycleEvent} {d : String} (hcur : s.request isoformat r.key = some current)
    (hexec : current.status = .executing) (hd : current.decisionId = some d)
    (hprev : e.previousEventHash = some current.eventHash) :
    PostgresStore.completeDeletion isoformat r e s =
      if s.held r.tenantId d then .error .legalHoldActive
      else if !CaseTables.hasCase s.tables r.tenantId d then .error .caseNotFound
      else if s.eventRecorded e then
        .error (.integrity "lifecycle_audit_events_tenant_id_event_id_key")
      else .ok (.request r, { s.recorded r e with
        tables := CaseTables.eraseCase s.tables r.tenantId d
        holds := deleteWhere (fun h => h.tenantId = r.tenantId && h.decisionId = d) s.holds }) := by
  have hcheck : completeCheck (s.request isoformat r.key) e = .ok (.inr d) := by
    simp only [completeCheck, hcur, hexec, hd, hprev, if_true]
  unfold PostgresStore.completeDeletion
  simp only [hcheck, PostgresStore.deleteCaseData]
  by_cases hheld : s.held r.tenantId d = true
  · rw [if_pos hheld, if_pos hheld, error_bind]
  rw [if_neg hheld, if_neg hheld]
  by_cases hcase : (!CaseTables.hasCase s.tables r.tenantId d) = true
  · rw [if_pos hcase, if_pos hcase, error_bind]
  rw [if_neg hcase, if_neg hcase, ok_bind]
  by_cases hused : s.eventRecorded e = true
  · rw [if_pos hused, PostgresStore.appendEvent, if_pos, error_bind]
    exact hused
  · rw [if_neg hused, PostgresStore.appendEvent, if_neg, ok_bind]
    · rfl
    · exact hused

/-- A call that returns the completed request. -/
def Completes (result : Raises Reply) : Prop :=
  ∃ r, result = .ok (.request r) ∧ r.status = .completed

theorem not_completes_error (e : LifecycleError) : ¬ Completes (.error e) := by
  rintro ⟨r, hr, -⟩
  cases hr

/-- The first half of an execution: the transition to EXECUTING. -/
theorem executeDeletion_run {g : Digests} {identity : Identity} {requestId corr d : String}
    {request : DeletionRequest} {s : PostgresStore δ} (c : ℕ → String)
    (ht : Tracked (postgresView isoformat) s) (hauth : identity.authorized .dataDelete = true)
    (hreq : s.request isoformat (identity.tenant.tenantId, requestId) = some request)
    (hopen : request.status ≠ .completed) (hd : request.decisionId = some d)
    (hheld : s.held identity.tenant.tenantId d = false) :
    (executeDeletion g (postgres isoformat δ) identity requestId corr).run c s =
      let e := executingEvent g request corr (c 0)
      let executing := (request.withStatus .executing false none false).withEvent e
      if s.eventRecorded e then
        (.error (.integrity "lifecycle_audit_events_tenant_id_event_id_key"), s)
      else (finishDeletion g (postgres isoformat δ) executing identity corr).run
        (fun n => c (n + 1)) (s.recorded executing e) := by
  have hkey : request.key = (identity.tenant.tenantId, requestId) := by
    exact (postgres_laws isoformat).request_key s _ _ hreq
  obtain ⟨htenant, hid⟩ := Prod.mk.inj hkey
  have htip := lastOf_of_tracked isoformat ht hreq
  have htip' : ((postgres isoformat δ).lastEvent identity.tenant request.requestId s).map
      LifecycleEvent.eventHash = some request.eventHash := hid ▸ htip
  have he : executingEvent g request corr (c 0) = makeEvent g identity.tenant.tenantId
      (request.withStatus .executing false none false).requestId
      (request.withStatus .executing false none false).caseRefHash "data.deletion-executing" (c 0)
      (request.withStatus .executing false none false).reasonCode corr
      (request.withStatus .executing false none false).actorHash
      (((postgres isoformat δ).lastEvent identity.tenant
        (request.withStatus .executing false none false).requestId s).map
          LifecycleEvent.eventHash) := by
    change _ = makeEvent g _ request.requestId request.caseRefHash _ _ request.reasonCode corr
      request.actorHash (((postgres isoformat δ).lastEvent _ request.requestId s).map _)
    rw [htip', executingEvent, htenant]
  have hget : (postgres isoformat δ).getRequest identity.tenant requestId s = some request := hreq
  have hhold : (postgres isoformat δ).activeHold identity.tenant d s = false := hheld
  have hcur : s.request isoformat
      ((request.withStatus .executing false none false).withEvent
        (executingEvent g request corr (c 0))).key = some request := by
    rw [DeletionRequest.withEvent_key, DeletionRequest.withStatus_key, hkey]
    exact hreq
  have hpersist : (postgres isoformat δ).persistTransition _ _ _ s = _ :=
    persistTransition_current isoformat hcur (e := executingEvent g request corr (c 0)) rfl
  rw [executeDeletion, hauth]
  simp only [Bool.not_true, Bool.false_eq_true, if_false, Proc.run_get_bind, hget, hopen, hd, hhold]
  by_cases hused : s.eventRecorded (executingEvent g request corr (c 0)) = true
  · rw [if_pos hused] at hpersist
    rw [record_run_error he hpersist]
    simp only [hused, if_true]
  · rw [if_neg hused] at hpersist
    rw [record_run_ok he hpersist]
    simp only [hused, if_false, Bool.false_eq_true]

/-- The second half: it completes where the case has its row and the event is new. -/
theorem finishDeletion_completes {g : Digests} {identity : Identity} {corr d : String}
    {executing current : DeletionRequest} {e₁ : LifecycleEvent} {s : PostgresStore δ}
    (c : ℕ → String) (htenant : executing.tenantId = identity.tenant.tenantId)
    (hcur : s.request isoformat executing.key = some current)
    (hexec : current.status = .executing) (hd : current.decisionId = some d)
    (htip : lastOf s.events executing.tenantId executing.requestId = some e₁)
    (hhash : current.eventHash = e₁.eventHash) (hheld : s.held executing.tenantId d = false) :
    Completes ((finishDeletion g (postgres isoformat δ) executing identity corr).run c s).1 ↔
      CaseTables.hasCase s.tables executing.tenantId d = true ∧
        s.eventRecorded (makeEvent g executing.tenantId executing.requestId executing.caseRefHash
          "data.deletion-completed" (c 1) executing.reasonCode corr executing.actorHash
          (some e₁.eventHash)) = false := by
  have hlast : (postgres isoformat δ).lastEvent identity.tenant executing.requestId s = some e₁ := by
    rw [← htip, htenant]
    rfl
  generalize he : makeEvent g executing.tenantId executing.requestId executing.caseRefHash
    "data.deletion-completed" (c 1) executing.reasonCode corr executing.actorHash
    (some e₁.eventHash) = e
  have hprev : e.previousEventHash = some current.eventHash := by
    rw [← he, hhash]
    rfl
  have hfinish : ((finishDeletion g (postgres isoformat δ) executing identity corr).run c s) =
      (Proc.attempt ((postgres isoformat δ).completeDeletion
        ((executing.withStatus .completed false (some (c 0)) true).withEvent e) e) >>=
          settleDeletion g (postgres isoformat δ) executing identity corr).run
            (fun n => c (n + 2)) s := by
    have hlast' : (postgres isoformat δ).lastEvent identity.tenant
        (executing.withStatus .completed false (some (c 0)) true).requestId s = some e₁ := hlast
    rw [finishDeletion, Proc.run_now_bind, event_run, hlast', ← htenant, ← he]
    rfl
  have hcomplete : (postgres isoformat δ).completeDeletion
      ((executing.withStatus .completed false (some (c 0)) true).withEvent e) e s = _ :=
    completeDeletion_executing isoformat hcur hexec hd hprev
  have htenant' : ((executing.withStatus .completed false (some (c 0)) true).withEvent e).tenantId =
      executing.tenantId := rfl
  rw [htenant', hheld, if_neg Bool.false_ne_true] at hcomplete
  rw [hfinish]
  by_cases hcase : CaseTables.hasCase s.tables executing.tenantId d = true
  · rw [hcase, Bool.not_true, if_neg Bool.false_ne_true] at hcomplete
    by_cases hused : s.eventRecorded e = true
    · rw [if_pos hused] at hcomplete
      rw [Proc.run_attempt_error hcomplete, hused]
      exact iff_of_false (not_completes_error _) fun h => Bool.noConfusion h.2
    · rw [if_neg hused] at hcomplete
      rw [Proc.run_attempt_ok hcomplete]
      refine iff_of_true ⟨_, rfl, rfl⟩ ⟨hcase, ?_⟩
      simpa only [Bool.not_eq_true] using hused
  · rw [Bool.not_eq_true] at hcase
    rw [hcase, Bool.not_false, if_pos rfl] at hcomplete
    rw [Proc.run_attempt_error hcomplete, hcase]
    exact iff_of_false (not_completes_error _) fun h => Bool.noConfusion h.1

/-- The condition under which an execution completes a request: it is completed, or the case it
names has its row and the two events the execution records are new. -/
def CanComplete (g : Digests) (request : DeletionRequest) (corr t t' : String)
    (s : PostgresStore δ) : Prop :=
  request.status = .completed ∨ ∃ d, request.decisionId = some d ∧
    CaseTables.hasCase s.tables request.tenantId d = true ∧
    s.eventRecorded (executingEvent g request corr t) = false ∧
    s.eventRecorded (completedEvent g request corr t t') = false

theorem executeDeletion_completes_iff {g : Digests} {identity : Identity}
    {requestId corr : String} {request : DeletionRequest} {s : PostgresStore δ} (c : ℕ → String)
    (ht : Tracked (postgresView isoformat) s) (hauth : identity.authorized .dataDelete = true)
    (hreq : s.request isoformat (identity.tenant.tenantId, requestId) = some request)
    (hheld : ∀ d, request.decisionId = some d → s.held identity.tenant.tenantId d = false) :
    Completes ((executeDeletion g (postgres isoformat δ) identity requestId corr).run c s).1 ↔
      CanComplete g request corr (c 0) (c 2) s := by
  have hkey : request.key = (identity.tenant.tenantId, requestId) :=
    (postgres_laws isoformat).request_key s _ _ hreq
  obtain ⟨htenant, hid⟩ := Prod.mk.inj hkey
  by_cases hdone : request.status = .completed
  · have hget : (postgres isoformat δ).getRequest identity.tenant requestId s = some request := hreq
    rw [executeDeletion, hauth]
    simp only [Bool.not_true, Bool.false_eq_true, if_false, Proc.run_get_bind, hget, hdone, if_true]
    exact iff_of_true ⟨request, rfl, hdone⟩ (.inl hdone)
  have hnames := ht.namesCase hreq
  obtain ⟨d, hd'⟩ := Option.isSome_iff_exists.mp (hnames hdone)
  have hd : request.decisionId = some d := hd'
  have hheld' := hheld d hd
  rw [executeDeletion_run isoformat c ht hauth hreq hdone hd hheld']
  have hiff : CanComplete g request corr (c 0) (c 2) s ↔
      s.eventRecorded (executingEvent g request corr (c 0)) = false ∧
        CaseTables.hasCase s.tables request.tenantId d = true ∧
        s.eventRecorded (completedEvent g request corr (c 0) (c 2)) = false := by
    constructor
    · rintro (h | ⟨d', hd', hcase, hexec, hcomp⟩)
      · exact absurd h hdone
      · rw [hd] at hd'
        cases hd'
        exact ⟨hexec, hcase, hcomp⟩
    · rintro ⟨hexec, hcase, hcomp⟩
      exact .inr ⟨d, hd, hcase, hexec, hcomp⟩
  rw [hiff]
  dsimp only
  by_cases hused : s.eventRecorded (executingEvent g request corr (c 0)) = true
  · rw [if_pos hused, hused]
    exact iff_of_false (not_completes_error _) fun h => Bool.noConfusion h.1
  rw [if_neg hused]
  rw [Bool.not_eq_true] at hused
  generalize he : executingEvent g request corr (c 0) = e at hused ⊢
  generalize hx : (request.withStatus .executing false none false).withEvent e = executing
  have hxkey : executing.key = request.key := by rw [← hx]; rfl
  have hxtenant : executing.tenantId = identity.tenant.tenantId := by rw [← hx]; exact htenant
  have hxstatus : executing.status = .executing := by rw [← hx]; rfl
  have hxd : executing.decisionId = some d := by rw [← hx]; exact hd
  have hekey : (e.tenantId, e.requestId) = executing.key := by rw [← he, hxkey]; rfl
  have hcomp : completedEvent g request corr (c 0) (c 2) = makeEvent g executing.tenantId
      executing.requestId executing.caseRefHash "data.deletion-completed" (c 2)
      executing.reasonCode corr executing.actorHash (some e.eventHash) := by
    rw [← hx, completedEvent, he]
    rfl
  have hcur₀ : s.request isoformat executing.key = some request := by
    rw [hxkey, hkey]
    exact hreq
  obtain ⟨current, hcur, hstatus, hcd, hhash⟩ := request_recorded isoformat hcur₀ hekey
  have htip : lastOf (s.recorded executing e).events executing.tenantId executing.requestId =
      some e := by
    obtain ⟨htn, hrq⟩ := Prod.mk.inj hekey
    rw [← htn, ← hrq]
    exact lastOf_append_self s.events e
  have hfinish : Completes ((finishDeletion g (postgres isoformat δ) executing identity corr).run
      (fun n => c (n + 1)) (s.recorded executing e)).1 ↔ _ :=
    finishDeletion_completes isoformat _ hxtenant hcur (hstatus.trans hxstatus) (hcd.trans hxd)
      htip hhash (hxtenant ▸ hheld')
  have hrecorded := eventRecorded_recorded s executing
    (he ▸ executingEvent_ne_completedEvent g request corr (c 0) (c 2))
  rw [hfinish, ← hcomp, hrecorded, htenant, hxtenant]
  exact ⟨fun h => ⟨hused, h⟩, fun h => h.2⟩

/-- A store some interleaving of service calls leads to from one without deletion requests. -/
def Reachable (g : Digests) (s : PostgresStore δ) : Prop :=
  ∃ s₀ tr sys, s₀.requests = [] ∧ s₀.events = [] ∧ sys.shared = s ∧
    Run (SystemStep (ServiceCall g (postgres isoformat δ))) (System.idle s₀) tr sys

/-- Every execution in the store, made while no hold is active, completes its request exactly
when it can be completed. -/
def ResumesExactly (g : Digests) (s : PostgresStore δ) : Prop :=
  ∀ (later : Identity) (requestId corr : String) (c : ℕ → String) (request : DeletionRequest),
    later.authorized .dataDelete = true →
    s.request isoformat (later.tenant.tenantId, requestId) = some request →
    (∀ d, request.decisionId = some d → s.held later.tenant.tenantId d = false) →
    (Completes ((executeDeletion g (postgres isoformat δ) later requestId corr).run c s).1 ↔
      CanComplete g request corr (c 0) (c 2) s)

theorem Reachable.tracked {g : Digests} {s : PostgresStore δ} (h : Reachable isoformat g s) :
    Tracked (postgresView isoformat) s := by
  obtain ⟨s₀, tr, sys, hreq, -, rfl, hr⟩ := h
  refine (safeWrite_of_run g (postgres_laws isoformat) (tracked_of_empty fun k => ?_) hr).1
  change (lookup _ _ s₀.requests).map _ = none
  rw [hreq]
  rfl

theorem resumesExactly_of_tracked {g : Digests} {s : PostgresStore δ}
    (ht : Tracked (postgresView isoformat) s) : ResumesExactly isoformat g s :=
  fun _ _ _ c _ hauth hreq hheld => executeDeletion_completes_iff isoformat c ht hauth hreq hheld

/-- In every reachable store a later execution completes a request exactly when its case has
its row and its events are new; a call that raises leaves the rows of cases and the requests
in place, so the same holds in the store it leaves. -/
theorem deletion_resumes_iff (g : Digests) {s : PostgresStore δ} (hs : Reachable isoformat g s) :
    ResumesExactly isoformat g s ∧
    ∀ identity requestId corr c err s',
      (executeDeletion g (postgres isoformat δ) identity requestId corr).run c s =
        (.error err, s') →
      s'.tables = s.tables ∧ (∀ k, (s.request isoformat k).isSome →
        (s'.request isoformat k).isSome) ∧ ResumesExactly isoformat g s' := by
  have ht := hs.tracked
  refine ⟨resumesExactly_of_tracked isoformat ht, ?_⟩
  intro identity requestId corr c err s' hraise
  obtain ⟨tr, hr⟩ := run_alone (ServiceCall g (postgres isoformat δ)) 0
    (ServiceCall.executeDeletion identity requestId corr) c s
  rw [hraise] at hr
  obtain ⟨ht', hkept, -⟩ := safeWrite_of_run g (postgres_laws isoformat) ht hr
  have htables := (executeDeletion_raises g (postgres_laws isoformat) identity requestId corr
    s.tables).run (s := s) rfl c
  rw [hraise] at htables
  refine ⟨htables err rfl, fun k hk => ?_, resumesExactly_of_tracked isoformat ht'⟩
  have hstored := hkept.stored k (by rw [StoreView.standing, Option.isSome_map]; exact hk)
  rwa [StoreView.standing, Option.isSome_map] at hstored

end Execution

/-! ## Two requests for one case -/

attribute [local instance] caseRows

abbrev execution (requestId : String) :
    ServiceProc (PostgresStore (List (String × String))) Reply :=
  executeDeletion plainDigests pilotRepository tenantAdmin requestId "corr"

def twiceRequested : PostgresStore (List (String × String)) :=
  ((requestDeletion plainDigests pilotRepository tenantAdmin "case-1" "OBSOLETE" "key-2"
    "corr").run (fun _ => "t2") requested).2

def onceExecuted : PostgresStore (List (String × String)) :=
  ((execution "delete-key-1").run (fun _ => "t3") twiceRequested).2

def stuck : PostgresStore (List (String × String)) :=
  ((execution "delete-key-2").run (fun _ => "t4") onceExecuted).2

theorem onceExecuted_reachable : Reachable id plainDigests onceExecuted := by
  obtain ⟨tr₁, hr₁⟩ := run_alone (ServiceCall plainDigests pilotRepository) 0
    (ServiceCall.requestDeletion tenantAdmin "case-1" "OBSOLETE" "key-1" "corr")
    (fun _ => "t1") oneCase
  obtain ⟨tr₂, hr₂⟩ := run_alone (ServiceCall plainDigests pilotRepository) 0
    (ServiceCall.requestDeletion tenantAdmin "case-1" "OBSOLETE" "key-2" "corr")
    (fun _ => "t2") requested
  obtain ⟨tr₃, hr₃⟩ := run_alone (ServiceCall plainDigests pilotRepository) 0
    (ServiceCall.executeDeletion tenantAdmin "delete-key-1" "corr") (fun _ => "t3") twiceRequested
  exact ⟨oneCase, _, System.idle onceExecuted, rfl, rfl, System.idle_shared onceExecuted,
    (hr₁.append hr₂).append hr₃⟩

/-- The second of two requests for one case raises CASE_NOT_FOUND, stays in EXECUTING and
cannot be completed. -/
theorem deletion_stuck : Reachable id plainDigests onceExecuted ∧
    ((execution "delete-key-2").run (fun _ => "t4") onceExecuted).1 = .error .caseNotFound ∧
    stuck.requests.map (fun row => (row.requestId, row.status)) =
      [("delete-key-1", .completed), ("delete-key-2", .executing)] ∧
    stuck.held "tenant-a" "case-1" = false ∧
    ((execution "delete-key-2").run (fun _ => "t5") stuck).1 = .error .caseNotFound :=
  ⟨onceExecuted_reachable, by decide +kernel⟩

theorem deletion_resumes_iff_onceExecuted : ResumesExactly id plainDigests onceExecuted :=
  (deletion_resumes_iff id plainDigests onceExecuted_reachable).1

end DecisionAssurance.Lifecycle
