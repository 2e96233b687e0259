import Mathlib.Data.Prod.Lex
import DecisionAssurance.ApprovalBinding
import DecisionAssurance.ExportTotality
import DecisionAssurance.IsoTimes
import DecisionAssurance.JsonReaders
import DecisionAssurance.LifecycleChains

/-!
# Exported lifecycle events

`PostgresExportRepository.snapshot` puts the events of the deletion requests and of the holds of a
case in the order of their times. The validator wants the events of each request and of each hold
in the order in which they were written, and the two orders agree only where the clocks of the
instances that wrote them did not go back.
-/

namespace DecisionAssurance.Lifecycle

open Interleaving Runs Tables Chains

/-! ## The snapshot -/

/-- A row of the two tables of events; `sequence` numbers the rows of one table. -/
structure ExportRow where
  event : LifecycleEvent
  sourceOrder : ℕ
  sequence : ℕ

section Snapshot

variable (instant : String → ℤ)

/-- `ORDER BY occurred_at, source_order, sequence`, where a column of times keeps the instant of
its text. -/
def ExportRow.key (row : ExportRow) : ℤ ×ₗ ℕ ×ₗ ℕ :=
  toLex (instant row.event.occurredAt, toLex (row.sourceOrder, row.sequence))

/-- The rows of a table with these ids. -/
def selectRows (sourceOrder : ℕ) (tenantId : String) (ids : List String)
    (events : List LifecycleEvent) : List ExportRow :=
  (events.zipIdx.filter fun p => p.1.tenantId = tenantId && p.1.requestId ∈ ids).map
    fun p => ⟨p.1, sourceOrder, p.2⟩

variable {δ : Type}

def requestIds (s : PostgresStore δ) (tenantId decisionId : String) : List String :=
  (s.requests.filter fun row => row.tenantId = tenantId && row.decisionId = some decisionId).map
    RequestRow.requestId

def holdIds (s : PostgresStore δ) (tenantId decisionId : String) : List String :=
  (s.holds.filter fun row => row.tenantId = tenantId && row.decisionId = decisionId).map
    HoldRow.holdId

def exportRows (s : PostgresStore δ) (tenantId decisionId : String) : List ExportRow :=
  selectRows 1 tenantId (requestIds s tenantId decisionId) s.events ++
    selectRows 0 tenantId (holdIds s tenantId decisionId) s.holdEvents

/-- The events of a case, in the order of the export. -/
def exportedEvents (s : PostgresStore δ) (tenantId decisionId : String) : List LifecycleEvent :=
  ((exportRows s tenantId decisionId).insertionSort
    fun a b => a.key instant ≤ b.key instant).map ExportRow.event

/-- `{**dict(row["event_json"]), "event_hash": row["event_hash"]}`, where `jsonb` puts the keys of
a dictionary in an order of its own. -/
def LifecycleEvent.exported (o : KeyOrder) (e : LifecycleEvent) : List (String × Json) :=
  (e.payload.reread o .float).asObject.getD [] ++ [("event_hash", .str e.eventHash)]

/-- The lifecycle events of `PostgresExportRepository.snapshot`; there are none without a case. -/
def snapshotEvents [CaseTables δ] (o : KeyOrder) (s : PostgresStore δ)
    (tenantId decisionId : String) : Option (List (List (String × Json))) :=
  if CaseTables.hasCase s.tables tenantId decisionId then
    some ((exportedEvents instant s tenantId decisionId).map (LifecycleEvent.exported o))
  else none

end Snapshot

/-! ## The events of holds -/

section Keyed

variable {δ : Type} {g : Digests}

/-- Only holds have events in `legal_hold_audit_events`. -/
def HoldKeyed (g : Digests) (s : PostgresStore δ) : Prop :=
  ∀ e ∈ s.holdEvents, ∃ tenant decisionId, eventKey e = holdKey g tenant decisionId

def KeyedKept (g : Digests) (s s' : PostgresStore δ) : Prop := HoldKeyed g s → HoldKeyed g s'

abbrev KeepsKeys (g : Digests) {α : Type} (Q : Raises α → Prop)
    (p : ServiceProc (PostgresStore δ) α) : Prop :=
  p.Guarantees (KeyedKept g) (KeyedKept g) (fun r _ => Q r) fun _ => True

theorem keepsKeys_raise {α : Type} {Q : Raises α → Prop} {e : LifecycleError} (h : Q (.error e)) :
    KeepsKeys g Q (Proc.raise e : ServiceProc (PostgresStore δ) α) :=
  Proc.guarantees_raise fun _ _ => h

theorem keepsKeys_pure {α : Type} {Q : Raises α → Prop} {a : α} (h : Q (.ok a)) :
    KeepsKeys g Q (pure a : ServiceProc (PostgresStore δ) α) :=
  Proc.guarantees_pure fun _ _ => h

theorem keepsKeys_get {α β : Type} {f : PostgresStore δ → α}
    {k : α → ServiceProc (PostgresStore δ) β} {Q : Raises β → Prop}
    (h : ∀ a, KeepsKeys g Q (k a)) : KeepsKeys g Q (Proc.get f >>= k) :=
  Proc.guarantees_get fun s _ => (h (f s)).mono fun _ _ => trivial

theorem keepsKeys_now {β : Type} {k : String → ServiceProc (PostgresStore δ) β}
    {Q : Raises β → Prop} (h : ∀ t, KeepsKeys g Q (k t)) : KeepsKeys g Q (Proc.now >>= k) :=
  Proc.guarantees_now h

theorem keepsKeys_bind {α β : Type} {Q : Raises α → Prop} {Q' : Raises β → Prop}
    {p : ServiceProc (PostgresStore δ) α} {f : α → ServiceProc (PostgresStore δ) β}
    (h : KeepsKeys g Q p) (hok : ∀ a, Q (.ok a) → KeepsKeys g Q' (f a))
    (herror : ∀ e, Q' (.error e)) : KeepsKeys g Q' (p >>= f) := by
  refine Proc.Guarantees.bind h (fun a => ?_) fun e _ _ => herror e
  exact (Proc.Guarantees.assume (hok a)).mono fun _ ha => ⟨trivial, ha⟩

theorem keepsKeys_commit {w : PostgresStore δ → Raises (Reply × PostgresStore δ)}
    (h : ∀ s r s', w s = .ok (r, s') → KeyedKept g s s') :
    KeepsKeys g (fun _ => True) (Proc.commit w) :=
  Proc.guarantees_commit (fun s r s' _ hw => ⟨h s r s' hw, fun _ _ => trivial⟩)
    fun _ _ _ _ _ _ => trivial

/-- A write that leaves the events of holds alone. -/
theorem keyedKept_of_eq {s s' : PostgresStore δ} (h : s'.holdEvents = s.holdEvents) :
    KeyedKept g s s' := by
  intro hs e he
  rw [h] at he
  exact hs e he

theorem keyedKept_append {s s' : PostgresStore δ} {e : LifecycleEvent} {tenant : TenantContext}
    {decisionId : String} (hkey : eventKey e = holdKey g tenant decisionId)
    (h : s'.holdEvents = s.holdEvents ++ [e]) : KeyedKept g s s' := by
  intro hs e' he'
  rw [h] at he'
  rcases List.mem_append.mp he' with he' | he'
  · exact hs e' he'
  · rw [List.mem_singleton.mp he']
    exact ⟨tenant, decisionId, hkey⟩

variable {isoformat : String → String}

theorem persistTransition_holdEvents {r : DeletionRequest} {e : LifecycleEvent}
    {expected : Option DeletionStatus} {s s' : PostgresStore δ} {reply : Reply}
    (h : s.persistTransition isoformat r e expected = .ok (reply, s')) :
    s'.holdEvents = s.holdEvents := by
  unfold PostgresStore.persistTransition at h
  split at h
  · cases h
  · cases h
    rfl
  · obtain ⟨s₁, hs₁, h⟩ := bind_ok_cases h
    obtain ⟨s₂, hs₂, h⟩ := bind_ok_cases h
    cases h
    rw [appendEvent_cases hs₂]
    exact (writesRow_of_writeRequest isoformat hs₁).holdEvents

variable [CaseTables δ]

theorem completeDeletion_holdEvents {r : DeletionRequest} {e : LifecycleEvent}
    {s s' : PostgresStore δ} {reply : Reply}
    (h : s.completeDeletion isoformat r e = .ok (reply, s')) : s'.holdEvents = s.holdEvents := by
  unfold PostgresStore.completeDeletion at h
  split at h
  · cases h
  · cases h
    rfl
  · obtain ⟨s₁, hs₁, h⟩ := bind_ok_cases h
    obtain ⟨s₂, hs₂, h⟩ := bind_ok_cases h
    cases h
    obtain ⟨-, -, rfl⟩ := deleteCaseData_cases hs₁
    rw [appendEvent_cases hs₂]
    rfl

theorem setHold_keyed {tenant : TenantContext} {decisionId holdId actorHash reasonCode occurredAt :
    String} {e : LifecycleEvent} {s s' : PostgresStore δ} {reply : Reply}
    (hkey : eventKey e = holdKey g tenant decisionId)
    (h : s.setHold tenant decisionId holdId actorHash reasonCode occurredAt e = .ok (reply, s')) :
    KeyedKept g s s' := by
  unfold PostgresStore.setHold at h
  dsimp only at h
  split_ifs at h
  · cases h
    exact keyedKept_of_eq rfl
  · obtain ⟨s₁, hs₁, h⟩ := bind_ok_cases h
    cases h
    rw [appendHoldEvent_cases hs₁]
    exact keyedKept_append hkey rfl

omit [CaseTables δ] in
theorem releaseHold_keyed {tenant : TenantContext} {decisionId actorHash occurredAt : String}
    {e : LifecycleEvent} {s s' : PostgresStore δ} {reply : Reply}
    (hkey : eventKey e = holdKey g tenant decisionId)
    (h : s.releaseHold tenant decisionId actorHash occurredAt e = .ok (reply, s')) :
    KeyedKept g s s' := by
  unfold PostgresStore.releaseHold at h
  split_ifs at h
  · cases h
    exact keyedKept_of_eq rfl
  · obtain ⟨s₁, hs₁, h⟩ := bind_ok_cases h
    cases h
    rw [appendHoldEvent_cases hs₁]
    exact keyedKept_append hkey rfl

/-! ## The calls -/

variable (g isoformat) in
theorem record_keyed (request : DeletionRequest) (eventType : String) (identity : Identity)
    (corr : String) (expected : Option DeletionStatus) :
    KeepsKeys g (fun _ => True)
      (record g (postgres isoformat δ) request eventType identity corr expected) := by
  have hevent : KeepsKeys g (fun _ => True)
      (event g (postgres isoformat δ) request eventType identity corr) :=
    keepsKeys_get fun _ => keepsKeys_now fun _ => keepsKeys_pure trivial
  refine keepsKeys_bind hevent (fun e _ => keepsKeys_commit fun s r s' hw => ?_) fun _ => trivial
  exact keyedKept_of_eq (persistTransition_holdEvents hw)

theorem finishDeletion_keyed (executing : DeletionRequest) (identity : Identity) (corr : String) :
    KeepsKeys g (fun _ => True)
      (finishDeletion g (postgres isoformat δ) executing identity corr) := by
  have hevent (request : DeletionRequest) (eventType : String) : KeepsKeys g (fun _ => True)
      (event g (postgres isoformat δ) request eventType identity corr) :=
    keepsKeys_get fun _ => keepsKeys_now fun _ => keepsKeys_pure trivial
  refine keepsKeys_now fun t => keepsKeys_bind (hevent _ _) (fun e _ => ?_) fun _ => trivial
  refine Proc.guarantees_attempt (fun s r s' _ hw => ?_) fun s err _ _ => ?_
  · refine ⟨keyedKept_of_eq (completeDeletion_holdEvents hw), ?_⟩
    exact (keepsKeys_pure trivial).mono fun _ _ => trivial
  · refine Proc.Guarantees.mono ?_ fun _ _ => trivial
    cases err with
    | legalHoldActive => exact record_keyed g isoformat _ _ identity corr _
    | _ => exact keepsKeys_raise trivial

theorem requestDeletion_keyed (identity : Identity)
    (decisionId reasonCode idempotencyKey corr : String) :
    KeepsKeys g (fun _ => True) (requestDeletion g (postgres isoformat δ) identity decisionId
      reasonCode idempotencyKey corr) := by
  unfold requestDeletion
  split_ifs
  · exact keepsKeys_raise trivial
  refine keepsKeys_get fun replay => ?_
  cases replay with
  | some replay =>
    dsimp only
    split_ifs
    · exact keepsKeys_raise trivial
    · exact keepsKeys_pure trivial
  | none =>
    refine keepsKeys_get fun found => ?_
    split_ifs
    · exact keepsKeys_raise trivial
    · exact keepsKeys_now fun t => keepsKeys_get fun hold =>
        record_keyed g isoformat _ _ identity corr _

theorem executeDeletion_keyed (identity : Identity) (requestId corr : String) :
    KeepsKeys g (fun _ => True)
      (executeDeletion g (postgres isoformat δ) identity requestId corr) := by
  unfold executeDeletion
  split_ifs
  · exact keepsKeys_raise trivial
  refine keepsKeys_get fun request => ?_
  cases request with
  | none => exact keepsKeys_raise trivial
  | some request =>
    dsimp only
    split_ifs
    · exact keepsKeys_pure trivial
    cases request.decisionId with
    | none => exact keepsKeys_raise trivial
    | some decisionId =>
      refine keepsKeys_get fun hold => ?_
      cases hold with
      | true => exact record_keyed g isoformat _ _ identity corr _
      | false =>
        refine keepsKeys_bind (record_keyed g isoformat _ _ identity corr _) (fun x _ => ?_)
          fun _ => trivial
        cases x with
        | changed b => exact keepsKeys_pure trivial
        | request executing => exact finishDeletion_keyed executing identity corr

theorem holdEvent_keyed (identity : Identity) (decisionId eventType reasonCode corr : String) :
    KeepsKeys g (fun r => ∀ e, r = .ok e → eventKey e = holdKey g identity.tenant decisionId)
      (holdEvent g (postgres isoformat δ) identity decisionId
        (holdIdOf g identity.tenant decisionId) eventType reasonCode corr) := by
  refine keepsKeys_get fun prior => keepsKeys_now fun t => keepsKeys_pure fun e he => ?_
  cases he
  rfl

theorem placeLegalHold_keyed (identity : Identity) (decisionId reasonCode corr : String) :
    KeepsKeys g (fun _ => True)
      (placeLegalHold g (postgres isoformat δ) identity decisionId reasonCode corr) := by
  unfold placeLegalHold
  split_ifs
  · exact keepsKeys_raise trivial
  refine keepsKeys_get fun found => ?_
  split_ifs
  · exact keepsKeys_raise trivial
  refine keepsKeys_bind (holdEvent_keyed identity decisionId _ reasonCode corr)
    (fun e he => ?_) fun _ => trivial
  exact keepsKeys_commit fun s r s' hw => setHold_keyed (he e rfl) hw

theorem releaseLegalHold_keyed (identity : Identity) (decisionId corr : String) :
    KeepsKeys g (fun _ => True)
      (releaseLegalHold g (postgres isoformat δ) identity decisionId corr) := by
  unfold releaseLegalHold
  split_ifs
  · exact keepsKeys_raise trivial
  refine keepsKeys_bind (holdEvent_keyed identity decisionId _ _ corr) (fun e he => ?_)
    fun _ => trivial
  exact keepsKeys_commit fun s r s' hw => releaseHold_keyed (he e rfl) hw

theorem serviceCall_keyed {p : ServiceProc (PostgresStore δ) Reply}
    (h : ServiceCall g (postgres isoformat δ) p) : KeepsKeys g (fun _ => True) p := by
  cases h with
  | requestDeletion => exact requestDeletion_keyed ..
  | executeDeletion => exact executeDeletion_keyed ..
  | placeLegalHold => exact placeLegalHold_keyed ..
  | releaseLegalHold => exact releaseLegalHold_keyed ..

/-- After any calls, the events of holds are those of holds. -/
theorem holdKeyed_of_run {tables : δ} {tr : ServiceTrace (PostgresStore δ)}
    {sys : ServiceSystem (PostgresStore δ)}
    (hr : Run (SystemStep (ServiceCall g (postgres isoformat δ)))
      (System.idle ⟨tables, [], [], [], []⟩) tr sys) : HoldKeyed g sys.shared := by
  have hinv := guarantee_of_run (R := KeyedKept g) (G := KeyedKept g) (I := HoldKeyed g)
    (Q := fun _ _ => True) (fun _ h => h) (fun _ _ _ h h' hs => h' (h hs)) (fun _ _ h => h)
    (fun _ _ hs h => h hs)
    (fun p hp => (serviceCall_keyed hp).mono fun _ _ => trivial) ?_ (fun _ => rfl) hr
  · exact hinv.1
  · intro e he
    cases he

end Keyed

/-! ## The rows of a table -/

section Rows

variable {sourceOrder : ℕ} {tenantId id : String} {ids : List String}
  {events : List LifecycleEvent}

theorem map_fst_filter_zipIdx (f : LifecycleEvent → Bool) (n : ℕ) :
    ((events.zipIdx n).filter fun p => f p.1).map Prod.fst = events.filter f := by
  induction events generalizing n with
  | nil => rfl
  | cons e events ih =>
    rw [List.zipIdx_cons, List.filter_cons, List.filter_cons]
    split_ifs
    · rw [List.map_cons, ih]
    · exact ih (n + 1)

theorem pairwise_zipIdx (n : ℕ) : (events.zipIdx n).Pairwise fun a b => a.2 < b.2 := by
  induction events generalizing n with
  | nil => exact .nil
  | cons e events ih =>
    rw [List.zipIdx_cons, List.pairwise_cons]
    exact ⟨fun p hp => List.le_snd_of_mem_zipIdx hp, ih (n + 1)⟩

theorem pairwise_selectRows :
    (selectRows sourceOrder tenantId ids events).Pairwise fun a b => a.sequence < b.sequence := by
  rw [selectRows, List.pairwise_map]
  exact (pairwise_zipIdx 0).filter _

theorem sourceOrder_selectRows {row : ExportRow}
    (h : row ∈ selectRows sourceOrder tenantId ids events) : row.sourceOrder = sourceOrder := by
  obtain ⟨p, -, rfl⟩ := List.mem_map.mp h
  rfl

def isOf (id : String) (row : ExportRow) : Bool := row.event.requestId = id

/-- The events of the rows of one request or of one hold. -/
theorem map_event_selectRows (hid : id ∈ ids) :
    ((selectRows sourceOrder tenantId ids events).filter (isOf id)).map ExportRow.event =
      eventsOf events (tenantId, id) := by
  rw [selectRows, List.filter_map, List.map_map, List.filter_filter, eventsOf]
  rw [← map_fst_filter_zipIdx (fun e => e.tenantId = tenantId && e.requestId = id) 0]
  have hsame : ∀ p : LifecycleEvent × ℕ, (decide (p.1.tenantId = tenantId) &&
      decide (p.1.requestId ∈ ids) && (isOf id ∘ fun p => ⟨p.1, sourceOrder, p.2⟩) p) =
        (decide (p.1.tenantId = tenantId) && decide (p.1.requestId = id)) := by
    intro p
    by_cases h : p.1.requestId = id
    · simp [isOf, h, hid]
    · simp [isOf, h]
  simp only [Bool.and_comm, ← hsame]
  rfl

theorem filter_selectRows_of_not_mem (hid : id ∉ ids) :
    (selectRows sourceOrder tenantId ids events).filter (isOf id) = [] := by
  rw [List.filter_eq_nil_iff]
  intro row hrow hof
  obtain ⟨p, hp, rfl⟩ := List.mem_map.mp hrow
  have hmem := (List.mem_filter.mp hp).2
  rw [isOf, decide_eq_true_eq] at hof
  rw [Bool.and_eq_true, decide_eq_true_eq, decide_eq_true_eq, hof] at hmem
  exact hid hmem.2

end Rows

/-! ## The order of the export -/

section Ordering

variable {instant : String → ℤ} {rows : List ExportRow}

/-- The times of events do not go back. -/
def InOrder (instant : String → ℤ) (events : List LifecycleEvent) : Prop :=
  events.Pairwise fun a b => instant a.occurredAt ≤ instant b.occurredAt

/-- Rows of one table, in the order of their numbers. -/
structure OneTable (rows : List ExportRow) : Prop where
  source : ∀ a ∈ rows, ∀ b ∈ rows, a.sourceOrder = b.sourceOrder
  sequence : rows.Pairwise fun a b => a.sequence < b.sequence

theorem instant_le_of_key {a b : ExportRow} (h : a.key instant ≤ b.key instant) :
    instant a.event.occurredAt ≤ instant b.event.occurredAt := by
  rcases Prod.Lex.toLex_le_toLex.mp h with h | h
  · exact h.le
  · exact h.1.le

theorem key_le_of_instant {a b : ExportRow} (hsource : a.sourceOrder = b.sourceOrder)
    (hsequence : a.sequence < b.sequence)
    (h : instant a.event.occurredAt ≤ instant b.event.occurredAt) :
    a.key instant ≤ b.key instant := by
  apply Prod.Lex.toLex_le_toLex.mpr
  rcases h.lt_or_eq with h | h
  · exact .inl h
  · exact .inr ⟨h, Prod.Lex.toLex_le_toLex.mpr (.inr ⟨hsource, hsequence.le⟩)⟩

theorem OneTable.eq_of_key (h : OneTable rows) {a b : ExportRow} (ha : a ∈ rows) (hb : b ∈ rows)
    (hkey : a.key instant = b.key instant) : a = b := by
  have hnodup : (rows.map ExportRow.sequence).Nodup := by
    rw [List.Nodup, List.pairwise_map]
    exact h.sequence.imp fun hlt => Nat.ne_of_lt hlt
  apply List.inj_on_of_nodup_map hnodup ha hb
  have hsecond := congrArg (fun k => (ofLex (ofLex k).2).2) hkey
  exact hsecond

variable (instant) in
/-- The rows in the order of the export. -/
def arranged (rows : List ExportRow) : List ExportRow :=
  rows.insertionSort fun a b => a.key instant ≤ b.key instant

theorem pairwise_arranged (p : ExportRow → Bool) :
    ((arranged instant rows).filter p).Pairwise fun a b => a.key instant ≤ b.key instant := by
  have htotal : Std.Total fun a b : ExportRow => a.key instant ≤ b.key instant :=
    ⟨fun a b => le_total (a.key instant) (b.key instant)⟩
  have htrans : IsTrans ExportRow fun a b => a.key instant ≤ b.key instant :=
    ⟨fun a b c h h' => le_trans h h'⟩
  exact (List.pairwise_insertionSort _ rows).filter p

theorem perm_arranged (p : ExportRow → Bool) :
    ((arranged instant rows).filter p).Perm (rows.filter p) :=
  (List.perm_insertionSort _ rows).filter p

theorem inOrder_arranged (p : ExportRow → Bool) :
    InOrder instant (((arranged instant rows).filter p).map ExportRow.event) := by
  rw [InOrder, List.pairwise_map]
  exact (pairwise_arranged p).imp instant_le_of_key

/-- Rows of one table whose times do not go back keep their order. -/
theorem arranged_eq (p : ExportRow → Bool) (htable : OneTable (rows.filter p))
    (h : InOrder instant ((rows.filter p).map ExportRow.event)) :
    (arranged instant rows).filter p = rows.filter p := by
  apply List.Perm.eq_of_pairwise _ (pairwise_arranged p) _ (perm_arranged p)
  · intro a b ha hb hab hba
    exact htable.eq_of_key ((perm_arranged p).mem_iff.mp ha) hb (le_antisymm hab hba)
  · rw [InOrder, List.pairwise_map] at h
    refine (htable.sequence.and h).imp_of_mem fun ha hb hab => ?_
    exact key_le_of_instant (htable.source _ ha _ hb) hab.1 hab.2

end Ordering

/-! ## The streams of a store -/

section Streams

variable {δ : Type} {g : Digests} {isoformat : String → String} {s : PostgresStore δ}
  {instant : String → ℤ} {tenantId decisionId id : String}

/-- In every exported stream the times do not go back from one event to the next one written. -/
structure Ordered (instant : String → ℤ) (s : PostgresStore δ) (tenantId decisionId : String) :
    Prop where
  requests : ∀ id ∈ requestIds s tenantId decisionId,
    InOrder instant (eventsOf s.events (tenantId, id))
  holds : ∀ id ∈ holdIds s tenantId decisionId,
    InOrder instant (eventsOf s.holdEvents (tenantId, id))

theorem isDeletionId_of_mem (hc : Chained g (postgresChains isoformat) s)
    (h : id ∈ requestIds s tenantId decisionId) : isDeletionId id = true := by
  obtain ⟨row, hrow, rfl⟩ := List.mem_map.mp h
  obtain ⟨hmem, hselected⟩ := List.mem_filter.mp hrow
  rw [Bool.and_eq_true, decide_eq_true_eq] at hselected
  have hsome : (lookup RequestRow.key row.key s.requests).isSome := by
    rw [lookup, List.find?_isSome]
    exact ⟨row, hmem, by simp⟩
  obtain ⟨found, hfound⟩ := Option.isSome_iff_exists.mp hsome
  have hrequest : (postgresChains isoformat).request s row.key =
      some (s.read isoformat found) := congrArg (Option.map (s.read isoformat)) hfound
  exact (hc.stored row.key _ hrequest).1

theorem holdEvents_of_deletion (hk : HoldKeyed g s) (hid : isDeletionId id = true) :
    eventsOf s.holdEvents (tenantId, id) = [] := by
  rw [eventsOf, List.filter_eq_nil_iff]
  intro e he hof
  obtain ⟨tenant, decisionId, hkey⟩ := hk e he
  have hhold := holdKey_not_deletion (g := g) tenant decisionId
  rw [← hkey] at hhold
  rw [Bool.and_eq_true, decide_eq_true_eq, decide_eq_true_eq] at hof
  rw [eventKey, hof.2, hid] at hhold
  cases hhold

/-- The exported rows of one id are the events of one request or of one hold. -/
theorem stream_cases (hc : Chained g (postgresChains isoformat) s) (hk : HoldKeyed g s)
    (tenantId decisionId id : String) :
    let rows := (exportRows s tenantId decisionId).filter (isOf id)
    OneTable rows ∧ ((id ∈ requestIds s tenantId decisionId ∧
        rows.map ExportRow.event = eventsOf s.events (tenantId, id) ∧ isDeletionId id = true) ∨
      (id ∈ holdIds s tenantId decisionId ∧
        rows.map ExportRow.event = eventsOf s.holdEvents (tenantId, id) ∧
          isDeletionId id = false) ∨ rows = []) := by
  intro rows
  have hrows : rows = (selectRows 1 tenantId (requestIds s tenantId decisionId) s.events).filter
      (isOf id) ++ (selectRows 0 tenantId (holdIds s tenantId decisionId) s.holdEvents).filter
        (isOf id) := List.filter_append _ _
  have hsingle (source : ℕ) (ids : List String) (events : List LifecycleEvent) :
      OneTable ((selectRows source tenantId ids events).filter (isOf id)) := by
    refine ⟨fun a ha b hb => ?_, pairwise_selectRows.filter _⟩
    rw [sourceOrder_selectRows (List.mem_of_mem_filter ha),
      sourceOrder_selectRows (List.mem_of_mem_filter hb)]
  have hdeletion : isDeletionId id = true →
      (selectRows 0 tenantId (holdIds s tenantId decisionId) s.holdEvents).filter (isOf id) =
        [] := by
    intro hid
    by_cases hhold : id ∈ holdIds s tenantId decisionId
    · have hevents : ((selectRows 0 tenantId (holdIds s tenantId decisionId)
          s.holdEvents).filter (isOf id)).map ExportRow.event =
            eventsOf s.holdEvents (tenantId, id) := map_event_selectRows hhold
      rw [holdEvents_of_deletion hk hid] at hevents
      exact List.map_eq_nil_iff.mp hevents
    · exact filter_selectRows_of_not_mem hhold
  by_cases hrequest : id ∈ requestIds s tenantId decisionId
  · have hid := isDeletionId_of_mem hc hrequest
    rw [hdeletion hid, List.append_nil] at hrows
    rw [hrows]
    exact ⟨hsingle _ _ _, .inl ⟨hrequest, map_event_selectRows hrequest, hid⟩⟩
  · rw [filter_selectRows_of_not_mem hrequest, List.nil_append] at hrows
    by_cases hhold : id ∈ holdIds s tenantId decisionId
    · cases hid : isDeletionId id with
      | true =>
        rw [hrows]
        exact ⟨hsingle _ _ _, .inr (.inr (hdeletion hid))⟩
      | false =>
        rw [hrows]
        exact ⟨hsingle _ _ _, .inr (.inl ⟨hhold, map_event_selectRows hhold, rfl⟩)⟩
    · rw [hrows]
      exact ⟨hsingle _ _ _, .inr (.inr (filter_selectRows_of_not_mem hhold))⟩

/-- The rows of every id are a chain in the order in which they were written. -/
theorem linear_stream (hc : Chained g (postgresChains isoformat) s) (hk : HoldKeyed g s)
    (tenantId decisionId id : String) :
    Linear (((exportRows s tenantId decisionId).filter (isOf id)).map ExportRow.event) := by
  obtain ⟨-, ⟨-, hevents, hid⟩ | ⟨-, hevents, hid⟩ | hnil⟩ :=
    stream_cases hc hk tenantId decisionId id
  · rw [hevents]
    exact hc.linked (tenantId, id) hid
  · rw [hevents]
    exact hc.holdLinked (tenantId, id) hid
  · rw [hnil]
    trivial

theorem ordered_iff (hc : Chained g (postgresChains isoformat) s) (hk : HoldKeyed g s) :
    Ordered instant s tenantId decisionId ↔ ∀ id, InOrder instant
      (((exportRows s tenantId decisionId).filter (isOf id)).map ExportRow.event) := by
  constructor
  · intro h id
    obtain ⟨-, ⟨hmem, hevents, -⟩ | ⟨hmem, hevents, -⟩ | hnil⟩ :=
      stream_cases hc hk tenantId decisionId id
    · rw [hevents]
      exact h.requests id hmem
    · rw [hevents]
      exact h.holds id hmem
    · rw [hnil]
      exact .nil
  · intro h
    refine ⟨fun id hmem => ?_, fun id hmem => ?_⟩
    · have hid := isDeletionId_of_mem hc hmem
      obtain ⟨-, ⟨-, hevents, -⟩ | ⟨-, -, hid'⟩ | hnil⟩ :=
        stream_cases hc hk tenantId decisionId id
      · rw [← hevents]
        exact h id
      · rw [hid] at hid'
        cases hid'
      · have hevents : ((exportRows s tenantId decisionId).filter (isOf id)).map ExportRow.event =
            [] := by rw [hnil]; rfl
        rw [exportRows, List.filter_append, List.map_append, map_event_selectRows hmem] at hevents
        rw [(List.append_eq_nil_iff.mp hevents).1]
        exact .nil
    · obtain ⟨-, ⟨-, -, hid⟩ | ⟨-, hevents, -⟩ | hnil⟩ :=
        stream_cases hc hk tenantId decisionId id
      · rw [holdEvents_of_deletion hk hid]
        exact .nil
      · rw [← hevents]
        exact h id
      · have hevents : ((exportRows s tenantId decisionId).filter (isOf id)).map ExportRow.event =
            [] := by rw [hnil]; rfl
        rw [exportRows, List.filter_append, List.map_append, map_event_selectRows hmem] at hevents
        rw [(List.append_eq_nil_iff.mp hevents).2]
        exact .nil

/-! ## Hashes tell what an event links to -/

theorem previous_of_eventHash (hsha : Function.Injective g.sha256) {e e' : LifecycleEvent}
    (he : Sealed g e) (he' : Sealed g e') (h : e.eventHash = e'.eventHash) :
    e.previousEventHash = e'.previousEventHash := by
  rw [he, he', String.append_right_inj] at h
  have hfloats : ∀ e : LifecycleEvent, e.hashed.Floats Json.FloatText := by
    intro e
    cases hprevious : e.previousEventHash <;>
      simp [LifecycleEvent.hashed, Json.Floats, Json.FloatsFields, Json.ofOption, hprevious]
  have hnormal := Json.normal_eq_of_dumps (hfloats e) (hfloats e') (hsha h)
  have hkeys : (["event_id", "request_id", "case_ref_hash", "event_type", "occurred_at",
      "reason_code", "correlation_id", "actor_hash", "previous_event_hash"] :
        List String).Nodup := by decide
  exact Json.ofOption_of_normal (Json.normal_field (k := "previous_event_hash") hnormal hkeys
    (by simp) (by simp))

theorem sealed_of_mem (hc : Chained g (postgresChains isoformat) s) {row : ExportRow}
    (h : row ∈ exportRows s tenantId decisionId) : Sealed g row.event := by
  apply hc.sealed
  rw [List.mem_append]
  rcases List.mem_append.mp h with h | h
  · obtain ⟨p, hp, rfl⟩ := List.mem_map.mp h
    exact .inl (List.fst_mem_of_mem_zipIdx (List.mem_of_mem_filter hp))
  · obtain ⟨p, hp, rfl⟩ := List.mem_map.mp h
    exact .inr (List.fst_mem_of_mem_zipIdx (List.mem_of_mem_filter hp))

/-- The exported events of every id are a chain if the times of every stream are in order, and
only if they are where SHA-256 is injective. -/
theorem linear_exported (instant : String → ℤ) (tenantId decisionId : String)
    (hc : Chained g (postgresChains isoformat) s) (hk : HoldKeyed g s) :
    (Ordered instant s tenantId decisionId → ∀ id, Linear
      ((exportedEvents instant s tenantId decisionId).filter fun e => e.requestId = id)) ∧
    (Function.Injective g.sha256 → (∀ id, Linear
      ((exportedEvents instant s tenantId decisionId).filter fun e => e.requestId = id)) →
      Ordered instant s tenantId decisionId) := by
  have hstream (id : String) : (exportedEvents instant s tenantId decisionId).filter
      (fun e => e.requestId = id) =
        ((arranged instant (exportRows s tenantId decisionId)).filter (isOf id)).map
          ExportRow.event := List.filter_map
  simp only [hstream]
  constructor
  · intro h id
    rw [arranged_eq (isOf id) (stream_cases hc hk tenantId decisionId id).1
      ((ordered_iff hc hk).mp h id)]
    exact linear_stream hc hk tenantId decisionId id
  · intro hsha h
    rw [ordered_iff hc hk]
    intro id
    have hlinear := linear_stream hc hk tenantId decisionId id
    have hperm : (((arranged instant (exportRows s tenantId decisionId)).filter (isOf id)).map
        ExportRow.event).Perm
          (((exportRows s tenantId decisionId).filter (isOf id)).map ExportRow.event) :=
      (perm_arranged (isOf id)).map ExportRow.event
    have hnodup := nodup_previous hlinear fun e he e' he' hsame => by
      obtain ⟨row, hrow, rfl⟩ := List.mem_map.mp he
      obtain ⟨row', hrow', rfl⟩ := List.mem_map.mp he'
      exact previous_of_eventHash hsha (sealed_of_mem hc (List.mem_of_mem_filter hrow))
        (sealed_of_mem hc (List.mem_of_mem_filter hrow')) hsame
    rw [linkedFrom_eq_of_perm hlinear (h id) hperm.symm hnodup]
    exact inOrder_arranged (isOf id)

end Streams

end DecisionAssurance.Lifecycle

/-! ## The validator -/

namespace DecisionAssurance.Export

open Lifecycle (Digests LifecycleEvent Sealed)

/-- The members with lifecycle events alone. -/
def lifecycleMembers (events : List (List (String × Json))) : List (String × RawJson) :=
  [("audit/decision-events.json", .arr []), ("audit/intake-events.json", .arr []),
    ("audit/research-events.json", .arr []),
    ("audit/lifecycle-events.json", .arr (events.map fun fields => .obj (Json.rawFields fields)))]

section Validator

variable {lib : ExportLibrary} {g : Digests} {o : KeyOrder} {e : LifecycleEvent}

theorem validateAuditChains_lifecycleMembers (events : List (List (String × Json))) :
    validateAuditChains lib (lifecycleMembers events) =
      checkLifecycleChain lib (events.map Json.rawFields) [] := by
  have hmap : dictionaries (.arr (events.map fun fields => .obj (Json.rawFields fields))) =
      some (events.map Json.rawFields) := by
    induction events with
    | nil => rfl
    | cons fields events ih =>
      unfold dictionaries at ih ⊢
      dsimp only at ih ⊢
      rw [List.map_cons, List.mapM_cons, ih]
      rfl
  have hempty (name : String)
      (h : parsedMember (lifecycleMembers events) name = .arr []) :
      validateCoreChain lib (lifecycleMembers events) name = .ok () := by
    unfold validateCoreChain eventsOf
    rw [h]
    rfl
  have hlifecycle : eventsOf (lifecycleMembers events) "audit/lifecycle-events.json"
      "INVALID_EXPORT_AUDIT_CHAIN" = .ok (events.map Json.rawFields) := by
    apply orRaise_ok.mpr
    rw [← hmap]
    rfl
  unfold validateAuditChains
  rw [hempty _ rfl, ok_bind, hempty _ rfl, ok_bind, hempty _ rfl, ok_bind, hlifecycle, ok_bind]

/-! ## Exported events as dictionaries -/

theorem rawFields_eq_map (fields : List (String × Json)) :
    Json.rawFields fields = fields.map fun f => (py f.1, f.2.raw) := by
  induction fields with
  | nil => rfl
  | cons f fields ih =>
    obtain ⟨k, x⟩ := f
    rw [Json.rawFields, ih]
    rfl

theorem item_rawFields {fields : List (String × Json)} {key : String} {x : Json}
    (hnodup : (fields.map Prod.fst).Nodup) (h : (key, x) ∈ fields) :
    item (Json.rawFields fields) key = x.raw := by
  induction fields with
  | nil => cases h
  | cons f fields ih =>
    obtain ⟨k, y⟩ := f
    obtain ⟨hnew, hnodup⟩ := List.nodup_cons.mp hnodup
    rcases List.mem_cons.mp h with hsame | h
    · cases hsame
      exact item_cons_self key x.raw _
    · have hne : k ≠ key := by
        rintro rfl
        exact hnew (List.mem_map.mpr ⟨_, h, rfl⟩)
      exact (item_cons_ne hne y.raw _).trans (ih hnodup h)

/-- What the validator leaves out of the hash of an event. -/
def isSealed (f : String × Json) : Bool := f.1 ≠ "schema_version" && f.1 ≠ "event_hash"

theorem filter_rawFields (fields : List (String × Json)) :
    ((Json.rawFields fields).filter fun f =>
      f.1 ≠ py "schema_version" && f.1 ≠ py "event_hash") =
        Json.rawFields (fields.filter isSealed) := by
  induction fields with
  | nil => rfl
  | cons f fields ih =>
    obtain ⟨k, x⟩ := f
    have hkept : (decide (py k ≠ py "schema_version") && decide (py k ≠ py "event_hash")) =
        isSealed (k, x) := by
      simp only [isSealed, ne_eq, py_inj]
    change List.filter _ ((py k, x.raw) :: Json.rawFields fields) = _
    rw [List.filter_cons, List.filter_cons, ih, hkept]
    split_ifs
    · rfl
    · rfl

def payloadFields (e : LifecycleEvent) : List (String × Json) :=
  [("schema_version", .str "0.8.0"), ("event_id", .str e.eventId),
    ("request_id", .str e.requestId), ("case_ref_hash", .str e.caseRefHash),
    ("event_type", .str e.eventType), ("occurred_at", .str e.occurredAt),
    ("reason_code", .str e.reasonCode), ("correlation_id", .str e.correlationId),
    ("actor_hash", .str e.actorHash), ("previous_event_hash", Json.ofOption e.previousEventHash)]

theorem exported_eq :
    e.exported o = o.arrange (payloadFields e) ++ [("event_hash", .str e.eventHash)] := by
  have hreread : Json.rereadFields o .float (payloadFields e) = payloadFields e := by
    cases hprevious : e.previousEventHash <;>
      simp [payloadFields, Json.rereadFields, Json.reread, Json.ofOption, hprevious]
  have hpayload : e.payload.reread o .float =
      .obj (o.arrange (Json.rereadFields o .float (payloadFields e))) := rfl
  rw [LifecycleEvent.exported, hpayload, hreread]
  rfl

theorem perm_exported :
    (e.exported o).Perm (payloadFields e ++ [("event_hash", Json.str e.eventHash)]) := by
  rw [exported_eq]
  exact (o.perm _).append_right _

theorem nodup_exported : ((e.exported o).map Prod.fst).Nodup := by
  have hkeys : ((payloadFields e ++ [("event_hash", Json.str e.eventHash)]).map
      Prod.fst).Nodup := by
    simp only [payloadFields, List.map_append, List.map_cons, List.map_nil]
    decide
  exact ((perm_exported.map Prod.fst).nodup_iff).mpr hkeys

theorem item_exported {key : String} {x : Json}
    (h : (key, x) ∈ payloadFields e ++ [("event_hash", .str e.eventHash)]) :
    item (Json.rawFields (e.exported o)) key = x.raw :=
  item_rawFields nodup_exported (perm_exported.mem_iff.mpr h)

/-- The fields of an exported event are scalars. -/
theorem unhashable_exported {key : String} {x : Json} (h : (key, x) ∈ e.exported o) :
    unhashable x.raw = false := by
  have hall : ∀ f ∈ payloadFields e ++ [("event_hash", Json.str e.eventHash)],
      unhashable f.2.raw = false := by
    cases hprevious : e.previousEventHash <;>
      simp [payloadFields, hprevious, Json.ofOption, Json.raw, unhashable]
  exact hall _ (perm_exported.mem_iff.mp h)

/-- The canonical text of what an exported event is hashed over is that of the event written. -/
theorem dumps_exported : (Json.obj ((e.exported o).filter isSealed)).dumps = e.hashed.dumps := by
  have hfilter : (payloadFields e ++ [("event_hash", Json.str e.eventHash)]).filter isSealed =
      (payloadFields e).tail := by
    simp [payloadFields, isSealed]
  have hperm : ((e.exported o).filter isSealed).Perm (payloadFields e).tail := by
    rw [← hfilter]
    exact perm_exported.filter _
  have hnodup : ((payloadFields e).tail.map Prod.fst).Nodup := by
    simp only [payloadFields, List.tail_cons, List.map_cons, List.map_nil]
    decide
  have hdumps : (Json.dumpsFields Json.escape ((e.exported o).filter isSealed)).Perm
      (Json.dumpsFields Json.escape (payloadFields e).tail) := by
    rw [Json.dumpsFields_eq_map, Json.dumpsFields_eq_map]
    exact hperm.map _
  have hsorted := Json.insertionSort_eq_of_perm hdumps (by rwa [Json.map_fst_dumpsFields])
  have hhashed : e.hashed = .obj (payloadFields e).tail := rfl
  rw [hhashed]
  simp only [Json.dumps, Json.dumpsWith, hsorted]

theorem linksTo_ofOption (previous tip : Option String) :
    linksTo (Json.ofOption previous).raw (tip.map py) = decide (previous = tip) := by
  cases previous with
  | none => cases tip <;> rfl
  | some s =>
    cases tip with
    | none => rfl
    | some t =>
      change decide (py s = py t) = _
      simp only [py_inj, Option.some.injEq]

theorem prefixedHash_exported (hsha : ∀ cs, lib.sha256 (utf8 cs) = g.sha256 cs)
    (he : Sealed g e) : prefixedHash lib (.obj ((Json.rawFields (e.exported o)).filter fun f =>
      f.1 ≠ py "schema_version" && f.1 ≠ py "event_hash")) = .ok (py e.eventHash) := by
  have hencoded : (RawJson.obj (Json.rawFields ((e.exported o).filter isSealed))).encoded =
      some (.obj ((e.exported o).filter isSealed)) := Json.encoded_raw (.obj _)
  have hflat : lib.descent.dumps (.obj (Json.rawFields ((e.exported o).filter isSealed))) = true := by
    refine lib.descent.flat _ fun f hf => ?_
    rw [rawFields_eq_map] at hf
    obtain ⟨⟨key, x⟩, hx, rfl⟩ := List.mem_map.mp hf
    exact unhashable_exported (List.mem_filter.mp hx).1
  rw [filter_rawFields, prefixedHash, hflat, if_pos rfl, hencoded]
  dsimp only
  rw [dumps_exported, hsha, ← he]

theorem comparable_eventHash (hsha : ∀ cs, lib.sha256 (utf8 cs) = g.sha256 cs)
    (hhex : HexDigests lib) (he : Sealed g e) : Comparable (py e.eventHash) := by
  apply encodeAscii_py
  rw [he, ← hsha, String.toList_append, List.all_append, hhex]
  decide

/-- The validator passes events that are linked in their streams. -/
theorem checkLifecycleChain_iff (hsha : ∀ cs, lib.sha256 (utf8 cs) = g.sha256 cs)
    (hhex : HexDigests lib) {events : List LifecycleEvent} {tips : String → Option String}
    {streams : List (PyString × PyString)} (hsealed : ∀ e ∈ events, Sealed g e)
    (hstreams : ∀ id, lastHash streams (py id) = (tips id).map py) :
    checkLifecycleChain lib (events.map fun e => Json.rawFields (e.exported o)) streams = .ok () ↔
      Chains.LinkedStreams LifecycleEvent.requestId LifecycleEvent.eventHash
        LifecycleEvent.previousEventHash tips events := by
  induction events generalizing tips streams with
  | nil => exact ⟨fun _ => trivial, fun _ => rfl⟩
  | cons e events ih =>
    have he := hsealed e List.mem_cons_self
    have hid : item (Json.rawFields (e.exported o)) "request_id" = .str (py e.requestId) :=
      item_exported (x := .str e.requestId) (by simp [payloadFields])
    have hhash : item (Json.rawFields (e.exported o)) "event_hash" = .str (py e.eventHash) :=
      item_exported (x := .str e.eventHash) (by simp)
    have hprevious : item (Json.rawFields (e.exported o)) "previous_event_hash" =
        (Json.ofOption e.previousEventHash).raw := item_exported (by simp [payloadFields])
    have hsame : constantEqual (py e.eventHash) (py e.eventHash) = .ok true :=
      constantEqual_ok.mpr ⟨⟨comparable_eventHash hsha hhex he,
        comparable_eventHash hsha hhex he⟩, rfl⟩
    rw [List.map_cons]
    simp only [checkLifecycleChain, hid, hhash, hprevious, hstreams, linksTo_ofOption,
      decide_eq_true_eq, Chains.LinkedStreams]
    split_ifs with hlink
    · rw [prefixedHash_exported hsha he, ok_bind, hsame, ok_bind, if_pos rfl, and_iff_right hlink]
      apply ih fun e' he' => hsealed e' (List.mem_cons_of_mem _ he')
      intro id
      by_cases h : id = e.requestId
      · subst h
        rw [Function.update_self]
        simp [lastHash]
      · rw [Function.update_of_ne h, ← hstreams id]
        have hne : ¬e.requestId = id := fun heq => h heq.symm
        simp [lastHash, py_inj, hne]
    · exact iff_of_false reject_ne_ok fun h => hlink h.1

end Validator

section Exports

variable {δ : Type} [Lifecycle.CaseTables δ]

/-- After any interleaving of calls and any clock readings, the exported lifecycle events of a case
are accepted if in every stream the times do not go back, and only if they do not where SHA-256 is
injective. -/
theorem exported_lifecycle_accepted (lib : ExportLibrary) (g : Digests)
    (hsha : ∀ cs, lib.sha256 (utf8 cs) = g.sha256 cs) (hhex : HexDigests lib)
    (isoformat : String → String) (instant : String → ℤ) (o : KeyOrder) (tables : δ)
    {tr : Lifecycle.ServiceTrace (Lifecycle.PostgresStore δ)}
    {sys : Lifecycle.ServiceSystem (Lifecycle.PostgresStore δ)}
    (hr : Runs.Run (Interleaving.SystemStep
      (Lifecycle.ServiceCall g (Lifecycle.postgres isoformat δ)))
      (Interleaving.System.idle ⟨tables, [], [], [], []⟩) tr sys)
    (tenantId decisionId : String) {events : List (List (String × Json))}
    (hsnapshot : Lifecycle.snapshotEvents instant o sys.shared tenantId decisionId =
      some events) :
    (Lifecycle.Ordered instant sys.shared tenantId decisionId →
      validateAuditChains lib (lifecycleMembers events) = .ok ()) ∧
    (Function.Injective g.sha256 →
      validateAuditChains lib (lifecycleMembers events) = .ok () →
        Lifecycle.Ordered instant sys.shared tenantId decisionId) := by
  have hchained : Lifecycle.Chained g (Lifecycle.postgresChains isoformat) sys.shared :=
    Lifecycle.chained_of_run (Lifecycle.postgres_chainLaws isoformat)
      (Lifecycle.chained_of_empty (fun _ => rfl) rfl rfl) hr
  have hkeyed := Lifecycle.holdKeyed_of_run hr
  obtain ⟨haccepted, hordered⟩ :=
    Lifecycle.linear_exported instant tenantId decisionId hchained hkeyed
  unfold Lifecycle.snapshotEvents at hsnapshot
  split_ifs at hsnapshot
  cases hsnapshot
  have hsealed : ∀ e ∈ Lifecycle.exportedEvents instant sys.shared tenantId decisionId,
      Sealed g e := by
    intro e he
    obtain ⟨row, hrow, rfl⟩ := List.mem_map.mp he
    exact Lifecycle.sealed_of_mem hchained ((List.perm_insertionSort _ _).mem_iff.mp hrow)
  have hstreams : ∀ id, lastHash [] (py id) = Option.map py ((fun _ => none) id) := fun _ => rfl
  rw [validateAuditChains_lifecycleMembers, List.map_map]
  have hchains := checkLifecycleChain_iff (o := o) hsha hhex hsealed hstreams
  rw [Chains.linkedStreams_iff] at hchains
  exact ⟨fun h => hchains.mpr (haccepted h), fun hinj h => hordered hinj (hchains.mp h)⟩

/-! ### A hold that is released -/

attribute [local instance] Lifecycle.caseRows

/-- Digests of four digits, the length of the text. -/
def lengthLibrary : ExportLibrary where
  urlsafeB64decode := sampleLibrary.urlsafeB64decode
  verify := sampleLibrary.verify
  descent := .unlimited
  openArchive := sampleLibrary.openArchive
  loads := sampleLibrary.loads
  sha256 content := String.ofList (IsoTimes.digits 4 content.length)
  fromisoformat := sampleLibrary.fromisoformat
  dateTime := sampleLibrary.dateTime

def lengthDigests : Digests := ⟨fun cs => lengthLibrary.sha256 (utf8 cs), Lifecycle.lastFive⟩

theorem hexDigests_lengthLibrary : HexDigests lengthLibrary := by
  intro content
  apply List.all_eq_true.mpr
  intro c hc
  have hdigit : c.isDigit = true := IsoTimes.mem_digits (by simpa [lengthLibrary] using hc)
  have hle : c.toNat ≤ 57 := by
    simp only [Char.isDigit, Bool.and_eq_true, decide_eq_true_eq] at hdigit
    exact UInt32.le_iff_toNat_le.mp hdigit.2
  simp only [decide_eq_true_eq]
  omega

/-- The seconds of two minutes. -/
def clockReading (s : String) : ℤ := if s = "2026-03-01T10:00:00Z" then 60 else 0

def heldCase : Lifecycle.PostgresStore (List (String × String)) :=
  ((Lifecycle.placeLegalHold lengthDigests Lifecycle.pilotRepository Lifecycle.tenantAdmin "case-1"
    "LITIGATION" "corr").run (fun _ => "2026-03-01T10:00:00Z") Lifecycle.oneCase).2

/-- The case after another instance released its hold. -/
def releasedCase (reading : String) : Lifecycle.PostgresStore (List (String × String)) :=
  ((Lifecycle.releaseLegalHold lengthDigests Lifecycle.pilotRepository Lifecycle.tenantAdmin
    "case-1" "corr").run (fun _ => reading) heldCase).2

theorem run_releasedCase (reading : String) : ∃ tr sys, Runs.Run (Interleaving.SystemStep
    (Lifecycle.ServiceCall lengthDigests Lifecycle.pilotRepository))
    (Interleaving.System.idle Lifecycle.oneCase) tr sys ∧ releasedCase reading = sys.shared := by
  obtain ⟨tr, hr⟩ := Interleaving.run_alone
    (Lifecycle.ServiceCall lengthDigests Lifecycle.pilotRepository) 0
    (.placeLegalHold Lifecycle.tenantAdmin "case-1" "LITIGATION" "corr")
    (fun _ => "2026-03-01T10:00:00Z") Lifecycle.oneCase
  obtain ⟨tr', hr'⟩ := Interleaving.run_alone
    (Lifecycle.ServiceCall lengthDigests Lifecycle.pilotRepository) 1
    (.releaseLegalHold Lifecycle.tenantAdmin "case-1" "corr") (fun _ => reading) heldCase
  exact ⟨tr ++ tr', .idle (releasedCase reading), hr.append hr',
    (Interleaving.System.idle_shared _).symm⟩

theorem exported_lifecycle_accepted_released : ∃ tr sys events,
    Runs.Run (Interleaving.SystemStep
      (Lifecycle.ServiceCall lengthDigests Lifecycle.pilotRepository))
      (Interleaving.System.idle Lifecycle.oneCase) tr sys ∧
    Lifecycle.snapshotEvents clockReading Json.byName sys.shared "tenant-a" "case-1" =
      some events ∧ events.length = 2 ∧
    validateAuditChains lengthLibrary (lifecycleMembers events) = .ok () := by
  obtain ⟨tr, sys, hr, hshared⟩ := run_releasedCase "2026-03-01T10:00:00Z"
  have hordered : Lifecycle.Ordered clockReading (releasedCase "2026-03-01T10:00:00Z") "tenant-a"
      "case-1" := by
    constructor
    · unfold Lifecycle.InOrder
      decide +kernel
    · unfold Lifecycle.InOrder
      decide +kernel
  have hcount : (Lifecycle.snapshotEvents clockReading Json.byName
      (releasedCase "2026-03-01T10:00:00Z") "tenant-a" "case-1").map List.length = some 2 := by
    decide +kernel
  rw [hshared] at hordered hcount
  obtain ⟨events, hsnapshot, hlength⟩ := Option.map_eq_some_iff.mp hcount
  have haccepted := (exported_lifecycle_accepted lengthLibrary lengthDigests (fun _ => rfl)
    hexDigests_lengthLibrary id clockReading Json.byName _ hr "tenant-a" "case-1" hsnapshot).1
      hordered
  exact ⟨tr, sys, events, hr, hsnapshot, hlength, haccepted⟩

/-- A hold is released by an instance whose clock is a minute behind: the export puts the release
before the hold. -/
theorem exported_lifecycle_rejected : ¬∀ (lib : ExportLibrary) (g : Digests)
    (isoformat : String → String) (instant : String → ℤ) (o : KeyOrder)
    (tables : List (String × String)) tr sys (tenantId decisionId : String) events,
    (∀ cs, lib.sha256 (utf8 cs) = g.sha256 cs) → HexDigests lib →
    Runs.Run (Interleaving.SystemStep (Lifecycle.ServiceCall g
      (Lifecycle.postgres isoformat (List (String × String)))))
      (Interleaving.System.idle ⟨tables, [], [], [], []⟩) tr sys →
    Lifecycle.snapshotEvents instant o sys.shared tenantId decisionId = some events →
    validateAuditChains lib (lifecycleMembers events) = .ok () := by
  intro h
  obtain ⟨tr, sys, hr, hshared⟩ := run_releasedCase "2026-03-01T09:59:00Z"
  have hrejected : (Lifecycle.snapshotEvents clockReading Json.byName
      (releasedCase "2026-03-01T09:59:00Z") "tenant-a" "case-1").map (fun events =>
        (validateAuditChains lengthLibrary (lifecycleMembers events)).toBool) = some false := by
    decide +kernel
  rw [hshared] at hrejected
  obtain ⟨events, hsnapshot, hfalse⟩ := Option.map_eq_some_iff.mp hrejected
  rw [h lengthLibrary lengthDigests id clockReading Json.byName _ tr sys "tenant-a" "case-1" events
    (fun _ => rfl) hexDigests_lengthLibrary hr hsnapshot] at hfalse
  cases hfalse

end Exports

end DecisionAssurance.Export
