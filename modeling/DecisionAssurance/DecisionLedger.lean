import DecisionAssurance.DecisionWrites
import DecisionAssurance.Runs

/-!
# The ledgers of stored decisions

A case created without audit events keeps one ledger in two places: the hash chain of its
document and its rows of `audit_events`. A body that brings events of its own breaks it.
-/

namespace DecisionAssurance

open Tables Chains Runs

/-- The ledger of a stored case: a chain of distinct events, as the table records them. -/
structure LedgerSound (pf : Platform) (t : DecisionTables) (r : DecisionRow) : Prop where
  chained : r.document.Chained pf
  distinct : (r.document.auditEvents.map AuditEvent.eventId).Nodup
  recorded : r.document.auditEvents = t.ledger r.key

def LedgersSound (pf : Platform) (t : DecisionTables) : Prop :=
  ∀ r ∈ t.decisions, LedgerSound pf t r

/-- An accepted request to create a case. -/
def Accepts (b : Backend) (pf : Platform) (t : DecisionTables) (c : Caller)
    (body : DecisionFile) : Prop :=
  ∃ document t', createDecision b pf c body t = .ok (.created document, t')

variable {b : Backend} {pf : Platform} {t t' : DecisionTables} {c : Caller} {body : DecisionFile}

theorem creates_of_accepts (hs : t.Sound) (h : Accepts b pf t c body) :
    Creates pf t (served b pf t (.create c body)) c body := by
  obtain ⟨document, t', hreply⟩ := h
  have hserved : served b pf t (.create c body) = t' := by
    rw [served, respond, hreply]
    rfl
  rw [hserved]
  rcases createRoute_cases hs hreply with ⟨_, _, hreplayed, -⟩ | ⟨-, hcreates⟩
  · cases hreplayed
  · exact hcreates

theorem accepts_of_creates (hs : t.Sound)
    (h : Creates pf t (served b pf t (.create c body)) c body) : Accepts b pf t c body := by
  have hne : served b pf t (.create c body) ≠ t := by
    intro heq
    have hdecisions := h.decisions
    rw [heq] at hdecisions
    have hlength := congrArg List.length hdecisions
    rw [List.length_append, List.length_singleton] at hlength
    omega
  cases hreply : createDecision b pf c body t with
  | error e =>
    refine absurd ?_ hne
    rw [served, respond, hreply]
    rfl
  | ok r =>
    obtain ⟨reply, t'⟩ := r
    rcases createRoute_cases hs hreply with ⟨statusCode, json, -, ht⟩ | ⟨rfl, -⟩
    · refine absurd ?_ hne
      rw [served, respond, hreply]
      exact ht
    · exact ⟨_, _, hreply⟩

theorem ledger_nodup (hs : t.Sound) (k : CaseKey) :
    ((t.ledger k).map AuditEvent.eventId).Nodup := by
  have hkeys : ((t.auditEvents.filter fun r => r.case = k).map AuditRow.key).Nodup :=
    List.Nodup.sublist (List.Sublist.map _ List.filter_sublist) hs.auditEvents
  have hmap : (t.auditEvents.filter fun r => r.case = k).map AuditRow.key =
      ((t.ledger k).map AuditEvent.eventId).map fun id => (k, id) := by
    rw [DecisionTables.ledger, List.map_map, List.map_map]
    refine List.map_congr_left fun r hr => ?_
    obtain ⟨hmem, hcase⟩ := List.mem_filter.mp hr
    rw [AuditRow.key, of_decide_eq_true hcase, ← hs.labelled r hmem]
    rfl
  rw [hmap] at hkeys
  exact List.Nodup.of_map _ hkeys

theorem ledger_of_fresh (hs : t.Sound) {k : CaseKey} (h : ∀ r ∈ t.decisions, r.key ≠ k) :
    t.ledger k = [] := by
  rw [DecisionTables.ledger, List.map_eq_nil_iff, List.filter_eq_nil_iff]
  intro r hr hcase
  obtain ⟨d, hd, hkey⟩ := List.mem_map.mp (hs.owned r hr)
  exact h d hd (hkey.trans (of_decide_eq_true hcase))

/-- The table's events of a case after one more row. -/
theorem ledger_snoc {tenant : TenantContext} {decisionId : String} {e : AuditEvent}
    (h : t'.auditEvents = t.auditEvents ++ [e.row tenant decisionId]) (k : CaseKey) :
    t'.ledger k = t.ledger k ++ if k = (tenant.tenantId, decisionId) then [e] else [] := by
  rw [DecisionTables.ledger_append h, List.filter_singleton]
  by_cases hk : k = (tenant.tenantId, decisionId)
  · subst hk
    rw [if_pos rfl, show (e.row tenant decisionId).case = (tenant.tenantId, decisionId) from rfl,
      decide_eq_true rfl]
    rfl
  · rw [if_neg hk, show (e.row tenant decisionId).case = (tenant.tenantId, decisionId) from rfl,
      decide_eq_false (Ne.symm hk)]
    rfl

/-- The ledger of a case that its document and the table share. -/
theorem LedgerSound.of_recorded (hs : t.Sound) {r : DecisionRow}
    (hchained : r.document.Chained pf) (hrecorded : r.document.auditEvents = t.ledger r.key) :
    LedgerSound pf t r := by
  refine ⟨hchained, ?_, hrecorded⟩
  rw [hrecorded]
  exact ledger_nodup hs r.key

theorem LedgersSound.creates (hl : LedgersSound pf t) (hs : t.Sound)
    (h : Creates pf t t' c body) (hbody : body.auditEvents = []) : LedgersSound pf t' := by
  intro r hr
  rw [h.decisions] at hr
  have hevents : (body.withCreation pf c).auditEvents = [createdEvent pf c body] := by
    change body.auditEvents ++ [createdEvent pf c body] = _
    rw [hbody, List.nil_append]
  rcases List.mem_append.mp hr with hr | hr
  · refine .of_recorded h.sound (hl r hr).chained ?_
    rw [ledger_snoc h.auditEvents, if_neg (h.fresh r hr), List.append_nil]
    exact (hl r hr).recorded
  · rw [List.mem_singleton.mp hr]
    refine .of_recorded h.sound ?_ ?_
    · unfold DecisionFile.Chained
      rw [hevents]
      exact linked_singleton.mpr rfl
    · have hledger := ledger_snoc h.auditEvents (c.identity.tenant.tenantId, body.decisionId)
      rw [ledger_of_fresh hs h.fresh, if_pos rfl, List.nil_append] at hledger
      exact hevents.trans hledger.symm

theorem LedgersSound.replaces (hl : LedgersSound pf t) (hs : t.Sound) {tenant : TenantContext}
    {decisionId : String} {d d' : DecisionFile} {e : AuditEvent}
    (h : Replaces pf t t' tenant decisionId d d' e) : LedgersSound pf t' := by
  intro r hr
  rcases h.mem_cases hs hr with ⟨hr, hkey⟩ | ⟨r₀, hr₀, hkey, hdoc, rfl⟩
  · refine .of_recorded h.sound (hl r hr).chained ?_
    rw [ledger_snoc h.auditEvents, if_neg hkey, List.append_nil]
    exact (hl r hr).recorded
  · refine .of_recorded h.sound ?_ ?_
    · exact h.appends.chained (hdoc ▸ (hl r₀ hr₀).chained)
    · rw [r₀.key_write, ledger_snoc h.auditEvents, if_pos hkey, ← (hl r₀ hr₀).recorded, hdoc]
      exact h.appends.events

/-- A body with audit events of its own is recorded in its document only. -/
theorem auditEvents_of_ledgersSound (hs : t.Sound) (h : Creates pf t t' c body)
    (hl : LedgersSound pf t') : body.auditEvents = [] := by
  have hmem : (⟨c.identity.tenant.tenantId, body.decisionId, body.withCreation pf c⟩ :
      DecisionRow) ∈ t'.decisions := by
    rw [h.decisions]
    exact List.mem_append_right _ (List.mem_singleton_self _)
  have hrecorded := (hl _ hmem).recorded
  have hledger : t'.ledger (c.identity.tenant.tenantId, body.decisionId) =
      [createdEvent pf c body] := by
    rw [ledger_snoc h.auditEvents, ledger_of_fresh hs h.fresh, if_pos rfl, List.nil_append]
  have hevents : body.auditEvents ++ [createdEvent pf c body] = [createdEvent pf c body] :=
    hrecorded.trans hledger
  have hlength := congrArg List.length hevents
  rw [List.length_append, List.length_singleton] at hlength
  exact List.length_eq_zero_iff.mp (by omega)

/-! ## Runs -/

/-- The requests served one after another from empty tables. -/
def history (b : Backend) (pf : Platform) (requests : List DecisionRequest) :
    Trace DecisionTables DecisionRequest :=
  execute (served b pf) .empty requests

theorem sound_before {requests : List DecisionRequest}
    {x : Transition DecisionTables DecisionRequest} (hx : x ∈ history b pf requests) :
    x.before.Sound := by
  refine (execute_invariant DecisionTables.Sound (fun _ => True) ?_ DecisionTables.sound_empty
    (fun _ _ => trivial) x hx).1
  intro t request ht _
  exact sound_served ht request

/-- The ledgers of all stored cases are sound throughout a run if and only if every accepted
body came without audit events. -/
theorem ledgersSound_iff (b : Backend) (pf : Platform) (requests : List DecisionRequest) :
    (∀ x ∈ history b pf requests, LedgersSound pf x.after) ↔
      ∀ x ∈ history b pf requests, ∀ c body, x.label = .create c body →
        Accepts b pf x.before c body → body.auditEvents = [] := by
  constructor
  · intro h x hx c body hlabel haccepts
    have hs := sound_before hx
    have hafter := h x hx
    rw [after_of_mem_execute hx, hlabel] at hafter
    exact auditEvents_of_ledgersSound hs (creates_of_accepts hs haccepts) hafter
  · intro h x hx
    refine (execute_invariant (fun t => t.Sound ∧ LedgersSound pf t) _ ?_
      ⟨DecisionTables.sound_empty, fun r hr => absurd hr List.not_mem_nil⟩ h x hx).2.2
    intro t request hinv hcond
    obtain ⟨hs, hl⟩ := hinv
    refine ⟨sound_served hs request, ?_⟩
    rcases (@effect_served b pf t hs request).cases_writes with
      heq | ⟨c, body, rfl, hc⟩ | ⟨_, _, _, _, _, hr⟩
    · rw [heq]
      exact hl
    · exact hl.creates hs hc (hcond c body rfl (accepts_of_creates hs hc))
    · exact hl.replaces hs hr

/-! ## A body with an event of its own -/

def importedEvent : AuditEvent where
  eventId := "case-1:imported:1"
  eventType := "decision.imported"
  occurredAt := "2026-01-01"
  actor := caseAuthor
  fromStatus := none
  toStatus := .draft
  reasonCodes := []
  payloadHash := ""
  previousEventHash := none
  tenantId := none
  correlationId := none
  sourceChannel := none

def importedCase : DecisionFile := { draftCase with auditEvents := [importedEvent] }

/-- The event is in no row of the table, and the created event does not link to it. -/
theorem importedCase_ledger : ¬ ∀ x ∈ history .sqlite plainPlatform
    [.create authorCaller importedCase], LedgersSound plainPlatform x.after := by
  intro h
  have hafter := h ⟨.empty, _, served .sqlite plainPlatform .empty (.create authorCaller
    importedCase)⟩ List.mem_cons_self
  have hstored : (served .sqlite plainPlatform .empty (.create authorCaller
      importedCase)).decisions = [⟨"tenant-a", "case-1",
        importedCase.withCreation plainPlatform authorCaller⟩] := by
    rfl
  have hrecorded := (hafter _ (hstored ▸ List.mem_singleton_self _)).recorded
  have hlength : ((served .sqlite plainPlatform .empty (.create authorCaller
      importedCase)).ledger ("tenant-a", "case-1")).length = 1 := by
    rfl
  have hevents : 2 = 1 := (congrArg List.length hrecorded).trans hlength
  omega

end DecisionAssurance
