import DecisionAssurance.Engine
import DecisionAssurance.Tables

/-!
# The tables of the decision repositories

`SqliteDecisionRepository` and `PostgresDecisionRepository` make the same statements on the
same tables, each method in one transaction; they differ in the exception that a violated
constraint raises. Documents, reports and events are kept as the records their JSON columns
hold. An error leaves the tables as they were.
-/

namespace DecisionAssurance

open Tables

inductive Backend
  | sqlite | postgresql
  deriving DecidableEq

inductive RepositoryError
  | integrityError | uniqueViolation | decisionNotFound | idempotencyKeyReused
  deriving DecidableEq

/-- What a violated primary key or UNIQUE constraint raises. -/
def Backend.violation : Backend → RepositoryError
  | .sqlite => .integrityError
  | .postgresql => .uniqueViolation

abbrev CaseKey := String × String

structure DecisionRow where
  tenantId : String
  decisionId : String
  document : DecisionFile
  deriving DecidableEq

def DecisionRow.key (r : DecisionRow) : CaseKey := (r.tenantId, r.decisionId)

def DecisionRow.write (document : DecisionFile) (r : DecisionRow) : DecisionRow :=
  { r with document := document }

theorem DecisionRow.key_write (document : DecisionFile) (r : DecisionRow) :
    (r.write document).key = r.key := rfl

structure AuditRow where
  tenantId : String
  decisionId : String
  eventId : String
  event : AuditEvent
  deriving DecidableEq

def AuditRow.case (r : AuditRow) : CaseKey := (r.tenantId, r.decisionId)

def AuditRow.key (r : AuditRow) : CaseKey × String := (r.case, r.eventId)

structure ReportRow where
  tenantId : String
  decisionId : String
  report : Report
  deriving DecidableEq

def ReportRow.key (r : ReportRow) : CaseKey := (r.tenantId, r.decisionId)

structure IdempotencyWrite where
  actorId : String
  operation : String
  idempotencyKey : String
  requestHash : String
  statusCode : ℕ
  response : Json
  deriving DecidableEq

structure IdempotencyRow extends IdempotencyWrite where
  tenantId : String
  deriving DecidableEq

def IdempotencyRow.key (r : IdempotencyRow) : String × String × String × String :=
  (r.tenantId, r.actorId, r.operation, r.idempotencyKey)

structure HandoffRow where
  tenantId : String
  researchRunId : String
  decisionFileId : String
  handoffId : String
  resultDocumentHash : String
  deriving DecidableEq

def HandoffRow.key (r : HandoffRow) : String × String × String × String :=
  (r.tenantId, r.researchRunId, r.decisionFileId, r.handoffId)

structure DecisionTables where
  decisions : List DecisionRow
  auditEvents : List AuditRow
  reports : List ReportRow
  idempotency : List IdempotencyRow
  researchHandoffs : List HandoffRow
  deriving DecidableEq

/-- The event of a case as its row. -/
def AuditEvent.row (tenant : TenantContext) (decisionId : String) (e : AuditEvent) : AuditRow :=
  ⟨tenant.tenantId, decisionId, e.eventId, e⟩

namespace DecisionTables

variable (b : Backend) (tenant : TenantContext)

def empty : DecisionTables := ⟨[], [], [], [], []⟩

/-- The events of a case in the order of their sequence numbers. -/
def ledger (t : DecisionTables) (k : CaseKey) : List AuditEvent :=
  (t.auditEvents.filter fun r => r.case = k).map AuditRow.event

def insertAudit (decisionId : String) (t : DecisionTables) (e : AuditEvent) :
    Except RepositoryError DecisionTables :=
  orRaise b.violation <| (insertRow AuditRow.key (e.row tenant decisionId) t.auditEvents).map
    fun rows => { t with auditEvents := rows }

def insertIdempotency (t : DecisionTables) : Option IdempotencyWrite →
    Except RepositoryError DecisionTables
  | none => .ok t
  | some write => orRaise b.violation <|
    (insertRow IdempotencyRow.key ⟨write, tenant.tenantId⟩ t.idempotency).map
      fun rows => { t with idempotency := rows }

/-- `create_decision` -/
def createDecision (document : DecisionFile) (events : List AuditEvent)
    (idempotency : Option IdempotencyWrite) (t : DecisionTables) :
    Except RepositoryError DecisionTables := do
  let rows ← orRaise b.violation <|
    insertRow DecisionRow.key ⟨tenant.tenantId, document.decisionId, document⟩ t.decisions
  let t ← events.foldlM (insertAudit b tenant document.decisionId) { t with decisions := rows }
  insertIdempotency b tenant t idempotency

/-- `get_decision` -/
def getDecision (decisionId : String) (t : DecisionTables) : Option DecisionFile :=
  (lookup DecisionRow.key (tenant.tenantId, decisionId) t.decisions).map DecisionRow.document

/-- The table `reports` after the report of a decision, where there is one. -/
def writeReport (decisionId : String) (rows : List ReportRow) : Option Report → List ReportRow
  | none => rows
  | some report => upsert ReportRow.key ⟨tenant.tenantId, decisionId, report⟩ rows

/-- The UPDATE of a document, by the primary key alone. -/
def writeDocument (decisionId : String) (document : DecisionFile) (rows : List DecisionRow) :
    List DecisionRow :=
  updateWhere (fun r => r.key = (tenant.tenantId, decisionId)) (DecisionRow.write document) rows

/-- `save_result`; the advisory lock of PostgreSQL is held within the transaction only. -/
def saveResult (document : DecisionFile) (report : Option Report) (events : List AuditEvent)
    (idempotency : Option IdempotencyWrite) (t : DecisionTables) :
    Except RepositoryError DecisionTables := do
  if (lookup DecisionRow.key (tenant.tenantId, document.decisionId) t.decisions).isNone then
    .error .decisionNotFound
  else
    let t ← events.foldlM (insertAudit b tenant document.decisionId)
      { t with
        decisions := writeDocument tenant document.decisionId document t.decisions
        reports := writeReport tenant document.decisionId t.reports report }
    insertIdempotency b tenant t idempotency

/-- `get_idempotency` -/
def getIdempotency (actorId operation idempotencyKey requestHash : String) (t : DecisionTables) :
    Except RepositoryError (Option (ℕ × Json)) :=
  match lookup IdempotencyRow.key (tenant.tenantId, actorId, operation, idempotencyKey)
    t.idempotency with
  | none => .ok none
  | some row =>
    if row.requestHash ≠ requestHash then .error .idempotencyKeyReused
    else .ok (some (row.statusCode, row.response))

end DecisionTables

/-! ## What the methods write -/

namespace DecisionTables

variable {b : Backend} {tenant : TenantContext} {t t' : DecisionTables}

/-- The primary keys, the ids that rows share with what they hold, and the case every event
and report belongs to. -/
structure Sound (t : DecisionTables) : Prop where
  decisions : Keyed DecisionRow.key t.decisions
  auditEvents : Keyed AuditRow.key t.auditEvents
  named : ∀ r ∈ t.decisions, r.document.decisionId = r.decisionId
  labelled : ∀ r ∈ t.auditEvents, r.event.eventId = r.eventId
  owned : ∀ r ∈ t.auditEvents, r.case ∈ t.decisions.map DecisionRow.key
  reported : ∀ r ∈ t.reports, r.key ∈ t.decisions.map DecisionRow.key

theorem sound_empty : empty.Sound :=
  ⟨List.nodup_nil, List.nodup_nil, fun _ h => absurd h List.not_mem_nil,
    fun _ h => absurd h List.not_mem_nil, fun _ h => absurd h List.not_mem_nil,
    fun _ h => absurd h List.not_mem_nil⟩

theorem mem_writeReport {decisionId : String} {report : Option Report} {rows : List ReportRow}
    {r : ReportRow} (h : r ∈ writeReport tenant decisionId rows report) :
    r ∈ rows ∨ r.key = (tenant.tenantId, decisionId) := by
  cases report with
  | none => exact .inl h
  | some report =>
    rcases mem_upsert h with rfl | h
    · exact .inr rfl
    · exact .inl h

theorem mem_rows {decisionId : String} {events : List AuditEvent} {r : AuditRow}
    (h : r ∈ events.map (AuditEvent.row tenant decisionId)) :
    r.event.eventId = r.eventId ∧ r.case = (tenant.tenantId, decisionId) := by
  obtain ⟨e, -, rfl⟩ := List.mem_map.mp h
  exact ⟨rfl, rfl⟩

theorem map_key_writeDocument {decisionId : String} {d : DecisionFile} {rows : List DecisionRow} :
    (writeDocument tenant decisionId d rows).map DecisionRow.key = rows.map DecisionRow.key :=
  map_key_updateWhere (fun r _ => r.key_write d) rows

/-- Replacing the document of a case and appending events to its ledger. -/
theorem Sound.replace (hs : t.Sound) {decisionId : String} {d : DecisionFile}
    {events : List AuditEvent} (hname : d.decisionId = decisionId)
    (hcase : (tenant.tenantId, decisionId) ∈ t.decisions.map DecisionRow.key)
    (hdecisions : t'.decisions = writeDocument tenant decisionId d t.decisions)
    (haudit : t'.auditEvents = t.auditEvents ++ events.map (AuditEvent.row tenant decisionId))
    (hreports : ∀ r ∈ t'.reports, r ∈ t.reports ∨ r.key = (tenant.tenantId, decisionId))
    (hkeyed : Keyed AuditRow.key t'.auditEvents) : t'.Sound := by
  have hkeys : t'.decisions.map DecisionRow.key = t.decisions.map DecisionRow.key := by
    rw [hdecisions, map_key_writeDocument]
  refine ⟨?_, hkeyed, fun r hr => ?_, fun r hr => ?_, fun r hr => ?_, fun r hr => ?_⟩
  · rw [Keyed, hkeys]
    exact hs.decisions
  · rw [hdecisions] at hr
    obtain ⟨r₀, hr₀, rfl⟩ := mem_updateWhere.mp hr
    by_cases hkey : r₀.key = (tenant.tenantId, decisionId)
    · rw [if_pos (decide_eq_true hkey)]
      exact hname.trans (congrArg Prod.snd hkey).symm
    · rw [if_neg (fun hd => hkey (of_decide_eq_true hd))]
      exact hs.named r₀ hr₀
  · rw [haudit] at hr
    rcases List.mem_append.mp hr with hr | hr
    · exact hs.labelled r hr
    · exact (mem_rows hr).1
  · rw [hkeys]
    rw [haudit] at hr
    rcases List.mem_append.mp hr with hr | hr
    · exact hs.owned r hr
    · rw [(mem_rows hr).2]
      exact hcase
  · rw [hkeys]
    rcases hreports r hr with hr | hr
    · exact hs.reported r hr
    · rw [hr]
      exact hcase

/-- Appending a case that is not stored yet, with its first events. -/
theorem Sound.create (hs : t.Sound) {d : DecisionFile} {events : List AuditEvent}
    (hfresh : ∀ r ∈ t.decisions, r.key ≠ (tenant.tenantId, d.decisionId))
    (hdecisions : t'.decisions = t.decisions ++ [⟨tenant.tenantId, d.decisionId, d⟩])
    (haudit : t'.auditEvents = t.auditEvents ++ events.map (AuditEvent.row tenant d.decisionId))
    (hreports : t'.reports = t.reports) (hkeyed : Keyed AuditRow.key t'.auditEvents) :
    t'.Sound := by
  refine ⟨?_, hkeyed, fun r hr => ?_, fun r hr => ?_, fun r hr => ?_, fun r hr => ?_⟩
  · rw [hdecisions]
    exact keyed_append_singleton hs.decisions hfresh
  · rw [hdecisions] at hr
    rcases List.mem_append.mp hr with hr | hr
    · exact hs.named r hr
    · rw [List.mem_singleton.mp hr]
  · rw [haudit] at hr
    rcases List.mem_append.mp hr with hr | hr
    · exact hs.labelled r hr
    · exact (mem_rows hr).1
  · rw [hdecisions, List.map_append]
    rw [haudit] at hr
    rcases List.mem_append.mp hr with hr | hr
    · exact List.mem_append_left _ (hs.owned r hr)
    · rw [(mem_rows hr).2]
      exact List.mem_append_right _ (List.mem_singleton_self _)
  · rw [hreports] at hr
    rw [hdecisions, List.map_append]
    exact List.mem_append_left _ (hs.reported r hr)

theorem insertAudits_cases {decisionId : String} {events : List AuditEvent}
    (h : events.foldlM (insertAudit b tenant decisionId) t = .ok t') :
    t' = { t with auditEvents := t.auditEvents ++ events.map (AuditEvent.row tenant decisionId) } ∧
      (Keyed AuditRow.key t.auditEvents → Keyed AuditRow.key t'.auditEvents) := by
  induction events generalizing t with
  | nil =>
    cases h
    refine ⟨?_, id⟩
    rw [List.map_nil, List.append_nil]
  | cons e es ih =>
    rw [List.foldlM_cons] at h
    obtain ⟨u, hu, h⟩ := bind_ok_cases h
    obtain ⟨rows, hrows, rfl⟩ := Option.map_eq_some_iff.mp (orRaise_ok.mp hu)
    obtain ⟨rfl, hkeyed⟩ := ih h
    refine ⟨?_, fun hk => hkeyed (keyed_insertRow hk hrows)⟩
    rw [(insertRow_cases hrows).2, List.map_cons, List.append_assoc, List.singleton_append]

theorem insertIdempotency_cases {write : Option IdempotencyWrite}
    (h : insertIdempotency b tenant t write = .ok t') :
    ∃ rows, t' = { t with idempotency := rows } := by
  cases write with
  | none =>
    cases h
    exact ⟨t.idempotency, rfl⟩
  | some write =>
    obtain ⟨rows, hrows, rfl⟩ := Option.map_eq_some_iff.mp (orRaise_ok.mp h)
    exact ⟨rows, rfl⟩

/-- The row a write leaves in the table `idempotency`, where there was none of its key. -/
structure Records (tenant : TenantContext) (write : IdempotencyWrite) (t t' : DecisionTables) :
    Prop where
  fresh : ∀ r ∈ t.idempotency, r.key ≠ IdempotencyRow.key ⟨write, tenant.tenantId⟩
  appended : t'.idempotency = t.idempotency ++ [⟨write, tenant.tenantId⟩]

theorem insertIdempotency_records {write : IdempotencyWrite}
    (h : insertIdempotency b tenant t (some write) = .ok t') : Records tenant write t t' := by
  obtain ⟨rows, hrows, rfl⟩ := Option.map_eq_some_iff.mp (orRaise_ok.mp h)
  obtain ⟨hfresh, happended⟩ := insertRow_cases hrows
  exact ⟨hfresh, happended⟩

theorem createDecision_records {document : DecisionFile} {events : List AuditEvent}
    {write : IdempotencyWrite}
    (h : createDecision b tenant document events (some write) t = .ok t') :
    Records tenant write t t' := by
  obtain ⟨rows, -, h⟩ := bind_ok_cases h
  obtain ⟨u, hu, h⟩ := bind_ok_cases h
  obtain ⟨rfl, -⟩ := insertAudits_cases hu
  have hrecords := insertIdempotency_records h
  exact ⟨hrecords.fresh, hrecords.appended⟩

theorem saveResult_records {document : DecisionFile} {report : Option Report}
    {events : List AuditEvent} {write : IdempotencyWrite}
    (h : saveResult b tenant document report events (some write) t = .ok t') :
    Records tenant write t t' := by
  unfold saveResult at h
  split_ifs at h
  obtain ⟨u, hu, h⟩ := bind_ok_cases h
  obtain ⟨rfl, -⟩ := insertAudits_cases hu
  have hrecords := insertIdempotency_records h
  exact ⟨hrecords.fresh, hrecords.appended⟩

theorem createDecision_cases {document : DecisionFile} {events : List AuditEvent}
    {write : Option IdempotencyWrite}
    (h : createDecision b tenant document events write t = .ok t') :
    (∀ r ∈ t.decisions, r.key ≠ (tenant.tenantId, document.decisionId)) ∧
      t'.decisions = t.decisions ++ [⟨tenant.tenantId, document.decisionId, document⟩] ∧
      t'.auditEvents = t.auditEvents ++ events.map (AuditEvent.row tenant document.decisionId) ∧
      t'.reports = t.reports ∧ t'.researchHandoffs = t.researchHandoffs ∧
      (t.Sound → t'.Sound) := by
  obtain ⟨rows, hrows, h⟩ := bind_ok_cases h
  obtain ⟨u, hu, h⟩ := bind_ok_cases h
  obtain ⟨idempotency, rfl⟩ := insertIdempotency_cases h
  obtain ⟨rfl, hkeyed⟩ := insertAudits_cases hu
  have hinsert := orRaise_ok.mp hrows
  obtain ⟨hne, rfl⟩ := insertRow_cases hinsert
  exact ⟨hne, rfl, rfl, rfl, rfl, fun hs => hs.create hne rfl rfl rfl (hkeyed hs.auditEvents)⟩

theorem saveResult_cases {document : DecisionFile} {report : Option Report}
    {events : List AuditEvent} {write : Option IdempotencyWrite}
    (h : saveResult b tenant document report events write t = .ok t') :
    t'.decisions = writeDocument tenant document.decisionId document t.decisions ∧
      t'.auditEvents = t.auditEvents ++ events.map (AuditEvent.row tenant document.decisionId) ∧
      t'.reports = writeReport tenant document.decisionId t.reports report ∧
      t'.researchHandoffs = t.researchHandoffs ∧ (t.Sound → t'.Sound) := by
  unfold saveResult at h
  split_ifs at h with hmissing
  obtain ⟨row, hrow⟩ := Option.ne_none_iff_exists'.mp (mt Option.isNone_iff_eq_none.mpr hmissing)
  have hcase : (tenant.tenantId, document.decisionId) ∈ t.decisions.map DecisionRow.key :=
    List.mem_map.mpr ⟨row, mem_of_lookup hrow, key_of_lookup hrow⟩
  obtain ⟨u, hu, h⟩ := bind_ok_cases h
  obtain ⟨idempotency, rfl⟩ := insertIdempotency_cases h
  obtain ⟨rfl, hkeyed⟩ := insertAudits_cases hu
  refine ⟨rfl, rfl, rfl, rfl, fun hs => ?_⟩
  exact hs.replace rfl hcase rfl rfl (fun r hr => mem_writeReport hr) (hkeyed hs.auditEvents)

theorem ledger_append {rows : List AuditRow} {k : CaseKey}
    (h : t'.auditEvents = t.auditEvents ++ rows) :
    t'.ledger k = t.ledger k ++ (rows.filter fun r => r.case = k).map AuditRow.event := by
  rw [ledger, h, List.filter_append, List.map_append]
  rfl

/-! ## Documents -/

/-- The document that is stored for a case. -/
def document (t : DecisionTables) (k : CaseKey) : Option DecisionFile :=
  (lookup DecisionRow.key k t.decisions).map DecisionRow.document

theorem getDecision_eq {decisionId : String} :
    t.getDecision tenant decisionId = t.document (tenant.tenantId, decisionId) := rfl

/-- The document of a case after one has been written. -/
theorem document_writeDocument {decisionId : String} {d d' : DecisionFile} {k : CaseKey}
    (hd : t.document (tenant.tenantId, decisionId) = some d)
    (ht : t'.decisions = writeDocument tenant decisionId d' t.decisions) :
    t'.document k = if k = (tenant.tenantId, decisionId) then some d' else t.document k := by
  have hupdate : lookup DecisionRow.key k t'.decisions =
      (lookup DecisionRow.key k t.decisions).map fun r =>
        if decide (r.key = (tenant.tenantId, decisionId)) then r.write d' else r := by
    rw [ht]
    exact lookup_updateWhere fun r _ => r.key_write d'
  unfold document at hd ⊢
  rw [hupdate]
  split_ifs with hk
  · obtain ⟨r, hr, -⟩ := Option.map_eq_some_iff.mp hd
    rw [hk, hr]
    simp only [Option.map_some, key_of_lookup hr, decide_true, if_true, DecisionRow.write]
  · cases hr : lookup DecisionRow.key k t.decisions with
    | none => rfl
    | some r =>
      have hkey : ¬ r.key = (tenant.tenantId, decisionId) := by
        rw [key_of_lookup hr]
        exact hk
      simp only [Option.map_some, decide_eq_true_eq, if_neg hkey]

end DecisionTables

end DecisionAssurance
