import DecisionAssurance.DecisionDatabase
import DecisionAssurance.IntakeJson

/-!
# The tables of the intake repositories

`SqliteIntakeRepository` and `PostgresIntakeRepository` make the same statements in the same
order, each method in one transaction; they differ in the exception that a violated constraint
raises. Records, facts and events are kept as what their JSON columns hold.
-/

namespace DecisionAssurance.Intake

open Tables

abbrev IntakeKey := String × String

structure RecordRow where
  tenantId : String
  intakeId : String
  status : IntakeStatus
  record : IntakeRecord
  deriving DecidableEq

def RecordRow.key (r : RecordRow) : IntakeKey := (r.tenantId, r.intakeId)

structure FactRow where
  tenantId : String
  intakeId : String
  factId : String
  fact : CandidateFact
  deriving DecidableEq

def FactRow.key (r : FactRow) : IntakeKey × String := ((r.tenantId, r.intakeId), r.factId)

structure ConfirmationRow where
  tenantId : String
  intakeId : String
  confirmationId : String
  factId : String
  confirmation : HumanConfirmation
  deriving DecidableEq

def ConfirmationRow.key (r : ConfirmationRow) : IntakeKey × String :=
  ((r.tenantId, r.intakeId), r.confirmationId)

structure IntakeEventRow where
  tenantId : String
  intakeId : String
  eventId : String
  sequence : ℕ
  event : IntakeAuditEvent
  deriving DecidableEq

namespace IntakeEventRow

def intake (r : IntakeEventRow) : IntakeKey := (r.tenantId, r.intakeId)

def key (r : IntakeEventRow) : IntakeKey × String := (r.intake, r.eventId)

/-- The columns of the UNIQUE constraint. -/
def place (r : IntakeEventRow) : IntakeKey × ℕ := (r.intake, r.sequence)

end IntakeEventRow

/-- What the routes return: a record or a compiled decision. -/
inductive IntakeResponse
  | record (r : IntakeRecord)
  | decision (d : DecisionFile)
  deriving DecidableEq

/-- `IntakeIdempotencyWrite` -/
structure IntakeIdempotencyWrite where
  actorId : String
  operation : String
  key : String
  requestHash : String
  response : IntakeResponse
  deriving DecidableEq

structure IntakeIdempotencyRow extends IntakeIdempotencyWrite where
  tenantId : String
  deriving DecidableEq

def IntakeIdempotencyRow.primary (r : IntakeIdempotencyRow) : String × String × String × String :=
  (r.tenantId, r.actorId, r.operation, r.key)

structure IntakeDatabase where
  records : List RecordRow
  facts : List FactRow
  confirmations : List ConfirmationRow
  auditEvents : List IntakeEventRow
  idempotency : List IntakeIdempotencyRow
  deriving DecidableEq

inductive IntakeRepositoryError
  | intakeIdMismatch
  | idempotencyConflict
  | database (e : RepositoryError)
  deriving DecidableEq

/-- The arguments of `save_operation` after the tenant. -/
structure IntakeWrite where
  intakeId : String
  status : IntakeStatus
  record : IntakeRecord
  facts : List CandidateFact
  confirmation : Option HumanConfirmation
  events : List IntakeAuditEvent
  idempotency : IntakeIdempotencyWrite

namespace IntakeDatabase

variable (b : Backend) (tenant : TenantContext)

def empty : IntakeDatabase := ⟨[], [], [], [], []⟩

/-- `get` -/
def get (intakeId : String) (db : IntakeDatabase) : Option IntakeRecord :=
  (lookup RecordRow.key (tenant.tenantId, intakeId) db.records).map RecordRow.record

/-- `get_idempotency` -/
def getIdempotency (actorId operation key requestHash : String) (db : IntakeDatabase) :
    Except IntakeRepositoryError (Option IntakeResponse) :=
  match lookup IntakeIdempotencyRow.primary (tenant.tenantId, actorId, operation, key)
    db.idempotency with
  | none => .ok none
  | some row =>
    if row.requestHash ≠ requestHash then .error .idempotencyConflict else .ok (some row.response)

/-- `store_idempotency` -/
def storeIdempotency (write : IntakeIdempotencyWrite) (db : IntakeDatabase) :
    Except IntakeRepositoryError IntakeDatabase :=
  orRaise (.database b.violation) <|
    (insertRow IntakeIdempotencyRow.primary ⟨write, tenant.tenantId⟩ db.idempotency).map
      fun rows => { db with idempotency := rows }

def writeFact (intakeId : String) (rows : List FactRow) (fact : CandidateFact) : List FactRow :=
  upsert FactRow.key ⟨tenant.tenantId, intakeId, fact.factId, fact⟩ rows

/-- A row of a known id is left as it is; the fact of a new one has to exist. -/
def insertConfirmation (intakeId : String) (db : IntakeDatabase) :
    Option HumanConfirmation → Except IntakeRepositoryError IntakeDatabase
  | none => .ok db
  | some confirmation =>
    let row : ConfirmationRow :=
      ⟨tenant.tenantId, intakeId, confirmation.confirmationId, confirmation.factId, confirmation⟩
    if (lookup ConfirmationRow.key row.key db.confirmations).isSome then .ok db
    else if (lookup FactRow.key ((tenant.tenantId, intakeId), confirmation.factId)
      db.facts).isNone then .error (.database b.violation)
    else .ok { db with confirmations := db.confirmations ++ [row] }

/-- The audit rows of an intake. -/
def rowsOf (k : IntakeKey) (db : IntakeDatabase) : List IntakeEventRow :=
  db.auditEvents.filter fun r => r.intake = k

/-- `SELECT COALESCE(MAX(sequence),0)` -/
def currentSequence (k : IntakeKey) (db : IntakeDatabase) : ℕ :=
  ((db.rowsOf k).map IntakeEventRow.sequence).foldl max 0

/-- A row of a known id is left as it is; another one of a taken sequence number violates the
UNIQUE constraint. -/
def insertEvent (db : IntakeDatabase) (row : IntakeEventRow) :
    Except IntakeRepositoryError IntakeDatabase :=
  if (lookup IntakeEventRow.key row.key db.auditEvents).isSome then .ok db
  else if (lookup IntakeEventRow.place row.place db.auditEvents).isSome then
    .error (.database b.violation)
  else .ok { db with auditEvents := db.auditEvents ++ [row] }

/-- The events as rows with the sequence numbers from `current + 1` on. -/
def eventRows (k : IntakeKey) : ℕ → List IntakeAuditEvent → List IntakeEventRow
  | _, [] => []
  | current, e :: es => ⟨k.1, k.2, e.eventId, current + 1, e⟩ :: eventRows k (current + 1) es

/-- `save_operation`; the foreign keys to the record are met by its first statement. -/
def saveOperation (w : IntakeWrite) (db : IntakeDatabase) :
    Except IntakeRepositoryError IntakeDatabase := do
  if w.record.intakeId ≠ w.intakeId then .error .intakeIdMismatch
  else
    let db := { db with
      records := upsert RecordRow.key ⟨tenant.tenantId, w.intakeId, w.status, w.record⟩ db.records
      facts := w.facts.foldl (writeFact tenant w.intakeId) db.facts }
    let db ← db.insertConfirmation b tenant w.intakeId w.confirmation
    let k := (tenant.tenantId, w.intakeId)
    let db ← (eventRows k (db.currentSequence k) w.events).foldlM (insertEvent b) db
    db.storeIdempotency b tenant w.idempotency

/-- `list_audit` -/
def listAudit (k : IntakeKey) (db : IntakeDatabase) : List IntakeAuditEvent :=
  ((db.rowsOf k).insertionSort fun r r' => r.sequence ≤ r'.sequence).map IntakeEventRow.event

/-! ## What the methods write -/

variable {b : Backend} {tenant : TenantContext} {db db' : IntakeDatabase} {k : IntakeKey}

theorem map_sequence_eventRows (current : ℕ) (es : List IntakeAuditEvent) :
    (eventRows k current es).map IntakeEventRow.sequence =
      List.range' (current + 1) es.length := by
  induction es generalizing current with
  | nil => rfl
  | cons e es ih => simp [eventRows, ih, List.range'_succ]

theorem map_event_eventRows (current : ℕ) (es : List IntakeAuditEvent) :
    (eventRows k current es).map IntakeEventRow.event = es := by
  induction es generalizing current with
  | nil => rfl
  | cons e es ih => simp [eventRows, ih]

theorem mem_eventRows {current : ℕ} {es : List IntakeAuditEvent} {r : IntakeEventRow}
    (h : r ∈ eventRows k current es) : r.intake = k ∧ r.eventId = r.event.eventId := by
  induction es generalizing current with
  | nil => cases h
  | cons e es ih =>
    rcases List.mem_cons.mp h with rfl | h
    · exact ⟨rfl, rfl⟩
    · exact ih h

theorem eventRows_append (current : ℕ) (es es' : List IntakeAuditEvent) :
    eventRows k current (es ++ es') =
      eventRows k current es ++ eventRows k (current + es.length) es' := by
  induction es generalizing current with
  | nil => rfl
  | cons e es ih =>
    rw [List.cons_append, eventRows, eventRows, ih, List.cons_append, List.length_cons]
    congr 3
    omega

theorem foldl_max_range' (current n : ℕ) :
    (List.range' (current + 1) n).foldl max current = current + n := by
  induction n generalizing current with
  | zero => rfl
  | succ n ih =>
    rw [List.range'_succ, List.foldl_cons, max_eq_right (Nat.le_succ current), ih]
    omega

/-- Where the rows are those of a list of events, the next sequence number follows them. -/
theorem currentSequence_of_rowsOf {es : List IntakeAuditEvent}
    (h : db.rowsOf k = eventRows k 0 es) : db.currentSequence k = es.length := by
  unfold currentSequence
  rw [h, map_sequence_eventRows, foldl_max_range', Nat.zero_add]

theorem listAudit_of_rowsOf {es : List IntakeAuditEvent} (h : db.rowsOf k = eventRows k 0 es) :
    db.listAudit k = es := by
  have hsorted : (eventRows k 0 es).Pairwise fun r r' => r.sequence ≤ r'.sequence := by
    rw [← List.pairwise_map (f := IntakeEventRow.sequence) (R := (· ≤ ·)), map_sequence_eventRows]
    exact List.pairwise_le_range'
  unfold listAudit
  rw [h, hsorted.insertionSort_eq, map_event_eventRows]

theorem rowsOf_append (rows : List IntakeEventRow) :
    ({ db with auditEvents := db.auditEvents ++ rows } : IntakeDatabase).rowsOf k =
      db.rowsOf k ++ rows.filter fun r => r.intake = k :=
  List.filter_append _ _

/-- Rows of ids that are not stored are appended, in their order. -/
theorem insertEvents_ok {rows : List IntakeEventRow} (h : rows.foldlM (insertEvent b) db = .ok db')
    (hfresh : ∀ r ∈ rows, ∀ r' ∈ db.auditEvents, r'.key ≠ r.key)
    (hnodup : (rows.map IntakeEventRow.key).Nodup) :
    db' = { db with auditEvents := db.auditEvents ++ rows } := by
  induction rows generalizing db with
  | nil =>
    cases h
    rw [List.append_nil]
  | cons row rows ih =>
    rw [List.foldlM_cons] at h
    obtain ⟨u, hu, h⟩ := bind_ok_cases h
    have hnone : lookup IntakeEventRow.key row.key db.auditEvents = none :=
      lookup_eq_none.mpr (hfresh row List.mem_cons_self)
    unfold insertEvent at hu
    rw [hnone, if_neg (by simp)] at hu
    split_ifs at hu
    cases hu
    rw [List.map_cons, List.nodup_cons] at hnodup
    rw [ih h _ hnodup.2]
    · simp
    · intro r hr r' hr'
      rcases List.mem_append.mp hr' with hr' | hr'
      · exact hfresh r (List.mem_cons_of_mem _ hr) r' hr'
      · rw [List.mem_singleton.mp hr']
        rintro heq
        exact hnodup.1 (heq ▸ List.mem_map_of_mem hr)

/-- A write of the tables of events touches no other table and only the intake of its rows. -/
theorem insertEvents_frame {rows : List IntakeEventRow}
    (h : rows.foldlM (insertEvent b) db = .ok db') :
    db'.records = db.records ∧ db'.facts = db.facts ∧ db'.confirmations = db.confirmations ∧
      db'.idempotency = db.idempotency ∧
      ∀ k, (∀ r ∈ rows, r.intake ≠ k) → db'.rowsOf k = db.rowsOf k := by
  induction rows generalizing db with
  | nil =>
    cases h
    exact ⟨rfl, rfl, rfl, rfl, fun _ _ => rfl⟩
  | cons row rows ih =>
    rw [List.foldlM_cons] at h
    obtain ⟨u, hu, h⟩ := bind_ok_cases h
    obtain ⟨hrecords, hfacts, hconfirmations, hidempotency, hrows⟩ := ih h
    unfold insertEvent at hu
    split_ifs at hu
    · cases hu
      exact ⟨hrecords, hfacts, hconfirmations, hidempotency,
        fun k hk => hrows k fun r hr => hk r (List.mem_cons_of_mem _ hr)⟩
    · cases hu
      refine ⟨hrecords, hfacts, hconfirmations, hidempotency, fun k hk => ?_⟩
      rw [hrows k fun r hr => hk r (List.mem_cons_of_mem _ hr), rowsOf_append]
      simp [hk row List.mem_cons_self]

theorem map_key_eventRows (current : ℕ) (es : List IntakeAuditEvent) :
    (eventRows k current es).map IntakeEventRow.key =
      (es.map IntakeAuditEvent.eventId).map fun id => (k, id) := by
  induction es generalizing current with
  | nil => rfl
  | cons e es ih => simp [eventRows, ih, IntakeEventRow.key, IntakeEventRow.intake]

/-- Events of new ids follow the stored ones of their intake. -/
theorem rowsOf_insertEvents {es new : List IntakeAuditEvent} (hes : db.rowsOf k = eventRows k 0 es)
    (h : (eventRows k (db.currentSequence k) new).foldlM (insertEvent b) db = .ok db')
    (hnodup : ((es ++ new).map IntakeAuditEvent.eventId).Nodup) :
    db'.rowsOf k = eventRows k 0 (es ++ new) := by
  rw [currentSequence_of_rowsOf hes] at h
  rw [List.map_append, List.nodup_append] at hnodup
  have hfresh : ∀ r ∈ eventRows k es.length new, ∀ r' ∈ db.auditEvents, r'.key ≠ r.key := by
    intro r hr r' hr' heq
    have hstored : r' ∈ db.rowsOf k := by
      refine List.mem_filter.mpr ⟨hr', decide_eq_true ?_⟩
      rw [← (mem_eventRows hr).1]
      exact congrArg Prod.fst heq
    rw [hes] at hstored
    have hold := List.mem_map_of_mem (f := IntakeEventRow.key) hstored
    have hnew := List.mem_map_of_mem (f := IntakeEventRow.key) hr
    rw [map_key_eventRows] at hold hnew
    obtain ⟨i, hi, hikey⟩ := List.mem_map.mp hold
    obtain ⟨j, hj, hjkey⟩ := List.mem_map.mp hnew
    exact hnodup.2.2 i hi j hj (congrArg Prod.snd (hikey.trans (heq.trans hjkey.symm)))
  have hkeys : ((eventRows k es.length new).map IntakeEventRow.key).Nodup := by
    rw [map_key_eventRows]
    exact hnodup.2.1.map fun i j hij => congrArg Prod.snd hij
  have hall : (eventRows k es.length new).filter (fun r => r.intake = k) =
      eventRows k es.length new := by
    rw [List.filter_eq_self]
    intro r hr
    exact decide_eq_true (mem_eventRows hr).1
  rw [insertEvents_ok h hfresh hkeys, rowsOf_append, hes, hall, eventRows_append, Nat.zero_add]

theorem insertConfirmation_ok {intakeId : String} {confirmation : Option HumanConfirmation}
    (h : db.insertConfirmation b tenant intakeId confirmation = .ok db') :
    ∃ rows, db' = { db with confirmations := rows } ∧ (∀ r ∈ db.confirmations, r ∈ rows) ∧
      ∀ c ∈ confirmation, ∃ r ∈ rows,
        r.key = ((tenant.tenantId, intakeId), c.confirmationId) := by
  cases confirmation with
  | none =>
    cases h
    exact ⟨db.confirmations, rfl, fun _ hr => hr, fun _ hc => absurd hc (by simp)⟩
  | some c =>
    unfold insertConfirmation at h
    dsimp only at h
    split_ifs at h with hknown
    · cases h
      obtain ⟨r, hr⟩ := Option.isSome_iff_exists.mp hknown
      refine ⟨db.confirmations, rfl, fun _ hr => hr, ?_⟩
      rintro _ ⟨⟩
      exact ⟨r, mem_of_lookup hr, key_of_lookup hr⟩
    · cases h
      refine ⟨_, rfl, fun _ hr => List.mem_append_left _ hr, ?_⟩
      rintro _ ⟨⟩
      exact ⟨_, List.mem_append_right _ (List.mem_singleton_self _), rfl⟩

theorem storeIdempotency_ok {write : IntakeIdempotencyWrite}
    (h : db.storeIdempotency b tenant write = .ok db') :
    db' = { db with idempotency := db.idempotency ++ [⟨write, tenant.tenantId⟩] } := by
  obtain ⟨rows, hrows, rfl⟩ := Option.map_eq_some_iff.mp (orRaise_ok.mp h)
  rw [(insertRow_cases hrows).2]

/-- What `save_operation` leaves behind. -/
structure Saved (tenant : TenantContext) (w : IntakeWrite) (db db' : IntakeDatabase) : Prop where
  named : w.record.intakeId = w.intakeId
  records : db'.records =
    upsert RecordRow.key ⟨tenant.tenantId, w.intakeId, w.status, w.record⟩ db.records
  others : ∀ k, k ≠ (tenant.tenantId, w.intakeId) → db'.rowsOf k = db.rowsOf k
  events : ∀ es, db.rowsOf (tenant.tenantId, w.intakeId) =
      eventRows (tenant.tenantId, w.intakeId) 0 es →
    ((es ++ w.events).map IntakeAuditEvent.eventId).Nodup →
    db'.rowsOf (tenant.tenantId, w.intakeId) =
      eventRows (tenant.tenantId, w.intakeId) 0 (es ++ w.events)
  confirmation : ∀ c ∈ w.confirmation, ∃ r ∈ db'.confirmations,
    r.key = ((tenant.tenantId, w.intakeId), c.confirmationId)
  idempotency : db'.idempotency = db.idempotency ++ [⟨w.idempotency, tenant.tenantId⟩]

theorem Saved.lookup {w : IntakeWrite} (h : Saved tenant w db db') :
    lookup RecordRow.key (tenant.tenantId, w.intakeId) db'.records =
      some ⟨tenant.tenantId, w.intakeId, w.status, w.record⟩ := by
  rw [h.records, lookup_upsert]
  exact if_pos rfl

theorem Saved.get {w : IntakeWrite} (h : Saved tenant w db db') :
    db'.get tenant w.intakeId = some w.record := by
  rw [IntakeDatabase.get, h.lookup]
  rfl

theorem saveOperation_ok {w : IntakeWrite} (h : db.saveOperation b tenant w = .ok db') :
    Saved tenant w db db' := by
  unfold saveOperation at h
  split_ifs at h with hnamed
  obtain ⟨confirmedDb, hconfirm, hrest⟩ := bind_ok_cases h
  dsimp only at hrest
  obtain ⟨eventDb, hevents, hstore⟩ := bind_ok_cases hrest
  obtain ⟨rows, rfl, -, hconfirmed⟩ := insertConfirmation_ok hconfirm
  obtain ⟨hrecords, -, hconfirmations, hidempotency, hothers⟩ := insertEvents_frame hevents
  obtain rfl := storeIdempotency_ok hstore
  refine ⟨not_not.mp hnamed, hrecords, ?_, ?_, ?_, ?_⟩
  · intro k hk
    apply hothers k
    intro r hr
    rw [(mem_eventRows hr).1]
    exact hk.symm
  · intro es hes hnodup
    change eventDb.rowsOf _ = _
    refine rowsOf_insertEvents ?_ hevents hnodup
    exact hes
  · intro c hc
    change ∃ r ∈ eventDb.confirmations, _
    rw [hconfirmations]
    exact hconfirmed c hc
  · change eventDb.idempotency ++ _ = _
    rw [hidempotency]

end IntakeDatabase

end DecisionAssurance.Intake
