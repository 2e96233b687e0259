import DecisionAssurance.Projections
import DecisionAssurance.ResearchRepositories

/-!
# The tables of a run's parts

`save` writes the sources, snapshots, evidence, attempts and audit events of a run to a table each,
after its row in `research_runs`. The statements and the constraints of the tables are the same in
SQLite and PostgreSQL, so one definition models both repositories. A column of JSON is the part it
holds.
-/

namespace DecisionAssurance.Research

open Interactions Interaction Tables

/-- The tenant and the id of a run. -/
abbrev RunKey := String × String

/-- `research_source_candidates` -/
structure SourceRow where
  tenantId : String
  researchRunId : String
  sourceId : String
  source : SourceCandidate
  deriving DecidableEq

/-- `research_source_snapshots` -/
structure SnapshotRow where
  tenantId : String
  researchRunId : String
  snapshotId : String
  sourceId : String
  canonicalUrl : String
  contentHash : String
  expiresAt : String
  snapshot : SourceSnapshot
  deriving DecidableEq

/-- `research_evidence_candidates` -/
structure EvidenceRow where
  tenantId : String
  researchRunId : String
  evidenceId : String
  sourceId : String
  snapshotId : String
  contentHash : String
  evidence : EvidenceCandidate
  deriving DecidableEq

/-- `research_attempts` -/
structure AttemptRow where
  tenantId : String
  researchRunId : String
  attemptId : String
  attempt : ResearchAttempt
  deriving DecidableEq

/-- `research_audit_events` -/
structure AuditEventRow where
  tenantId : String
  researchRunId : String
  eventId : String
  sequence : ℕ
  event : ResearchAuditEvent
  deriving DecidableEq

structure ResearchTables where
  sources : List SourceRow
  snapshots : List SnapshotRow
  evidence : List EvidenceRow
  attempts : List AttemptRow
  auditEvents : List AuditEventRow

namespace ResearchTables

def empty : ResearchTables := ⟨[], [], [], [], []⟩

/-! ## The statements -/

/-- `ON CONFLICT … DO UPDATE SET source_json` -/
def sourceTable : Projection SourceRow SourceCandidate RunKey String where
  key r := ((r.tenantId, r.researchRunId), r.sourceId)
  part := SourceRow.source
  ident := SourceCandidate.sourceId
  row k s := ⟨k.1, k.2, s.sourceId, s⟩
  update s r := { r with source := s }
  merge _ s := s
  key_row _ _ := rfl
  part_row _ _ := rfl
  key_update _ _ := rfl
  part_update _ _ := rfl
  ident_merge _ _ _ := rfl

/-- `ON CONFLICT … DO UPDATE SET snapshot_json, expires_at` -/
def snapshotTable : Projection SnapshotRow SourceSnapshot RunKey String where
  key r := ((r.tenantId, r.researchRunId), r.snapshotId)
  part := SnapshotRow.snapshot
  ident := SourceSnapshot.snapshotId
  row k s := ⟨k.1, k.2, s.snapshotId, s.sourceId, s.canonicalUrl, s.contentHash, s.expiresAt, s⟩
  update s r := { r with expiresAt := s.expiresAt, snapshot := s }
  merge _ s := s
  key_row _ _ := rfl
  part_row _ _ := rfl
  key_update _ _ := rfl
  part_update _ _ := rfl
  ident_merge _ _ _ := rfl

/-- `ON CONFLICT … DO UPDATE SET evidence_json` -/
def evidenceTable : Projection EvidenceRow EvidenceCandidate RunKey String where
  key r := ((r.tenantId, r.researchRunId), r.evidenceId)
  part := EvidenceRow.evidence
  ident := EvidenceCandidate.evidenceId
  row k e := ⟨k.1, k.2, e.evidenceId, e.sourceId, e.snapshotId, e.contentHash, e⟩
  update e r := { r with evidence := e }
  merge _ e := e
  key_row _ _ := rfl
  part_row _ _ := rfl
  key_update _ _ := rfl
  part_update _ _ := rfl
  ident_merge _ _ _ := rfl

/-- `ON CONFLICT … DO NOTHING` -/
def attemptTable : Projection AttemptRow ResearchAttempt RunKey String where
  key r := ((r.tenantId, r.researchRunId), r.attemptId)
  part := AttemptRow.attempt
  ident := ResearchAttempt.attemptId
  row k a := ⟨k.1, k.2, a.attemptId, a⟩
  update _ r := r
  merge a _ := a
  key_row _ _ := rfl
  part_row _ _ := rfl
  key_update _ _ := rfl
  part_update _ _ := rfl
  ident_merge _ _ h := h

/-- `ON CONFLICT … DO NOTHING`, of an event with its number. -/
def auditEventTable : Projection AuditEventRow (ResearchAuditEvent × ℕ) RunKey String where
  key r := ((r.tenantId, r.researchRunId), r.eventId)
  part r := (r.event, r.sequence)
  ident e := e.1.eventId
  row k e := ⟨k.1, k.2, e.1.eventId, e.2, e.1⟩
  update _ r := r
  merge e _ := e
  key_row _ _ := rfl
  part_row _ _ := rfl
  key_update _ _ := rfl
  part_update _ _ := rfl
  ident_merge _ _ h := h

/-! ## The constraints on a new row -/

def hasSource (sources : List SourceRow) (k : RunKey) (sourceId : String) : Bool :=
  sources.any fun r => sourceTable.key r = (k, sourceId)

def hasSnapshot (snapshots : List SnapshotRow) (k : RunKey) (snapshotId : String) : Bool :=
  snapshots.any fun r => snapshotTable.key r = (k, snapshotId)

/-- No other snapshot of the run has the content, and the source of the snapshot is there. -/
def admitsSnapshot (sources : List SourceRow) (k : RunKey) (rows : List SnapshotRow)
    (s : SourceSnapshot) : Bool :=
  !(rows.any fun r => (r.tenantId, r.researchRunId) = k && r.contentHash = s.contentHash) &&
    hasSource sources k s.sourceId

/-- No other evidence of the run is of the content, and its source and its snapshot are there. -/
def admitsEvidence (sources : List SourceRow) (snapshots : List SnapshotRow) (k : RunKey)
    (rows : List EvidenceRow) (e : EvidenceCandidate) : Bool :=
  !(rows.any fun r => (r.tenantId, r.researchRunId) = k && r.contentHash = e.contentHash) &&
    hasSource sources k e.sourceId && hasSnapshot snapshots k e.snapshotId

/-- No other event of the run has the number. -/
def admitsEvent (k : RunKey) (rows : List AuditEventRow) (e : ResearchAuditEvent × ℕ) : Bool :=
  !(rows.any fun r => (r.tenantId, r.researchRunId) = k && r.sequence = e.2)

/-! ## `save` -/

/-- A row that breaks a constraint raises. -/
def constrained {α : Type} (rows : Option α) : Raises α := orRaise (.other "IntegrityError") rows

/-- The row of an event's id holds the event. -/
def agrees (k : RunKey) (rows : List AuditEventRow) (e : ResearchAuditEvent × ℕ) : Bool :=
  match lookup auditEventTable.key (k, e.1.eventId) rows with
  | some row => row.event = e.1
  | none => true

def saveEvent (k : RunKey) (rows : List AuditEventRow) (e : ResearchAuditEvent × ℕ) :
    Raises (List AuditEventRow) :=
  if !agrees k rows e then .error (.valueError "AUDIT_EVENT_CONFLICT")
  else constrained (auditEventTable.write k (admitsEvent k) rows e)

/-- The events of a run with their numbers. -/
def numberedEvents (run : ResearchRun) : List (ResearchAuditEvent × ℕ) := run.auditEvents.zipIdx 1

/-- `save` on the tables of the parts. -/
def save (T : ResearchTables) (run : ResearchRun) : Raises ResearchTables := do
  let k := run.key
  let sources ← constrained (sourceTable.writeAll k (fun _ _ => true) T.sources run.sources)
  let snapshots ← constrained
    (snapshotTable.writeAll k (admitsSnapshot sources k) T.snapshots run.snapshots)
  let evidence ← constrained
    (evidenceTable.writeAll k (admitsEvidence sources snapshots k) T.evidence run.evidence)
  let attempts ← constrained
    (attemptTable.writeAll k (fun _ _ => true) T.attempts run.attempts)
  let auditEvents ← (numberedEvents run).foldlM (saveEvent k) T.auditEvents
  return ⟨sources, snapshots, evidence, attempts, auditEvents⟩

/-- What a save has written to each table. -/
structure Wrote (T : ResearchTables) (run : ResearchRun) (T' : ResearchTables) : Prop where
  sources : sourceTable.writeAll run.key (fun _ _ => true) T.sources run.sources = some T'.sources
  snapshots : snapshotTable.writeAll run.key (admitsSnapshot T'.sources run.key) T.snapshots
    run.snapshots = some T'.snapshots
  evidence : evidenceTable.writeAll run.key (admitsEvidence T'.sources T'.snapshots run.key)
    T.evidence run.evidence = some T'.evidence
  attempts : attemptTable.writeAll run.key (fun _ _ => true) T.attempts run.attempts =
    some T'.attempts
  auditEvents : auditEventTable.writeAll run.key (admitsEvent run.key) T.auditEvents
    (numberedEvents run) = some T'.auditEvents

variable {T T' : ResearchTables} {run : ResearchRun} {k : RunKey}

theorem saveEvents_writeAll {events : List (ResearchAuditEvent × ℕ)}
    {rows rows' : List AuditEventRow} (h : events.foldlM (saveEvent k) rows = .ok rows') :
    auditEventTable.writeAll k (admitsEvent k) rows events = some rows' := by
  unfold Projection.writeAll
  induction events generalizing rows with
  | nil =>
    cases h
    rfl
  | cons e events ih =>
    rw [List.foldlM_cons] at h ⊢
    obtain ⟨rows₁, hfirst, hrest⟩ := bind_ok_cases h
    unfold saveEvent at hfirst
    split_ifs at hfirst
    rw [orRaise_ok.mp hfirst]
    exact ih hrest

theorem save_wrote (h : T.save run = .ok T') : Wrote T run T' := by
  obtain ⟨sources, hsources, h⟩ := bind_ok_cases h
  obtain ⟨snapshots, hsnapshots, h⟩ := bind_ok_cases h
  obtain ⟨evidence, hevidence, h⟩ := bind_ok_cases h
  obtain ⟨attempts, hattempts, h⟩ := bind_ok_cases h
  obtain ⟨auditEvents, hevents, h⟩ := bind_ok_cases h
  cases h
  exact ⟨orRaise_ok.mp hsources, orRaise_ok.mp hsnapshots, orRaise_ok.mp hevidence,
    orRaise_ok.mp hattempts, saveEvents_writeAll hevents⟩

/-! ## Labelled tables -/

/-- Every row is under the key of its part. -/
structure Labelled (T : ResearchTables) : Prop where
  sources : sourceTable.Labelled T.sources
  snapshots : snapshotTable.Labelled T.snapshots
  evidence : evidenceTable.Labelled T.evidence
  attempts : attemptTable.Labelled T.attempts
  auditEvents : auditEventTable.Labelled T.auditEvents

theorem labelled_empty : empty.Labelled where
  sources := ⟨List.nodup_nil, fun _ hr => absurd hr List.not_mem_nil⟩
  snapshots := ⟨List.nodup_nil, fun _ hr => absurd hr List.not_mem_nil⟩
  evidence := ⟨List.nodup_nil, fun _ hr => absurd hr List.not_mem_nil⟩
  attempts := ⟨List.nodup_nil, fun _ hr => absurd hr List.not_mem_nil⟩
  auditEvents := ⟨List.nodup_nil, fun _ hr => absurd hr List.not_mem_nil⟩

theorem Wrote.labelled (h : Wrote T run T') (hT : T.Labelled) : T'.Labelled where
  sources := hT.sources.writeAll h.sources
  snapshots := hT.snapshots.writeAll h.snapshots
  evidence := hT.evidence.writeAll h.evidence
  attempts := hT.attempts.writeAll h.attempts
  auditEvents := hT.auditEvents.writeAll h.auditEvents

end ResearchTables

end DecisionAssurance.Research
