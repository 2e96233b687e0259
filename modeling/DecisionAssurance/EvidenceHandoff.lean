import DecisionAssurance.DecisionDatabase
import DecisionAssurance.ResearchContracts

/-!
# The handoff of research evidence

The evidence `ResearchEvidenceCompiler` compiles from a run, what `attach` makes of the
Decision File it is handed to, and its transaction.
-/

namespace DecisionAssurance

open Research Tables

/-! ## `ResearchEvidenceCompiler.compile` -/

def Research.EvidenceCandidate.compiledStatus (c : EvidenceCandidate) : EvidenceStatus :=
  if c.assessment.conflictStatus = "CONFLICTING" then .conflicting
  else if c.assessment.freshnessStatus = "STALE" then .outdated
  else .unverified

namespace ResearchEvidenceCompiler

def eligible (c : EvidenceCandidate) : Bool :=
  c.assessment.usableForDecision && !c.risk.promptInjectionSuspected

/-- The evidence of a candidate; there is none without its snapshot. -/
def compileCandidate (run : ResearchRun) (c : EvidenceCandidate) : Option DecisionEvidence :=
  (run.snapshots.find? fun s => s.snapshotId = c.snapshotId).map fun snapshot =>
    { evidenceId := c.evidenceId
      researchRunId := run.researchRunId
      claimRefs := c.claimRefs
      sourceRef := s!"research:{run.researchRunId}:{c.evidenceId}"
      status := c.compiledStatus
      observedAt := snapshot.retrievedAt
      contentHash := c.contentHash
      correlationId := some run.correlationId }

/-- `compile`; `next` raises where the snapshot of a candidate is missing. -/
def compile (run : ResearchRun) : Option (List DecisionEvidence) :=
  (run.evidence.filter eligible).mapM (compileCandidate run)

variable {run : ResearchRun} {c : EvidenceCandidate} {e : DecisionEvidence}
  {compiled : List DecisionEvidence}

theorem compile_map (h : compile run = some compiled) :
    (run.evidence.filter eligible).map (compileCandidate run) = compiled.map some := by
  unfold compile at h
  generalize run.evidence.filter eligible = candidates at h
  induction candidates generalizing compiled with
  | nil =>
    cases h
    rfl
  | cons c candidates ih =>
    rw [List.mapM_cons] at h
    obtain ⟨e, he, h⟩ := Option.bind_eq_some_iff.mp h
    obtain ⟨es, hes, h⟩ := Option.bind_eq_some_iff.mp h
    cases h
    rw [List.map_cons, List.map_cons, he, ih hes]

/-- Evidence is compiled from a candidate that may be used. -/
theorem mem_compile (h : compile run = some compiled) (he : e ∈ compiled) :
    ∃ c ∈ run.evidence, eligible c = true ∧ compileCandidate run c = some e := by
  have hmem : some e ∈ (run.evidence.filter eligible).map (compileCandidate run) := by
    rw [compile_map h]
    exact List.mem_map_of_mem he
  obtain ⟨c, hc, hcompiled⟩ := List.mem_map.mp hmem
  exact ⟨c, (List.mem_filter.mp hc).1, (List.mem_filter.mp hc).2, hcompiled⟩

theorem compileCandidate_cases (h : compileCandidate run c = some e) :
    ∃ snapshot ∈ run.snapshots, snapshot.snapshotId = c.snapshotId ∧
      e = { evidenceId := c.evidenceId
            researchRunId := run.researchRunId
            claimRefs := c.claimRefs
            sourceRef := s!"research:{run.researchRunId}:{c.evidenceId}"
            status := c.compiledStatus
            observedAt := snapshot.retrievedAt
            contentHash := c.contentHash
            correlationId := some run.correlationId } := by
  obtain ⟨snapshot, hsnapshot, rfl⟩ := Option.map_eq_some_iff.mp h
  have hid := List.find?_some hsnapshot
  exact ⟨snapshot, List.mem_of_find?_eq_some hsnapshot, of_decide_eq_true hid, rfl⟩

end ResearchEvidenceCompiler

/-! ## `attach` on a document -/

inductive HandoffRejection
  | noUsableEvidence | mixedResearchRuns | correlationContextRequired | decisionNotFound
  | decisionDocumentChanged | decisionNotDraft | claimReferenceNotFound
  deriving DecidableEq

inductive HandoffError
  | rejected (reason : HandoffRejection)
  | decision (e : DecisionError)
  | repository (e : RepositoryError)
  | unknownRun (b : Backend)
  deriving DecidableEq

/-- What a handoff delivers: evidence of one run under one correlation. -/
structure Delivery where
  runId : String
  correlationId : String
  evidence : List DecisionEvidence
  nonempty : evidence ≠ []

/-- The checks `attach` makes of its evidence before it opens a transaction. -/
def deliver : List DecisionEvidence → Except HandoffRejection Delivery
  | [] => .error .noUsableEvidence
  | e :: es =>
    if es.any fun e' => e'.researchRunId ≠ e.researchRunId then .error .mixedResearchRuns
    else
      match e.correlationId with
      | none => .error .correlationContextRequired
      | some correlationId =>
        if es.any fun e' => e'.correlationId ≠ some correlationId then
          .error .correlationContextRequired
        else .ok ⟨e.researchRunId, correlationId, e :: es, List.cons_ne_nil e es⟩

theorem deliver_evidence {evidence : List DecisionEvidence} {v : Delivery}
    (h : deliver evidence = .ok v) : v.evidence = evidence := by
  cases evidence with
  | nil => cases h
  | cons e es =>
    simp only [deliver] at h
    split_ifs at h
    split at h
    · cases h
    · split_ifs at h
      cases h
      rfl

/-- All that a run compiles is of the run and its correlation. -/
theorem deliver_compiled {run : ResearchRun} {compiled : List DecisionEvidence}
    (h : ResearchEvidenceCompiler.compile run = some compiled) (hne : compiled ≠ []) :
    deliver compiled = .ok ⟨run.researchRunId, run.correlationId, compiled, hne⟩ := by
  have hown : ∀ e ∈ compiled, e.researchRunId = run.researchRunId ∧
      e.correlationId = some run.correlationId := by
    intro e he
    obtain ⟨c, -, -, hcompiled⟩ := ResearchEvidenceCompiler.mem_compile h he
    obtain ⟨_, -, -, rfl⟩ := ResearchEvidenceCompiler.compileCandidate_cases hcompiled
    exact ⟨rfl, rfl⟩
  cases compiled with
  | nil => exact absurd rfl hne
  | cons e es =>
    obtain ⟨hrun, hcorrelation⟩ := hown e List.mem_cons_self
    have hruns : ¬ (es.any fun e' => e'.researchRunId ≠ run.researchRunId) := by
      rw [List.any_eq_true]
      rintro ⟨e', he', hne'⟩
      exact of_decide_eq_true hne' (hown e' (List.mem_cons_of_mem _ he')).1
    have hcorrelations : ¬ (es.any fun e' => e'.correlationId ≠ some run.correlationId) := by
      rw [List.any_eq_true]
      rintro ⟨e', he', hne'⟩
      exact of_decide_eq_true hne' (hown e' (List.mem_cons_of_mem _ he')).2
    simp only [deliver, hcorrelation, hrun, if_neg hruns, if_neg hcorrelations]

namespace Delivery

variable (pf : Platform) (v : Delivery)

def payload : Json :=
  .arr ((v.evidence.insertionSort fun a b => a.evidenceId ≤ b.evidenceId).map fun e =>
    .arr [.str e.evidenceId, .str e.contentHash, .str e.status.value])

/-- `handoff_id`: 24 digits of the SHA-256 of the payload. -/
def handoffId : String := String.ofList ((pf.sha256 v.payload.dumpsAscii).toList.take 24)

/-- `max(item.observed_at for item in evidence)` -/
def observedAt : String :=
  (v.evidence.map DecisionEvidence.observedAt).foldl (fun a b => if a < b then b else a) ""

end Delivery

def Research.DecisionEvidence.toEvidence (e : DecisionEvidence) : Evidence where
  id := e.evidenceId
  claimRefs := e.claimRefs
  sourceRef := e.sourceRef
  status := e.status
  observedAt := some e.observedAt
  contentHash := some e.contentHash

/-- The evidence items a document gains: those with an id it does not hold. -/
def DecisionFile.gained (d : DecisionFile) (evidence : List DecisionEvidence) : List Evidence :=
  (evidence.filter fun e => e.evidenceId ∉ d.evidence.map Evidence.id).map
    DecisionEvidence.toEvidence

def compilerActor : Actor := ⟨"system:research-compiler", .generator, .service⟩

def handoffEvent (pf : Platform) (tenant : TenantContext) (decisionFileId : String)
    (d : DecisionFile) (v : Delivery) : AuditEvent where
  eventId := s!"{decisionFileId}:research-handoff:{v.handoffId pf}"
  eventType := "research.evidence-attached"
  occurredAt := v.observedAt
  actor := compilerActor
  fromStatus := some .draft
  toStatus := .draft
  reasonCodes := ["EXTERNAL_EVIDENCE_ATTACHED_UNVERIFIED"]
  payloadHash := payloadHash pf v.payload
  previousEventHash := tipHash pf d.auditEvents
  tenantId := some tenant.tenantId
  correlationId := some v.correlationId
  sourceChannel := some .api

def DecisionFile.withHandoff (pf : Platform) (tenant : TenantContext) (decisionFileId : String)
    (d : DecisionFile) (v : Delivery) : DecisionFile :=
  { d with
    evidence := d.evidence ++ d.gained v.evidence
    updatedAt := v.observedAt
    auditEvents := d.auditEvents ++ [handoffEvent pf tenant decisionFileId d v] }

/-- The part of `attach` between the replay check and the writes. -/
def attachDocument (pf : Platform) (tenant : TenantContext) (decisionFileId : String)
    (expectedDocumentHash : String) (v : Delivery) (d : DecisionFile) :
    Except HandoffError DecisionFile := do
  if payloadHash pf d.toJson ≠ expectedDocumentHash then
    .error (.rejected .decisionDocumentChanged)
  else if d.status ≠ .draft then .error (.rejected .decisionNotDraft)
  else if v.evidence.any fun e => e.claimRefs.any fun ref => ref ∉ d.claims.map Claim.id then
    .error (.rejected .claimReferenceNotFound)
  else
    let updated := d.withHandoff pf tenant decisionFileId v
    (validateContract pf updated).mapError .decision
    (validateSemantics pf updated).mapError .decision
    return updated

theorem attachDocument_ok_iff {pf : Platform} {tenant : TenantContext} {decisionFileId : String}
    {expectedDocumentHash : String} {v : Delivery} {d updated : DecisionFile} :
    attachDocument pf tenant decisionFileId expectedDocumentHash v d = .ok updated ↔
      payloadHash pf d.toJson = expectedDocumentHash ∧ d.status = .draft ∧
      (∀ e ∈ v.evidence, ∀ ref ∈ e.claimRefs, ref ∈ d.claims.map Claim.id) ∧
      updated = d.withHandoff pf tenant decisionFileId v ∧ updated.contractValid pf = true ∧
      validateSemantics pf updated = .ok () := by
  have hclaims : (v.evidence.any fun e => e.claimRefs.any fun ref => ref ∉ d.claims.map Claim.id) =
      false ↔ ∀ e ∈ v.evidence, ∀ ref ∈ e.claimRefs, ref ∈ d.claims.map Claim.id := by
    simp only [List.any_eq_false, decide_eq_true_eq, not_not, Bool.not_eq_true]
  unfold attachDocument
  constructor
  · intro h
    split_ifs at h with hhash hstatus hunknown
    obtain ⟨u, hcontract, h⟩ := bind_ok_cases h
    obtain ⟨u', hsem, h⟩ := bind_ok_cases h
    cases h
    refine ⟨not_not.mp hhash, not_not.mp hstatus,
      hclaims.mp (Bool.eq_false_of_not_eq_true hunknown), rfl, ?_, ?_⟩
    · exact validateContract_ok (mapError_ok hcontract)
    · exact mapError_ok hsem
  · rintro ⟨hhash, hstatus, hknown, rfl, hcontract, hsem⟩
    rw [if_neg (not_not.mpr hhash), if_neg (not_not.mpr hstatus), hclaims.mpr hknown]
    simp only [validateContract, hcontract, hsem]
    rfl

theorem attachDocument_cases {pf : Platform} {tenant : TenantContext} {decisionFileId : String}
    {expectedDocumentHash : String} {v : Delivery} {d updated : DecisionFile}
    (h : attachDocument pf tenant decisionFileId expectedDocumentHash v d = .ok updated) :
    d.status = .draft ∧ updated.contractValid pf = true ∧ Semantic pf updated ∧
      updated = d.withHandoff pf tenant decisionFileId v := by
  obtain ⟨-, hstatus, -, rfl, hcontract, hsem⟩ := attachDocument_ok_iff.mp h
  exact ⟨hstatus, hcontract, validateSemantics_ok hsem, rfl⟩

/-! ## The transaction -/

/-- The insert into `research_handoffs`; `stored` are the keys of `research_runs`, to which its
foreign key refers. -/
def insertHandoff (b : Backend) (stored : List (String × String)) (row : HandoffRow)
    (rows : List HandoffRow) : Except HandoffError (List HandoffRow) :=
  if (row.tenantId, row.researchRunId) ∈ stored then
    orRaise (.repository b.violation) (insertRow HandoffRow.key row rows)
  else .error (.unknownRun b)

/-- The transaction of `attach`. It holds the row it read, so SQLite's comparison of the stored
text with the text read succeeds. -/
def attach (b : Backend) (pf : Platform) (stored : List (String × String)) (tenant : TenantContext)
    (decisionFileId : String) (expectedDocumentHash : String) (evidence : List DecisionEvidence)
    (t : DecisionTables) : Except HandoffError (DecisionTables × DecisionFile) := do
  let v ← (deliver evidence).mapError .rejected
  let document ← orRaise (.rejected .decisionNotFound) (t.getDecision tenant decisionFileId)
  if (lookup HandoffRow.key (tenant.tenantId, v.runId, decisionFileId, v.handoffId pf)
      t.researchHandoffs).isSome then
    return (t, document)
  else
    let updated ← attachDocument pf tenant decisionFileId expectedDocumentHash v document
    let t ← (DecisionTables.insertAudit b tenant decisionFileId
      { t with decisions := DecisionTables.writeDocument tenant decisionFileId updated t.decisions }
      (handoffEvent pf tenant decisionFileId document v)).mapError .repository
    let rows ← insertHandoff b stored
      ⟨tenant.tenantId, v.runId, decisionFileId, v.handoffId pf, payloadHash pf updated.toJson⟩
      t.researchHandoffs
    return ({ t with researchHandoffs := rows }, updated)

section Attach

variable {b : Backend} {pf : Platform} {stored : List (String × String)} {tenant : TenantContext}
  {decisionFileId expectedDocumentHash : String} {evidence : List DecisionEvidence} {v : Delivery}
  {t t' : DecisionTables} {d d' : DecisionFile}

/-- The tables once an attachment has written the document, its event and the handoff. -/
def DecisionTables.withHandoff (pf : Platform) (tenant : TenantContext) (decisionFileId : String)
    (v : Delivery) (d d' : DecisionFile) (t : DecisionTables) : DecisionTables :=
  { t with
    decisions := DecisionTables.writeDocument tenant decisionFileId d' t.decisions
    auditEvents := t.auditEvents ++
      [(handoffEvent pf tenant decisionFileId d v).row tenant decisionFileId]
    researchHandoffs := t.researchHandoffs ++ [⟨tenant.tenantId, v.runId, decisionFileId,
      v.handoffId pf, payloadHash pf d'.toJson⟩] }

theorem insertHandoff_cases {row : HandoffRow} {rows rows' : List HandoffRow}
    (h : insertHandoff b stored row rows = .ok rows') :
    (row.tenantId, row.researchRunId) ∈ stored ∧ rows' = rows ++ [row] := by
  unfold insertHandoff at h
  split_ifs at h with hstored
  exact ⟨hstored, (insertRow_cases (orRaise_ok.mp h)).2⟩

/-- A replay answers the document as it is; any other attachment is of a stored run and writes the
document, its event and the handoff. -/
theorem attach_cases
    (h : attach b pf stored tenant decisionFileId expectedDocumentHash evidence t = .ok (t', d')) :
    ∃ v d, deliver evidence = .ok v ∧ t.getDecision tenant decisionFileId = some d ∧
      ((lookup HandoffRow.key (tenant.tenantId, v.runId, decisionFileId, v.handoffId pf)
          t.researchHandoffs ≠ none ∧ t' = t ∧ d' = d) ∨
        lookup HandoffRow.key (tenant.tenantId, v.runId, decisionFileId, v.handoffId pf)
          t.researchHandoffs = none ∧ (tenant.tenantId, v.runId) ∈ stored ∧
        attachDocument pf tenant decisionFileId expectedDocumentHash v d = .ok d' ∧
        (∀ r ∈ t.auditEvents, r.key ≠ AuditRow.key
          ((handoffEvent pf tenant decisionFileId d v).row tenant decisionFileId)) ∧
        t' = t.withHandoff pf tenant decisionFileId v d d') := by
  obtain ⟨v, hdeliver, h⟩ := bind_ok_cases h
  obtain ⟨d, hload, h⟩ := bind_ok_cases h
  refine ⟨v, d, mapError_ok hdeliver, orRaise_ok.mp hload, ?_⟩
  split_ifs at h with hreplay
  · cases h
    exact .inl ⟨Option.isSome_iff_ne_none.mp hreplay, rfl, rfl⟩
  · obtain ⟨updated, hupdated, h⟩ := bind_ok_cases h
    obtain ⟨t₂, hinsert, h⟩ := bind_ok_cases h
    obtain ⟨handoffs, hhandoffs, h⟩ := bind_ok_cases h
    cases h
    obtain ⟨audit, haudit, rfl⟩ :=
      Option.map_eq_some_iff.mp (orRaise_ok.mp (mapError_ok hinsert))
    obtain ⟨hfresh, rfl⟩ := insertRow_cases haudit
    obtain ⟨hstored, rfl⟩ := insertHandoff_cases hhandoffs
    exact .inr ⟨Option.not_isSome_iff_eq_none.mp hreplay, hstored, hupdated, hfresh, rfl⟩

theorem attach_replayed (hdeliver : deliver evidence = .ok v)
    (hload : t.getDecision tenant decisionFileId = some d)
    (hreplay : lookup HandoffRow.key (tenant.tenantId, v.runId, decisionFileId, v.handoffId pf)
      t.researchHandoffs ≠ none) :
    attach b pf stored tenant decisionFileId expectedDocumentHash evidence t = .ok (t, d) := by
  unfold attach
  rw [hdeliver, hload]
  change (if _ then _ else _) = _
  rw [if_pos (Option.isSome_iff_ne_none.mpr hreplay)]
  rfl

theorem attach_written (hdeliver : deliver evidence = .ok v)
    (hload : t.getDecision tenant decisionFileId = some d)
    (hreplay : lookup HandoffRow.key (tenant.tenantId, v.runId, decisionFileId, v.handoffId pf)
      t.researchHandoffs = none) (hstored : (tenant.tenantId, v.runId) ∈ stored)
    (hattach : attachDocument pf tenant decisionFileId expectedDocumentHash v d = .ok d')
    (hfresh : ∀ r ∈ t.auditEvents, r.key ≠ AuditRow.key
      ((handoffEvent pf tenant decisionFileId d v).row tenant decisionFileId)) :
    attach b pf stored tenant decisionFileId expectedDocumentHash evidence t =
      .ok (t.withHandoff pf tenant decisionFileId v d d', d') := by
  have haudit : insertRow AuditRow.key
      ((handoffEvent pf tenant decisionFileId d v).row tenant decisionFileId)
      t.auditEvents = some _ := insertRow_of_fresh hfresh
  have hhandoff : insertRow HandoffRow.key ⟨tenant.tenantId, v.runId, decisionFileId,
      v.handoffId pf, payloadHash pf d'.toJson⟩ t.researchHandoffs = some _ :=
    insertRow_of_fresh (lookup_eq_none.mp hreplay)
  unfold attach insertHandoff DecisionTables.insertAudit
  rw [hdeliver, hload]
  change (if _ then _ else _) = _
  rw [if_neg (Option.not_isSome_iff_eq_none.mpr hreplay), hattach]
  change (Except.mapError _ (orRaise _ (Option.map _ (insertRow _ _ _))) >>= _) = _
  rw [haudit]
  change ((if _ then orRaise _ (insertRow _ _ _) else _) >>= _) = _
  rw [if_pos hstored, hhandoff]
  rfl

end Attach

end DecisionAssurance
