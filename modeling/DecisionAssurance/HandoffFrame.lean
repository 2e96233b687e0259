import DecisionAssurance.EvidenceHandoff
import DecisionAssurance.JobRuns

/-!
# What a handoff may change

Evidence that a run has compiled is appended to a draft whose hash was expected, with an event of
the handoff and the time of the evidence. Nothing else of the document changes, nothing of any
other document does, and none of the evidence is verified or comes from content under suspicion.
-/

namespace DecisionAssurance

open Research Tables ResearchEvidenceCompiler

variable {b : Backend} {pf : Platform} {stored : List (String × String)} {tenant : TenantContext}
  {decisionFileId hash : String} {run : ResearchRun} {c : EvidenceCandidate} {e : DecisionEvidence}
  {evidence compiled : List DecisionEvidence} {v : Delivery} {t t' : DecisionTables}
  {d d' : DecisionFile} {k : CaseKey}

/-! ## Evidence -/

/-- Evidence that a run may add to a document. -/
structure Addable (run : ResearchRun) (d : DecisionFile) (e : Evidence) : Prop where
  status : e.status = .unverified ∨ e.status = .outdated ∨ e.status = .conflicting
  claims : ∀ ref ∈ e.claimRefs, ref ∈ d.claims.map Claim.id
  fresh : e.id ∉ d.evidence.map Evidence.id
  candidate : ∃ c ∈ run.evidence, c.evidenceId = e.id ∧ some c.contentHash = e.contentHash ∧
    c.assessment.usableForDecision = true ∧ c.risk.promptInjectionSuspected = false

theorem compiledStatus_cases : c.compiledStatus = .unverified ∨ c.compiledStatus = .outdated ∨
    c.compiledStatus = .conflicting := by
  unfold EvidenceCandidate.compiledStatus
  split_ifs
  · exact .inr (.inr rfl)
  · exact .inr (.inl rfl)
  · exact .inl rfl

theorem addable_gained (h : compile run = some compiled)
    (hclaims : ∀ e ∈ compiled, ∀ ref ∈ e.claimRefs, ref ∈ d.claims.map Claim.id) :
    ∀ e ∈ d.gained compiled, Addable run d e := by
  intro e he
  obtain ⟨item, hitem, rfl⟩ := List.mem_map.mp he
  obtain ⟨hmem, hfresh⟩ := List.mem_filter.mp hitem
  obtain ⟨c, hc, heligible, hcompiled⟩ := mem_compile h hmem
  obtain ⟨_, -, -, hcandidate⟩ := compileCandidate_cases hcompiled
  rw [eligible, Bool.and_eq_true, Bool.not_eq_true'] at heligible
  refine ⟨?_, hclaims item hmem, of_decide_eq_true hfresh, c, hc, ?_, ?_, heligible⟩
  · rw [hcandidate]
    exact compiledStatus_cases
  · rw [hcandidate]
    rfl
  · rw [hcandidate]
    rfl

/-! ## Attachments -/

/-- The tables after `attach`; a call that raises is rolled back. -/
def attached (b : Backend) (pf : Platform) (stored : List (String × String))
    (tenant : TenantContext) (decisionFileId hash : String) (evidence : List DecisionEvidence)
    (t : DecisionTables) : DecisionTables :=
  valueOr ((attach b pf stored tenant decisionFileId hash evidence t).map Prod.fst) t

/-- A draft of the expected hash with evidence of a run, one more event and a new time. -/
structure HandedOff (pf : Platform) (run : ResearchRun) (hash : String) (d d' : DecisionFile) :
    Prop where
  draft : d.status = .draft
  expected : payloadHash pf d.toJson = hash
  grown : ∃ evidence event updatedAt, d' = { d with
    evidence := d.evidence ++ evidence
    auditEvents := d.auditEvents ++ [event]
    updatedAt := updatedAt } ∧ ∀ e ∈ evidence, Addable run d e

/-- At most the document of one case changes in the tables, by a handoff that leaves a row of its
event and one of its own. -/
structure Confined (pf : Platform) (run : ResearchRun) (hash : String) (case : CaseKey)
    (t t' : DecisionTables) : Prop where
  documents : ∀ k, t'.document k = t.document k ∨ k = case ∧ ∃ d d', t.document k = some d ∧
    t'.document k = some d' ∧ HandedOff pf run hash d d'
  rows : t' = t ∨ ∃ d d' event handoff, t.document case = some d ∧ t'.document case = some d' ∧
    d'.auditEvents = d.auditEvents ++ [event.event] ∧ event.case = case ∧
    t'.decisions.map DecisionRow.key = t.decisions.map DecisionRow.key ∧
    t'.auditEvents = t.auditEvents ++ [event] ∧
    t'.researchHandoffs = t.researchHandoffs ++ [handoff]
  reports : t'.reports = t.reports
  idempotency : t'.idempotency = t.idempotency

theorem Confined.refl {case : CaseKey} : Confined pf run hash case t t :=
  ⟨fun _ => .inl rfl, .inl rfl, rfl, rfl⟩

theorem attach_confined (hcompile : compile run = some compiled)
    (h : attach b pf stored tenant decisionFileId hash compiled t = .ok (t', d')) :
    Confined pf run hash (tenant.tenantId, decisionFileId) t t' := by
  obtain ⟨v, d, hdeliver, hload, ⟨-, rfl, -⟩ | ⟨-, -, hattach, -, ht'⟩⟩ := attach_cases h
  · exact .refl
  · obtain ⟨hhash, hdraft, hclaims, hd', -, -⟩ := attachDocument_ok_iff.mp hattach
    have hne : compiled ≠ [] := by
      rintro rfl
      cases hdeliver
    have hevidence : v.evidence = compiled := by
      rw [deliver_compiled hcompile hne] at hdeliver
      cases hdeliver
      rfl
    rw [hevidence] at hclaims
    have hwritten : ∀ k, t'.document k =
        if k = (tenant.tenantId, decisionFileId) then some d' else t.document k :=
      fun k => DecisionTables.document_writeDocument hload (by rw [ht']; rfl)
    have hcase := hwritten (tenant.tenantId, decisionFileId)
    rw [if_pos rfl] at hcase
    refine ⟨fun k => ?_, .inr ?_, ?_, ?_⟩
    · by_cases hk : k = (tenant.tenantId, decisionFileId)
      · subst hk
        refine .inr ⟨rfl, d, d', hload, hcase, hdraft, hhash, _, _, _, hd', ?_⟩
        rw [hevidence]
        exact addable_gained hcompile hclaims
      · rw [hwritten, if_neg hk]
        exact .inl rfl
    · refine ⟨d, d', (handoffEvent pf tenant decisionFileId d v).row tenant decisionFileId,
        ⟨tenant.tenantId, v.runId, decisionFileId, v.handoffId pf, payloadHash pf d'.toJson⟩,
        hload, hcase, ?_, rfl, ?_, ?_, ?_⟩
      · rw [hd']
        rfl
      · rw [ht']
        exact DecisionTables.map_key_writeDocument
      · rw [ht']
        rfl
      · rw [ht']
        rfl
    · rw [ht']
      rfl
    · rw [ht']
      rfl

/-- Whatever `attach` answers to the evidence of a run, it is confined to the draft it was given,
and where it raises nothing changes. -/
theorem handoff_confined (hcompile : compile run = some compiled) :
    Confined pf run hash (tenant.tenantId, decisionFileId) t
        (attached b pf stored tenant decisionFileId hash compiled t) ∧
      ((∃ e, attach b pf stored tenant decisionFileId hash compiled t = .error e) →
        attached b pf stored tenant decisionFileId hash compiled t = t) := by
  unfold attached
  cases h : attach b pf stored tenant decisionFileId hash compiled t with
  | error e => exact ⟨.refl, fun _ => rfl⟩
  | ok r => exact ⟨attach_confined hcompile h, fun ⟨_, he⟩ => nomatch he⟩

/-! ## A page compiled -/

def calmRisk : ContentRisk := ⟨false, [], false, false⟩

def pageSnapshot (retrievedAt : String) : SourceSnapshot where
  snapshotId := "source-1:snapshot:1"
  sourceId := "source-1"
  originalUrl := "https://example.org/"
  canonicalUrl := "https://example.org/"
  domain := "example.org"
  title := "page"
  retrievedAt := retrievedAt
  expiresAt := retrievedAt
  contentHash := "sha256:1"
  httpStatus := 200
  mimeType := "text/markdown"
  format := "markdown"
  text := "page"
  language := "en"
  contentProvider := "extractor"
  contentProviderVersion := "1"
  risk := calmRisk
  artifactType := "FETCHED_CONTENT"

def pageCandidate : EvidenceCandidate where
  evidenceId := "research-1"
  tenantId := "tenant-a"
  researchRunId := "run-1"
  decisionFileId := "case-1"
  claimRefs := ["claim"]
  sourceId := "source-1"
  snapshotId := "source-1:snapshot:1"
  contentHash := "sha256:1"
  assessment := ⟨"CURRENT", "PRIMARY", "1.0", "1.0", "NOT_CHECKED", true, true, []⟩
  provenance := ⟨1, "query", "search", "1", "extractor", "1", "evidence-policy-v1"⟩
  risk := calmRisk
  artifactType := "DERIVED_CLAIM"

/-- A run with the evidence of a page. -/
def compiledRun (retrievedAt : String) : ResearchRun :=
  { Jobs.pilotRun with
    snapshots := [pageSnapshot retrievedAt]
    evidence := [pageCandidate] }

def compiledPage (retrievedAt : String) : DecisionEvidence where
  evidenceId := "research-1"
  researchRunId := "run-1"
  claimRefs := ["claim"]
  sourceRef := "research:run-1:research-1"
  status := .unverified
  observedAt := retrievedAt
  contentHash := "sha256:1"
  correlationId := some "correlation-1"

def draftTables : DecisionTables :=
  { DecisionTables.empty with decisions := [⟨"tenant-a", "case-1", draftCase⟩] }

theorem page_ne_nil : [compiledPage "2026-01-02"] ≠ [] := List.cons_ne_nil _ _

def pageDelivery : Delivery :=
  ⟨"run-1", "correlation-1", [compiledPage "2026-01-02"], page_ne_nil⟩

/-- The draft with the evidence of the page. -/
def pagedCase : DecisionFile :=
  draftCase.withHandoff plainPlatform Jobs.pilotTenant "case-1" pageDelivery

def pagedTables : DecisionTables :=
  draftTables.withHandoff plainPlatform Jobs.pilotTenant "case-1" pageDelivery draftCase pagedCase

/-- The run of the page is stored. -/
def pageRuns : List (String × String) := [("tenant-a", "run-1")]

theorem attach_page (b : Backend) : attach b plainPlatform pageRuns Jobs.pilotTenant "case-1"
      (payloadHash plainPlatform draftCase.toJson) [compiledPage "2026-01-02"] draftTables =
    .ok (pagedTables, pagedCase) := by
  have hdeliver : deliver [compiledPage "2026-01-02"] = .ok pageDelivery := rfl
  have hload : draftTables.getDecision Jobs.pilotTenant "case-1" = some draftCase := rfl
  -- nothing the contract or the semantics ask is about a hash, so none is computed here
  have hattach : attachDocument plainPlatform Jobs.pilotTenant "case-1"
      (payloadHash plainPlatform draftCase.toJson) pageDelivery draftCase = .ok pagedCase :=
    attachDocument_ok_iff.mpr ⟨rfl, rfl, by decide, rfl, rfl, rfl⟩
  exact attach_written hdeliver hload rfl (List.mem_singleton_self _) hattach fun r hr => nomatch hr

theorem handoff_confined_page :
    (attach .sqlite plainPlatform pageRuns Jobs.pilotTenant "case-1"
      (payloadHash plainPlatform draftCase.toJson) [compiledPage "2026-01-02"] draftTables).isOk ∧
    Confined plainPlatform (compiledRun "2026-01-02") (payloadHash plainPlatform draftCase.toJson)
      (Jobs.pilotTenant.tenantId, "case-1") draftTables
      (attached .sqlite plainPlatform pageRuns Jobs.pilotTenant "case-1"
        (payloadHash plainPlatform draftCase.toJson) [compiledPage "2026-01-02"] draftTables) := by
  have hcompile : compile (compiledRun "2026-01-02") = some [compiledPage "2026-01-02"] := by
    rfl
  refine ⟨?_, (handoff_confined hcompile).1⟩
  rw [attach_page]
  rfl

end DecisionAssurance
