import DecisionAssurance.HandoffTimes

/-!
# The status of evidence in a document

Contradictions are looked for among all the evidence of a run, so evidence that was handed off may
be compiled with another status on a later attempt, and its handoff is then a new one. `attach`
passes over the ids that a document has, and the status that it shows stays.
-/

namespace DecisionAssurance.Research

open Interactions Interaction Tables PostgresResearchRepository ResearchOrchestrator
open Runs (Transition Trace Run)
open Jobs (JobDatabase JobBackend RunRow)

variable {b : JobBackend} {order : ScanOrder} {pf : Platform} {backend : Backend}
  {tenant : TenantContext} {decisionFileId hash : String} {evidence : List DecisionEvidence}
  {v : Delivery} {d d' : DecisionFile}

/-! ## What a document shows -/

/-- All that a document has under the ids of the evidence is of the compiled status. -/
def Agrees (d : DecisionFile) (evidence : List DecisionEvidence) : Prop :=
  ∀ e ∈ evidence, ∀ item ∈ d.evidence, item.id = e.evidenceId → item.status = e.status

/-- The evidence is in a document, with its compiled status. -/
structure Shows (d : DecisionFile) (evidence : List DecisionEvidence) : Prop where
  present : ∀ e ∈ evidence, e.evidenceId ∈ d.evidence.map Evidence.id
  agrees : Agrees d evidence

theorem evidence_withHandoff : (d.withHandoff pf tenant decisionFileId v).evidence =
    d.evidence ++ d.gained v.evidence := rfl

theorem present_withHandoff : ∀ e ∈ v.evidence,
    e.evidenceId ∈ (d.withHandoff pf tenant decisionFileId v).evidence.map Evidence.id := by
  intro e he
  rw [evidence_withHandoff, List.map_append, List.mem_append]
  by_cases hknown : e.evidenceId ∈ d.evidence.map Evidence.id
  · exact .inl hknown
  · have hgained : e.toEvidence ∈ d.gained v.evidence := mem_gained.mpr ⟨e, he, hknown, rfl⟩
    exact .inr (List.mem_map_of_mem hgained)

/-- Of items with ids of their own, one that was gained is the only one of its id. -/
theorem gained_agrees (hdistinct : ((d.evidence ++ d.gained evidence).map Evidence.id).Nodup) :
    ∀ e ∈ evidence, ∀ item ∈ d.gained evidence, item.id = e.evidenceId →
      item.status = e.status := by
  intro e he item hitem hid
  obtain ⟨e₀, -, hfresh, rfl⟩ := mem_gained.mp hitem
  have hid : e₀.evidenceId = e.evidenceId := hid
  rw [hid] at hfresh
  have hgained : e.toEvidence ∈ d.gained evidence := mem_gained.mpr ⟨e, he, hfresh, rfl⟩
  have hsame : e₀.toEvidence = e.toEvidence := List.inj_on_of_nodup_map hdistinct
    (List.mem_append_right _ hitem) (List.mem_append_right _ hgained) hid
  exact congrArg Evidence.status hsame

/-- A handoff shows its evidence if and only if the document it was given agrees with it. -/
theorem attachDocument_shows_iff
    (h : attachDocument pf tenant decisionFileId hash v d = .ok d') :
    Shows d' v.evidence ↔ Agrees d v.evidence := by
  obtain ⟨-, -, hsemantic, rfl⟩ := attachDocument_cases h
  have hdistinct := hsemantic.evidence
  rw [evidence_withHandoff] at hdistinct
  constructor
  · intro hshows e he item hitem
    exact hshows.agrees e he item (List.mem_append_left _ hitem)
  · intro hagrees
    refine ⟨present_withHandoff, fun e he item hitem => ?_⟩
    rw [evidence_withHandoff] at hitem
    rcases List.mem_append.mp hitem with hitem | hitem
    · exact hagrees e he item hitem
    · exact gained_agrees hdistinct e he item hitem

/-! ## Operations and the documents they are for -/

/-- The runs and jobs of a deployment and its documents. -/
structure CaseStore where
  jobs : JobDatabase
  tables : DecisionTables

/-- A handoff that succeeds is made on the tables. One that raises leaves them as they are, and so
does every other call. -/
def HandsOff (backend : Backend) (pf : Platform) (runs : List (String × String))
    (tables : DecisionTables) : ResearchEvent → DecisionTables → Prop
  | ⟨.attach tenant decisionFileId hash evidence, .ok d⟩, tables' =>
    attach backend pf runs tenant decisionFileId hash evidence tables = .ok (tables', d)
  | _, tables' => tables' = tables

structure CaseAnswers (b : JobBackend) (order : ScanOrder) (backend : Backend) (pf : Platform)
    (s : CaseStore) (x : ResearchEvent) (s' : CaseStore) : Prop where
  jobs : Answers b order s.jobs x s'.jobs
  tables : HandsOff backend pf (s.jobs.runs.map RunRow.key) s.tables x s'.tables

/-- Operations that follow one another, between submissions, preparations and work on the jobs,
while the documents are changed by nothing but their handoffs. -/
inductive Researched (os : ResearchOrchestrator → Prop) (b : JobBackend) (order : ScanOrder)
    (backend : Backend) (pf : Platform) (s : CaseStore) :
    Trace CaseStore ResearchEvent → CaseStore → Prop
  | nil : Researched os b order backend pf s [] s
  | operated {s₁ s₂ : CaseStore} {tr tr' : Trace CaseStore ResearchEvent}
      {o : ResearchOrchestrator} {p q : Program ResearchRun} :
      Researched os b order backend pf s tr s₁ → os o → Operation o p →
      p.Follows (tr'.map Transition.label) q → Run (CaseAnswers b order backend pf) s₁ tr' s₂ →
      Researched os b order backend pf s (tr ++ tr') s₂
  | elsewhere {s₁ : CaseStore} {tr : Trace CaseStore ResearchEvent} {jobs : JobDatabase} :
      Researched os b order backend pf s tr s₁ → Ran os b order s₁.jobs [] jobs →
      Researched os b order backend pf s tr ⟨jobs, s₁.tables⟩

variable {os : ResearchOrchestrator → Prop} {s s' : CaseStore}
  {tr : Trace CaseStore ResearchEvent} {x : Transition CaseStore ResearchEvent}

/-- Every transition of the operations is answered by the stores. -/
theorem Researched.answers (h : Researched os b order backend pf s tr s') :
    ∀ x ∈ tr, CaseAnswers b order backend pf x.before x.label x.after := by
  induction h with
  | nil => exact fun x hx => absurd hx List.not_mem_nil
  | operated _ _ _ _ hrun ih =>
    intro x hx
    rcases List.mem_append.mp hx with hx | hx
    · exact ih x hx
    · exact hrun.step_of_mem hx
  | elsewhere _ _ ih => exact ih

/-! ## The statuses of a history -/

/-- A handoff of evidence that succeeds and is no replay, from a document to a document. -/
def Attaches (pf : Platform) (x : Transition CaseStore ResearchEvent)
    (evidence : List DecisionEvidence) (d d' : DecisionFile) : Prop :=
  ∃ tenant decisionFileId hash answer v,
    x.label = ⟨.attach tenant decisionFileId hash evidence, .ok answer⟩ ∧
    deliver evidence = .ok v ∧ ¬ Replayed pf tenant decisionFileId x.before.tables v ∧
    x.before.tables.getDecision tenant decisionFileId = some d ∧
    x.after.tables.getDecision tenant decisionFileId = some d'

/-- Every document that a handoff leaves shows the evidence that was compiled for it. -/
def Propagated (pf : Platform) (tr : Trace CaseStore ResearchEvent) : Prop :=
  ∀ x ∈ tr, ∀ evidence d d', Attaches pf x evidence d d' → Shows d' evidence

/-- Whatever of the evidence a document has before a handoff, it has with the compiled status. -/
def Stable (pf : Platform) (tr : Trace CaseStore ResearchEvent) : Prop :=
  ∀ x ∈ tr, ∀ evidence d d', Attaches pf x evidence d d' → Agrees d evidence

theorem attaches_shows_iff (h : CaseAnswers b order backend pf x.before x.label x.after)
    (hx : Attaches pf x evidence d d') : Shows d' evidence ↔ Agrees d evidence := by
  obtain ⟨tenant, decisionFileId, hash, answer, v, hlabel, hdeliver, hreplay, hd, hd'⟩ := hx
  have htables := h.tables
  rw [hlabel] at htables
  have hattach : attach backend pf _ tenant decisionFileId hash evidence x.before.tables =
    .ok (x.after.tables, answer) := htables
  obtain ⟨v', d₀, hdeliver', hload, ⟨hreplayed, -⟩ | ⟨-, -, hdocument, -, hafter⟩⟩ :=
    attach_cases hattach
  · rw [hdeliver] at hdeliver'
    cases hdeliver'
    exact absurd hreplayed hreplay
  · rw [hdeliver] at hdeliver'
    rw [hd] at hload
    cases hdeliver'
    cases hload
    have hwritten : x.after.tables.document (tenant.tenantId, decisionFileId) =
        if _ then some answer else _ := DecisionTables.document_writeDocument hd (by rw [hafter]; rfl)
    rw [if_pos rfl] at hwritten
    have hanswer : d' = answer := Option.some.inj (hd'.symm.trans hwritten)
    rw [hanswer, ← deliver_evidence hdeliver]
    exact attachDocument_shows_iff hdocument

/-- However operations follow one another, every handoff that succeeds and is no replay leaves its
evidence in the document with the compiled statuses, if and only if none is made of evidence that
the document has with another status. -/
theorem propagated_iff_stable (h : Researched os b order backend pf s tr s') :
    Propagated pf tr ↔ Stable pf tr := by
  constructor
  · intro hshows x hx evidence d d' hattaches
    have hshown := hshows x hx evidence d d' hattaches
    exact (attaches_shows_iff (h.answers x hx) hattaches).mp hshown
  · intro hagrees x hx evidence d d' hattaches
    have hagreed := hagrees x hx evidence d d' hattaches
    exact (attaches_shows_iff (h.answers x hx) hattaches).mpr hagreed

/-! ## A contradiction found on a retry -/

/-- The stores of a deployment answer the calls to them, and a world the others. -/
def serveCase (backend : Backend) (pf : Platform) (order : ScanOrder)
    (world : (c : ResearchCall) → c.Answer) (s : CaseStore) :
    (c : ResearchCall) → c.Answer × CaseStore
  | .attach tenant decisionFileId hash evidence =>
    match attach backend pf (s.jobs.runs.map RunRow.key) tenant decisionFileId hash evidence
      s.tables with
    | .ok (tables, d) => (.ok d, { s with tables := tables })
    | .error _ => (.error (.valueError "EVIDENCE_HANDOFF_REJECTED"), s)
  | c => ((serveStore order world s.jobs c).1, { s with jobs := (serveStore order world s.jobs c).2 })

theorem serveCase_answers {world : (c : ResearchCall) → c.Answer} (b : JobBackend) (s : CaseStore)
    (c : ResearchCall) : CaseAnswers b order backend pf s
      ⟨c, (serveCase backend pf order world s c).1⟩ (serveCase backend pf order world s c).2 := by
  have hjobs : ∀ c, Answers b order s.jobs ⟨c, (serveStore order world s.jobs c).1⟩
      (serveStore order world s.jobs c).2 := serveStore_answers b s.jobs
  cases c with
  | attach tenant decisionFileId hash evidence =>
    simp only [serveCase]
    cases h : attach backend pf (s.jobs.runs.map RunRow.key) tenant decisionFileId hash evidence
      s.tables with
    | ok r => exact ⟨⟨s.jobs, .refl b s.jobs, rfl⟩, h⟩
    | error e => exact ⟨⟨s.jobs, .refl b s.jobs, rfl⟩, rfl⟩
  | _ => exact ⟨hjobs _, rfl⟩

/-- An operation run against the stores follows on a history. -/
theorem Researched.play {o : ResearchOrchestrator} {p : Program ResearchRun}
    (h : Researched os b order backend pf s tr s') (ho : os o) (hp : Operation o p)
    (world : (c : ResearchCall) → c.Answer) : Researched os b order backend pf s
      (tr ++ p.traceOn (serveCase backend pf order world) s')
      (p.playOn (serveCase backend pf order world) s').2.2 := by
  have hends := playOn_ends (serveCase backend pf order world) p s'
  unfold Ends at hends
  rw [← traceOn_labels] at hends
  exact .operated h ho hp hends (traceOn_run (serveCase_answers b) p s')

/-- Two pages on residence permits. -/
def permitUrl (page : String) : String := s!"https://example.org/{page}/residence-permits"

def permitLibrary : ResearchLibrary :=
  { shortLibrary with
    urlsplit := fun url =>
      if url = permitUrl "a" then
        some ⟨"https", none, none, some "example.org", some none, "/a/residence-permits", ""⟩
      else if url = permitUrl "b" then
        some ⟨"https", none, none, some "example.org", some none, "/b/residence-permits", ""⟩
      else none
    relevance := fun rank =>
      if rank = 1 then some "1.0" else if rank = 2 then some "0.92" else none }

def permitOrchestrator : ResearchOrchestrator := { leadingOrchestrator with lib := permitLibrary }

def permitPage (page text : String) : ExtractionResponse :=
  ⟨some { pageContent text with canonicalUrl := permitUrl page }, none,
    Bool.false_ne_true⟩

/-- Ports that do not fail, a search with both pages, and an extractor of the second. -/
def permitAnswer (second : Raises ExtractionResponse) : (c : ResearchCall) → c.Answer
  | .search _ =>
    ⟨[], .ok ⟨"search", "1", "2026-01-01T00:00:00+00:00",
      [⟨permitUrl "a", "a", "", 1, none, "SEARCH_RESULT"⟩,
        ⟨permitUrl "b", "b", "", 2, none, "SEARCH_RESULT"⟩], "", none⟩, .error⟩
  | .extract request =>
    if request.url = permitUrl "a" then
      ⟨[], .ok (permitPage "a" "entry permit is required"), .error⟩
    else ⟨[], second, .error⟩
  | .validateUrl policy url =>
    policy.validate permitLibrary.toUrlLibrary (plainCollaborators.resolve 0) url
  | .normalize source content =>
    plainCollaborators.normalizer.normalize leadingPlatform permitLibrary.toTextLibrary source content
  | .assess snapshot source days now =>
    ({ plainCollaborators.evidencePolicy with minimum := 5 }).assess
      permitLibrary.toTextLibrary snapshot source days now
  | c => steadyAnswer "" [] c

/-- The first attempt has the first page only. -/
abbrev firstServe := serveCase .sqlite leadingPlatform plainOrder
  (permitAnswer (.error (.other "ConnectError")))

/-- The second page says the contrary. -/
abbrev secondServe := serveCase .sqlite leadingPlatform plainOrder
  (permitAnswer (.ok (permitPage "b" "entry permit is not required")))

def permitExecution : Program ResearchRun :=
  permitOrchestrator.execute Jobs.pilotTenant "generator-1" caseRequest caseHash "correlation-1" none

def permitStart : CaseStore := ⟨Jobs.emptyJobs, caseTables⟩

def permitPlay := permitExecution.playOn firstServe permitStart

def permitRetry : Program ResearchRun :=
  permitOrchestrator.retry Jobs.pilotTenant "generator-1"
    ((toOption permitPlay.1).elim "" ResearchRun.researchRunId) "correlation-1"

def permitTrace : Trace CaseStore ResearchEvent :=
  permitExecution.traceOn firstServe permitStart ++
    permitRetry.traceOn secondServe permitPlay.2.2

/-- A handoff that is no replay leaves an item with another status than the compiled one. -/
def misleads (pf : Platform) (x : Transition CaseStore ResearchEvent) : Bool :=
  match x.label with
  | ⟨.attach tenant decisionFileId _ evidence, .ok _⟩ =>
    match deliver evidence, x.before.tables.getDecision tenant decisionFileId,
      x.after.tables.getDecision tenant decisionFileId with
    | .ok v, some _, some d' =>
      (lookup HandoffRow.key (tenant.tenantId, v.runId, decisionFileId, v.handoffId pf)
        x.before.tables.researchHandoffs).isNone &&
      evidence.any fun e => d'.evidence.any fun item =>
        item.id = e.evidenceId && item.status ≠ e.status
    | _, _, _ => false
  | _ => false

theorem misleads_cases (h : misleads pf x = true) :
    ∃ evidence d d', Attaches pf x evidence d d' ∧ ¬ Shows d' evidence := by
  unfold misleads at h
  split at h
  · rename_i tenant decisionFileId hash evidence answer hlabel
    split at h
    · rename_i v d d' hdeliver hd hd'
      rw [Bool.and_eq_true, Option.isNone_iff_eq_none, List.any_eq_true] at h
      obtain ⟨hreplay, e, he, hany⟩ := h
      obtain ⟨item, hitem, hstatus⟩ := List.any_eq_true.mp hany
      rw [Bool.and_eq_true, decide_eq_true_eq, decide_eq_true_eq] at hstatus
      refine ⟨evidence, d, d', ⟨tenant, decisionFileId, hash, answer, v, hlabel, hdeliver,
        not_not.mpr hreplay, hd, hd'⟩, fun hshows => ?_⟩
      exact hstatus.2 (hshows.agrees e he item hitem hstatus.1)
    · cases h
  · cases h

theorem permitTrace_misleads : permitTrace.any (misleads leadingPlatform) = true := by
  decide +kernel

theorem permit_researched : Researched (· = permitOrchestrator) Jobs.plainBackend plainOrder
    .sqlite leadingPlatform permitStart permitTrace
    (permitRetry.playOn secondServe permitPlay.2.2).2.2 := by
  have hexecution : Operation permitOrchestrator permitExecution := .execute ..
  have hretry : Operation permitOrchestrator permitRetry := .retry ..
  have hstart : Researched (· = permitOrchestrator) Jobs.plainBackend plainOrder .sqlite
    leadingPlatform permitStart [] permitStart := .nil
  have hexecuted := hstart.play rfl hexecution (permitAnswer (.error (.other "ConnectError")))
  have hretried := hexecuted.play rfl hretry
    (permitAnswer (.ok (permitPage "b" "entry permit is not required")))
  rw [List.nil_append] at hretried
  unfold permitTrace permitPlay firstServe secondServe
  exact hretried

/-- A page that is contradicted by one extracted on a retry is shown as it was before. -/
theorem contradiction_hidden : Researched (· = permitOrchestrator) Jobs.plainBackend plainOrder
    .sqlite leadingPlatform permitStart permitTrace
    (permitRetry.playOn secondServe permitPlay.2.2).2.2 ∧
    ¬ Propagated leadingPlatform permitTrace := by
  refine ⟨permit_researched, fun hpropagated => ?_⟩
  obtain ⟨x, hx, hmisleads⟩ := List.any_eq_true.mp permitTrace_misleads
  obtain ⟨evidence, d, d', hattaches, hhidden⟩ := misleads_cases hmisleads
  exact hhidden (hpropagated x hx evidence d d' hattaches)

theorem propagated_iff_stable_permit :
    Propagated leadingPlatform permitTrace ↔ Stable leadingPlatform permitTrace :=
  propagated_iff_stable permit_researched

end DecisionAssurance.Research
