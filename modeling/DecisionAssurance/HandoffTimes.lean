import DecisionAssurance.DecisionValidity
import DecisionAssurance.HandoffFrame
import DecisionAssurance.RunLedger
import DecisionAssurance.SavedRuns

/-!
# The times of a handoff

A handoff sets `updated_at` to the time at which its latest evidence was retrieved, which may be
before the document was created or last updated where the evidence comes from a cached snapshot.
Of what the document is checked for after the handoff the times alone can fail.
-/

namespace DecisionAssurance.Research

open Interactions Interaction Tables PostgresResearchRepository ResearchOrchestrator
open ResearchEvidenceCompiler
open Jobs (JobDatabase JobBackend RunRow)

variable {b : JobBackend} {order : ScanOrder} {db db' : JobDatabase} {lib : ResearchLibrary}
  {o : ResearchOrchestrator} {p q : Program ResearchRun} {tenant : TenantContext}
  {run run' : ResearchRun} {t : ResearchLog} {ts : List ResearchLog} {pf : Platform}
  {backend : Backend} {stored : List (String × String)} {tables : DecisionTables}
  {d : DecisionFile} {v : Delivery}
  {decisionFileId hash : String} {evidence compiled : List DecisionEvidence}

/-! ## Evidence as a run cites it -/

/-- The candidates of a run have ids of their own and are for the claims of its request. -/
structure Cited (run : ResearchRun) : Prop where
  distinct : (run.evidence.map EvidenceCandidate.evidenceId).Nodup
  named : ∀ e ∈ run.evidence, nonEmpty e.evidenceId = true
  claims : ∀ e ∈ run.evidence, e.claimRefs = run.request.claimRefs

theorem Cited.same (h : Cited run) (hrequest : run'.request = run.request)
    (hevidence : run'.evidence.map EvidenceCandidate.citation =
      run.evidence.map EvidenceCandidate.citation) : Cited run' := by
  have hids : run'.evidence.map EvidenceCandidate.evidenceId =
      run.evidence.map EvidenceCandidate.evidenceId := by
    have hfirst := congrArg (List.map Prod.fst) hevidence
    rw [List.map_map, List.map_map] at hfirst
    exact hfirst
  have hcited : ∀ e ∈ run'.evidence, ∃ e₀ ∈ run.evidence, e₀.citation = e.citation := by
    intro e he
    have hmem := List.mem_map_of_mem (f := EvidenceCandidate.citation) he
    rw [hevidence] at hmem
    exact List.mem_map.mp hmem
  refine ⟨hids ▸ h.distinct, fun e he => ?_, fun e he => ?_⟩
  · obtain ⟨e₀, he₀, hcitation⟩ := hcited e he
    rw [← (Prod.mk.inj hcitation).1]
    exact h.named e₀ he₀
  · obtain ⟨e₀, he₀, hcitation⟩ := hcited e he
    rw [← (Prod.mk.inj hcitation).2, hrequest]
    exact h.claims e₀ he₀

theorem Cited.gather {e : EvidenceCandidate} (h : Cited run) (he : Gathers run e)
    (hrequest : run'.request = run.request) (hevidence : run'.evidence = run.evidence ++ [e]) :
    Cited run' := by
  refine ⟨?_, fun c hc => ?_, fun c hc => ?_⟩
  · rw [hevidence, List.map_append, List.map_singleton]
    exact List.nodup_append.mpr ⟨h.distinct, List.nodup_singleton _, fun id hid id' hid' heq => by
      rw [List.mem_singleton.mp hid'] at heq
      exact he.fresh (heq ▸ hid)⟩
  · rw [hevidence] at hc
    rcases List.mem_append.mp hc with hc | hc
    · exact h.named c hc
    · rw [List.mem_singleton.mp hc]
      exact he.named
  · rw [hevidence] at hc
    rw [hrequest]
    rcases List.mem_append.mp hc with hc | hc
    · exact h.claims c hc
    · rw [List.mem_singleton.mp hc]
      exact he.claims

theorem Cited.step (h : Cited run) (hstep : Step o run run') : Cited run' := by
  cases hstep with
  | moved => exact h.same rfl rfl
  | recorded => exact h.same rfl rfl
  | reserved => exact h.same rfl rfl
  | annotated hannotates =>
    rcases hannotates.evidence with hevidence | ⟨e, hevidence, he⟩
    · exact h.same hannotates.request hevidence
    · exact h.gather he hannotates.request hevidence

theorem cited_hereditary (o : ResearchOrchestrator) : Hereditary o Cited where
  proposed := by
    rintro tenant run ⟨actorId, request, documentHash, correlationId, refreshGeneration,
      fingerprint, now, -, rfl⟩
    exact ⟨List.nodup_nil, fun _ h => absurd h List.not_mem_nil,
      fun _ h => absurd h List.not_mem_nil⟩
  step _ _ h hstep := h.step hstep

theorem ResearchRequest.claimRefs_valid (r : ResearchRequest) :
    r.claimRefs.isEmpty = false ∧ r.claimRefs.Nodup := by
  obtain ⟨-, hclaims, -⟩ := RequestFields.error_eq_none r.valid
  rw [Bool.or_eq_true, not_or, Bool.not_eq_true, Bool.not_eq_true', Bool.not_eq_false,
    decide_eq_true_eq] at hclaims
  exact hclaims

/-- Compiled evidence has ids of its own and is as the contract asks, its time apart. -/
structure Presentable (compiled : List DecisionEvidence) : Prop where
  distinct : (compiled.map DecisionEvidence.evidenceId).Nodup
  items : ∀ e ∈ compiled, nonEmpty e.evidenceId = true ∧ e.claimRefs.isEmpty = false ∧
    e.claimRefs.Nodup ∧ nonEmpty e.sourceRef = true

theorem Cited.presentable (h : Cited run) (hcompile : compile run = some compiled) :
    Presentable compiled := by
  constructor
  · have hids : (run.evidence.filter eligible).map EvidenceCandidate.evidenceId =
        compiled.map DecisionEvidence.evidenceId := by
      have hmap := congrArg (List.map fun e => (e.map DecisionEvidence.evidenceId).getD "")
        (compile_map hcompile)
      rw [List.map_map, List.map_map] at hmap
      refine Eq.trans (List.map_congr_left fun c hc => ?_) hmap
      have hmem := List.mem_map_of_mem (f := compileCandidate run) hc
      rw [compile_map hcompile] at hmem
      obtain ⟨e, -, he⟩ := List.mem_map.mp hmem
      obtain ⟨_, -, -, hcandidate⟩ := compileCandidate_cases he.symm
      rw [Function.comp_apply, ← he, hcandidate]
      rfl
    rw [← hids]
    exact h.distinct.sublist ((List.filter_sublist).map _)
  · intro e he
    obtain ⟨c, hc, -, hcompiled⟩ := mem_compile hcompile he
    obtain ⟨_, -, -, rfl⟩ := compileCandidate_cases hcompiled
    obtain ⟨hne, hnodup⟩ := run.request.claimRefs_valid
    refine ⟨h.named c hc, ?_, ?_, ?_⟩
    · rw [h.claims c hc]
      exact hne
    · rw [h.claims c hc]
      exact hnodup
    · simp [nonEmpty, toString, String.toList_append]

/-! ## What a handoff is checked for -/

/-- A valid draft of the expected hash with all the claims that the evidence is for. -/
structure Receives (pf : Platform) (d : DecisionFile) (hash : String)
    (evidence : List DecisionEvidence) : Prop where
  valid : Valid pf d
  draft : d.status = .draft
  expected : payloadHash pf d.toJson = hash
  claims : ∀ e ∈ evidence, ∀ ref ∈ e.claimRefs, ref ∈ d.claims.map Claim.id

/-- Times that the schema accepts. -/
def WellTimed (pf : Platform) (d : DecisionFile) (v : Delivery) : Prop :=
  pf.dateTime v.observedAt = true ∧ ∀ e ∈ v.evidence,
    e.evidenceId ∉ d.evidence.map Evidence.id → pf.dateTime e.observedAt = true

theorem mem_gained {item : Evidence} : item ∈ d.gained evidence ↔ ∃ e ∈ evidence,
    e.evidenceId ∉ d.evidence.map Evidence.id ∧ e.toEvidence = item := by
  unfold DecisionFile.gained
  simp only [List.mem_map, List.mem_filter, decide_eq_true_eq, and_assoc]

theorem gained_contractValid_iff (h : Presentable evidence) :
    (d.gained evidence).all (Evidence.contractValid pf) = true ↔ ∀ e ∈ evidence,
      e.evidenceId ∉ d.evidence.map Evidence.id → pf.dateTime e.observedAt = true := by
  have hitem : ∀ e ∈ evidence, e.toEvidence.contractValid pf = pf.dateTime e.observedAt := by
    intro e he
    obtain ⟨hid, hrefs, hnodup, hsource⟩ := h.items e he
    unfold Evidence.contractValid
    simp only [DecisionEvidence.toEvidence, hid, hrefs, hnodup, hsource, decide_true, Bool.not_false,
      Bool.and_self, Bool.true_and, Option.all_some]
  rw [List.all_eq_true]
  constructor
  · intro hall e he hfresh
    rw [← hitem e he]
    exact hall _ (mem_gained.mpr ⟨e, he, hfresh, rfl⟩)
  · intro htimes item hmem
    obtain ⟨e, he, hfresh, rfl⟩ := mem_gained.mp hmem
    rw [hitem e he]
    exact htimes e he hfresh

theorem handoff_contract_iff (h : Presentable v.evidence) (hd : Valid pf d) :
    (d.withHandoff pf tenant decisionFileId v).contractValid pf = true ↔ WellTimed pf d v := by
  have hcontract := validateContract_ok hd.contract
  have hevent : (handoffEvent pf tenant decisionFileId d v).contractValid pf =
      pf.dateTime v.observedAt := by
    unfold AuditEvent.contractValid
    have hactor : compilerActor.contractValid = true := by decide
    have hreasons : (["EXTERNAL_EVIDENCE_ATTACHED_UNVERIFIED"] : List String).Nodup :=
      List.nodup_singleton _
    simp only [handoffEvent, hactor, hreasons, decide_true, Bool.and_true]
  unfold WellTimed
  rw [← gained_contractValid_iff h]
  unfold DecisionFile.contractValid at hcontract ⊢
  simp only [Bool.and_eq_true] at hcontract
  simp only [DecisionFile.withHandoff, List.all_append, List.all_cons, List.all_nil, hevent,
    hcontract, Bool.and_true, Bool.true_and, Bool.and_eq_true]
  obtain ⟨⟨-, houtcomes⟩, -⟩ := hcontract
  constructor
  · rintro ⟨⟨htimes, -⟩, -⟩
    exact htimes
  · intro htimes
    exact ⟨⟨htimes, houtcomes⟩, htimes.1⟩

theorem gained_nodup (h : Presentable evidence) (hd : (d.evidence.map Evidence.id).Nodup) :
    ((d.evidence ++ d.gained evidence).map Evidence.id).Nodup := by
  have hids : (d.gained evidence).map Evidence.id = (evidence.filter fun e =>
      e.evidenceId ∉ d.evidence.map Evidence.id).map DecisionEvidence.evidenceId := by
    rw [DecisionFile.gained, List.map_map]
    rfl
  rw [List.map_append, hids]
  refine List.nodup_append.mpr ⟨hd, h.distinct.sublist (List.filter_sublist.map _), ?_⟩
  intro id hid id' hid' heq
  obtain ⟨e, he, rfl⟩ := List.mem_map.mp hid'
  have hfresh := of_decide_eq_true (List.mem_filter.mp he).2
  exact hfresh (heq ▸ hid)

theorem handoff_semantics_iff (h : Presentable v.evidence) (hd : Valid pf d)
    (hclaims : ∀ e ∈ v.evidence, ∀ ref ∈ e.claimRefs, ref ∈ d.claims.map Claim.id) :
    validateSemantics pf (d.withHandoff pf tenant decisionFileId v) = .ok () ↔
      pf.earlier v.observedAt d.createdAt = .ok false := by
  have herrors : (d.withHandoff pf tenant decisionFileId v).semanticErrors pf = [] := by
    have hbefore := (validateSemantics_iff.mp hd.semantic).2
    unfold DecisionFile.semanticErrors at hbefore ⊢
    simp only [List.append_eq_nil_iff] at hbefore ⊢
    obtain ⟨⟨⟨⟨⟨⟨⟨hids, hevidence⟩, hunknown⟩, hrequirements⟩, haction⟩, hnonces⟩, hearly⟩,
      happrovals⟩ := hbefore
    refine ⟨⟨⟨⟨⟨⟨⟨hids, ?_⟩, ?_⟩, hrequirements⟩, haction⟩, hnonces⟩, hearly⟩, happrovals⟩
    · rw [errorUnless_eq_nil, decide_eq_true_eq] at hevidence ⊢
      exact gained_nodup h hevidence
    · rw [errorUnless_eq_nil, List.isEmpty_iff] at hunknown ⊢
      unfold DecisionFile.unknownClaims at hunknown ⊢
      have hevidences : (d.withHandoff pf tenant decisionFileId v).evidence =
          d.evidence ++ d.gained v.evidence := rfl
      rw [hevidences, List.flatMap_append, List.filter_append, List.append_eq_nil_iff]
      refine ⟨hunknown, List.filter_eq_nil_iff.mpr fun ref href => ?_⟩
      obtain ⟨item, hitem, href⟩ := List.mem_flatMap.mp href
      obtain ⟨e, he, -, rfl⟩ := mem_gained.mp hitem
      rw [decide_eq_true_eq, not_not]
      exact hclaims e he ref href
  rw [validateSemantics_iff, and_iff_left herrors]
  rfl

/-! ## Handoffs that succeed -/

/-- A handoff of the same evidence has been made. -/
def Replayed (pf : Platform) (tenant : TenantContext) (decisionFileId : String)
    (tables : DecisionTables) (v : Delivery) : Prop :=
  lookup HandoffRow.key (tenant.tenantId, v.runId, decisionFileId, v.handoffId pf)
    tables.researchHandoffs ≠ none

/-- The handoff leaves a document whose time of update has not decreased. -/
def Delivers (backend : Backend) (pf : Platform) (stored : List (String × String))
    (tenant : TenantContext) (decisionFileId hash : String) (evidence : List DecisionEvidence)
    (tables : DecisionTables) (d : DecisionFile) : Prop :=
  ∃ tables' d',
    attach backend pf stored tenant decisionFileId hash evidence tables = .ok (tables', d') ∧
    (d'.updatedAt = d.updatedAt ∨ pf.earlier d'.updatedAt d.updatedAt = .ok false)

/-- The latest evidence was not retrieved before the document was created or last updated, and
the event of the handoff is not there yet. -/
structure Timely (pf : Platform) (tenant : TenantContext) (decisionFileId : String)
    (tables : DecisionTables) (d : DecisionFile) (v : Delivery) : Prop where
  formats : WellTimed pf d v
  created : pf.earlier v.observedAt d.createdAt = .ok false
  updated : v.observedAt = d.updatedAt ∨ pf.earlier v.observedAt d.updatedAt = .ok false
  unrecorded : ∀ r ∈ tables.auditEvents, r.key ≠ AuditRow.key
    ((handoffEvent pf tenant decisionFileId d v).row tenant decisionFileId)

/-- An attachment of a stored run that is no replay succeeds if and only if the document takes the
evidence, and the rows of its event and of the handoff are not there yet. -/
theorem attach_ok_iff (hdeliver : deliver evidence = .ok v)
    (hload : tables.getDecision tenant decisionFileId = some d)
    (hreplay : ¬ Replayed pf tenant decisionFileId tables v)
    (hstored : (tenant.tenantId, v.runId) ∈ stored) {d' : DecisionFile} :
    (∃ tables', attach backend pf stored tenant decisionFileId hash evidence tables =
        .ok (tables', d')) ↔
      attachDocument pf tenant decisionFileId hash v d = .ok d' ∧
      ∀ r ∈ tables.auditEvents, r.key ≠ AuditRow.key
        ((handoffEvent pf tenant decisionFileId d v).row tenant decisionFileId) := by
  constructor
  · rintro ⟨tables', h⟩
    obtain ⟨v', d₀, hdeliver', hload', ⟨hreplayed, -⟩ | ⟨-, -, hattach, hfresh, -⟩⟩ :=
      attach_cases h
    · rw [hdeliver] at hdeliver'
      cases hdeliver'
      exact absurd hreplayed hreplay
    · rw [hdeliver] at hdeliver'
      rw [hload] at hload'
      cases hdeliver'
      cases hload'
      exact ⟨hattach, hfresh⟩
  · rintro ⟨hattach, hfresh⟩
    exact ⟨_, attach_written hdeliver hload (not_not.mp hreplay) hstored hattach hfresh⟩

theorem delivers_iff (hdeliver : deliver evidence = .ok v)
    (hload : tables.getDecision tenant decisionFileId = some d)
    (hreceives : Receives pf d hash evidence) (hpresentable : Presentable evidence)
    (hstored : (tenant.tenantId, v.runId) ∈ stored) :
    Delivers backend pf stored tenant decisionFileId hash evidence tables d ↔
      Replayed pf tenant decisionFileId tables v ∨ Timely pf tenant decisionFileId tables d v := by
  have hevidence : v.evidence = evidence := deliver_evidence hdeliver
  by_cases hreplay : Replayed pf tenant decisionFileId tables v
  · have hreplayed : attach backend pf stored tenant decisionFileId hash evidence tables =
        .ok (tables, d) := attach_replayed hdeliver hload hreplay
    exact iff_of_true ⟨tables, d, hreplayed, .inl rfl⟩ (.inl hreplay)
  · rw [or_iff_right hreplay]
    rw [← hevidence] at hpresentable
    have hclaims := hreceives.claims
    rw [← hevidence] at hclaims
    constructor
    · rintro ⟨tables', d', h, htimes⟩
      obtain ⟨hattach, hfresh⟩ := (attach_ok_iff hdeliver hload hreplay hstored).mp ⟨tables', h⟩
      obtain ⟨-, -, -, rfl, hcontract, hsemantic⟩ := attachDocument_ok_iff.mp hattach
      exact ⟨(handoff_contract_iff hpresentable hreceives.valid).mp hcontract,
        (handoff_semantics_iff hpresentable hreceives.valid hclaims).mp hsemantic, htimes, hfresh⟩
    · intro h
      have hattach : attachDocument pf tenant decisionFileId hash v d =
          .ok (d.withHandoff pf tenant decisionFileId v) :=
        attachDocument_ok_iff.mpr ⟨hreceives.expected, hreceives.draft, hclaims, rfl,
          (handoff_contract_iff hpresentable hreceives.valid).mpr h.formats,
          (handoff_semantics_iff hpresentable hreceives.valid hclaims).mpr h.created⟩
      obtain ⟨tables', hok⟩ : ∃ tables', attach backend pf stored tenant decisionFileId hash
          evidence tables = .ok (tables', d.withHandoff pf tenant decisionFileId v) :=
        (attach_ok_iff hdeliver hload hreplay hstored).mpr ⟨hattach, h.unrecorded⟩
      exact ⟨tables', _, hok, h.updated⟩

/-- In a history that starts from an empty store, evidence that an operation hands off for a valid
draft of the expected hash is delivered if and only if it was before or is timely. -/
theorem handoff_delivers_iff {os : ResearchOrchestrator → Prop} {limits : List (String × ℕ)}
    {a : ResearchCall.Answer (.attach tenant decisionFileId hash evidence)}
    (hos : ∀ o, os o → o.lib = lib) (hran : Ran os b order ⟨[], [], [], [], limits⟩ ts db)
    (ho : os o) (hop : Operation o p)
    (hp : p.Follows (t ++ [⟨.attach tenant decisionFileId hash evidence, a⟩]) q)
    (hserved : Served (Answers b order) db t db')
    (hload : tables.getDecision tenant decisionFileId = some d)
    (hreceives : Receives pf d hash evidence) : ∃ v, deliver evidence = .ok v ∧
      (Delivers backend pf (db'.runs.map RunRow.key) tenant decisionFileId hash evidence tables d ↔
        Replayed pf tenant decisionFileId tables v ∨
          Timely pf tenant decisionFileId tables d v) := by
  have hlib : ∀ o, os o → o.lib = lib := hos
  have hempty : Deployed lib ⟨[], [], [], [], limits⟩ := .empty limits
  have hrows := hran.keeps hlib (fun o _ => cited_hereditary o) hempty fun _ h => nomatch h
  have hdb := hran.deployed hlib hempty
  rw [← hlib o ho] at hdb
  obtain ⟨tenant', hmay⟩ := hop.chronicled b order .any
  obtain ⟨rfl, hne, run, hrun, hcompile, -, -⟩ :=
    hmay hp hserved hdb fun _ _ => Supply.allows_any
  obtain ⟨base, hbase, howner, hevolves⟩ := hrun.inHand.evolves
  obtain ⟨p', hp', -⟩ := follows_append_cases hp
  have hall := hop.allHave (cited_hereditary o) hp' hserved hdb hrows
  have hcited : Cited run :=
    hevolves.invariant (cited_hereditary o).step (hall.read base hbase)
  -- the store still holds the run, so the foreign key of the handoff is met
  have hstored : (tenant.tenantId, run.researchRunId) ∈ db'.runs.map RunRow.key := by
    obtain ⟨last, hlast, -⟩ := hrun.held (hop.served hp' hserved hdb).2.2
    obtain ⟨row, hrow, -⟩ := Option.map_eq_some_iff.mp hlast
    have hkey : row.key = (tenant.tenantId, run.researchRunId) := by
      rw [key_of_lookup hrow, ResearchRun.key, hevolves.identity.2, howner]
    exact hkey ▸ List.mem_map_of_mem (mem_of_lookup hrow)
  have hdeliver := deliver_compiled hcompile hne
  exact ⟨_, hdeliver, delivers_iff hdeliver hload hreceives (hcited.presentable hcompile) hstored⟩

/-! ## A snapshot from before the case -/

/-- Times of one notation and zone are compared as texts. -/
def datingPlatform : Platform :=
  { leadingPlatform with earlier := fun a b => .ok (decide (a.toList < b.toList)) }

def datingOrchestrator : ResearchOrchestrator := { leadingOrchestrator with pf := datingPlatform }

/-- A case created twelve hours after the snapshot was retrieved. -/
def noonCase : DecisionFile :=
  { draftCase with
    createdAt := "2026-01-01T12:00:00+00:00"
    updatedAt := "2026-01-01T12:00:00+00:00" }

def noonHash : String := payloadHash datingPlatform noonCase.toJson

def noonTables : DecisionTables :=
  { DecisionTables.empty with decisions := [⟨"tenant-a", "case-1", noonCase⟩] }

/-- A snapshot that another run has left in the cache for a day. -/
def cachedSnapshot : SourceSnapshot :=
  { pageSnapshot "2026-01-01T00:00:00+00:00" with
    expiresAt := "2026-01-02T00:00:00+00:00"
    text := "market size" }

/-- Six hours later the page is searched for, and it is in the cache. -/
def cachedAnswer : (c : ResearchCall) → c.Answer
  | .clock => 1767290400000000
  | .getSnapshot _ _ _ => .ok (some cachedSnapshot)
  | .attach tenant id hash evidence =>
    match attach .sqlite datingPlatform (runsOf tenant evidence) tenant id hash evidence noonTables with
    | .ok (_, d) => .ok d
    | .error _ => .error (.valueError "updated_at must not be earlier than created_at")
  | c => handoffAnswer noonTables c

def noonExecution : Program ResearchRun :=
  datingOrchestrator.execute Jobs.pilotTenant "generator-1" caseRequest noonHash "correlation-1" none

def noonPlay := noonExecution.playOn (serveStore plainOrder cachedAnswer) Jobs.emptyJobs

/-- The keys of the runs stored. -/
def noonRuns : List (String × String) := noonPlay.2.2.runs.map RunRow.key

/-- What a call hands off. -/
def handedIn : ResearchEvent → Option (String × String × String × List DecisionEvidence)
  | ⟨.attach tenant id hash evidence, _⟩ => some (tenant.tenantId, id, hash, evidence)
  | _ => none

def noonEvidence : List DecisionEvidence :=
  ((noonPlay.2.1.findSome? handedIn).map fun handed => handed.2.2.2).getD []

theorem noonPlay_facts : ((noonPlay.2.1.findSome? handedIn).map fun handed =>
      (handed.1, handed.2.1, handed.2.2.1)) = some ("tenant-a", "case-1", noonHash) ∧
    (noonEvidence.all fun e => e.claimRefs = ["claim"]) = true ∧
    (attach .sqlite datingPlatform noonRuns Jobs.pilotTenant "case-1" noonHash noonEvidence
      noonTables).isOk = false ∧
    (attach .postgresql datingPlatform noonRuns Jobs.pilotTenant "case-1" noonHash noonEvidence
      noonTables).isOk = false := by
  decide +kernel

theorem noonCase_valid : Valid datingPlatform noonCase := ⟨by rfl, by rfl⟩

theorem noonPlay_served : noonExecution.Ends noonPlay.2.1 noonPlay.1 ∧
    Served (Answers Jobs.plainBackend plainOrder) Jobs.emptyJobs noonPlay.2.1 noonPlay.2.2 :=
  playOn_store Jobs.plainBackend plainOrder cachedAnswer noonExecution Jobs.emptyJobs

theorem noonPlay_hands : ∃ a, (⟨.attach Jobs.pilotTenant "case-1" noonHash noonEvidence, a⟩ :
    ResearchEvent) ∈ noonPlay.2.1 := by
  obtain ⟨⟨tenantId, id, hash, evidence⟩, hfound, hparts⟩ :=
    Option.map_eq_some_iff.mp noonPlay_facts.1
  have hevidence : noonEvidence = evidence := by
    unfold noonEvidence
    rw [hfound]
    rfl
  obtain ⟨⟨c, a⟩, hx, hhanded⟩ := List.exists_of_findSome?_eq_some hfound
  cases c with
  | attach tenant id' hash' evidence' =>
    simp only [handedIn, Option.some.injEq, Prod.mk.injEq] at hhanded hparts
    obtain ⟨htenant, rfl, rfl, rfl⟩ := hhanded
    obtain ⟨hpilot, rfl, rfl⟩ := hparts
    have hsame : tenant = Jobs.pilotTenant := by
      cases tenant
      simp only at htenant
      subst htenant
      subst hpilot
      rfl
    rw [hevidence, ← hsame]
    exact ⟨a, hx⟩
  | _ => cases hhanded

theorem noonCase_receives : Receives datingPlatform noonCase noonHash noonEvidence := by
  refine ⟨noonCase_valid, rfl, rfl, fun e he ref href => ?_⟩
  have hrefs := List.all_eq_true.mp noonPlay_facts.2.1 e he
  rw [decide_eq_true_eq] at hrefs
  rw [hrefs] at href
  exact href

/-- A page that was cached before a valid draft was created is handed off for it, and neither
store takes the handoff. -/
theorem handoff_untimely : noonExecution.Ends noonPlay.2.1 noonPlay.1 ∧
    Served (Answers Jobs.plainBackend plainOrder) Jobs.emptyJobs noonPlay.2.1 noonPlay.2.2 ∧
    (∃ a, (⟨.attach Jobs.pilotTenant "case-1" noonHash noonEvidence, a⟩ : ResearchEvent) ∈
      noonPlay.2.1) ∧
    noonTables.getDecision Jobs.pilotTenant "case-1" = some noonCase ∧
    Receives datingPlatform noonCase noonHash noonEvidence ∧
    ¬ Delivers .sqlite datingPlatform noonRuns Jobs.pilotTenant "case-1" noonHash noonEvidence
      noonTables noonCase ∧
    ¬ Delivers .postgresql datingPlatform noonRuns Jobs.pilotTenant "case-1" noonHash noonEvidence
      noonTables noonCase := by
  obtain ⟨-, -, hsqlite, hpostgresql⟩ := noonPlay_facts
  refine ⟨noonPlay_served.1, noonPlay_served.2, noonPlay_hands, rfl, noonCase_receives, ?_, ?_⟩
  · rintro ⟨tables', d', h, -⟩
    rw [h] at hsqlite
    cases hsqlite
  · rintro ⟨tables', d', h, -⟩
    rw [h] at hpostgresql
    cases hpostgresql

theorem handoff_delivers_iff_noon : ∃ (db : JobDatabase) (v : Delivery),
    deliver noonEvidence = .ok v ∧
    (Delivers .sqlite datingPlatform (db.runs.map RunRow.key) Jobs.pilotTenant "case-1" noonHash
        noonEvidence noonTables noonCase ↔
      Replayed datingPlatform Jobs.pilotTenant "case-1" noonTables v ∨
        Timely datingPlatform Jobs.pilotTenant "case-1" noonTables noonCase v) := by
  obtain ⟨a, hx⟩ := noonPlay_hands
  obtain ⟨pre, post, hlog⟩ := List.append_of_mem hx
  obtain ⟨hends, hserved⟩ := noonPlay_served
  rw [hlog] at hserved
  obtain ⟨db, hpre, -⟩ := served_append_cases hserved
  have hfollows : noonExecution.Follows (pre ++ [⟨.attach Jobs.pilotTenant "case-1" noonHash
      noonEvidence, a⟩] ++ post) (.done noonPlay.1) := by
    rw [← List.append_cons, ← hlog]
    exact hends
  obtain ⟨p', hp', -⟩ := follows_append_cases hfollows
  have hos : ∀ o, datingOrchestrator = o → o.lib = datingOrchestrator.lib := by
    rintro o rfl
    rfl
  have hoperation : Operation datingOrchestrator noonExecution := .execute ..
  exact ⟨db, handoff_delivers_iff hos (.nil _) rfl hoperation hp' hpre rfl noonCase_receives⟩

end DecisionAssurance.Research
