import DecisionAssurance.DecisionLedger

/-!
# Where approvals come from

An approved case was earned when a human approver moved it out of REVIEW on an outcome that
an evaluation had computed. The routes ensure this for cases that were created without
status APPROVED and evaluated before they are approved, and for no others.
-/

namespace DecisionAssurance

open Tables Runs

abbrev RequestStep := Transition DecisionTables DecisionRequest

abbrev RequestTrace := Trace DecisionTables DecisionRequest

def Caller.case (c : Caller) (decisionId : String) : CaseKey :=
  (c.identity.tenant.tenantId, decisionId)

/-- A step in which `evaluate_decision_file` computed the outcome of a case. -/
def Evaluates (b : Backend) (pf : Platform) (x : RequestStep) (k : CaseKey) (o : Outcome) :
    Prop :=
  ∃ c decisionId d updated report, x.label = .evaluate c decisionId ∧ k = c.case decisionId ∧
    evaluate b pf c decisionId x.before = .ok (.evaluated report, x.after) ∧
    x.before.getDecision c.identity.tenant decisionId = some d ∧
    evaluateDecisionFile pf c.now d = .ok (updated, report) ∧ report.outcome = o

/-- A step in which the policy moved a case from REVIEW to APPROVED for a human approver, on
the outcome the case carried. -/
def Approves (b : Backend) (pf : Platform) (x : RequestStep) (k : CaseKey)
    (o : Option Outcome) : Prop :=
  ∃ c decisionId decidedAt tokens d document updated,
    x.label = .transition c decisionId .approved decidedAt tokens ∧ k = c.case decisionId ∧
    transition b pf c decisionId .approved decidedAt tokens x.before =
      .ok (.transitioned document, x.after) ∧
    x.before.getDecision c.identity.tenant decisionId = some d ∧ d.status = .review ∧
    d.decisionOutcome = o ∧
    TransitionPolicy.transition pf c.now (boundDocument pf c decidedAt tokens .approved d) .approved
      (c.identity.actor .decisionApprove) = .ok updated ∧
    (c.identity.actor .decisionApprove).kind = .human ∧
    (c.identity.actor .decisionApprove).role = .approver

/-- How the trace accounts for an approved case: by an approval on an outcome evaluated
before, and by the evaluation of the outcome the case has now. -/
def Earned (b : Backend) (pf : Platform) (tr : RequestTrace) (r : DecisionRow) : Prop :=
  (∃ pre x post o, tr = pre ++ x :: post ∧ Approves b pf x r.key (some o) ∧
    ∃ y ∈ pre, Evaluates b pf y r.key o) ∧
  ∃ z ∈ tr, ∃ o, Evaluates b pf z r.key o ∧ r.document.decisionOutcome = some o

/-- A report of the case is stored. -/
def Reported (t : DecisionTables) (k : CaseKey) : Prop :=
  (lookup ReportRow.key k t.reports).isSome = true

/-- A step neither stores a body that is approved already nor approves a case no evaluation
has reported on. -/
def Honest (b : Backend) (pf : Platform) (x : RequestStep) : Prop :=
  (∀ c body, x.label = .create c body → Accepts b pf x.before c body →
    body.status ≠ .approved) ∧
  ∀ k o, Approves b pf x k o → Reported x.before k

variable {b : Backend} {pf : Platform} {t t' : DecisionTables} {request : DecisionRequest}
  {k : CaseKey}

theorem Earned.snoc {tr : RequestTrace} {r : DecisionRow} (h : Earned b pf tr r)
    (x : RequestStep) : Earned b pf (tr ++ [x]) r := by
  obtain ⟨⟨pre, y, post, o, rfl, happroves, hevaluated⟩, z, hz, hcomputed⟩ := h
  refine ⟨⟨pre, y, post ++ [x], o, ?_, happroves, hevaluated⟩, z, ?_, hcomputed⟩
  · rw [List.append_assoc, List.cons_append]
  · exact List.mem_append_left _ hz

/-! ## Reports and keys stay -/

theorem reported_writeReport {tenant : TenantContext} {decisionId : String} {report : Report}
    (h : t'.reports = DecisionTables.writeReport tenant decisionId t.reports report) :
    Reported t' k ↔ (tenant.tenantId, decisionId) = k ∨ Reported t k := by
  have hkey : ReportRow.key ⟨tenant.tenantId, decisionId, report⟩ =
      (tenant.tenantId, decisionId) := rfl
  rw [Reported, h, DecisionTables.writeReport, lookup_upsert, hkey]
  by_cases hk : (tenant.tenantId, decisionId) = k
  · simp only [hk, if_true, Option.isSome_some, true_or]
  · simp only [hk, if_false, false_or, Reported]

theorem Reported.of_reports (h : t'.reports = t.reports) : Reported t' k ↔ Reported t k := by
  rw [Reported, Reported, h]

theorem Effect.reported (h : Effect b pf t t' request) (hk : Reported t k) : Reported t' k := by
  cases h with
  | unchanged _ same => rwa [same]
  | created _ _ creates => exact (Reported.of_reports creates.reports).mpr hk
  | evaluated _ _ _ _ _ _ _ _ _ _ _ reports =>
    exact (reported_writeReport reports).mpr (.inr hk)
  | transitioned _ _ _ _ _ _ _ _ _ _ _ reports => exact (Reported.of_reports reports).mpr hk
  | attached _ _ _ _ _ _ _ _ _ reports => exact (Reported.of_reports reports).mpr hk

theorem not_reported_of_fresh (hs : t.Sound) (h : ∀ r ∈ t.decisions, r.key ≠ k) :
    ¬ Reported t k := by
  intro hk
  obtain ⟨row, hrow⟩ := Option.isSome_iff_exists.mp hk
  obtain ⟨r, hr, hkey⟩ := List.mem_map.mp (hs.reported row (mem_of_lookup hrow))
  exact h r hr (hkey.trans (key_of_lookup hrow))

theorem Evaluates.reported {x : RequestStep} {o : Outcome} (hs : x.before.Sound)
    (h : Evaluates b pf x k o) : Reported x.after k := by
  obtain ⟨c, decisionId, _, _, _, -, rfl, hreply, -⟩ := h
  rcases evaluateRoute_cases hs hreply with ⟨_, _, hreplayed, -⟩ | ⟨_, _, _, _, -, -, -, -, -, hw⟩
  · cases hreplayed
  · exact (reported_writeReport hw).mpr (.inl rfl)

theorem Approves.stored {x : RequestStep} {o : Option Outcome} (h : Approves b pf x k o) :
    k ∈ x.before.decisions.map DecisionRow.key := by
  obtain ⟨c, decisionId, _, _, _, _, _, -, rfl, -, hloaded, -⟩ := h
  obtain ⟨row, hrow, -⟩ := Option.map_eq_some_iff.mp hloaded
  exact List.mem_map.mpr ⟨row, mem_of_lookup hrow, key_of_lookup hrow⟩

/-- An approved case after an approval. -/
theorem Approves.approved {x : RequestStep} {o : Option Outcome} (hs : x.before.Sound)
    (h : Approves b pf x k o) :
    ∃ r ∈ x.after.decisions, r.key = k ∧ r.document.status = .approved := by
  obtain ⟨c, decisionId, _, _, _, _, _, -, rfl, hreply, -⟩ := h
  rcases transitionRoute_cases hs hreply with ⟨_, _, hreplayed, -⟩ | ⟨_, r, _, -, ht, hr, -⟩
  · cases hreplayed
  · obtain ⟨r₀, -, hkey, hmem⟩ := hr.exists_row
    exact ⟨_, hmem, hkey, ht.status⟩

/-! ## What every trace accounts for -/

structure Provenance (b : Backend) (pf : Platform) (tr : RequestTrace) (t : DecisionTables) :
    Prop where
  sound : t.Sound
  reported : ∀ y ∈ tr, ∀ k o, Evaluates b pf y k o → Reported t k
  stored : ∀ y ∈ tr, ∀ k o, Approves b pf y k o → k ∈ t.decisions.map DecisionRow.key
  computed : ∀ r ∈ t.decisions, Reported t r.key →
    ∃ y ∈ tr, ∃ o, Evaluates b pf y r.key o ∧ r.document.decisionOutcome = some o

theorem provenance_nil (b : Backend) (pf : Platform) : Provenance b pf [] .empty :=
  ⟨DecisionTables.sound_empty, fun _ h => absurd h List.not_mem_nil,
    fun _ h => absurd h List.not_mem_nil, fun _ h => absurd h List.not_mem_nil⟩

/-- The trace computed the outcome of a reported case after one more step. -/
theorem Provenance.computed_snoc {tr : RequestTrace} (h : Provenance b pf tr t)
    (heffect : Effect b pf t t' request) {r : DecisionRow} (hr : r ∈ t'.decisions)
    (hk : Reported t' r.key) : ∃ y ∈ tr ++ [⟨t, request, t'⟩], ∃ o,
      Evaluates b pf y r.key o ∧ r.document.decisionOutcome = some o := by
  have hold (r₀ : DecisionRow) (hr₀ : r₀ ∈ t.decisions) (hk₀ : Reported t r₀.key) :
      ∃ y ∈ tr ++ [⟨t, request, t'⟩], ∃ o,
        Evaluates b pf y r₀.key o ∧ r₀.document.decisionOutcome = some o := by
    obtain ⟨y, hy, hcomputed⟩ := h.computed r₀ hr₀ hk₀
    exact ⟨y, List.mem_append_left _ hy, hcomputed⟩
  cases heffect with
  | unchanged _ same =>
    rw [same] at hr hk
    exact hold r hr hk
  | created c body creates =>
    rw [Reported.of_reports creates.reports] at hk
    rw [creates.decisions] at hr
    rcases List.mem_append.mp hr with hr | hr
    · exact hold r hr hk
    · rw [List.mem_singleton.mp hr] at hk
      exact absurd hk (not_reported_of_fresh h.sound creates.fresh)
  | evaluated c decisionId d d' e report replied computed _ outcome replaces reports =>
    rcases replaces.mem_cases h.sound hr with ⟨hr, hne⟩ | ⟨r₀, -, hkey, hdoc, rfl⟩
    · exact hold r hr (((reported_writeReport reports).mp hk).resolve_left (Ne.symm hne))
    · refine ⟨_, List.mem_append_right _ (List.mem_singleton_self _), report.outcome, ?_, outcome⟩
      exact ⟨c, decisionId, d, _, report, rfl, hkey, replied, replaces.loaded, computed, rfl⟩
  | transitioned c decisionId target decidedAt tokens d result e _ transitioned replaces reports =>
    rw [Reported.of_reports reports] at hk
    rcases replaces.mem_cases h.sound hr with ⟨hr, -⟩ | ⟨r₀, hr₀, -, hdoc, rfl⟩
    · exact hold r hr hk
    · obtain ⟨y, hy, o, hevaluates, ho⟩ := hold r₀ hr₀ hk
      refine ⟨y, hy, o, hevaluates, ?_⟩
      change result.document.decisionOutcome = some o
      rw [transitioned.outcome, boundDocument_decisionOutcome, ← hdoc, ho]
  | attached _ _ d d' _ _ _ outcome replaces reports =>
    rw [Reported.of_reports reports] at hk
    rcases replaces.mem_cases h.sound hr with ⟨hr, -⟩ | ⟨r₀, hr₀, -, hdoc, rfl⟩
    · exact hold r hr hk
    · obtain ⟨y, hy, o, hevaluates, ho⟩ := hold r₀ hr₀ hk
      refine ⟨y, hy, o, hevaluates, ?_⟩
      change d'.decisionOutcome = some o
      rw [outcome, ← hdoc, ho]

theorem Provenance.snoc {tr : RequestTrace} (h : Provenance b pf tr t)
    (request : DecisionRequest) :
    Provenance b pf (tr ++ [⟨t, request, served b pf t request⟩]) (served b pf t request) := by
  have heffect : Effect b pf t (served b pf t request) request := effect_served h.sound request
  refine ⟨sound_served h.sound request, fun y hy k o he => ?_, fun y hy k o ha => ?_,
    fun r hr hk => h.computed_snoc heffect hr hk⟩
  · rcases List.mem_append.mp hy with hy | hy
    · exact heffect.reported (h.reported y hy k o he)
    · rw [List.mem_singleton.mp hy] at he
      exact he.reported h.sound
  · rcases List.mem_append.mp hy with hy | hy
    · exact heffect.stored (h.stored y hy k o ha)
    · rw [List.mem_singleton.mp hy] at ha
      exact heffect.stored ha.stored

/-! ## Approved cases -/

def Accounted (b : Backend) (pf : Platform) (tr : RequestTrace) (t : DecisionTables) : Prop :=
  ∀ r ∈ t.decisions, r.document.status = .approved → Earned b pf tr r

theorem accounted_snoc {tr : RequestTrace} (hp : Provenance b pf tr t)
    (h : Accounted b pf tr t) (request : DecisionRequest)
    (hhonest : Honest b pf ⟨t, request, served b pf t request⟩) :
    Accounted b pf (tr ++ [⟨t, request, served b pf t request⟩]) (served b pf t request) := by
  intro r hr happroved
  have heffect : Effect b pf t (served b pf t request) request := effect_served hp.sound request
  cases heffect with
  | unchanged _ same =>
    rw [same] at hr
    exact (h r hr happroved).snoc _
  | created c body creates =>
    rw [creates.decisions] at hr
    rcases List.mem_append.mp hr with hr | hr
    · exact (h r hr happroved).snoc _
    · rw [List.mem_singleton.mp hr] at happroved
      exact absurd happroved (hhonest.1 c body rfl (accepts_of_creates hp.sound creates))
  | evaluated c decisionId d d' e report replied computed status outcome replaces _ =>
    rcases replaces.mem_cases hp.sound hr with ⟨hr, -⟩ | ⟨r₀, hr₀, hkey, hdoc, rfl⟩
    · exact (h r hr happroved).snoc _
    · have hstatus : d'.status = .approved := happroved
      rw [status, ← hdoc] at hstatus
      refine ⟨((h r₀ hr₀ hstatus).snoc _).1, _,
        List.mem_append_right _ (List.mem_singleton_self _), report.outcome, ?_, outcome⟩
      exact ⟨c, decisionId, d, _, report, rfl, hkey, replied, replaces.loaded, computed, rfl⟩
  | transitioned c decisionId target decidedAt tokens d result e replied transitioned replaces _ =>
    rcases replaces.mem_cases hp.sound hr with ⟨hr, -⟩ | ⟨r₀, hr₀, hkey, hdoc, rfl⟩
    · exact (h r hr happroved).snoc _
    · have htarget : target = .approved := by
        have hstatus : result.document.status = .approved := happroved
        rw [transitioned.status] at hstatus
        cases target <;> first | rfl | cases hstatus
      subst htarget
      have haccepted := transitioned.accepted
      obtain ⟨hreview, hrole, hgranted⟩ := transitioned.approval
      rw [boundDocument_status] at hreview
      have hpass := hgranted.pass
      rw [boundDocument_decisionOutcome] at hpass
      have happroves : Approves b pf ⟨t, .transition c decisionId .approved decidedAt tokens,
          served b pf t (.transition c decisionId .approved decidedAt tokens)⟩ r₀.key
          (some .pass) :=
        ⟨c, decisionId, decidedAt, tokens, d, result.document, _, rfl, hkey, replied,
          replaces.loaded, hreview, hpass, haccepted, hgranted.human, hrole⟩
      obtain ⟨y, hy, o, hevaluates, ho⟩ := hp.computed r₀ hr₀ (hhonest.2 _ _ happroves)
      rw [hdoc, hpass] at ho
      rw [← Option.some.inj ho] at hevaluates
      refine ⟨⟨tr, _, [], .pass, rfl, happroves, y, hy, hevaluates⟩, y,
        List.mem_append_left _ hy, .pass, hevaluates, ?_⟩
      change result.document.decisionOutcome = some .pass
      rw [transitioned.outcome, hgranted.pass]
  | attached _ _ d d' _ _ draft' _ replaces _ =>
    rcases replaces.mem_cases hp.sound hr with ⟨hr, -⟩ | ⟨r₀, -, -, -, rfl⟩
    · exact (h r hr happroved).snoc _
    · have hstatus : d'.status = .approved := happroved
      rw [draft'] at hstatus
      cases hstatus

/-- An approved case that was stored as such, or approved unreported, is not accounted for. -/
theorem honest_of_accounted {pre : RequestTrace} {x : RequestStep}
    (hp : Provenance b pf pre x.before) (hx : x.after = served b pf x.before x.label)
    (h : Accounted b pf (pre ++ [x]) x.after) : Honest b pf x := by
  constructor
  · intro c body hlabel haccepts hbody
    have hcreates := creates_of_accepts hp.sound haccepts
    rw [← hlabel, ← hx] at hcreates
    obtain ⟨⟨p, x', q, o, hsplit, happroves, -⟩, -⟩ :=
      h ⟨c.identity.tenant.tenantId, body.decisionId, body.withCreation pf c⟩
        (by rw [hcreates.decisions]
            exact List.mem_append_right _ (List.mem_singleton_self _)) hbody
    have hmem : x' ∈ pre ++ [x] := by
      rw [hsplit]
      exact List.mem_append_right _ List.mem_cons_self
    rcases List.mem_append.mp hmem with hmem | hmem
    · obtain ⟨r, hr, hkey⟩ := List.mem_map.mp (hp.stored x' hmem _ _ happroves)
      exact hcreates.fresh r hr hkey
    · rw [List.mem_singleton.mp hmem] at happroves
      obtain ⟨_, _, _, _, _, _, _, hlabel', -⟩ := happroves
      rw [hlabel] at hlabel'
      cases hlabel'
  · intro k o happroves
    obtain ⟨r, hr, rfl, hstatus⟩ := happroves.approved hp.sound
    obtain ⟨⟨p, x', q, o', hsplit, -, y, hy, hevaluates⟩, -⟩ := h r hr hstatus
    have hpre : y ∈ pre := by
      rcases List.eq_nil_or_concat q with rfl | ⟨q', z, rfl⟩
      · obtain ⟨rfl, -⟩ := List.append_inj' hsplit rfl
        exact hy
      · rw [List.concat_eq_append, ← List.cons_append, ← List.append_assoc] at hsplit
        obtain ⟨rfl, -⟩ := List.append_inj' hsplit rfl
        exact List.mem_append_left _ hy
    exact hp.reported y hpre _ _ hevaluates

/-- Every case that is approved at some point of a run was earned by then if and only if the
steps of the run are honest. -/
theorem approved_earned_iff (b : Backend) (pf : Platform) (requests : List DecisionRequest) :
    (∀ pre x post, history b pf requests = pre ++ x :: post →
      ∀ r ∈ x.after.decisions, r.document.status = .approved → Earned b pf (pre ++ [x]) r) ↔
      ∀ x ∈ history b pf requests, Honest b pf x := by
  have hrun : Run (fun t request t' => t' = served b pf t request) .empty (history b pf requests)
      (requests.foldl (served b pf) .empty) :=
    run_execute (fun t request t' => t' = served b pf t request) (served b pf) (fun _ _ => rfl) _ _
  have hprovenance (pre : RequestTrace) (t : DecisionTables)
      (hpre : Run (fun t request t' => t' = served b pf t request) .empty pre t) :
      Provenance b pf pre t :=
    hpre.invariant (Provenance b pf) (provenance_nil b pf) (fun tr t request t' _ hp hstep => by
      rw [show t' = served b pf t request from hstep]
      exact hp.snoc request)
  constructor
  · intro h x hx
    obtain ⟨pre, post, hsplit⟩ := List.append_of_mem hx
    have hcut := hrun
    rw [hsplit] at hcut
    obtain ⟨hpre, hstep, -⟩ := hcut.split
    exact honest_of_accounted (hprovenance pre _ hpre) hstep (h pre x post hsplit)
  · intro h pre x post hsplit
    have hcut := hrun
    rw [hsplit] at hcut
    obtain ⟨hpre, hstep, -⟩ := hcut.split
    refine ((hpre.snoc hstep).invariant_of_steps (Honest b pf)
      (fun tr t => Provenance b pf tr t ∧ Accounted b pf tr t)
      ⟨provenance_nil b pf, fun r hr => absurd hr List.not_mem_nil⟩ ?_ ?_).2
    · intro tr t request t' _ hinv hstep' hhonest
      obtain ⟨hp, hacc⟩ := hinv
      rw [show t' = served b pf t request from hstep'] at hhonest ⊢
      exact ⟨hp.snoc request, accounted_snoc hp hacc request hhonest⟩
    · intro y hy
      refine h y ?_
      rw [hsplit]
      rcases List.mem_append.mp hy with hy | hy
      · exact List.mem_append_left _ hy
      · rw [List.mem_singleton.mp hy]
        exact List.mem_append_right _ List.mem_cons_self

/-! ## A body that is approved already -/

def approvedCase : DecisionFile := { draftCase with status := .approved }

/-- The case is stored as APPROVED by its first and only request. -/
theorem approvedCase_unearned : ¬ ∀ pre x post,
    history .sqlite plainPlatform [.create authorCaller approvedCase] = pre ++ x :: post →
      ∀ r ∈ x.after.decisions, r.document.status = .approved →
        Earned .sqlite plainPlatform (pre ++ [x]) r := by
  intro h
  have hstored : (served .sqlite plainPlatform .empty (.create authorCaller
      approvedCase)).decisions = [⟨"tenant-a", "case-1",
        approvedCase.withCreation plainPlatform authorCaller⟩] := by
    rfl
  obtain ⟨-, z, hz, o, ⟨_, _, _, _, _, hlabel, -⟩, -⟩ := h [] _ [] rfl _
    (hstored ▸ List.mem_singleton_self _) rfl
  rw [List.mem_singleton.mp hz] at hlabel
  cases hlabel

end DecisionAssurance
