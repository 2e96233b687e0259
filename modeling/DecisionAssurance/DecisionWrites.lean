import DecisionAssurance.Chains
import DecisionAssurance.WorkflowRoutes

/-!
# What the decision routes write

A request leaves the tables as they are, creates a case, or replaces a stored document by one
with a further audit event, the same event being appended to the table of the case.
-/

namespace DecisionAssurance

open Research Tables Chains

/-- The audit events of a document form a hash chain. -/
def DecisionFile.Chained (pf : Platform) (d : DecisionFile) : Prop :=
  Linked (AuditEvent.hash pf) AuditEvent.previousEventHash d.auditEvents

/-- A document with one more event, linked to the last one. -/
structure Appends (pf : Platform) (d d' : DecisionFile) (e : AuditEvent) : Prop where
  events : d'.auditEvents = d.auditEvents ++ [e]
  linked : e.previousEventHash = tipHash pf d.auditEvents
  named : d'.decisionId = d.decisionId

theorem Appends.chained {pf : Platform} {d d' : DecisionFile} {e : AuditEvent}
    (h : Appends pf d d' e) (hd : d.Chained pf) : d'.Chained pf := by
  unfold DecisionFile.Chained
  rw [h.events, linked_append_singleton]
  exact ⟨hd, h.linked⟩

section Documents

variable {pf : Platform} {c : Caller} {d : DecisionFile}

theorem stampFrom_auditEvents {n : ℕ} {es : List AuditEvent} {e : AuditEvent}
    (h : d.auditEvents = es ++ [e]) (hn : n = es.length) :
    (d.stampFrom c n).auditEvents = es ++ [e.stamp c] := by
  subst hn
  change d.auditEvents.take es.length ++ (d.auditEvents.drop es.length).map _ = _
  rw [h, List.take_left, List.drop_left]
  rfl

theorem appends_stampFrom {d' : DecisionFile} {e : AuditEvent} (h : Appends pf d d' e) {n : ℕ}
    (hn : n = d.auditEvents.length) : Appends pf d (d'.stampFrom c n) (e.stamp c) :=
  ⟨stampFrom_auditEvents h.events hn, h.linked, h.named⟩

theorem appends_withEvaluation (report : Report) :
    Appends pf d (d.withEvaluation pf report) (evaluationEvent pf d report) := ⟨rfl, rfl, rfl⟩

theorem appends_withTransition (now : String) (target : CaseStatus) (actor : Actor) :
    Appends pf d (d.withTransition pf now target actor) (transitionEvent pf now d target actor) :=
  ⟨rfl, rfl, rfl⟩

theorem appends_withHandoff (tenant : TenantContext) (decisionFileId : String) (v : Delivery) :
    Appends pf d (d.withHandoff pf tenant decisionFileId v)
      (handoffEvent pf tenant decisionFileId d v) := ⟨rfl, rfl, rfl⟩

theorem boundDocument_cases (pf : Platform) (c : Caller) (decidedAt : String)
    (tokens : ℕ → String) (target : Target) (d : DecisionFile) :
    boundDocument pf c decidedAt tokens target d = d ∨
      (target = .approved ∧ d.status = .review ∧ boundDocument pf c decidedAt tokens target d =
        bindApprovals pf d (c.identity.actor .decisionApprove) decidedAt tokens) := by
  unfold boundDocument
  split_ifs with h
  · exact .inr ⟨h.1, h.2.1, rfl⟩
  · exact .inl rfl

end Documents

/-! ## The results the routes compute -/

section Results

variable {b : Backend} {pf : Platform} {c : Caller} {t t' : DecisionTables}
  {key decisionId : String} {d : DecisionFile}

theorem evaluateResult_cases {report : Report} {r : SavedResult}
    (h : evaluateResult pf c key decisionId d = .ok (report, r)) :
    evaluateDecisionFile pf c.now d = .ok (d.withEvaluation pf report, report) ∧
      r.report = some report ∧
      r.document = (d.withEvaluation pf report).stampFrom c d.auditEvents.length ∧
      r.events = [(evaluationEvent pf d report).stamp c] := by
  obtain ⟨⟨updated, report'⟩, heval, h⟩ := bind_ok_cases h
  have haccepted := mapError_ok heval
  obtain ⟨-, -, rfl⟩ := evaluateDecisionFile_cases haccepted
  cases h
  refine ⟨haccepted, rfl, rfl, ?_⟩
  have hevents : (d.withEvaluation pf report).auditEvents =
      d.auditEvents ++ [evaluationEvent pf d report] := rfl
  change ((d.withEvaluation pf report).auditEvents.drop d.auditEvents.length).map _ = _
  rw [hevents, List.drop_left]
  rfl

theorem evaluateResult_appends {report : Report} {r : SavedResult}
    (h : evaluateResult pf c key decisionId d = .ok (report, r)) :
    Appends pf d r.document ((evaluationEvent pf d report).stamp c) := by
  rw [(evaluateResult_cases h).2.2.1]
  exact appends_stampFrom (appends_withEvaluation report) rfl

@[simp] theorem boundDocument_status (pf : Platform) (c : Caller) (decidedAt : String)
    (tokens : ℕ → String) (target : Target) (d : DecisionFile) :
    (boundDocument pf c decidedAt tokens target d).status = d.status := by
  rcases boundDocument_cases pf c decidedAt tokens target d with hb | ⟨-, -, hb⟩
  · rw [hb]
  · rw [hb]
    rfl

@[simp] theorem boundDocument_decisionOutcome (pf : Platform) (c : Caller) (decidedAt : String)
    (tokens : ℕ → String) (target : Target) (d : DecisionFile) :
    (boundDocument pf c decidedAt tokens target d).decisionOutcome = d.decisionOutcome := by
  rcases boundDocument_cases pf c decidedAt tokens target d with hb | ⟨-, -, hb⟩
  · rw [hb]
  · rw [hb]
    rfl

/-- The document a transition is applied to and the event it appends. -/
structure Transitioned (pf : Platform) (c : Caller) (target : Target) (d : DecisionFile)
    (r : SavedResult) (bound : DecisionFile) (actor : Actor) : Prop where
  accepted : TransitionPolicy.transition pf c.now bound target.status actor =
    .ok (bound.withTransition pf c.now target.status actor)
  semantic : Semantic pf bound
  reasons : bound.rejectionReasons bound.status target.status actor = []
  report : r.report = none
  document : r.document =
    (bound.withTransition pf c.now target.status actor).stampFrom c d.auditEvents.length
  events : r.events = [(transitionEvent pf c.now bound target.status actor).stamp c]

theorem transitionResult_cases {target : Target} {decidedAt : String} {tokens : ℕ → String}
    {r : SavedResult}
    (h : transitionResult pf c key decisionId target decidedAt tokens d = .ok r) :
    Transitioned pf c target d r (boundDocument pf c decidedAt tokens target d)
      (c.identity.actor (transitionPermission target d)) := by
  obtain ⟨updated, htransition, h⟩ := bind_ok_cases h
  have haccepted := mapError_ok htransition
  obtain ⟨hsem, hreasons, rfl⟩ := transition_cases haccepted
  cases h
  have hlength : (boundDocument pf c decidedAt tokens target d).auditEvents.length =
      d.auditEvents.length := by
    rcases boundDocument_cases pf c decidedAt tokens target d with hb | ⟨-, -, hb⟩
    · rw [hb]
    · rw [hb]
      rfl
  have hevents (n : ℕ) (hn : n = d.auditEvents.length) :
      (((boundDocument pf c decidedAt tokens target d).withTransition pf c.now target.status
        (c.identity.actor (transitionPermission target d))).stampFrom c n).auditEvents =
      (boundDocument pf c decidedAt tokens target d).auditEvents ++ [(transitionEvent pf c.now
        (boundDocument pf c decidedAt tokens target d) target.status
        (c.identity.actor (transitionPermission target d))).stamp c] :=
    stampFrom_auditEvents rfl (hn.trans hlength.symm)
  have hbefore : ((boundDocument pf c decidedAt tokens target d).withTransition pf c.now
      target.status (c.identity.actor (transitionPermission target d))).auditEvents.length - 1 =
      d.auditEvents.length := by
    change ((boundDocument pf c decidedAt tokens target d).auditEvents ++ [_]).length - 1 = _
    rw [List.length_append, List.length_singleton, hlength, Nat.add_sub_cancel]
  refine ⟨haccepted, hsem, hreasons, rfl, ?_, ?_⟩
  · rw [hbefore]
  · change (DecisionFile.auditEvents _).getLast?.toList = _
    rw [hevents _ hbefore, List.getLast?_append_cons]
    rfl

/-- Binding approvals leaves the events of a document as they are. -/
theorem Transitioned.appends {decidedAt : String} {tokens : ℕ → String} {target : Target}
    {r : SavedResult} {actor : Actor}
    (h : Transitioned pf c target d r (boundDocument pf c decidedAt tokens target d) actor) :
    Appends pf d r.document ((transitionEvent pf c.now
      (boundDocument pf c decidedAt tokens target d) target.status actor).stamp c) := by
  rw [h.document]
  refine appends_stampFrom ?_ rfl
  rcases boundDocument_cases pf c decidedAt tokens target d with hb | ⟨-, -, hb⟩
  · rw [hb]
    exact appends_withTransition _ _ _
  · rw [hb]
    exact ⟨rfl, rfl, rfl⟩

theorem Transitioned.status {target : Target} {r : SavedResult} {bound : DecisionFile}
    {actor : Actor} (h : Transitioned pf c target d r bound actor) :
    r.document.status = target.status := by
  rw [h.document]
  rfl

theorem Transitioned.outcome {target : Target} {r : SavedResult} {bound : DecisionFile}
    {actor : Actor} (h : Transitioned pf c target d r bound actor) :
    r.document.decisionOutcome = bound.decisionOutcome := by
  rw [h.document]
  rfl

/-- An approval is a step of a human approver out of REVIEW. -/
theorem Transitioned.approval {r : SavedResult} {bound : DecisionFile} {actor : Actor}
    (h : Transitioned pf c .approved d r bound actor) :
    bound.status = .review ∧ actor.role = .approver ∧ ApprovalGranted bound actor := by
  obtain ⟨hallowed, -, hgranted⟩ := rejectionReasons_nil h.reasons
  rcases allowedTransition_cases hallowed with ht | ⟨-, ht⟩ | ⟨-, ht⟩ | ⟨hs, -, hrole⟩
  · cases ht
  · cases ht
  · cases ht
  · exact ⟨hs, hrole, hgranted rfl⟩

end Results

/-! ## What a request leaves -/

/-- A case is stored with the created event. -/
structure Creates (pf : Platform) (t t' : DecisionTables) (c : Caller) (body : DecisionFile) :
    Prop where
  accepted : checkBody pf c body = .ok ()
  fresh : ∀ r ∈ t.decisions, r.key ≠ (c.identity.tenant.tenantId, body.decisionId)
  decisions : t'.decisions =
    t.decisions ++ [⟨c.identity.tenant.tenantId, body.decisionId, body.withCreation pf c⟩]
  auditEvents : t'.auditEvents =
    t.auditEvents ++ [(createdEvent pf c body).row c.identity.tenant body.decisionId]
  reports : t'.reports = t.reports
  sound : t'.Sound

/-- A stored document is replaced by one with a further event. -/
structure Replaces (pf : Platform) (t t' : DecisionTables) (tenant : TenantContext)
    (decisionId : String) (d d' : DecisionFile) (e : AuditEvent) : Prop where
  loaded : t.getDecision tenant decisionId = some d
  appends : Appends pf d d' e
  decisions : t'.decisions = DecisionTables.writeDocument tenant decisionId d' t.decisions
  auditEvents : t'.auditEvents = t.auditEvents ++ [e.row tenant decisionId]
  sound : t'.Sound

namespace Replaces

variable {pf : Platform} {t t' : DecisionTables} {tenant : TenantContext} {decisionId : String}
  {d d' : DecisionFile} {e : AuditEvent}

/-- A row after a document was replaced: untouched, or the row of the case. -/
theorem mem_cases (hs : t.Sound) (h : Replaces pf t t' tenant decisionId d d' e)
    {r : DecisionRow} (hr : r ∈ t'.decisions) :
    (r ∈ t.decisions ∧ r.key ≠ (tenant.tenantId, decisionId)) ∨
      ∃ r₀ ∈ t.decisions, r₀.key = (tenant.tenantId, decisionId) ∧ r₀.document = d ∧
        r = r₀.write d' := by
  rw [h.decisions] at hr
  obtain ⟨r₀, hr₀, rfl⟩ := mem_updateWhere.mp hr
  by_cases hkey : r₀.key = (tenant.tenantId, decisionId)
  · rw [if_pos (decide_eq_true hkey)]
    have hget := h.loaded
    rw [DecisionTables.getDecision, hs.decisions.lookup_eq_some.mpr ⟨hr₀, hkey⟩] at hget
    exact .inr ⟨r₀, hr₀, hkey, Option.some.inj hget, rfl⟩
  · rw [if_neg (fun hd => hkey (of_decide_eq_true hd))]
    exact .inl ⟨hr₀, hkey⟩

theorem exists_row (h : Replaces pf t t' tenant decisionId d d' e) :
    ∃ r₀ ∈ t.decisions, r₀.key = (tenant.tenantId, decisionId) ∧ r₀.write d' ∈ t'.decisions := by
  obtain ⟨r₀, hr₀, -⟩ := Option.map_eq_some_iff.mp h.loaded
  refine ⟨r₀, mem_of_lookup hr₀, key_of_lookup hr₀, ?_⟩
  rw [h.decisions]
  refine mem_updateWhere.mpr ⟨r₀, mem_of_lookup hr₀, ?_⟩
  rw [if_pos (decide_eq_true (key_of_lookup hr₀))]

theorem keys (h : Replaces pf t t' tenant decisionId d d' e) :
    t'.decisions.map DecisionRow.key = t.decisions.map DecisionRow.key := by
  rw [h.decisions, DecisionTables.map_key_writeDocument]

end Replaces

section Routes

variable {b : Backend} {pf : Platform} {c : Caller} {t t' : DecisionTables} {reply : Reply}
  {decisionId : String}

theorem DecisionTables.Sound.getDecision_named (hs : t.Sound) {tenant : TenantContext}
    {d : DecisionFile} (h : t.getDecision tenant decisionId = some d) :
    d.decisionId = decisionId := by
  obtain ⟨row, hrow, rfl⟩ := Option.map_eq_some_iff.mp h
  rw [hs.named row (mem_of_lookup hrow)]
  exact congrArg Prod.snd (key_of_lookup hrow)

theorem unlessReplayed_cases {replay : Option (ℕ × Json)} {work : Answers (Reply × DecisionTables)}
    (h : unlessReplayed replay t work = .ok (reply, t')) :
    (∃ statusCode body, reply = .replayed statusCode body ∧ t' = t) ∨ work = .ok (reply, t') := by
  unfold unlessReplayed at h
  split at h
  · rename_i statusCode body
    cases h
    exact .inl ⟨statusCode, body, rfl, rfl⟩
  · exact .inr h

theorem replaces_of_save (hs : t.Sound) {d : DecisionFile} {e : AuditEvent} {r : SavedResult}
    (hload : load c decisionId t = .ok d) (happends : Appends pf d r.document e)
    (hevents : r.events = [e]) (hsave : save b c r t = .ok t') :
    Replaces pf t t' c.identity.tenant decisionId d r.document e ∧
      t'.reports = DecisionTables.writeReport c.identity.tenant decisionId t.reports r.report := by
  have hloaded : t.getDecision c.identity.tenant decisionId = some d := orRaise_ok.mp hload
  have hname : r.document.decisionId = decisionId :=
    happends.named.trans (hs.getDecision_named hloaded)
  obtain ⟨hdecisions, haudit, hreports, -, hsound⟩ :=
    DecisionTables.saveResult_cases (mapError_ok hsave)
  rw [hname] at hdecisions haudit hreports
  rw [hevents] at haudit
  exact ⟨⟨hloaded, happends, hdecisions, haudit, hsound hs⟩, hreports⟩

theorem createRoute_cases (hs : t.Sound) {body : DecisionFile}
    (h : createDecision b pf c body t = .ok (reply, t')) :
    (∃ statusCode json, reply = .replayed statusCode json ∧ t' = t) ∨
      (reply = .created (body.withCreation pf c) ∧ Creates pf t t' c body) := by
  obtain ⟨u, hrequire, h⟩ := bind_ok_cases h
  obtain ⟨key, hkey, h⟩ := bind_ok_cases h
  obtain ⟨replay, hreplay, h⟩ := bind_ok_cases h
  refine (unlessReplayed_cases h).imp_right fun hwork => ?_
  obtain ⟨u', hcheck, hwork⟩ := bind_ok_cases hwork
  obtain ⟨t₁, hcreate, hwork⟩ := bind_ok_cases hwork
  cases hwork
  obtain ⟨hfresh, hdecisions, haudit, hreports, -, hsound⟩ :=
    DecisionTables.createDecision_cases (mapError_ok hcreate)
  exact ⟨rfl, hcheck, hfresh, hdecisions, haudit, hreports, hsound hs⟩

theorem evaluateRoute_cases (hs : t.Sound)
    (h : evaluate b pf c decisionId t = .ok (reply, t')) :
    (∃ statusCode json, reply = .replayed statusCode json ∧ t' = t) ∨
      ∃ d report d' e, reply = .evaluated report ∧
        evaluateDecisionFile pf c.now d = .ok (d.withEvaluation pf report, report) ∧
        d'.status = d.status ∧ d'.decisionOutcome = some report.outcome ∧
        Replaces pf t t' c.identity.tenant decisionId d d' e ∧
        t'.reports = DecisionTables.writeReport c.identity.tenant decisionId t.reports report := by
  obtain ⟨u, hrequire, h⟩ := bind_ok_cases h
  obtain ⟨key, hkey, h⟩ := bind_ok_cases h
  obtain ⟨replay, hreplay, h⟩ := bind_ok_cases h
  refine (unlessReplayed_cases h).imp_right fun hwork => ?_
  obtain ⟨d, hload, hwork⟩ := bind_ok_cases hwork
  obtain ⟨⟨report, r⟩, hresult, hwork⟩ := bind_ok_cases hwork
  obtain ⟨t₁, hsave, hwork⟩ := bind_ok_cases hwork
  cases hwork
  obtain ⟨heval, hrep, hdoc, hevents⟩ := evaluateResult_cases hresult
  obtain ⟨hreplaces, hreports⟩ :=
    replaces_of_save hs hload (evaluateResult_appends hresult) hevents hsave
  rw [hrep] at hreports
  refine ⟨d, report, r.document, _, rfl, heval, ?_, ?_, hreplaces, hreports⟩
  · rw [hdoc]
    rfl
  · rw [hdoc]
    rfl

theorem transitionRoute_cases (hs : t.Sound) {target : Target} {decidedAt : String}
    {tokens : ℕ → String}
    (h : transition b pf c decisionId target decidedAt tokens t = .ok (reply, t')) :
    (∃ statusCode json, reply = .replayed statusCode json ∧ t' = t) ∨
      ∃ d r e, reply = .transitioned r.document ∧
        Transitioned pf c target d r (boundDocument pf c decidedAt tokens target d)
          (c.identity.actor (transitionPermission target d)) ∧
        Replaces pf t t' c.identity.tenant decisionId d r.document e ∧
        t'.reports = t.reports := by
  obtain ⟨key, hkey, h⟩ := bind_ok_cases h
  obtain ⟨u, hrequire, h⟩ := bind_ok_cases h
  obtain ⟨d, hload, h⟩ := bind_ok_cases h
  obtain ⟨u', hblocked, h⟩ := bind_ok_cases h
  obtain ⟨replay, hreplay, h⟩ := bind_ok_cases h
  refine (unlessReplayed_cases h).imp_right fun hwork => ?_
  obtain ⟨r, hresult, hwork⟩ := bind_ok_cases hwork
  obtain ⟨t₁, hsave, hwork⟩ := bind_ok_cases hwork
  cases hwork
  have htransitioned := transitionResult_cases hresult
  obtain ⟨hreplaces, hreports⟩ :=
    replaces_of_save hs hload htransitioned.appends htransitioned.events hsave
  rw [htransitioned.report] at hreports
  exact ⟨d, r, _, rfl, htransitioned, hreplaces, hreports⟩

theorem handoff_cases (hs : t.Sound) {tenant : TenantContext} {run : ResearchRun}
    (h : handoff b pf tenant run t = .ok (reply, t')) :
    t' = t ∨ ∃ d d' e, d.status = .draft ∧ d'.status = .draft ∧
      d'.decisionOutcome = d.decisionOutcome ∧
      Replaces pf t t' tenant run.request.decisionFileId d d' e ∧ t'.reports = t.reports := by
  obtain ⟨evidence, hcompile, h⟩ := bind_ok_cases h
  obtain ⟨⟨t₁, document⟩, hattach, h⟩ := bind_ok_cases h
  cases h
  obtain ⟨v, d, -, hloaded, ⟨-, rfl, -⟩ | ⟨-, -, hupdated, hfresh, rfl⟩⟩ :=
    attach_cases (mapError_ok hattach)
  · exact .inl rfl
  · obtain ⟨hdraft, -, -, rfl⟩ := attachDocument_cases hupdated
    have hcase : (tenant.tenantId, run.request.decisionFileId) ∈
        t.decisions.map DecisionRow.key := by
      obtain ⟨row, hrow, -⟩ := Option.map_eq_some_iff.mp hloaded
      exact List.mem_map.mpr ⟨row, mem_of_lookup hrow, key_of_lookup hrow⟩
    refine .inr ⟨d, d.withHandoff pf tenant run.request.decisionFileId v, _, hdraft, hdraft, rfl,
      ⟨hloaded, appends_withHandoff tenant _ v, rfl, rfl, ?_⟩, rfl⟩
    have hnamed : d.decisionId = run.request.decisionFileId := hs.getDecision_named hloaded
    have hname : (d.withHandoff pf tenant run.request.decisionFileId v).decisionId =
        run.request.decisionFileId := hnamed
    have hrows : (t.withHandoff pf tenant run.request.decisionFileId v d
        (d.withHandoff pf tenant run.request.decisionFileId v)).auditEvents = t.auditEvents ++
          [handoffEvent pf tenant run.request.decisionFileId d v].map
            (AuditEvent.row tenant _) := rfl
    exact hs.replace hname hcase rfl hrows (fun r hr => .inl hr)
      (keyed_append_singleton hs.auditEvents hfresh)

/-- What a request does to the tables. -/
inductive Effect (b : Backend) (pf : Platform) (t t' : DecisionTables) : DecisionRequest → Prop
  | unchanged (request : DecisionRequest) (same : t' = t) : Effect b pf t t' request
  | created (c : Caller) (body : DecisionFile) (creates : Creates pf t t' c body) :
      Effect b pf t t' (.create c body)
  | evaluated (c : Caller) (decisionId : String) (d d' : DecisionFile) (e : AuditEvent)
      (report : Report) (replied : evaluate b pf c decisionId t = .ok (.evaluated report, t'))
      (computed : evaluateDecisionFile pf c.now d = .ok (d.withEvaluation pf report, report))
      (status : d'.status = d.status) (outcome : d'.decisionOutcome = some report.outcome)
      (replaces : Replaces pf t t' c.identity.tenant decisionId d d' e)
      (reports : t'.reports =
        DecisionTables.writeReport c.identity.tenant decisionId t.reports report) :
      Effect b pf t t' (.evaluate c decisionId)
  | transitioned (c : Caller) (decisionId : String) (target : Target) (decidedAt : String)
      (tokens : ℕ → String) (d : DecisionFile) (r : SavedResult) (e : AuditEvent)
      (replied : transition b pf c decisionId target decidedAt tokens t =
        .ok (.transitioned r.document, t'))
      (result : Transitioned pf c target d r (boundDocument pf c decidedAt tokens target d)
        (c.identity.actor (transitionPermission target d)))
      (replaces : Replaces pf t t' c.identity.tenant decisionId d r.document e)
      (reports : t'.reports = t.reports) :
      Effect b pf t t' (.transition c decisionId target decidedAt tokens)
  | attached (tenant : TenantContext) (run : ResearchRun) (d d' : DecisionFile) (e : AuditEvent)
      (draft : d.status = .draft) (draft' : d'.status = .draft)
      (outcome : d'.decisionOutcome = d.decisionOutcome)
      (replaces : Replaces pf t t' tenant run.request.decisionFileId d d' e)
      (reports : t'.reports = t.reports) : Effect b pf t t' (.handoff tenant run)

theorem served_of_reply {request : DecisionRequest} (h : respond b pf t request = .ok (reply, t')) :
    served b pf t request = t' := by
  rw [served, h]
  rfl

theorem effect_served (hs : t.Sound) (request : DecisionRequest) :
    Effect b pf t (served b pf t request) request := by
  cases hreply : respond b pf t request with
  | error e =>
    refine .unchanged request ?_
    rw [served, hreply]
    rfl
  | ok r =>
    obtain ⟨reply, t'⟩ := r
    rw [served_of_reply hreply]
    cases request with
    | create c body =>
      rcases createRoute_cases hs hreply with ⟨_, _, -, ht⟩ | ⟨-, h⟩
      · exact .unchanged _ ht
      · exact .created c body h
    | evaluate c decisionId =>
      rcases evaluateRoute_cases hs hreply with ⟨_, _, -, ht⟩ | ⟨d, report, d', e, rfl, h⟩
      · exact .unchanged _ ht
      · obtain ⟨hcomputed, hstatus, houtcome, hreplaces, hreports⟩ := h
        exact .evaluated c decisionId d d' e report hreply hcomputed hstatus houtcome hreplaces
          hreports
    | transition c decisionId target decidedAt tokens =>
      rcases transitionRoute_cases hs hreply with ⟨_, _, -, ht⟩ | ⟨d, r, e, rfl, h⟩
      · exact .unchanged _ ht
      · obtain ⟨hresult, hreplaces, hreports⟩ := h
        exact .transitioned c decisionId target decidedAt tokens d r e hreply hresult hreplaces
          hreports
    | handoff tenant run =>
      rcases handoff_cases hs hreply with ht | ⟨d, d', e, hdraft, hdraft', houtcome, h, hreports⟩
      · exact .unchanged _ ht
      · exact .attached tenant run d d' e hdraft hdraft' houtcome h hreports

/-- The three effects in which all that matters is that a case or an event is written. -/
theorem Effect.cases_writes {request : DecisionRequest} (h : Effect b pf t t' request) :
    t' = t ∨ (∃ c body, request = .create c body ∧ Creates pf t t' c body) ∨
      ∃ tenant decisionId d d' e, Replaces pf t t' tenant decisionId d d' e := by
  cases h with
  | unchanged _ same => exact .inl same
  | created c body creates => exact .inr (.inl ⟨c, body, rfl, creates⟩)
  | evaluated _ _ _ _ _ _ _ _ _ _ replaces _ => exact .inr (.inr ⟨_, _, _, _, _, replaces⟩)
  | transitioned _ _ _ _ _ _ _ _ _ _ replaces _ => exact .inr (.inr ⟨_, _, _, _, _, replaces⟩)
  | attached _ _ _ _ _ _ _ _ replaces _ => exact .inr (.inr ⟨_, _, _, _, _, replaces⟩)

theorem Effect.stored {request : DecisionRequest} {k : CaseKey}
    (h : Effect b pf t t' request) (hk : k ∈ t.decisions.map DecisionRow.key) :
    k ∈ t'.decisions.map DecisionRow.key := by
  rcases h.cases_writes with same | ⟨_, _, -, creates⟩ | ⟨_, _, _, _, _, replaces⟩
  · rwa [same]
  · rw [creates.decisions, List.map_append]
    exact List.mem_append_left _ hk
  · rwa [replaces.keys]

theorem sound_served (hs : t.Sound) (request : DecisionRequest) :
    (served b pf t request).Sound := by
  rcases (@effect_served b pf t hs request).cases_writes with h | ⟨_, _, -, h⟩ | ⟨_, _, _, _, _, h⟩
  · rw [h]
    exact hs
  · exact h.sound
  · exact h.sound

end Routes

end DecisionAssurance
