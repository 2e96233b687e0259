import DecisionAssurance.ReachedDecisions

/-!
# The numbers of transitions

The event of a transition is named after its position in the audit events of its document, and
documents only grow: no row of `audit_events` names a position beyond the stored document's last.
-/

namespace DecisionAssurance

open Tables Intake DecisionFileCompiler

/-- The id of the event of a transition. -/
def transitionId (decisionId : String) (n : ℕ) : String := s!"{decisionId}:transition:{n}"

/-- The positions that the rows of a stored case name. -/
def DecisionTables.Numbered (t : DecisionTables) : Prop :=
  ∀ row ∈ t.decisions, ∀ a ∈ t.auditEvents, a.case = row.key →
    ∀ n, a.eventId = transitionId row.decisionId n → n ≤ row.document.auditEvents.length

section Ids

variable (decisionId suffix : String) (n : ℕ)

variable {decisionId suffix n} in
/-- The ids of other events differ from those of transitions in their second character. -/
theorem append_ne_transitionId {tail : String} (h : tail.toList[1]? ≠ some 't') :
    decisionId ++ tail ≠ transitionId decisionId n := by
  intro hsame
  have hchars := congrArg String.toList hsame
  simp only [transitionId, toString, String.toList_append, List.append_assoc,
    List.append_cancel_left_eq] at hchars
  apply h
  rw [hchars]
  simp

theorem created_ne_transitionId : s!"{decisionId}:created:1" ≠ transitionId decisionId n := by
  apply append_ne_transitionId
  simp [toString]

theorem evaluation_ne_transitionId (m : ℕ) :
    s!"{decisionId}:evaluation:{m}" ≠ transitionId decisionId n := by
  rw [String.append_assoc]
  apply append_ne_transitionId
  simp [toString]

theorem handoff_ne_transitionId :
    s!"{decisionId}:research-handoff:{suffix}" ≠ transitionId decisionId n := by
  rw [String.append_assoc]
  apply append_ne_transitionId
  simp [toString]

theorem compiled_ne_transitionId : s!"{decisionId}:audit:1" ≠ transitionId decisionId n := by
  apply append_ne_transitionId
  simp [toString]

theorem transitionId_injective : Function.Injective (transitionId decisionId) := by
  intro m n h
  have hchars := congrArg String.toList h
  simp only [transitionId, toString, String.toList_append, List.append_assoc,
    List.append_cancel_left_eq] at hchars
  exact repr_injective (String.toList_inj.mp hchars)

end Ids

section Served

variable {b : Backend} {pf : Platform} {c : Caller} {t t' : DecisionTables} {reply : Reply}
  {tenant : TenantContext} {decisionId : String}

/-- A row of a replaced document names no position but its last. -/
def Follows (d : DecisionFile) (e : AuditEvent) : Prop :=
  ∀ n, e.eventId = transitionId d.decisionId n → n = d.auditEvents.length + 1

theorem follows_evaluation {d : DecisionFile} (report : Report) :
    Follows d ((evaluationEvent pf d report).stamp c) := by
  intro n h
  exact absurd h (evaluation_ne_transitionId _ _ _)

theorem follows_transition {d bound : DecisionFile} {now : String} {target : CaseStatus}
    {actor : Actor} (hid : bound.decisionId = d.decisionId)
    (hlength : bound.auditEvents.length = d.auditEvents.length) :
    Follows d ((transitionEvent pf now bound target actor).stamp c) := by
  intro n h
  have hsame : transitionId d.decisionId (d.auditEvents.length + 1) =
      transitionId d.decisionId n := by
    rw [← h, ← hid, ← hlength]
    rfl
  exact (transitionId_injective _ hsame).symm

theorem follows_handoff {d : DecisionFile} (hid : d.decisionId = decisionId) (v : Delivery) :
    Follows d (handoffEvent pf tenant decisionId d v) := by
  subst hid
  intro n h
  exact absurd h (handoff_ne_transitionId _ _ _)

/-- The one row a request adds to the case of a document, if it replaces one. -/
theorem row_of_replaces {d d' : DecisionFile} {e e' : AuditEvent}
    (h : Replaces pf t t' tenant decisionId d d' e)
    (hrows : t'.auditEvents = t.auditEvents ++ [e'.row tenant decisionId]) :
    e'.eventId = e.eventId := by
  rw [h.auditEvents, List.append_cancel_left_eq] at hrows
  have hrow : e.row tenant decisionId = e'.row tenant decisionId := by simpa using hrows
  exact (congrArg AuditRow.eventId hrow).symm

theorem boundDocument_frame (pf : Platform) (c : Caller) (decidedAt : String) (tokens : ℕ → String)
    (target : Target) (d : DecisionFile) :
    (boundDocument pf c decidedAt tokens target d).decisionId = d.decisionId ∧
      (boundDocument pf c decidedAt tokens target d).auditEvents = d.auditEvents := by
  rcases boundDocument_cases pf c decidedAt tokens target d with hbound | ⟨-, -, hbound⟩
  · rw [hbound]
    exact ⟨rfl, rfl⟩
  · rw [hbound]
    exact ⟨rfl, rfl⟩

theorem Transitioned.follows {target : Target} {d : DecisionFile} {r : SavedResult} {e : AuditEvent}
    {decidedAt : String} {tokens : ℕ → String} {actor : Actor}
    (h : Transitioned pf c target d r (boundDocument pf c decidedAt tokens target d) actor)
    (happends : Appends pf d r.document e) : Follows d e := by
  obtain ⟨hid, hevents⟩ := boundDocument_frame pf c decidedAt tokens target d
  have hstamped := stampFrom_auditEvents (c := c) (d := (boundDocument pf c decidedAt tokens target
    d).withTransition pf c.now target.status actor) rfl (congrArg List.length hevents).symm
  rw [← h.document, happends.events, hevents, List.append_cancel_left_eq] at hstamped
  obtain rfl : e = _ := by simpa using hstamped
  exact follows_transition hid (congrArg List.length hevents)

theorem evaluate_follows (hs : t.Sound) {report : Report} {d d' : DecisionFile} {e : AuditEvent}
    (hreply : evaluate b pf c decisionId t = .ok (.evaluated report, t'))
    (h : Replaces pf t t' c.identity.tenant decisionId d d' e) : Follows d e := by
  obtain ⟨-, -, hreply⟩ := bind_ok_cases hreply
  obtain ⟨key, -, hreply⟩ := bind_ok_cases hreply
  obtain ⟨replay, -, hreply⟩ := bind_ok_cases hreply
  rcases unlessReplayed_cases hreply with ⟨_, _, hreplayed, -⟩ | hwork
  · cases hreplayed
  · obtain ⟨d₀, hload, hwork⟩ := bind_ok_cases hwork
    obtain ⟨⟨report', r⟩, hresult, hwork⟩ := bind_ok_cases hwork
    obtain ⟨t₁, hsave, hwork⟩ := bind_ok_cases hwork
    cases hwork
    have hsame : d₀ = d := Option.some.inj ((orRaise_ok.mp hload).symm.trans h.loaded)
    subst hsame
    obtain ⟨-, -, hdocument, hevents⟩ := evaluateResult_cases hresult
    have hloaded : d₀.decisionId = decisionId := hs.getDecision_named h.loaded
    have hname : r.document.decisionId = decisionId := by
      rw [hdocument]
      exact hloaded
    have hrows := (DecisionTables.saveResult_cases (mapError_ok hsave)).2.1
    rw [hevents, hname] at hrows
    have hid := row_of_replaces h hrows
    intro n hn
    rw [← hid] at hn
    exact follows_evaluation report n hn

theorem handoff_follows (hs : t.Sound) {run : Research.ResearchRun} {d d' : DecisionFile}
    {e : AuditEvent} (hreply : handoff b pf tenant run t = .ok (reply, t'))
    (h : Replaces pf t t' tenant run.request.decisionFileId d d' e) : Follows d e := by
  obtain ⟨evidence, -, hreply⟩ := bind_ok_cases hreply
  obtain ⟨⟨t₁, document⟩, hattach, hreply⟩ := bind_ok_cases hreply
  cases hreply
  obtain ⟨v, d₀, -, hloaded, ⟨-, hsame, -⟩ | ⟨-, -, -, -, hwritten⟩⟩ :=
    attach_cases (mapError_ok hattach)
  · have hevents := congrArg (List.length ∘ DecisionTables.auditEvents) hsame
    simp [h.auditEvents] at hevents
  · obtain rfl : d₀ = d := Option.some.inj (hloaded.symm.trans h.loaded)
    have hid := row_of_replaces h (congrArg DecisionTables.auditEvents hwritten)
    intro n hn
    rw [← hid] at hn
    exact follows_handoff (hs.getDecision_named hloaded) v n hn

theorem Replaces.numbered (hs : t.Sound) (hn : t.Numbered) {d d' : DecisionFile} {e : AuditEvent}
    (h : Replaces pf t t' tenant decisionId d d' e) (hfollows : Follows d e) : t'.Numbered := by
  have hlength : d'.auditEvents.length = d.auditEvents.length + 1 := by
    rw [h.appends.events, List.length_append, List.length_singleton]
  intro row hrow a ha hcase n hid
  rw [h.auditEvents] at ha
  rcases h.mem_cases hs hrow with ⟨hrow, hkey⟩ | ⟨r₀, hr₀, hkey, hdocument, rfl⟩
  · rcases List.mem_append.mp ha with ha | ha
    · exact hn row hrow a ha hcase n hid
    · rw [List.mem_singleton.mp ha] at hcase
      exact absurd hcase.symm hkey
  · change n ≤ d'.auditEvents.length
    rcases List.mem_append.mp ha with ha | ha
    · have hbefore := hn r₀ hr₀ a ha hcase n hid
      rw [hdocument] at hbefore
      omega
    · rw [List.mem_singleton.mp ha] at hid
      have hname : r₀.decisionId = d.decisionId := by
        rw [← hdocument]
        exact (hs.named r₀ hr₀).symm
      have hlast := hfollows n (hname ▸ hid)
      omega

/-- A case that is created has one row, and it names no position. -/
theorem DecisionTables.Numbered.create (hs : t.Sound) (hn : t.Numbered) {d : DecisionFile}
    {e : AuditEvent} (hfresh : ∀ r ∈ t.decisions, r.key ≠ (tenant.tenantId, d.decisionId))
    (hdecisions : t'.decisions = t.decisions ++ [⟨tenant.tenantId, d.decisionId, d⟩])
    (hrows : t'.auditEvents = t.auditEvents ++ [e.row tenant d.decisionId])
    (he : ∀ n, e.eventId ≠ transitionId d.decisionId n) : t'.Numbered := by
  intro row hrow a ha hcase n hid
  rw [hdecisions] at hrow
  rw [hrows] at ha
  rcases List.mem_append.mp hrow with hrow | hrow
  · rcases List.mem_append.mp ha with ha | ha
    · exact hn row hrow a ha hcase n hid
    · rw [List.mem_singleton.mp ha] at hcase
      exact absurd hcase.symm (hfresh row hrow)
  · rw [List.mem_singleton.mp hrow] at hcase hid
    rcases List.mem_append.mp ha with ha | ha
    · obtain ⟨r, hr, hkey⟩ := List.mem_map.mp (hs.owned a ha)
      exact absurd (hkey.trans hcase) (hfresh r hr)
    · rw [List.mem_singleton.mp ha] at hid
      exact absurd hid (he n)

theorem numbered_served (hs : t.Sound) (hn : t.Numbered) (request : DecisionRequest) :
    (served b pf t request).Numbered := by
  have heffect := @effect_served b pf t hs request
  generalize hafter : served b pf t request = t' at heffect ⊢
  cases heffect with
  | unchanged _ same =>
    rw [same]
    exact hn
  | created c body creates =>
    apply hn.create (d := body.withCreation pf c) hs creates.fresh creates.decisions
      creates.auditEvents
    exact created_ne_transitionId body.decisionId
  | evaluated c decisionId d d' e report replied _ _ _ replaces _ =>
    exact replaces.numbered hs hn (evaluate_follows hs replied replaces)
  | transitioned c decisionId target decidedAt tokens d r e _ result replaces _ =>
    exact replaces.numbered hs hn (result.follows replaces.appends)
  | attached tenant run d d' e _ _ _ replaces _ =>
    cases hreply : handoff b pf tenant run t with
    | error e' =>
      have hsame : t' = t := by
        rw [← hafter, served, respond, hreply]
        rfl
      have hevents := congrArg (List.length ∘ DecisionTables.auditEvents) hsame
      simp [replaces.auditEvents] at hevents
    | ok r =>
      obtain ⟨reply, t₁⟩ := r
      have hserved : t' = t₁ := by
        rw [← hafter]
        exact served_of_reply hreply
      subst hserved
      exact replaces.numbered hs hn (handoff_follows hs hreply replaces)

end Served

theorem keptByWrites_numbered {b : Backend} {py : Interpreter} :
    KeptByWrites b py DecisionTables.Numbered where
  empty := by
    rintro _ ⟨⟩
  served _ r hs hn := numbered_served hs hn r
  compiled t t' tenant d hs hn hd hcreate := by
    obtain ⟨report, policy, timestamp, verified, rfl⟩ := hd
    obtain ⟨hfresh, hdecisions, hrows, -⟩ := DecisionTables.createDecision_cases hcreate
    apply hn.create hs hfresh hdecisions hrows
    exact compiled_ne_transitionId (compiledId report.intakeId)
  erased t tenant decisionId _ hn := by
    intro row hrow a ha
    exact hn row (mem_deleteWhere.mp hrow).1 a (mem_deleteWhere.mp ha).1

/-- The rows of a stored case name no position beyond its document's last after any run. -/
theorem numbered_decisionsAfter (b : Backend) (py : Interpreter) (acts : List Act) :
    (decisionsAfter b py acts).Numbered := kept_decisionsAfter keptByWrites_numbered acts

end DecisionAssurance
