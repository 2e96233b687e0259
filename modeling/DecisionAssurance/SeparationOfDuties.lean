import DecisionAssurance.Runs
import DecisionAssurance.Transitions

/-!
# Separation of duties

A case is worked on by evaluations, transitions and bound approvals, in any order. The audit
trail says how far a case has come: the status changes it records are those of the path from
DRAFT to the current status, with the separations the policy asks at each of them.
-/

namespace DecisionAssurance

open Runs

inductive CaseStep
  | evaluate (now : String)
  | transition (now : String) (target : CaseStatus) (actor : Actor)
  | bind (approver : Actor) (decidedAt : String) (tokens : ℕ → String)

/-- The document after a step; a step that raises leaves it as it is. -/
def nextDocument (pf : Platform) (d : DecisionFile) : CaseStep → DecisionFile
  | .evaluate now => valueOr (evaluatedDocument pf now d) d
  | .transition now target actor => valueOr (TransitionPolicy.transition pf now d target actor) d
  | .bind approver decidedAt tokens =>
    if d.status = .review ∧ approver.kind = .human then
      bindApprovals pf d approver decidedAt tokens
    else d

/-- A property of documents that accepted evaluations and transitions and bound approvals
preserve is preserved by every step. -/
theorem nextDocument_induct {pf : Platform} {d : DecisionFile} {I : DecisionFile → Prop}
    (hd : I d)
    (heval : ∀ now, Semantic pf d → I (d.withEvaluation pf (assess now d.assessmentRequest)))
    (htrans : ∀ now target actor, Semantic pf d →
      d.rejectionReasons d.status target actor = [] → I (d.withTransition pf now target actor))
    (hbind : ∀ approver decidedAt tokens, d.status = .review →
      I (bindApprovals pf d approver decidedAt tokens)) (step : CaseStep) :
    I (nextDocument pf d step) := by
  cases step with
  | evaluate now =>
    rw [nextDocument]
    cases h : evaluatedDocument pf now d with
    | error e => exact hd
    | ok updated =>
      obtain ⟨hsem, rfl⟩ := evaluatedDocument_cases h
      exact heval now hsem
  | transition now target actor =>
    rw [nextDocument]
    cases h : TransitionPolicy.transition pf now d target actor with
    | error e => exact hd
    | ok updated =>
      obtain ⟨hsem, hreasons, rfl⟩ := transition_cases h
      exact htrans now target actor hsem hreasons
  | bind approver decidedAt tokens =>
    rw [nextDocument]
    split_ifs with hreview
    · exact hbind approver decidedAt tokens hreview.1
    · exact hd

/-! ## The audit trail -/

def isStatusChange (e : AuditEvent) : Bool := e.fromStatus ≠ some e.toStatus

def DecisionFile.statusChanges (d : DecisionFile) : List AuditEvent :=
  d.auditEvents.filter isStatusChange

def Moves (e : AuditEvent) (source target : CaseStatus) : Prop :=
  e.fromStatus = some source ∧ e.toStatus = target

/-- An approval that satisfies a requirement for the actor who approved the case. -/
structure ApprovedBy (pf : Platform) (d : DecisionFile) (r : ReviewRequirement) (actor : Actor)
    (a : Approval) : Prop where
  requirement : a.requirementRef = r.id
  decision : a.decision = .approve
  human : a.approver.kind = .human
  role : a.approver.role = r.requiredRole.role
  bound : ApprovalBound pf d a
  self : r.requiredRole = .approver → a.approver.id = actor.id

/-- Separation of duties on an approved case. -/
structure DutiesSeparated (pf : Platform) (d : DecisionFile)
    (entered released approved : AuditEvent) : Prop where
  path : d.statusChanges = [entered, released, approved]
  enters : Moves entered .draft .validation
  releases : Moves released .validation .review
  approves : Moves approved .review .approved
  validator : entered.actor.id ≠ d.createdBy.id
  human : approved.actor.kind = .human
  approver : approved.actor.role = .approver
  notCreator : approved.actor.id ≠ d.createdBy.id
  notValidator : ∀ e ∈ d.auditEvents, e.toStatus = .validation → e.actor.id ≠ approved.actor.id
  outcome : d.decisionOutcome = some .pass
  constraints : ∀ c ∈ d.constraints, c.severity = .mandatory → c.satisfied = true
  conflicts : ∀ c ∈ d.conflicts, c.severity = .critical → c.resolved = true
  requirements : ∀ r ∈ d.reviewRequirements, r.mandatory = true → r.satisfied = true ∧
    ∃ a ∈ d.approvals, ApprovedBy pf d r approved.actor a

/-- How far the audit trail of a case has come. -/
def Trail (pf : Platform) (d : DecisionFile) : Prop :=
  match d.status with
  | .draft => d.statusChanges = []
  | .validation => ∃ entered, d.statusChanges = [entered] ∧ Moves entered .draft .validation ∧
      entered.actor.id ≠ d.createdBy.id
  | .review => ∃ entered released, d.statusChanges = [entered, released] ∧
      Moves entered .draft .validation ∧ Moves released .validation .review ∧
      entered.actor.id ≠ d.createdBy.id
  | .approved => ∃ entered released approved, DutiesSeparated pf d entered released approved
  | .blocked => True

/-! ## The outcome depends on content that no step changes -/

/-- The outcome of the document's content, its approvals left out. -/
def DecisionFile.contentOutcome (d : DecisionFile) : Outcome :=
  ({ d with approvals := [] } : DecisionFile).evaluatedOutcome

theorem evaluatedOutcome_of_semantic {pf : Platform} {d : DecisionFile} (h : Semantic pf d) :
    d.evaluatedOutcome = d.contentOutcome := by
  have hne : d.assessmentRequest.approver ≠ some d.assessmentRequest.generator := by
    intro heq
    obtain ⟨a, ha, hid⟩ := Option.map_eq_some_iff.mp heq
    exact (h.approvals a (List.mem_of_getLast? ha)).independent.1 hid
  have hne' : ({ d with approvals := [] } : DecisionFile).assessmentRequest.approver ≠
      some d.assessmentRequest.generator := nofun
  have hfound : d.assessmentRequest.found =
      ({ d with approvals := [] } : DecisionFile).assessmentRequest.found := by
    unfold AssessmentRequest.found
    rw [AssessmentRequest.separationFound_of_ne hne, AssessmentRequest.separationFound_of_ne hne']
    rfl
  unfold DecisionFile.contentOutcome DecisionFile.evaluatedOutcome AssessmentRequest.findings
  rw [hfound]
  rfl

/-- The stored outcome is the one of the content, once there is one. -/
def OutcomeCurrent (d : DecisionFile) : Prop :=
  d.decisionOutcome = none ∨ d.decisionOutcome = some d.contentOutcome

/-! ## Steps keep the trail -/

section Steps

variable {pf : Platform} {d : DecisionFile}

theorem isStatusChange_evaluationEvent (report : Report) :
    isStatusChange (evaluationEvent pf d report) = false := by
  simp only [isStatusChange, evaluationEvent, ne_eq, not_true_eq_false, decide_false]

theorem isStatusChange_transitionEvent {now : String} {target : CaseStatus} {actor : Actor}
    (h : d.status ≠ target) : isStatusChange (transitionEvent pf now d target actor) = true := by
  refine decide_eq_true fun heq => h ?_
  exact Option.some.inj heq

theorem statusChanges_withEvaluation (pf : Platform) (d : DecisionFile) (report : Report) :
    (d.withEvaluation pf report).statusChanges = d.statusChanges := by
  change (d.auditEvents ++ [evaluationEvent pf d report]).filter isStatusChange = _
  rw [List.filter_append, List.filter_singleton, isStatusChange_evaluationEvent]
  exact List.append_nil _

theorem statusChanges_withTransition {now : String} {target : CaseStatus} {actor : Actor}
    (h : d.status ≠ target) : (d.withTransition pf now target actor).statusChanges =
      d.statusChanges ++ [transitionEvent pf now d target actor] := by
  change (d.auditEvents ++ [transitionEvent pf now d target actor]).filter isStatusChange = _
  rw [List.filter_append, List.filter_singleton, isStatusChange_transitionEvent h]
  rfl

theorem allowedTransition_ne {source target : CaseStatus} {role : Role}
    (h : allowedTransition source target = some role) : source ≠ target := by
  rintro rfl
  cases source <;> cases h

theorem DutiesSeparated.withEvaluation {entered released approved : AuditEvent}
    (h : DutiesSeparated pf d entered released approved) (happroved : d.status = .approved)
    {report : Report} (hpass : report.outcome = .pass) :
    DutiesSeparated pf (d.withEvaluation pf report) entered released approved := by
  refine ⟨?_, h.enters, h.releases, h.approves, h.validator, h.human, h.approver, h.notCreator,
    fun e he hto => ?_, congrArg some hpass, h.constraints, h.conflicts, fun r hr hm => ?_⟩
  · rw [statusChanges_withEvaluation]
    exact h.path
  · rcases List.mem_append.mp he with he | he
    · exact h.notValidator e he hto
    · rw [List.mem_singleton.mp he] at hto
      have hstatus : d.status = .validation := hto
      rw [happroved] at hstatus
      cases hstatus
  · obtain ⟨hsat, a, ha, happ⟩ := h.requirements r hr hm
    have hbound : ApprovalBound pf (d.withEvaluation pf report) a :=
      ⟨happ.bound.role, happ.bound.human, happ.bound.independent, happ.bound.action,
        happ.bound.digest⟩
    exact ⟨hsat, a, ha, happ.requirement, happ.decision, happ.human, happ.role, hbound, happ.self⟩

theorem approvedBy_of_matches (hsem : Semantic pf d) {r : ReviewRequirement} {actor : Actor}
    {a : Approval} (ha : a ∈ d.approvals) (h : a.matches r actor = true) :
    ApprovedBy pf d r actor a := by
  simp only [Approval.matches, Bool.and_eq_true, Bool.or_eq_true, decide_eq_true_eq] at h
  obtain ⟨⟨⟨⟨hreq, hdec⟩, hhuman⟩, hrole⟩, hself⟩ := h
  refine ⟨hreq, hdec, hhuman, hrole, hsem.approvals a ha, fun happ => ?_⟩
  rcases hself with hne | hid
  · exact absurd happ hne
  · exact hid

/-- The separation an accepted approval of a case under review establishes. -/
theorem dutiesSeparated_of_granted (hsem : Semantic pf d) (hreview : d.status = .review)
    (htrail : Trail pf d) (now : String) {actor : Actor} (hrole : actor.role = .approver)
    (h : ApprovalGranted d actor) : ∃ entered released approved,
      DutiesSeparated pf (d.withTransition pf now .approved actor) entered released approved := by
  unfold Trail at htrail
  rw [hreview] at htrail
  obtain ⟨entered, released, hchanges, henters, hreleases, hvalidator⟩ := htrail
  have hne : d.status ≠ .approved := by
    rw [hreview]
    nofun
  refine ⟨entered, released, transitionEvent pf now d .approved actor, ?_, henters, hreleases,
    ⟨congrArg some hreview, rfl⟩, hvalidator, h.human, hrole, h.separate, fun e he hto => ?_,
    h.pass, h.constraints, h.conflicts, fun r hr hm => ?_⟩
  · rw [statusChanges_withTransition hne, hchanges]
    rfl
  · rcases List.mem_append.mp he with he | he
    · intro hid
      refine h.notValidator ?_
      rw [DecisionFile.validatorIds, List.mem_map]
      exact ⟨e, List.mem_filter.mpr ⟨he, decide_eq_true hto⟩, hid⟩
    · rw [List.mem_singleton.mp he] at hto
      cases hto
  · obtain ⟨a, ha, hmatch⟩ := h.approved r hr hm
    have happ := approvedBy_of_matches hsem ha hmatch
    have hbound : ApprovalBound pf (d.withTransition pf now .approved actor) a :=
      ⟨happ.bound.role, happ.bound.human, happ.bound.independent, happ.bound.action,
        happ.bound.digest⟩
    exact ⟨h.satisfied r hr hm, a, ha, happ.requirement, happ.decision, happ.human, happ.role,
      hbound, happ.self⟩

theorem trail_withTransition (hsem : Semantic pf d) (htrail : Trail pf d) (now : String)
    {target : CaseStatus} {actor : Actor} (h : d.rejectionReasons d.status target actor = []) :
    Trail pf (d.withTransition pf now target actor) := by
  obtain ⟨hallowed, hgenerator, happroval⟩ := rejectionReasons_nil h
  have hchanges : (d.withTransition pf now target actor).statusChanges =
      d.statusChanges ++ [transitionEvent pf now d target actor] :=
    statusChanges_withTransition (allowedTransition_ne hallowed)
  have hmoves : Moves (transitionEvent pf now d target actor) d.status target := ⟨rfl, rfl⟩
  rcases allowedTransition_cases hallowed with rfl | ⟨hs, rfl⟩ | ⟨hs, rfl⟩ | ⟨hs, rfl, hrole⟩
  · trivial
  · unfold Trail at htrail
    rw [hs] at htrail hmoves
    refine ⟨_, ?_, hmoves, hgenerator rfl⟩
    rw [hchanges, htrail]
    rfl
  · unfold Trail at htrail
    rw [hs] at htrail hmoves
    obtain ⟨entered, hpath, henters, hvalidator⟩ := htrail
    refine ⟨entered, _, ?_, henters, hmoves, hvalidator⟩
    rw [hchanges, hpath]
    rfl
  · exact dutiesSeparated_of_granted hsem hs htrail now hrole (happroval rfl)

theorem trail_withEvaluation (htrail : Trail pf d) {report : Report}
    (hpass : d.status = .approved → report.outcome = .pass) :
    Trail pf (d.withEvaluation pf report) := by
  have hchanges := statusChanges_withEvaluation pf d report
  have hstatus : (d.withEvaluation pf report).status = d.status := rfl
  unfold Trail at htrail ⊢
  rw [hstatus, hchanges]
  cases hs : d.status with
  | approved =>
    rw [hs] at htrail
    obtain ⟨entered, released, approved, h⟩ := htrail
    exact ⟨entered, released, approved, h.withEvaluation hs (hpass hs)⟩
  | draft =>
    rw [hs] at htrail
    exact htrail
  | validation =>
    rw [hs] at htrail
    exact htrail
  | review =>
    rw [hs] at htrail
    exact htrail
  | blocked => trivial

theorem trail_bindApprovals (hreview : d.status = .review) (htrail : Trail pf d)
    (approver : Actor) (decidedAt : String) (tokens : ℕ → String) :
    Trail pf (bindApprovals pf d approver decidedAt tokens) := by
  have hstatus : (bindApprovals pf d approver decidedAt tokens).status = .review := hreview
  unfold Trail at htrail ⊢
  rw [hreview] at htrail
  rw [hstatus]
  exact htrail

/-- What every step keeps of a case. -/
structure CaseInvariant (pf : Platform) (d : DecisionFile) : Prop where
  trail : Trail pf d
  outcome : OutcomeCurrent d

theorem CaseInvariant.next (h : CaseInvariant pf d) (step : CaseStep) :
    CaseInvariant pf (nextDocument pf d step) := by
  refine nextDocument_induct h (fun now hsem => ?_) (fun now target actor hsem hreasons => ?_)
    (fun approver decidedAt tokens hreview => ?_) step
  · have hevaluated : (assess now d.assessmentRequest).outcome = d.contentOutcome :=
      evaluatedOutcome_of_semantic hsem
    refine ⟨trail_withEvaluation h.trail fun happroved => ?_, .inr (congrArg some hevaluated)⟩
    have hpass : d.decisionOutcome = some .pass := by
      have htrail := h.trail
      unfold Trail at htrail
      rw [happroved] at htrail
      obtain ⟨_, _, _, hduties⟩ := htrail
      exact hduties.outcome
    rcases h.outcome with hnone | hsome
    · rw [hnone] at hpass
      cases hpass
    · rw [hevaluated, ← Option.some.inj (hpass.symm.trans hsome)]
  · exact ⟨trail_withTransition hsem h.trail now hreasons, h.outcome⟩
  · exact ⟨trail_bindApprovals hreview h.trail approver decidedAt tokens, h.outcome⟩

theorem status_nextDocument (hfinal : d.status = .approved ∨ d.status = .blocked)
    (step : CaseStep) : (nextDocument pf d step).status = d.status := by
  refine nextDocument_induct (I := fun d' => d'.status = d.status) rfl (fun _ _ => rfl)
    (fun now target actor _ hreasons => ?_) (fun _ _ _ _ => rfl) step
  have hallowed := (rejectionReasons_nil hreasons).1
  rcases hfinal with hs | hs
  · rw [hs] at hallowed
    cases target <;> cases hallowed
  · rw [hs] at hallowed
    cases target <;> cases hallowed

end Steps

/-- Separation of duties over every run of a case from DRAFT: an approved case went through
validation and review by separate actors, and APPROVED and BLOCKED are never left. -/
theorem separation_of_duties (pf : Platform) (d₀ : DecisionFile) (hstatus : d₀.status = .draft)
    (houtcome : d₀.decisionOutcome = none) (hevents : d₀.auditEvents = [])
    (steps : List CaseStep) :
    ((steps.foldl (nextDocument pf) d₀).status = .approved → ∃ entered released approved,
      DutiesSeparated pf (steps.foldl (nextDocument pf) d₀) entered released approved) ∧
    ∀ x ∈ execute (nextDocument pf) d₀ steps,
      x.before.status = .approved ∨ x.before.status = .blocked →
        x.after.status = x.before.status := by
  have hrun := run_execute (fun d step d' => d' = nextDocument pf d step) (nextDocument pf)
    (fun _ _ => rfl) d₀ steps
  have hinit : CaseInvariant pf d₀ := by
    refine ⟨?_, .inl houtcome⟩
    unfold Trail
    rw [hstatus]
    change d₀.auditEvents.filter isStatusChange = []
    rw [hevents, List.filter_nil]
  have hinv := hrun.invariant_state (CaseInvariant pf) hinit
    (fun d step d' hd hstep => by
      rw [show d' = nextDocument pf d step from hstep]
      exact hd.next step)
  constructor
  · intro happroved
    have htrail := hinv.trail
    unfold Trail at htrail
    rw [happroved] at htrail
    exact htrail
  · intro x hx hfinal
    have hstep := hrun.step_of_mem hx
    rw [hstep]
    exact status_nextDocument hfinal x.label

/-! ## A case walked to its approval -/

def approvalSteps : List CaseStep :=
  [.evaluate "2026-01-02", .transition "2026-01-02" .validation caseValidator,
    .transition "2026-01-02" .review caseValidator,
    .bind caseApprover "2026-01-02" fun _ => "0123456789012345678901",
    .transition "2026-01-02" .approved caseApprover]

theorem separation_of_duties_draftCase : ∃ entered released approved,
    DutiesSeparated plainPlatform
      (approvalSteps.foldl (nextDocument plainPlatform) draftCase) entered released approved :=
  (separation_of_duties plainPlatform draftCase rfl rfl rfl approvalSteps).1 (by decide +kernel)
end DecisionAssurance
