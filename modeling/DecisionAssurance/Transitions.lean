import DecisionAssurance.Engine

/-!
# The transition policy

`TransitionPolicy.transition` with the roles of the allowed transitions and the reasons it
rejects one for, and the approvals the transition route binds to a document before it.
-/

namespace DecisionAssurance

/-- `ALLOWED_TRANSITIONS` -/
def allowedTransition : CaseStatus → CaseStatus → Option Role
  | .draft, .validation => some .validator
  | .draft, .blocked => some .validator
  | .validation, .review => some .validator
  | .validation, .blocked => some .validator
  | .review, .approved => some .approver
  | .review, .blocked => some .approver
  | _, _ => none

theorem allowedTransition_cases {source target : CaseStatus} {role : Role}
    (h : allowedTransition source target = some role) :
    target = .blocked ∨ (source = .draft ∧ target = .validation) ∨
      (source = .validation ∧ target = .review) ∨
      (source = .review ∧ target = .approved ∧ role = .approver) := by
  cases source <;> cases target <;> cases h <;>
    simp only [reduceCtorEq, false_and, and_false, and_self, or_true, true_or, or_self]

/-- A reason code when a condition holds. -/
def reasonWhen (condition : Bool) (code : String) : List String := if condition then [code] else []

theorem reasonWhen_eq_nil {condition : Bool} {code : String} :
    reasonWhen condition code = [] ↔ condition = false := by
  unfold reasonWhen
  split_ifs with h
  · simp only [h, reduceCtorEq]
  · simp only [Bool.not_eq_true] at h
    simp only [h]

/-- An approval that satisfies a mandatory requirement for an actor. -/
def Approval.matches (a : Approval) (r : ReviewRequirement) (actor : Actor) : Bool :=
  a.requirementRef = r.id && a.decision = .approve && a.approver.kind = .human &&
    a.approver.role = r.requiredRole.role &&
    (r.requiredRole ≠ .approver || a.approver.id = actor.id)

namespace DecisionFile

def validatorIds (d : DecisionFile) : List String :=
  (d.auditEvents.filter fun e => e.toStatus = .validation).map fun e => e.actor.id

/-- The rejection reasons of an approval. -/
def approvalReasons (d : DecisionFile) (actor : Actor) : List String :=
  reasonWhen (actor.kind ≠ .human) "HUMAN_APPROVER_REQUIRED" ++
  reasonWhen (actor.id = d.createdBy.id) "SEPARATION_OF_DUTIES_VIOLATION" ++
  reasonWhen (actor.id ∈ d.validatorIds) "VALIDATOR_APPROVER_NOT_SEPARATE" ++
  reasonWhen (d.decisionOutcome ≠ some .pass) "PASS_OUTCOME_REQUIRED" ++
  reasonWhen (d.constraints.any fun c => c.severity = .mandatory && !c.satisfied)
    "MANDATORY_CONSTRAINT_UNSATISFIED" ++
  reasonWhen (d.conflicts.any fun c => c.severity = .critical && !c.resolved)
    "CRITICAL_CONFLICT_UNRESOLVED" ++
  reasonWhen (d.reviewRequirements.any fun r => r.mandatory && !r.satisfied)
    "MANDATORY_REVIEW_MISSING" ++
  (d.reviewRequirements.filter ReviewRequirement.mandatory).flatMap fun r =>
    reasonWhen (!(d.approvals.any fun a => a.matches r actor)) "MANDATORY_HUMAN_APPROVAL_MISSING"

/-- `_rejection_reasons` -/
def rejectionReasons (d : DecisionFile) (source target : CaseStatus) (actor : Actor) :
    List String :=
  match allowedTransition source target with
  | none => ["TRANSITION_NOT_ALLOWED"]
  | some requiredRole =>
    reasonWhen (actor.role ≠ requiredRole) "ACTOR_ROLE_NOT_AUTHORIZED" ++
    reasonWhen (target = .validation && actor.id = d.createdBy.id)
      "GENERATOR_VALIDATOR_NOT_SEPARATE" ++
    (if target = .approved then d.approvalReasons actor else []) ++
    reasonWhen (target = .review && d.decisionOutcome = some .block)
      "BLOCK_OUTCOME_REQUIRES_BLOCKED_STATUS" ++
    reasonWhen (target = .blocked && d.decisionOutcome ≠ some .block) "BLOCK_OUTCOME_REQUIRED"

end DecisionFile

def transitionPayload (d : DecisionFile) (target : CaseStatus) (actor : Actor) : Json :=
  .obj [("from", .str d.status.value), ("to", .str target.value), ("actor", actor.toJson),
    ("approval_digests",
      Json.strings ((d.approvals.map Approval.approvalDigest).insertionSort fun a b => a ≤ b))]

def transitionEvent (pf : Platform) (now : String) (d : DecisionFile) (target : CaseStatus)
    (actor : Actor) : AuditEvent where
  eventId := s!"{d.decisionId}:transition:{d.auditEvents.length + 1}"
  eventType := "status.transitioned"
  occurredAt := now
  actor := actor
  fromStatus := some d.status
  toStatus := target
  reasonCodes := ["TRANSITION_AUTHORIZED"]
  payloadHash := payloadHash pf (transitionPayload d target actor)
  previousEventHash := tipHash pf d.auditEvents
  tenantId := none
  correlationId := none
  sourceChannel := none

def DecisionFile.withTransition (pf : Platform) (now : String) (d : DecisionFile)
    (target : CaseStatus) (actor : Actor) : DecisionFile :=
  { d with
    status := target
    updatedAt := now
    currentOwner := actor
    auditEvents := d.auditEvents ++ [transitionEvent pf now d target actor] }

/-- `TransitionPolicy.transition` -/
def TransitionPolicy.transition (pf : Platform) (now : String) (d : DecisionFile)
    (target : CaseStatus) (actor : Actor) : Except DecisionError DecisionFile := do
  validateContract pf d
  validateSemantics pf d
  if d.rejectionReasons d.status target actor ≠ [] then
    .error (.transitionRejected (d.rejectionReasons d.status target actor))
  else
    let updated := d.withTransition pf now target actor
    validateContract pf updated
    return updated

theorem transition_cases {pf : Platform} {now : String} {d updated : DecisionFile}
    {target : CaseStatus} {actor : Actor}
    (h : TransitionPolicy.transition pf now d target actor = .ok updated) :
    Semantic pf d ∧ d.rejectionReasons d.status target actor = [] ∧
      updated = d.withTransition pf now target actor := by
  obtain ⟨u, hcontract, h⟩ := bind_ok_cases h
  obtain ⟨u', hsem, h⟩ := bind_ok_cases h
  split_ifs at h with hreasons
  obtain ⟨u'', hupdated, h⟩ := bind_ok_cases h
  cases h
  exact ⟨validateSemantics_ok hsem, not_not.mp hreasons, rfl⟩

/-! ## What an accepted transition satisfies -/

structure ApprovalGranted (d : DecisionFile) (actor : Actor) : Prop where
  human : actor.kind = .human
  separate : actor.id ≠ d.createdBy.id
  notValidator : actor.id ∉ d.validatorIds
  pass : d.decisionOutcome = some .pass
  constraints : ∀ c ∈ d.constraints, c.severity = .mandatory → c.satisfied = true
  conflicts : ∀ c ∈ d.conflicts, c.severity = .critical → c.resolved = true
  satisfied : ∀ r ∈ d.reviewRequirements, r.mandatory = true → r.satisfied = true
  approved : ∀ r ∈ d.reviewRequirements, r.mandatory = true →
    ∃ a ∈ d.approvals, a.matches r actor = true

theorem approvalGranted_of_reasons {d : DecisionFile} {actor : Actor}
    (h : d.approvalReasons actor = []) : ApprovalGranted d actor := by
  simp only [DecisionFile.approvalReasons, List.append_eq_nil_iff, reasonWhen_eq_nil,
    decide_eq_false_iff_not, not_not, ne_eq, List.any_eq_false, List.flatMap_eq_nil_iff,
    List.mem_filter, Bool.and_eq_true, decide_eq_true_eq, Bool.not_eq_eq_eq_not,
    Bool.not_true] at h
  obtain ⟨⟨⟨⟨⟨⟨⟨hhuman, hsep⟩, hval⟩, hpass⟩, hcons⟩, hconf⟩, hsat⟩, happ⟩ := h
  refine ⟨hhuman, hsep, hval, hpass, fun c hc hm => ?_, fun c hc hm => ?_, fun r hr hm => ?_,
    fun r hr hm => ?_⟩
  · by_contra hs
    exact hcons c hc ⟨hm, by simpa only [Bool.not_eq_true] using hs⟩
  · by_contra hs
    exact hconf c hc ⟨hm, by simpa only [Bool.not_eq_true] using hs⟩
  · by_contra hs
    exact hsat r hr ⟨hm, by simpa only [Bool.not_eq_true] using hs⟩
  · simpa only [Bool.not_false, List.any_eq_true] using happ r ⟨hr, hm⟩

theorem rejectionReasons_nil {d : DecisionFile} {source target : CaseStatus} {actor : Actor}
    (h : d.rejectionReasons source target actor = []) :
    allowedTransition source target = some actor.role ∧
      (target = .validation → actor.id ≠ d.createdBy.id) ∧
      (target = .approved → ApprovalGranted d actor) := by
  unfold DecisionFile.rejectionReasons at h
  cases hallowed : allowedTransition source target with
  | none => simp only [hallowed, reduceCtorEq] at h
  | some role =>
    simp only [hallowed, List.append_eq_nil_iff, reasonWhen_eq_nil] at h
    obtain ⟨⟨⟨⟨hrole, hgen⟩, happ⟩, -⟩, -⟩ := h
    refine ⟨?_, fun ht hid => ?_, fun ht => ?_⟩
    · rw [not_not.mp (of_decide_eq_false hrole)]
    · rw [ht, hid, decide_eq_true rfl, decide_eq_true rfl] at hgen
      cases hgen
    · rw [if_pos ht] at happ
      exact approvalGranted_of_reasons happ

/-! ## Binding approvals -/

/-- The approval the route already finds for a requirement. -/
def Approval.covers (a : Approval) (r : ReviewRequirement) (approver : Actor)
    (actionDigest : Option String) : Bool :=
  a.requirementRef = r.id && a.decision = .approve && a.approver = approver &&
    a.actionDigest = actionDigest

/-- Whether the route binds an approval for a requirement. -/
def ReviewRequirement.bindable (r : ReviewRequirement) : Bool :=
  r.mandatory && r.requiredRole = .approver

/-- The approvals after the loop over the requirements; `tokens` are the nonces it draws. -/
def bindLoop (pf : Platform) (d : DecisionFile) (approver : Actor) (decidedAt : String)
    (tokens : ℕ → String) : List ReviewRequirement → List Approval → List Approval
  | [], approvals => approvals
  | r :: rs, approvals =>
    if r.bindable && !(approvals.any fun a => a.covers r approver d.expectedActionDigest) then
      bindLoop pf d approver decidedAt tokens rs (approvals ++ [bindApproval pf d
        { requirementRef := r.id
          approver := approver
          decision := .approve
          decidedAt := decidedAt
          actionDigest := d.expectedActionDigest
          nonce := tokens approvals.length
          approvalDigest := "" }])
    else bindLoop pf d approver decidedAt tokens rs approvals

/-- The document with the approver's approval of every mandatory APPROVER requirement. -/
def bindApprovals (pf : Platform) (d : DecisionFile) (approver : Actor) (decidedAt : String)
    (tokens : ℕ → String) : DecisionFile :=
  { d with
    approvals := bindLoop pf d approver decidedAt tokens d.reviewRequirements d.approvals
    reviewRequirements := d.reviewRequirements.map fun r =>
      { r with satisfied := r.satisfied || r.bindable } }

end DecisionAssurance
