import DecisionAssurance.EvaluationOutcomes
import DecisionAssurance.Transitions

/-!
# The independence of approvers

The policy compares the acting approver with the creator of a document, and only recorded
approvals with its requester: a requester may approve a document that asks for the approval of no
approver.
-/

namespace DecisionAssurance

section Independence

variable {pf : Platform} {now : String} {d updated : DecisionFile} {actor : Actor}

/-- The policy has no reason to reject exactly the approvals that are granted. -/
theorem approvalReasons_eq_nil : d.approvalReasons actor = [] ↔ ApprovalGranted d actor := by
  constructor
  · exact approvalGranted_of_reasons
  · intro h
    have hconstraints : (d.constraints.any fun c => c.severity = .mandatory && !c.satisfied) =
        false := by
      simpa using h.constraints
    have hconflicts : (d.conflicts.any fun c => c.severity = .critical && !c.resolved) =
        false := by
      simpa using h.conflicts
    have hsatisfied : (d.reviewRequirements.any fun r => r.mandatory && !r.satisfied) =
        false := by
      simpa using h.satisfied
    simp only [DecisionFile.approvalReasons, List.append_eq_nil_iff, reasonWhen_eq_nil,
      decide_eq_false_iff_not, not_not, hconstraints, hconflicts, hsatisfied, and_true,
      List.flatMap_eq_nil_iff, List.mem_filter, Bool.not_eq_false', List.any_eq_true, ne_eq]
    exact ⟨⟨⟨⟨h.human, h.separate⟩, h.notValidator⟩, h.pass⟩, fun r hr => h.approved r hr.1 hr.2⟩

theorem rejectionReasons_approved : d.rejectionReasons d.status .approved actor = [] ↔
    d.status = .review ∧ actor.role = .approver ∧ ApprovalGranted d actor := by
  rw [← approvalReasons_eq_nil]
  unfold DecisionFile.rejectionReasons
  cases d.status with
  | review =>
    simp [allowedTransition, reasonWhen_eq_nil]
  | _ => simp [allowedTransition]

/-- An accepted transition keeps to the contract. -/
theorem contractValid_withTransition {target : CaseStatus} (h : d.contractValid pf = true)
    (hactor : actor.contractValid = true) (hnow : pf.dateTime now = true) :
    (d.withTransition pf now target actor).contractValid pf = true := by
  simp only [DecisionFile.contractValid, Bool.and_eq_true, List.all_eq_true, decide_eq_true_eq]
    at h ⊢
  have hevent : (transitionEvent pf now d target actor).contractValid pf = true := by
    simp [AuditEvent.contractValid, transitionEvent, hactor, hnow]
  simp only [DecisionFile.withTransition, List.forall_mem_append, List.forall_mem_singleton]
  tauto

/-- A document that its requester can approve: no mandatory review is one of an approver. -/
structure RequesterApproves (pf : Platform) (d : DecisionFile) : Prop where
  contract : validateContract pf d = .ok ()
  semantic : validateSemantics pf d = .ok ()
  review : d.status = .review
  pass : d.decisionOutcome = some .pass
  constraints : ∀ c ∈ d.constraints, c.severity = .mandatory → c.satisfied = true
  conflicts : ∀ c ∈ d.conflicts, c.severity = .critical → c.resolved = true
  satisfied : ∀ r ∈ d.reviewRequirements, r.mandatory = true → r.satisfied = true
  unguarded : ∀ r ∈ d.reviewRequirements, r.mandatory = true → r.requiredRole = .reviewer
  reviewed : ∀ r ∈ d.reviewRequirements, r.mandatory = true → ∃ a ∈ d.approvals,
    a.requirementRef = r.id ∧ a.decision = .approve ∧ a.approver.kind = .human ∧
      a.approver.role = .reviewer
  separate : d.requestedBy.id ≠ d.createdBy.id
  notValidator : d.requestedBy.id ∉ d.validatorIds

theorem matches_iff {a : Approval} {r : ReviewRequirement} : a.matches r actor = true ↔
    a.requirementRef = r.id ∧ a.decision = .approve ∧ a.approver.kind = .human ∧
      a.approver.role = r.requiredRole.role ∧
        (r.requiredRole = .approver → a.approver.id = actor.id) := by
  simp only [Approval.matches, Bool.and_eq_true, Bool.or_eq_true, decide_eq_true_eq, ne_eq]
  tauto

/-- The requester as an approver. -/
def DecisionFile.requester (d : DecisionFile) : Actor := ⟨d.requestedBy.id, .approver, .human⟩

theorem RequesterApproves.granted (h : RequesterApproves pf d) :
    ApprovalGranted d d.requester := by
  refine ⟨rfl, h.separate, h.notValidator, h.pass, h.constraints, h.conflicts, h.satisfied, ?_⟩
  intro r hr hmandatory
  have hrole := h.unguarded r hr hmandatory
  obtain ⟨a, ha, href, hdecision, hkind, hreviewer⟩ := h.reviewed r hr hmandatory
  refine ⟨a, ha, matches_iff.mpr ⟨href, hdecision, hkind, ?_, fun hsame => ?_⟩⟩
  · rw [hrole]
    exact hreviewer
  · rw [hrole] at hsame
    cases hsame

theorem RequesterApproves.transition (h : RequesterApproves pf d) (hnow : pf.dateTime now = true) :
    TransitionPolicy.transition pf now d .approved d.requester =
      .ok (d.withTransition pf now .approved d.requester) := by
  have hcontract := validateContract_ok h.contract
  have hactor : d.requester.contractValid = true := by
    simp only [DecisionFile.contractValid, Bool.and_eq_true] at hcontract
    have hrequested : d.requestedBy.contractValid = true := by tauto
    simp only [Actor.contractValid, Bool.and_eq_true] at hrequested ⊢
    exact ⟨hrequested.1, rfl⟩
  have hupdated : validateContract pf (d.withTransition pf now .approved d.requester) = .ok () :=
    if_pos (contractValid_withTransition hcontract hactor hnow)
  have hreasons := rejectionReasons_approved.mpr ⟨h.review, rfl, h.granted⟩
  simp only [TransitionPolicy.transition, h.contract, h.semantic, ok_bind, hreasons, ne_eq,
    not_true_eq_false, if_false, hupdated]
  rfl

/-- Only a document that its requester can approve is approved by him. -/
theorem requesterApproves_of_transition
    (h : TransitionPolicy.transition pf now d .approved actor = .ok updated)
    (hid : actor.id = d.requestedBy.id) : RequesterApproves pf d := by
  obtain ⟨⟨⟩, hcontract, h⟩ := bind_ok_cases h
  obtain ⟨⟨⟩, hsemantic, h⟩ := bind_ok_cases h
  split_ifs at h with hreasons
  obtain ⟨hreview, -, hgranted⟩ := rejectionReasons_approved.mp (not_not.mp hreasons)
  have hsem := validateSemantics_ok hsemantic
  have hreviewer : ∀ r ∈ d.reviewRequirements, r.mandatory = true → r.requiredRole = .reviewer := by
    intro r hr hmandatory
    obtain ⟨a, ha, hmatches⟩ := hgranted.approved r hr hmandatory
    have hsame := (matches_iff.mp hmatches).2.2.2.2
    cases hrole : r.requiredRole with
    | reviewer => rfl
    | approver => exact absurd ((hsame hrole).trans hid) (hsem.approvals a ha).independent.2
  refine ⟨hcontract, hsemantic, hreview, hgranted.pass, hgranted.constraints, hgranted.conflicts,
    hgranted.satisfied, hreviewer, ?_, hid ▸ hgranted.separate, hid ▸ hgranted.notValidator⟩
  intro r hr hmandatory
  obtain ⟨a, ha, hmatches⟩ := hgranted.approved r hr hmandatory
  obtain ⟨href, hdecision, hkind, hrole, -⟩ := matches_iff.mp hmatches
  rw [hreviewer r hr hmandatory] at hrole
  exact ⟨a, ha, href, hdecision, hkind, hrole⟩

/-- Approvals are independent of the creator and the requester of a document exactly if it is not
one that its requester can approve. -/
theorem approver_independent_iff (pf : Platform) (now : String) (hnow : pf.dateTime now = true)
    (d : DecisionFile) : (∀ actor updated,
      TransitionPolicy.transition pf now d .approved actor = .ok updated →
        actor.id ≠ d.createdBy.id ∧ actor.id ≠ d.requestedBy.id) ↔ ¬RequesterApproves pf d := by
  constructor
  · intro hall happroves
    exact (hall _ _ (happroves.transition hnow)).2 rfl
  · intro hnot actor updated h
    obtain ⟨-, hreasons, -⟩ := transition_cases h
    have hgranted := (rejectionReasons_approved.mp hreasons).2.2
    exact ⟨hgranted.separate, fun hid => hnot (requesterApproves_of_transition h hid)⟩

/-- A case in review that asks for no review. -/
def openCase : DecisionFile :=
  { draftCase with
    status := .review
    requestedBy := ⟨"requester", .owner, .human⟩
    reviewRequirements := []
    decisionOutcome := some .pass }

theorem openCase_approves : RequesterApproves plainPlatform openCase := by
  refine ⟨by rfl, by rfl, rfl, rfl, ?_, ?_, ?_, ?_, ?_, by decide, by decide⟩
  · rintro _ ⟨⟩
  · rintro _ ⟨⟩
  · rintro _ ⟨⟩
  · rintro _ ⟨⟩
  · rintro _ ⟨⟩

theorem approver_independent_iff_open : ¬∀ actor updated,
    TransitionPolicy.transition plainPlatform "2026-01-01" openCase .approved actor = .ok updated →
      actor.id ≠ openCase.createdBy.id ∧ actor.id ≠ openCase.requestedBy.id := by
  rw [approver_independent_iff plainPlatform "2026-01-01" rfl openCase, not_not]
  exact openCase_approves

theorem requester_approves : ¬∀ (pf : Platform) (now : String) (d : DecisionFile) (actor : Actor)
    (updated : DecisionFile), TransitionPolicy.transition pf now d .approved actor = .ok updated →
      actor.id ≠ d.createdBy.id ∧ actor.id ≠ d.requestedBy.id := by
  intro h
  have happroved : TransitionPolicy.transition plainPlatform "2026-01-01" openCase .approved
      openCase.requester = .ok _ := openCase_approves.transition rfl
  exact (h _ _ _ _ _ happroved).2 rfl

end Independence

end DecisionAssurance
