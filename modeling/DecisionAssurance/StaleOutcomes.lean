import DecisionAssurance.EvaluationOutcomes
import DecisionAssurance.EvidenceHandoff
import DecisionAssurance.Runs
import DecisionAssurance.Transitions

/-!
# Outcomes that approvals rely on

Evaluations, handoffs of research evidence and transitions work on one document. An evaluation
stores its outcome there, a handoff leaves that outcome as it is beside evidence which nothing has
assessed, and an approval asks for the stored outcome only.
-/

namespace DecisionAssurance

open Research Runs

inductive DocumentStep
  | evaluate (now : String)
  | attach (tenant : TenantContext) (decisionFileId expectedDocumentHash : String)
    (evidence : List DecisionEvidence)
  | transition (now : String) (target : CaseStatus) (actor : Actor)

section Steps

variable (pf : Platform)

/-- What a step makes of the document. A handoff that is replayed answers the document as it is. -/
def DocumentStep.apply (d : DecisionFile) : DocumentStep → Except HandoffError DecisionFile
  | evaluate now => (evaluatedDocument pf now d).mapError .decision
  | attach tenant decisionFileId expectedDocumentHash evidence => do
    let v ← (deliver evidence).mapError .rejected
    attachDocument pf tenant decisionFileId expectedDocumentHash v d
  | transition now target actor =>
    (TransitionPolicy.transition pf now d target actor).mapError .decision

/-- The document after a step; one that raises leaves it as it was. -/
def documentAfter (d : DecisionFile) (s : DocumentStep) : DecisionFile := valueOr (s.apply pf d) d

/-- An evaluation that goes through. -/
def Assesses (x : Transition DecisionFile DocumentStep) : Prop :=
  ∃ now, x.label = .evaluate now ∧ evaluatedDocument pf now x.before = .ok x.after

end Steps

/-- The document gains evidence that is not verified. -/
def Taints (x : Transition DecisionFile DocumentStep) : Prop :=
  ∃ e ∈ x.after.evidence, e ∉ x.before.evidence ∧ e.status ≠ .verified

/-! ## What lets a document pass besides verified evidence -/

structure DecisionFile.Settled (d : DecisionFile) : Prop where
  supported : ∀ claim ∈ d.claims, ¬d.LacksEvidence claim
  constraints : ∀ c ∈ d.constraints, c.severity = .mandatory ∨ c.severity = .reviewRequired →
    c.satisfied = true
  policies : ∀ p ∈ d.policies, p.requiresReview = false
  conflicts : ∀ c ∈ d.conflicts, c.resolved = true
  certain : ¬(d.HighImpact ∧ ∃ r ∈ d.risks, r.unresolved = true)

/-- A document that keeps what is assessed of another one and may gain evidence. -/
structure Extends (d d' : DecisionFile) : Prop where
  evidence : d.evidence ⊆ d'.evidence
  claims : d'.claims = d.claims
  constraints : d'.constraints = d.constraints
  policies : d'.policies = d.policies
  conflicts : d'.conflicts = d.conflicts
  risks : d'.risks = d.risks

section Documents

variable {pf : Platform} {d d' : DecisionFile} {s : DocumentStep}

theorem passes_iff_settled :
    d.Passes ↔ (∀ e ∈ d.evidence, e.status = .verified) ∧ d.Settled :=
  ⟨fun h => ⟨h.verified, h.supported, h.constraints, h.policies, h.conflicts, h.certain⟩,
    fun ⟨hverified, h⟩ =>
      ⟨hverified, h.supported, h.constraints, h.policies, h.conflicts, h.certain⟩⟩

theorem Extends.refl (d : DecisionFile) : Extends d d :=
  ⟨List.Subset.refl _, rfl, rfl, rfl, rfl, rfl⟩

theorem Extends.settled (h : Extends d d') (hd : d.Settled) : d'.Settled := by
  refine ⟨fun claim hclaim hlacks => ?_, ?_, ?_, ?_, ?_⟩
  · rw [h.claims] at hclaim
    exact hd.supported claim hclaim ⟨hlacks.1, fun e he => hlacks.2 e (h.evidence he)⟩
  · rw [h.constraints]
    exact hd.constraints
  · rw [h.policies]
    exact hd.policies
  · rw [h.conflicts]
    exact hd.conflicts
  · rw [DecisionFile.HighImpact, h.risks]
    exact hd.certain

/-- Evidence stays verified where all that is gained is. -/
theorem Extends.verified_iff (h : Extends d d') :
    (∀ e ∈ d'.evidence, e.status = .verified) ↔
      ¬ Taints ⟨d, s, d'⟩ ∧ ∀ e ∈ d.evidence, e.status = .verified := by
  constructor
  · intro hall
    refine ⟨?_, fun e he => hall e (h.evidence he)⟩
    rintro ⟨e, he, -, hne⟩
    exact hne (hall e he)
  · rintro ⟨hclean, hall⟩ e he
    by_contra hne
    refine hclean ⟨e, he, fun hmem => hne (hall e hmem), hne⟩

/-- A step is an evaluation that goes through, or keeps the outcome of the document. -/
theorem documentAfter_cases (pf : Platform) (d : DecisionFile) (s : DocumentStep) :
    Assesses pf ⟨d, s, documentAfter pf d s⟩ ∨
      (¬ Assesses pf ⟨d, s, documentAfter pf d s⟩ ∧ Extends d (documentAfter pf d s) ∧
        (documentAfter pf d s).decisionOutcome = d.decisionOutcome) := by
  have hpassed (hs : ∀ now, s ≠ .evaluate now) :
      ¬ Assesses pf ⟨d, s, documentAfter pf d s⟩ := fun ⟨now, hlabel, _⟩ => hs now hlabel
  cases s with
  | evaluate now =>
    cases hresult : evaluatedDocument pf now d with
    | error e =>
      have hsame : documentAfter pf d (.evaluate now) = d := by
        rw [documentAfter, DocumentStep.apply, hresult]
        rfl
      rw [hsame]
      refine .inr ⟨?_, .refl d, rfl⟩
      rintro ⟨now', hlabel, hok⟩
      cases hlabel
      rw [hresult] at hok
      cases hok
    | ok d' =>
      refine .inl ⟨now, rfl, ?_⟩
      rw [documentAfter, DocumentStep.apply, hresult]
      rfl
  | attach tenant decisionFileId expectedDocumentHash evidence =>
    refine .inr ⟨hpassed fun _ h => (nomatch h), ?_⟩
    cases happly : DocumentStep.apply pf d
        (.attach tenant decisionFileId expectedDocumentHash evidence) with
    | error e =>
      rw [documentAfter, happly]
      exact ⟨.refl d, rfl⟩
    | ok d' =>
      obtain ⟨v, -, hattach⟩ := bind_ok_cases happly
      obtain ⟨-, -, -, rfl⟩ := attachDocument_cases hattach
      rw [documentAfter, happly]
      exact ⟨⟨List.subset_append_left _ _, rfl, rfl, rfl, rfl, rfl⟩, rfl⟩
  | transition now target actor =>
    refine .inr ⟨hpassed fun _ h => (nomatch h), ?_⟩
    cases happly : DocumentStep.apply pf d (.transition now target actor) with
    | error e =>
      rw [documentAfter, happly]
      exact ⟨.refl d, rfl⟩
    | ok d' =>
      obtain ⟨-, -, rfl⟩ := transition_cases (mapError_ok happly)
      rw [documentAfter, happly]
      exact ⟨⟨List.Subset.refl _, rfl, rfl, rfl, rfl, rfl⟩, rfl⟩

/-- What is known of a document whose stored outcome is PASS: all but its evidence is in order,
and its evidence is too unless some was gained after the last evaluation. -/
def Relied (pf : Platform) (tr : Trace DecisionFile DocumentStep) (d : DecisionFile) : Prop :=
  d.decisionOutcome = some .pass →
    d.Settled ∧ ((∀ e ∈ d.evidence, e.status = .verified) ↔ FollowedBy Taints (Assesses pf) tr)

theorem relied_step {tr : Trace DecisionFile DocumentStep} (h : Relied pf tr d) (s : DocumentStep) :
    Relied pf (tr ++ [⟨d, s, documentAfter pf d s⟩]) (documentAfter pf d s) := by
  intro houtcome
  rw [followedBy_append_singleton]
  rcases documentAfter_cases pf d s with hassesses | ⟨hnot, hextends, hkept⟩
  · obtain ⟨now, -, heval⟩ := id hassesses
    obtain ⟨hsem, hafter⟩ := evaluatedDocument_cases heval
    change documentAfter pf d s = d.withEvaluation pf (assess now d.assessmentRequest) at hafter
    have hpass : (assess now d.assessmentRequest).outcome = .pass := by
      rw [hafter] at houtcome
      exact Option.some.inj houtcome
    obtain ⟨hverified, hsettled⟩ := passes_iff_settled.mp ((assess_pass_iff hsem).mp hpass)
    have hextends : Extends d (documentAfter pf d s) := by
      rw [hafter]
      exact ⟨List.Subset.refl _, rfl, rfl, rfl, rfl, rfl⟩
    have hsame : (documentAfter pf d s).evidence = d.evidence := by
      rw [hafter]
      rfl
    refine ⟨hextends.settled hsettled, iff_of_true ?_ ⟨?_, .inl hassesses⟩⟩
    · rw [hsame]
      exact hverified
    · rintro ⟨e, he, hnew, -⟩
      exact hnew (hsame ▸ he)
  · rw [hkept] at houtcome
    obtain ⟨hsettled, hiff⟩ := h houtcome
    refine ⟨hextends.settled hsettled, ?_⟩
    rw [hextends.verified_iff (s := s), hiff, or_iff_right hnot]

end Documents

/-! ## What an approval relied on -/

section Approvals

variable {pf : Platform}

/-- What a document satisfies that a transition was made of. -/
theorem transition_validated {now : String} {d updated : DecisionFile} {target : CaseStatus}
    {actor : Actor} (h : TransitionPolicy.transition pf now d target actor = .ok updated) :
    validateContract pf d = .ok () ∧ validateSemantics pf d = .ok () ∧ pf.dateTime now = true := by
  obtain ⟨u, hcontract, h⟩ := bind_ok_cases h
  obtain ⟨u', hsemantic, h⟩ := bind_ok_cases h
  split_ifs at h with hreasons
  obtain ⟨u'', hupdated, -⟩ := bind_ok_cases h
  refine ⟨hcontract, hsemantic, ?_⟩
  have hvalid := validateContract_ok hupdated
  simp only [DecisionFile.contractValid, Bool.and_eq_true] at hvalid
  have hdate : pf.dateTime (d.withTransition pf now target actor).updatedAt = true := by tauto
  exact hdate

/-- An approved document passes an evaluation again if and only if every handoff that gave it
evidence which is not verified was followed by an evaluation. -/
theorem reevaluation_passes_iff (pf : Platform) {d₀ : DecisionFile}
    (hstart : d₀.decisionOutcome = none) (steps : List DocumentStep) {now : String} {actor : Actor}
    {approved : DecisionFile} (happroved : TransitionPolicy.transition pf now
      (steps.foldl (documentAfter pf) d₀) .approved actor = .ok approved) :
    (∃ reevaluated report, evaluateDecisionFile pf now (steps.foldl (documentAfter pf) d₀) =
        .ok (reevaluated, report) ∧ report.outcome = .pass) ↔
      FollowedBy Taints (Assesses pf) (execute (documentAfter pf) d₀ steps) := by
  have hrun := run_execute (fun d s d' => d' = documentAfter pf d s) (documentAfter pf)
    (fun _ _ => rfl) d₀ steps
  have hrelied : Relied pf (execute (documentAfter pf) d₀ steps)
      (steps.foldl (documentAfter pf) d₀) := by
    refine hrun.invariant (Relied pf) (fun hpass => ?_) fun tr d s d' _ hd hstep => ?_
    · rw [hstart] at hpass
      cases hpass
    · rw [hstep]
      exact relied_step hd s
  obtain ⟨hcontract, hsemantic, hnow⟩ := transition_validated happroved
  obtain ⟨hsem, hreasons, -⟩ := transition_cases happroved
  have hgranted := (rejectionReasons_nil hreasons).2.2 rfl
  obtain ⟨hsettled, hiff⟩ := hrelied hgranted.pass
  have hevaluated := evaluateDecisionFile_ok hcontract hsemantic hnow
  rw [← hiff]
  constructor
  · rintro ⟨reevaluated, report, heval, hpass⟩
    cases hevaluated.symm.trans heval
    exact (passes_iff_settled.mp ((assess_pass_iff hsem).mp hpass)).1
  · intro hverified
    exact ⟨_, _, hevaluated, (assess_pass_iff hsem).mpr (passes_iff_settled.mpr
      ⟨hverified, hsettled⟩)⟩

end Approvals

/-! ## An approval on a stale outcome -/

/-- A case that needs no review. -/
def unreviewedCase : DecisionFile := { draftCase with reviewRequirements := [] }

def walkToReview : List DocumentStep :=
  [.transition "2026-01-01" .validation caseValidator,
    .transition "2026-01-01" .review caseValidator]

/-- The case is evaluated before it is walked to REVIEW. -/
def assessedSteps : List DocumentStep := .evaluate "2026-01-01" :: walkToReview

theorem reevaluation_passes_iff_assessed : ∃ approved,
    TransitionPolicy.transition plainPlatform "2026-01-01"
      (assessedSteps.foldl (documentAfter plainPlatform) unreviewedCase) .approved caseApprover =
        .ok approved ∧
    ((∃ reevaluated report, evaluateDecisionFile plainPlatform "2026-01-01"
        (assessedSteps.foldl (documentAfter plainPlatform) unreviewedCase) =
          .ok (reevaluated, report) ∧ report.outcome = .pass) ↔
      FollowedBy Taints (Assesses plainPlatform)
        (execute (documentAfter plainPlatform) unreviewedCase assessedSteps)) := by
  have hsome : (toOption (TransitionPolicy.transition plainPlatform "2026-01-01"
      (assessedSteps.foldl (documentAfter plainPlatform) unreviewedCase) .approved
        caseApprover)).isSome = true := by
    decide +kernel
  obtain ⟨approved, happroved⟩ := Option.isSome_iff_exists.mp hsome
  exact ⟨approved, toOption_eq_some.mp happroved,
    reevaluation_passes_iff plainPlatform rfl _ (toOption_eq_some.mp happroved)⟩

def foundEvidence : DecisionEvidence where
  evidenceId := "evidence-1"
  researchRunId := "run-1"
  claimRefs := ["claim"]
  sourceRef := "research:run-1:evidence-1"
  status := .unverified
  observedAt := "2026-01-01"
  contentHash := "sha256"
  correlationId := some "corr"

/-- The case is evaluated to PASS before research hands its evidence over. -/
def evaluatedFirst : List DocumentStep :=
  [.evaluate "2026-01-01",
    .attach tenantA "case-1" (payloadHash plainPlatform
      (documentAfter plainPlatform unreviewedCase (.evaluate "2026-01-01")).toJson)
      [foundEvidence]] ++
  walkToReview

/-- The case is approved on the outcome PASS; evaluated again it goes to REVIEW. -/
theorem evaluatedFirst_stale : ¬ ∀ (pf : Platform) (d₀ : DecisionFile) (steps : List DocumentStep)
    (now : String) (actor : Actor) (approved : DecisionFile), d₀.status = .draft →
    d₀.decisionOutcome = none → d₀.auditEvents = [] → d₀.approvals = [] →
    TransitionPolicy.transition pf now (steps.foldl (documentAfter pf) d₀) .approved actor =
      .ok approved →
    ∃ reevaluated report, evaluateDecisionFile pf now (steps.foldl (documentAfter pf) d₀) =
      .ok (reevaluated, report) ∧ report.outcome = .pass := by
  intro h
  have hfacts : (toOption (TransitionPolicy.transition plainPlatform "2026-01-01"
      (evaluatedFirst.foldl (documentAfter plainPlatform) unreviewedCase) .approved
        caseApprover)).isSome = true ∧
      (toOption (evaluateDecisionFile plainPlatform "2026-01-01"
        (evaluatedFirst.foldl (documentAfter plainPlatform) unreviewedCase))).map
          (fun r => r.2.outcome) = some .review := by
    decide +kernel
  obtain ⟨hsome, hreview⟩ := hfacts
  obtain ⟨approved, happroved⟩ := Option.isSome_iff_exists.mp hsome
  obtain ⟨reevaluated, report, heval, hpass⟩ := h plainPlatform unreviewedCase evaluatedFirst _ _
    approved rfl rfl rfl rfl (toOption_eq_some.mp happroved)
  rw [heval] at hreview
  simp only [toOption, Option.map_some, hpass, Option.some.injEq, reduceCtorEq] at hreview

end DecisionAssurance
