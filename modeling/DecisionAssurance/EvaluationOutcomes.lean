import DecisionAssurance.WrittenAssessments

/-!
# The outcome of an evaluation

Which outcome an evaluation of a Decision File computes, in terms of the document alone, and that
it computes one for every document it accepts.
-/

namespace DecisionAssurance

/-! ## What blocks a document, and what lets it pass -/

namespace DecisionFile

/-- A claim asks for evidence, and no evidence that is available refers to it. -/
def LacksEvidence (d : DecisionFile) (claim : Claim) : Prop :=
  claim.mandatoryEvidence = true ∧
    ∀ e ∈ d.evidence, claim.id ∈ e.claimRefs → e.status = .unavailable

def HighImpact (d : DecisionFile) : Prop := ∃ r ∈ d.risks, r.level = .high ∨ r.level = .critical

inductive Blocks (d : DecisionFile) : Prop
  | fabricated (e : Evidence) (he : e ∈ d.evidence) (hstatus : e.status = .fabricated)
  | constraint (c : Constraint) (hc : c ∈ d.constraints) (hmandatory : c.severity = .mandatory)
      (hviolated : c.satisfied = false)
  | conflict (c : Conflict) (hc : c ∈ d.conflicts) (hcritical : c.severity = .critical)
      (hopen : c.resolved = false)
  | evidence (claim : Claim) (hclaim : claim ∈ d.claims) (hlacks : d.LacksEvidence claim)
      (himpact : d.HighImpact)

structure Passes (d : DecisionFile) : Prop where
  verified : ∀ e ∈ d.evidence, e.status = .verified
  supported : ∀ claim ∈ d.claims, ¬d.LacksEvidence claim
  constraints : ∀ c ∈ d.constraints, c.severity = .mandatory ∨ c.severity = .reviewRequired →
    c.satisfied = true
  policies : ∀ p ∈ d.policies, p.requiresReview = false
  conflicts : ∀ c ∈ d.conflicts, c.resolved = true
  certain : ¬(d.HighImpact ∧ ∃ r ∈ d.risks, r.unresolved = true)

end DecisionFile

section Rules

variable {d : DecisionFile} {f : Found}

theorem mandatoryEvidenceMissing_iff :
    d.mandatoryEvidenceMissing = true ↔ ∃ claim ∈ d.claims, d.LacksEvidence claim := by
  unfold DecisionFile.mandatoryEvidenceMissing DecisionFile.LacksEvidence
  simp only [List.any_eq_true, Bool.and_eq_true, Bool.not_eq_true', List.any_eq_false,
    decide_eq_true_eq, not_and, ne_eq, not_not]

theorem highImpact_iff : d.assessmentRequest.highImpact = true ↔ d.HighImpact := by
  simp [DecisionFile.assessmentRequest, DecisionFile.HighImpact]

theorem unresolvedUncertainty_iff : d.assessmentRequest.unresolvedUncertainty = true ↔
    ∃ r ∈ d.risks, r.unresolved = true := by
  simp [DecisionFile.assessmentRequest]

theorem mem_foundWhen {condition : Bool} {code : String} {severity : Severity}
    {ref : Option String} : f ∈ foundWhen condition code severity ref ↔
      condition = true ∧ f = ⟨code, severity, ref⟩ := by
  cases condition <;> simp [foundWhen]

/-- A finding blocks. -/
def BlockedBy (found : List Found) : Prop := ∃ f ∈ found, f.severity = .block

theorem blockedBy_append {found found' : List Found} :
    BlockedBy (found ++ found') ↔ BlockedBy found ∨ BlockedBy found' := by
  simp only [BlockedBy, List.mem_append, or_and_right, exists_or]

theorem blockedBy_flatMap {α : Type} {items : List α} {rule : α → List Found} :
    BlockedBy (items.flatMap rule) ↔ ∃ item ∈ items, BlockedBy (rule item) := by
  simp only [BlockedBy, List.mem_flatMap]
  constructor
  · rintro ⟨f, ⟨item, hitem, hf⟩, hblock⟩
    exact ⟨item, hitem, f, hf, hblock⟩
  · rintro ⟨item, hitem, f, hf, hblock⟩
    exact ⟨f, ⟨item, hitem, hf⟩, hblock⟩

theorem blockedBy_foundWhen {condition : Bool} {code : String} {severity : Severity}
    {ref : Option String} : BlockedBy (foundWhen condition code severity ref) ↔
      condition = true ∧ severity = .block := by
  cases condition <;> simp [BlockedBy, foundWhen]

theorem blockedBy_evidence {e : AssessedEvidence} : BlockedBy e.found ↔ e.fabricated = true := by
  simp [AssessedEvidence.found, blockedBy_append, blockedBy_foundWhen]

theorem blockedBy_constraint {c : Constraint} :
    BlockedBy c.found ↔ c.severity = .mandatory ∧ c.satisfied = false := by
  unfold Constraint.found
  cases c.severity with
  | mandatory => simp [blockedBy_foundWhen]
  | reviewRequired => simp [blockedBy_foundWhen]
  | advisory => simp [BlockedBy]

theorem blockedBy_conflict {c : Conflict} :
    BlockedBy c.found ↔ c.severity = .critical ∧ c.resolved = false := by
  unfold Conflict.found
  cases c.severity <;> simp [blockedBy_foundWhen]

theorem evidence_found_eq_nil {e : Evidence} :
    AssessedEvidence.found ⟨e.id, e.status, e.status = .fabricated⟩ = [] ↔
      e.status = .verified := by
  unfold AssessedEvidence.found
  cases e.status <;> simp [foundWhen]

theorem constraint_found_eq_nil {c : Constraint} : c.found = [] ↔
    (c.severity = .mandatory ∨ c.severity = .reviewRequired → c.satisfied = true) := by
  unfold Constraint.found
  cases c.severity with
  | mandatory => simp [foundWhen_eq_nil]
  | reviewRequired => simp [foundWhen_eq_nil]
  | advisory => simp

theorem conflict_found_eq_nil {c : Conflict} : c.found = [] ↔ c.resolved = true := by
  unfold Conflict.found
  cases c.severity <;> simp [foundWhen_eq_nil]

end Rules

/-! ## The outcome -/

section Outcomes

variable {pf : Platform} {d : DecisionFile}

/-- No one generates and approves a document whose approvals are in order. -/
theorem separationFound_eq_nil (h : Semantic pf d) : d.assessmentRequest.separationFound = [] := by
  apply AssessmentRequest.separationFound_of_ne
  intro hsame
  obtain ⟨a, ha, hid⟩ := Option.map_eq_some_iff.mp hsame
  exact (h.approvals a (List.mem_of_getLast? ha)).independent.1 hid

theorem blockedBy_found (h : Semantic pf d) : BlockedBy d.assessmentRequest.found ↔ d.Blocks := by
  have hnil : ¬BlockedBy [] := by simp [BlockedBy]
  have hseverity : (if d.assessmentRequest.highImpact = true then Severity.block
      else Severity.review) = .block ↔ d.HighImpact := by
    rw [← highImpact_iff]
    split_ifs with himpact <;> simp [himpact]
  have hfabricated : (∃ e ∈ d.assessmentRequest.evidence, e.fabricated = true) ↔
      ∃ e ∈ d.evidence, e.status = .fabricated := by
    simp [DecisionFile.assessmentRequest]
  unfold AssessmentRequest.found
  rw [separationFound_eq_nil h]
  simp only [blockedBy_append, blockedBy_flatMap, blockedBy_evidence, blockedBy_constraint,
    blockedBy_conflict, blockedBy_foundWhen, hseverity, hfabricated, hnil, reduceCtorEq, and_false,
    exists_false, or_false]
  constructor
  · rintro (((⟨e, he, hstatus⟩ | ⟨hmissing, himpact⟩) | ⟨c, hc, hmandatory, hviolated⟩) |
      ⟨c, hc, hcritical, hopen⟩)
    · exact .fabricated e he hstatus
    · obtain ⟨claim, hclaim, hlacks⟩ := mandatoryEvidenceMissing_iff.mp hmissing
      exact .evidence claim hclaim hlacks himpact
    · exact .constraint c hc hmandatory hviolated
    · exact .conflict c hc hcritical hopen
  · rintro (⟨e, he, hstatus⟩ | ⟨c, hc, hmandatory, hviolated⟩ | ⟨c, hc, hcritical, hopen⟩ |
      ⟨claim, hclaim, hlacks, himpact⟩)
    · exact Or.inl (Or.inl (Or.inl ⟨e, he, hstatus⟩))
    · exact Or.inl (Or.inr ⟨c, hc, hmandatory, hviolated⟩)
    · exact Or.inr ⟨c, hc, hcritical, hopen⟩
    · exact Or.inl (Or.inl (Or.inr
        ⟨mandatoryEvidenceMissing_iff.mpr ⟨claim, hclaim, hlacks⟩, himpact⟩))

theorem found_eq_nil (h : Semantic pf d) : d.assessmentRequest.found = [] ↔ d.Passes := by
  have hevidence : d.assessmentRequest.evidence.flatMap AssessedEvidence.found = [] ↔
      ∀ e ∈ d.evidence, e.status = .verified := by
    rw [DecisionFile.assessmentRequest, List.flatMap_eq_nil_iff, List.forall_mem_map]
    simp only [evidence_found_eq_nil]
  have hmissing : d.assessmentRequest.mandatoryEvidenceMissing = false ↔
      ∀ claim ∈ d.claims, ¬d.LacksEvidence claim := by
    rw [← Bool.not_eq_true, DecisionFile.assessmentRequest, mandatoryEvidenceMissing_iff]
    push Not
    rfl
  have hcertain : (d.assessmentRequest.highImpact && d.assessmentRequest.unresolvedUncertainty) =
      false ↔ ¬(d.HighImpact ∧ ∃ r ∈ d.risks, r.unresolved = true) := by
    rw [← Bool.not_eq_true, Bool.and_eq_true, highImpact_iff, unresolvedUncertainty_iff]
  unfold AssessmentRequest.found
  rw [separationFound_eq_nil h]
  simp only [List.append_eq_nil_iff, foundWhen_eq_nil, hevidence, hmissing, hcertain,
    List.flatMap_eq_nil_iff, constraint_found_eq_nil, conflict_found_eq_nil, and_true]
  constructor
  · rintro ⟨⟨⟨⟨⟨hverified, hsupported⟩, hconstraints⟩, hpolicies⟩, hsure⟩, hconflicts⟩
    exact ⟨hverified, hsupported, hconstraints, hpolicies, hconflicts, hsure⟩
  · rintro ⟨hverified, hsupported, hconstraints, hpolicies, hconflicts, hsure⟩
    exact ⟨⟨⟨⟨⟨hverified, hsupported⟩, hconstraints⟩, hpolicies⟩, hsure⟩, hconflicts⟩

theorem govern_eq_block {r : AssessmentRequest} :
    govern r.findings = .block ↔ BlockedBy r.found := by
  rw [← judged_findings, judged, BlockedBy]
  simp only [List.mem_map]
  split_ifs with hblock hempty <;> simp [hblock]

/-! ## An evaluation computes an outcome -/

theorem nodup_eraseDups (codes : List String) : codes.eraseDups.Nodup := by
  induction hn : codes.length using Nat.strong_induction_on generalizing codes with
  | _ n ih =>
    cases codes with
    | nil => exact List.nodup_nil
    | cons code codes =>
      have hlength : (codes.filter fun c => !c == code).length < n := by
        have hle := List.length_filter_le (fun c => !c == code) codes
        rw [List.length_cons] at hn
        omega
      rw [List.eraseDups_cons, List.nodup_cons]
      refine ⟨?_, ih _ hlength _ rfl⟩
      simp [List.mem_eraseDups]

theorem nodup_reasonCodesOf (findings : List Finding) : (reasonCodesOf findings).Nodup := by
  unfold reasonCodesOf
  split_ifs
  · exact List.nodup_singleton _
  · exact nodup_eraseDups _

theorem nonEmpty_found {r : AssessmentRequest}
    (hconstraints : ∀ c ∈ r.constraints, nonEmpty c.reasonCode = true) :
    ∀ f ∈ r.found, nonEmpty f.reasonCode = true := by
  have hwhen : ∀ {condition : Bool} {code : String} {severity : Severity} {ref : Option String},
      nonEmpty code = true →
      ∀ f ∈ foundWhen condition code severity ref, nonEmpty f.reasonCode = true := by
    intro condition code severity ref hcode f hf
    obtain ⟨-, rfl⟩ := mem_foundWhen.mp hf
    exact hcode
  intro f hf
  simp only [AssessmentRequest.found, List.mem_append, List.mem_flatMap] at hf
  rcases hf with ((((((⟨e, -, hf⟩ | hf) | ⟨c, hc, hf⟩) | ⟨p, -, hf⟩) | hf) | hf) | ⟨c, -, hf⟩)
  · simp only [AssessedEvidence.found, List.mem_append] at hf
    rcases hf with (((hf | hf) | hf) | hf) | hf
    · exact hwhen (by decide) f hf
    · exact hwhen (by decide) f hf
    · exact hwhen (by decide) f hf
    · exact hwhen (by decide) f hf
    · exact hwhen (by decide) f hf
  · exact hwhen (by decide) f hf
  · unfold Constraint.found at hf
    split at hf
    · exact hwhen (by decide) f hf
    · exact hwhen (hconstraints c hc) f hf
    · cases hf
  · exact hwhen (by decide) f hf
  · exact hwhen (by decide) f hf
  · exact hwhen (by decide) f hf
  · unfold Conflict.found at hf
    split at hf
    · exact hwhen (by decide) f hf
    · exact hwhen (by decide) f hf

theorem nonEmpty_reasonCodesOf {r : AssessmentRequest}
    (hconstraints : ∀ c ∈ r.constraints, nonEmpty c.reasonCode = true) :
    ∀ code ∈ reasonCodesOf r.findings, nonEmpty code = true := by
  intro code hcode
  unfold reasonCodesOf at hcode
  split_ifs at hcode
  · obtain rfl := List.mem_singleton.mp hcode
    decide
  · rw [List.mem_eraseDups, map_findings Found.reasonCode] at hcode
    obtain ⟨f, hf, rfl⟩ := List.mem_map.mp hcode
    exact nonEmpty_found hconstraints f hf

/-- An evaluation keeps to the contract. -/
theorem contractValid_withEvaluation {now : String} (h : d.contractValid pf = true)
    (hnow : pf.dateTime now = true) :
    (d.withEvaluation pf (assess now d.assessmentRequest)).contractValid pf = true := by
  have hactor : engineActor.contractValid = true := by decide
  simp only [DecisionFile.contractValid, Bool.and_eq_true, List.all_eq_true, decide_eq_true_eq]
    at h ⊢
  have hconstraints : ∀ c ∈ d.assessmentRequest.constraints, nonEmpty c.reasonCode = true :=
    fun c hc => by tauto
  have hnodup := nodup_reasonCodesOf d.assessmentRequest.findings
  have hcodes := nonEmpty_reasonCodesOf hconstraints
  have hresult : ValidationResult.contractValid pf ⟨engineActor,
      govern d.assessmentRequest.findings, reasonCodesOf d.assessmentRequest.findings, now⟩ =
        true := by
    simp [ValidationResult.contractValid, hactor, hnodup, hnow]
  have hevent : (evaluationEvent pf d (assess now d.assessmentRequest)).contractValid pf =
      true := by
    simp [AuditEvent.contractValid, evaluationEvent, assess, hactor, hnodup, hnow]
  simp only [DecisionFile.withEvaluation, assess, List.forall_mem_append, List.forall_mem_singleton]
  tauto

/-- A document that keeps to the contract and the semantic rules is evaluated. -/
theorem evaluateDecisionFile_ok {now : String} (hcontract : validateContract pf d = .ok ())
    (hsemantic : validateSemantics pf d = .ok ()) (hnow : pf.dateTime now = true) :
    evaluateDecisionFile pf now d = .ok (d.withEvaluation pf (assess now d.assessmentRequest),
      assess now d.assessmentRequest) := by
  have hupdated : validateContract pf (d.withEvaluation pf (assess now d.assessmentRequest)) =
      .ok () := if_pos (contractValid_withEvaluation (validateContract_ok hcontract) hnow)
  simp only [evaluateDecisionFile, hcontract, hsemantic, hupdated, ok_bind]
  rfl

theorem assess_block_iff {now : String} (h : Semantic pf d) :
    (assess now d.assessmentRequest).outcome = .block ↔ d.Blocks := by
  rw [assess_outcome]
  exact govern_eq_block.trans (blockedBy_found h)

theorem assess_pass_iff {now : String} (h : Semantic pf d) :
    (assess now d.assessmentRequest).outcome = .pass ↔ d.Passes := by
  rw [assess_outcome]
  exact govern_eq_pass.trans (found_eq_nil h)

theorem assess_review_iff {now : String} (h : Semantic pf d) :
    (assess now d.assessmentRequest).outcome = .review ↔ ¬d.Blocks ∧ ¬d.Passes := by
  rw [← assess_block_iff h, ← assess_pass_iff h]
  cases (assess now d.assessmentRequest).outcome <;> simp

/-- Which outcome an evaluation computes. -/
theorem outcome_characterised (pf : Platform) (now : String) (d : DecisionFile)
    (hcontract : validateContract pf d = .ok ()) (hsemantic : validateSemantics pf d = .ok ())
    (hnow : pf.dateTime now = true) : ∃ updated report,
    evaluateDecisionFile pf now d = .ok (updated, report) ∧
      updated.decisionOutcome = some report.outcome ∧
      (report.outcome = .block ↔ d.Blocks) ∧ (report.outcome = .pass ↔ d.Passes) ∧
      (report.outcome = .review ↔ ¬d.Blocks ∧ ¬d.Passes) := by
  have hsem := validateSemantics_ok hsemantic
  exact ⟨d.withEvaluation pf (assess now d.assessmentRequest), assess now d.assessmentRequest,
    evaluateDecisionFile_ok hcontract hsemantic hnow, rfl, assess_block_iff hsem,
    assess_pass_iff hsem, assess_review_iff hsem⟩

/-- A case whose claim asks for evidence that is not available, under a high risk. -/
def riskyCase : DecisionFile :=
  { draftCase with
    claims := [⟨"claim", "claim", true⟩]
    evidence := [⟨"evidence", ["claim"], "source", .unavailable, none, none⟩]
    risks := [⟨"risk", .high, false⟩] }

theorem outcome_characterised_risky : ∃ updated report,
    evaluateDecisionFile plainPlatform "2026-01-01" riskyCase = .ok (updated, report) ∧
      report.outcome = .block := by
  obtain ⟨updated, report, h, -, hblock, -⟩ := outcome_characterised plainPlatform "2026-01-01"
    riskyCase (by rfl) (by rfl) rfl
  have hlacks : riskyCase.LacksEvidence ⟨"claim", "claim", true⟩ := by
    simp [DecisionFile.LacksEvidence, riskyCase]
  exact ⟨updated, report, h, hblock.mpr (.evidence _ (List.mem_singleton_self _) hlacks
    ⟨_, List.mem_singleton_self _, Or.inl rfl⟩)⟩

end Outcomes

end DecisionAssurance
