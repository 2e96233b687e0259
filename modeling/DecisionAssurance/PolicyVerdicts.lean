import DecisionAssurance.IntakeVerification

/-!
# Verdicts of the policy

The comparison with the policy judges the first candidate of every type it knows, and numbers what
the judgements find. The judgements are functions of the candidates alone, so a comparison is what
they yield one after the other.
-/

namespace DecisionAssurance.Intake

/-- A finding without its number and the policy it refers to. -/
structure Verdict where
  ruleId : String
  factRefs : List String
  calculation : String
  resultCode : String
  deriving DecidableEq

section Numbering

variable (intakeId : String) (policy : PolicyContext)

def Verdict.finding (number : ℕ) (v : Verdict) : DerivedFinding where
  findingId := s!"{intakeId}:derived:{toString number}"
  ruleId := v.ruleId
  factRefs := v.factRefs
  policyRef := some s!"{policy.policyId}@{policy.policyVersion}"
  calculation := v.calculation
  resultCode := v.resultCode
  uncertainty := none

def numbered (vs : List Verdict) : List DerivedFinding :=
  vs.mapIdx fun i v => v.finding intakeId policy (i + 1)

variable {intakeId policy} {vs : List Verdict}

@[simp] theorem numbered_nil : numbered intakeId policy [] = [] := rfl

theorem addFinding_numbered (ruleId : String) (factRefs : List String)
    (calculation resultCode : String) :
    addFinding intakeId policy (numbered intakeId policy vs) ruleId factRefs calculation resultCode =
      numbered intakeId policy (vs ++ [⟨ruleId, factRefs, calculation, resultCode⟩]) := by
  simp [addFinding, numbered, Verdict.finding]

theorem mem_numbered {f : DerivedFinding} (h : f ∈ numbered intakeId policy vs) :
    ∃ v ∈ vs, ∃ n, f = v.finding intakeId policy n := by
  obtain ⟨i, hi, rfl⟩ := List.mem_mapIdx.mp h
  exact ⟨vs[i], List.getElem_mem hi, i + 1, rfl⟩

theorem numbered_of_mem {v : Verdict} (h : v ∈ vs) :
    ∃ n, v.finding intakeId policy n ∈ numbered intakeId policy vs := by
  obtain ⟨i, hi, rfl⟩ := List.getElem_of_mem h
  exact ⟨i + 1, List.mem_mapIdx.mpr ⟨i, hi, rfl⟩⟩

end Numbering

/-! ## Judgements on one candidate -/

section Judgements

variable (py : Interpreter) (candidates : List CandidateFact) (policy : PolicyContext)
  (referenceDate : ℤ)

/-- The judgement on the first candidate of a type, whatever its status. -/
def onFirst (factType : FactType) (judge : CandidateFact → Raises (Option Verdict)) :
    Raises (Option Verdict) :=
  match factValue candidates factType with
  | none => pure none
  | some item => judge item

def judgeLimit (limit : DecimalNumber) (violates : DecimalNumber → DecimalNumber → Raises Bool)
    (ruleId resultCode : String) (item : CandidateFact) : Raises (Option Verdict) :=
  match item.normalizedValue with
  | none => pure none
  | some value => do
    let actual ← decimal py value
    if ← violates actual limit then
      pure (some ⟨ruleId, [item.factId],
        s!"{String.ofList actual.text} compared with {String.ofList limit.text}", resultCode⟩)
    else pure none

def judgeDiscount (limit : DecimalNumber) : CandidateFact → Raises (Option Verdict) :=
  judgeLimit py limit (fun actual limit => less limit actual) "DISCOUNT_MAXIMUM"
    "DISCOUNT_ABOVE_POLICY_LIMIT"

def judgeMargin (limit : DecimalNumber) : CandidateFact → Raises (Option Verdict) :=
  judgeLimit py limit less "MARGIN_MINIMUM" "MARGIN_BELOW_POLICY_MINIMUM"

def judgeEvidence (item : CandidateFact) : Raises (Option Verdict) :=
  match truthy item.normalizedValue with
  | none => pure none
  | some value => do
    let observed ← fromisoformat py value
    let ageDays := referenceDate - observed
    if policy.maximumEvidenceAgeDays < ageDays then
      pure (some ⟨"EVIDENCE_FRESHNESS", [item.factId],
        s!"{toString ageDays} days compared with {toString policy.maximumEvidenceAgeDays} days",
        "EVIDENCE_OUTDATED"⟩)
    else pure none

def judgeDuration (item : CandidateFact) : Raises (Option Verdict) :=
  match truthy item.normalizedValue with
  | none => pure none
  | some value => do
    let number ← decimal py value
    let months ← orRaise .arithmetic number.truncate
    if policy.maximumDurationMonthsWithoutException < months ∧
        ¬verifiedException candidates policy then
      let limit := toString policy.maximumDurationMonthsWithoutException
      pure (some ⟨"DURATION_EXCEPTION", [item.factId],
        s!"{value} months compared with {limit} months", "DURATION_EXCEPTION_REQUIRED"⟩)
    else pure none

def distinctApprovers : ℕ :=
  ((confirmedApprovals candidates).filterMap CandidateFact.confirmedByActorId).dedup.length

def judgeAmount (item : CandidateFact) : Raises (Option Verdict) :=
  match truthy item.normalizedValue with
  | none => pure none
  | some value => do
    let number ← decimal py value
    let above ← decimal py policy.requiresApprovalAboveAmount
    let below ← less number above
    if !below ∧ (distinctApprovers candidates : ℤ) < policy.requiredApprovalCount then
      let required := toString policy.requiredApprovalCount
      let count := toString (distinctApprovers candidates)
      pure (some ⟨"REQUIRED_APPROVAL_COUNT",
        item.factId :: (confirmedApprovals candidates).map CandidateFact.factId,
        s!"{count} distinct authenticated approvers compared with {required}",
        "REQUIRED_APPROVAL_MISSING"⟩)
    else pure none

/-! ## Verdicts on all candidates -/

def referenceVerdict : Option Verdict :=
  (candidates.find? fun item =>
    item.factType = .policyClaim ∧ item.verificationStatus = .rejected).map fun item =>
    ⟨"POLICY_REGISTRY_LOOKUP", [item.factId],
      "claimed policy reference does not match the trusted active registry entry",
      "POLICY_REFERENCE_NOT_REGISTERED"⟩

def effectiveVerdict : Raises (Option Verdict) := do
  let effective ← fromisoformat py policy.effectiveDate
  if referenceDate < effective then
    pure (some ⟨"POLICY_EFFECTIVE_DATE", [],
      s!"{policy.effectiveDate} compared with {py.isoformat referenceDate}",
      "POLICY_NOT_EFFECTIVE"⟩)
  else pure none

def selfApprovalVerdict : Option Verdict :=
  (candidates.find? fun item =>
    item.factType = .selfApprovalClaim ∧ item.verificationStatus = .humanConfirmed).map fun item =>
    ⟨"ROLE_INDEPENDENCE", [item.factId], "confirmed self-approval violates independent approval",
      "SEPARATION_OF_DUTIES_VIOLATION"⟩

def namesRole (item : CandidateFact) : Bool :=
  ["generator", "validator", "approver", "approved"].any fun term =>
    QuoteExtractor.contains term.toList (py.lowerText item.rawValue)

def overrideVerdict : Option Verdict :=
  ((factValue candidates .untrustedInstruction).filter (namesRole py)).map fun item =>
    ⟨"GOVERNANCE_OVERRIDE", [item.factId],
      "untrusted input attempted to override authenticated governance roles",
      "GOVERNANCE_OVERRIDE_ATTEMPT"⟩

/-- The verdicts on the five types with values. -/
structure ValueVerdicts where
  discount : Option Verdict
  margin : Option Verdict
  evidence : Option Verdict
  duration : Option Verdict
  amount : Option Verdict
  deriving DecidableEq

def ValueVerdicts.get (v : ValueVerdicts) : FactType → Option Verdict
  | .discountPercent => v.discount
  | .marginPercent => v.margin
  | .evidenceDate => v.evidence
  | .durationMonths => v.duration
  | .amount => v.amount
  | _ => none

def ValueVerdicts.toList (v : ValueVerdicts) : List Verdict :=
  v.discount.toList ++ v.margin.toList ++ v.evidence.toList ++ v.duration.toList ++ v.amount.toList

def valueVerdicts : Raises ValueVerdicts := do
  let maximum ← decimal py policy.maximumDiscountPercent
  let minimum ← decimal py policy.minimumMarginPercent
  let discount ← onFirst candidates .discountPercent (judgeDiscount py maximum)
  let margin ← onFirst candidates .marginPercent (judgeMargin py minimum)
  let evidence ← onFirst candidates .evidenceDate (judgeEvidence py policy referenceDate)
  let duration ← onFirst candidates .durationMonths (judgeDuration py candidates policy)
  let amount ← onFirst candidates .amount (judgeAmount py candidates policy)
  return ⟨discount, margin, evidence, duration, amount⟩

def verdicts : Raises (List Verdict) := do
  let effective ← effectiveVerdict py policy referenceDate
  let values ← valueVerdicts py candidates policy referenceDate
  return (referenceVerdict candidates).toList ++ effective.toList ++ values.toList ++
    (selfApprovalVerdict candidates).toList ++ (overrideVerdict py candidates).toList

end Judgements

/-! ## The comparison by its verdicts -/

section Comparison

variable {py : Interpreter} {intakeId : String} {candidates : List CandidateFact}
  {policy : PolicyContext} {referenceDate : ℤ} {vs : List Verdict}

/-- What a check makes of the findings before it. -/
def extended (intakeId : String) (policy : PolicyContext) (vs : List Verdict)
    (verdict : Raises (Option Verdict)) : Raises (List DerivedFinding) := do
  let v ← verdict
  return numbered intakeId policy (vs ++ v.toList)

theorem checkPolicyReference_eq :
    checkPolicyReference intakeId candidates policy [] =
      numbered intakeId policy (referenceVerdict candidates).toList := by
  unfold checkPolicyReference referenceVerdict
  dsimp only
  cases candidates.find? fun item =>
      item.factType = .policyClaim ∧ item.verificationStatus = .rejected with
  | none => rfl
  | some item =>
    change addFinding intakeId policy (numbered intakeId policy []) _ _ _ _ = _
    exact addFinding_numbered _ _ _ _

theorem checkEffectiveDate_eq :
    checkEffectiveDate py intakeId policy referenceDate (numbered intakeId policy vs) =
      extended intakeId policy vs (effectiveVerdict py policy referenceDate) := by
  unfold checkEffectiveDate effectiveVerdict extended
  cases fromisoformat py policy.effectiveDate with
  | error e => rfl
  | ok effective =>
    simp only [ok_bind]
    split_ifs
    · exact congrArg Except.ok (addFinding_numbered _ _ _ _)
    · exact congrArg Except.ok (by simp)

theorem checkLimit_eq {factType : FactType} {limit : DecimalNumber}
    {violates : DecimalNumber → DecimalNumber → Raises Bool} {ruleId resultCode : String} :
    checkLimit py intakeId candidates policy factType limit violates ruleId resultCode
        (numbered intakeId policy vs) =
      extended intakeId policy vs
        (onFirst candidates factType (judgeLimit py limit violates ruleId resultCode)) := by
  unfold checkLimit onFirst extended
  cases factValue candidates factType with
  | none => exact congrArg Except.ok (by simp)
  | some item =>
    dsimp only
    unfold judgeLimit
    cases item.normalizedValue with
    | none => exact congrArg Except.ok (by simp)
    | some value =>
      dsimp only
      cases decimal py value with
      | error e => rfl
      | ok actual =>
        simp only [ok_bind]
        cases violates actual limit with
        | error e => rfl
        | ok violated =>
          simp only [ok_bind]
          split_ifs
          · exact congrArg Except.ok (addFinding_numbered _ _ _ _)
          · exact congrArg Except.ok (by simp)

theorem checkEvidence_eq :
    checkEvidence py intakeId candidates policy referenceDate (numbered intakeId policy vs) =
      extended intakeId policy vs
        (onFirst candidates .evidenceDate (judgeEvidence py policy referenceDate)) := by
  unfold checkEvidence onFirst extended
  cases factValue candidates .evidenceDate with
  | none => exact congrArg Except.ok (by simp)
  | some item =>
    dsimp only
    unfold judgeEvidence
    cases truthy item.normalizedValue with
    | none => exact congrArg Except.ok (by simp)
    | some value =>
      dsimp only
      cases fromisoformat py value with
      | error e => rfl
      | ok observed =>
        simp only [ok_bind]
        split_ifs
        · exact congrArg Except.ok (addFinding_numbered _ _ _ _)
        · exact congrArg Except.ok (by simp)

theorem checkDuration_eq :
    checkDuration py intakeId candidates policy (numbered intakeId policy vs) =
      extended intakeId policy vs
        (onFirst candidates .durationMonths (judgeDuration py candidates policy)) := by
  unfold checkDuration onFirst extended
  cases factValue candidates .durationMonths with
  | none => exact congrArg Except.ok (by simp)
  | some item =>
    dsimp only
    unfold judgeDuration
    cases truthy item.normalizedValue with
    | none => exact congrArg Except.ok (by simp)
    | some value =>
      dsimp only
      cases decimal py value with
      | error e => rfl
      | ok number =>
        simp only [ok_bind]
        cases orRaise (IntakeError.arithmetic) number.truncate with
        | error e => rfl
        | ok months =>
          simp only [ok_bind]
          split_ifs
          · exact congrArg Except.ok (addFinding_numbered _ _ _ _)
          · exact congrArg Except.ok (by simp)

theorem checkApprovals_eq :
    checkApprovals py intakeId candidates policy (numbered intakeId policy vs) =
      extended intakeId policy vs
        (onFirst candidates .amount (judgeAmount py candidates policy)) := by
  unfold checkApprovals onFirst extended
  cases factValue candidates .amount with
  | none => exact congrArg Except.ok (by simp)
  | some item =>
    dsimp only
    unfold judgeAmount distinctApprovers
    cases truthy item.normalizedValue with
    | none => exact congrArg Except.ok (by simp)
    | some value =>
      dsimp only
      cases decimal py value with
      | error e => rfl
      | ok number =>
        simp only [ok_bind]
        cases decimal py policy.requiresApprovalAboveAmount with
        | error e => rfl
        | ok above =>
          simp only [ok_bind]
          cases less number above with
          | error e => rfl
          | ok below =>
            simp only [ok_bind]
            split_ifs
            · exact congrArg Except.ok (addFinding_numbered _ _ _ _)
            · exact congrArg Except.ok (by simp)

theorem checkSelfApproval_eq :
    checkSelfApproval intakeId candidates policy (numbered intakeId policy vs) =
      numbered intakeId policy (vs ++ (selfApprovalVerdict candidates).toList) := by
  unfold checkSelfApproval selfApprovalVerdict
  dsimp only
  cases candidates.find? fun item =>
      item.factType = .selfApprovalClaim ∧ item.verificationStatus = .humanConfirmed with
  | none => simp
  | some item => exact addFinding_numbered _ _ _ _

theorem checkOverride_eq :
    checkOverride py intakeId candidates policy (numbered intakeId policy vs) =
      numbered intakeId policy (vs ++ (overrideVerdict py candidates).toList) := by
  unfold checkOverride overrideVerdict
  cases factValue candidates .untrustedInstruction with
  | none => simp
  | some item =>
    dsimp only
    change (if namesRole py item = true then _ else _) = _
    cases hrole : namesRole py item with
    | true =>
      simp only [if_true, Option.filter_some, hrole]
      exact addFinding_numbered _ _ _ _
    | false => simp [Option.filter_some, hrole]

/-- A comparison numbers its verdicts. -/
theorem comparePolicy_eq : comparePolicy py intakeId candidates policy referenceDate = do
    let vs ← verdicts py candidates policy referenceDate
    return numbered intakeId policy vs := by
  unfold comparePolicy verdicts valueVerdicts judgeDiscount judgeMargin ValueVerdicts.toList
  simp only [checkPolicyReference_eq, checkEffectiveDate_eq, checkLimit_eq, checkEvidence_eq,
    checkDuration_eq, checkApprovals_eq, checkSelfApproval_eq, checkOverride_eq, extended,
    bind_assoc, pure_bind, List.append_assoc]

end Comparison

end DecisionAssurance.Intake
