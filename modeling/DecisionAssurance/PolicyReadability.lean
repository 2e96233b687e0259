import DecisionAssurance.IntakeTrust
import DecisionAssurance.PolicyVerdicts

/-!
# Values the policy can read

A comparison with the policy returns exactly if the texts of the policy and the values of the first
candidates of its types can be read, so it depends on the types and values of the candidates alone.
-/

namespace DecisionAssurance.Intake

/-- The computation returns. -/
def Returns {α : Type} (x : Raises α) : Prop := ∃ a, x = .ok a

section Returning

variable {α β : Type} {x : Raises α} {f : α → Raises β}

@[simp] theorem returns_pure (a : α) : Returns (pure a : Raises α) := ⟨a, rfl⟩

theorem returns_bind : Returns (x >>= f) ↔ ∃ a, x = .ok a ∧ Returns (f a) := by
  constructor
  · rintro ⟨b, h⟩
    obtain ⟨a, ha, hb⟩ := bind_ok_cases h
    exact ⟨a, ha, b, hb⟩
  · rintro ⟨a, rfl, hb⟩
    exact hb

/-- What follows always returns. -/
theorem returns_bind_of_forall (h : ∀ a, Returns (f a)) : Returns (x >>= f) ↔ Returns x := by
  rw [returns_bind]
  exact exists_congr fun a => and_iff_left (h a)

end Returning

/-- The types of the values that the policy judges. -/
def valueTypes : List FactType :=
  [.discountPercent, .marginPercent, .evidenceDate, .durationMonths, .amount]

section Readability

variable (py : Interpreter) (policy : PolicyContext) (candidates : List CandidateFact)

/-- A text of a number that can be compared. -/
def ReadsNumber (s : String) : Prop := ∃ n, decimal py s = .ok n ∧ n ≠ .nan

/-- The first candidate of a type with a value has one of which `p` holds. -/
def FirstValue (factType : FactType) (p : String → Prop) : Prop :=
  ∀ item, factValue candidates factType = some item →
    ∀ value, item.normalizedValue = some value → p value

/-- The policy and the values it is compared with can be read. -/
structure Readable : Prop where
  effective : Returns (fromisoformat py policy.effectiveDate)
  maximum : Returns (decimal py policy.maximumDiscountPercent)
  minimum : Returns (decimal py policy.minimumMarginPercent)
  discount : FirstValue candidates .discountPercent fun value =>
    ReadsNumber py value ∧ ReadsNumber py policy.maximumDiscountPercent
  margin : FirstValue candidates .marginPercent fun value =>
    ReadsNumber py value ∧ ReadsNumber py policy.minimumMarginPercent
  evidence : FirstValue candidates .evidenceDate fun value =>
    value ≠ "" → Returns (fromisoformat py value)
  duration : FirstValue candidates .durationMonths fun value =>
    value ≠ "" → ∃ n, decimal py value = .ok n ∧ n.truncate.isSome = true
  amount : FirstValue candidates .amount fun value =>
    value ≠ "" → ReadsNumber py value ∧ ReadsNumber py policy.requiresApprovalAboveAmount

end Readability

section Judging

variable {py : Interpreter} {policy : PolicyContext} {referenceDate : ℤ}
  {candidates others : List CandidateFact} {item : CandidateFact}

theorem less_returns {a b : DecimalNumber} : Returns (less a b) ↔ a ≠ .nan ∧ b ≠ .nan := by
  unfold less
  cases a <;> cases b <;> simp [DecimalNumber.less, Returns, orRaise]

theorem truthy_eq_some {value : Option String} {s : String} :
    truthy value = some s ↔ value = some s ∧ s ≠ "" := by
  unfold truthy
  split
  · simp
  · constructor
    · rintro rfl
      exact ⟨rfl, by rintro rfl; simp_all⟩
    · exact And.left

theorem onFirst_returns {factType : FactType} {judge : CandidateFact → Raises (Option Verdict)} :
    Returns (onFirst candidates factType judge) ↔
      ∀ item, factValue candidates factType = some item → Returns (judge item) := by
  unfold onFirst
  cases factValue candidates factType with
  | none => simp
  | some item => simp

theorem judgeLimit_returns {limit : DecimalNumber}
    {violates : DecimalNumber → DecimalNumber → Raises Bool} {ruleId resultCode : String}
    (hviolates : ∀ a, Returns (violates a limit) ↔ a ≠ .nan ∧ limit ≠ .nan) :
    Returns (judgeLimit py limit violates ruleId resultCode item) ↔
      ∀ value, item.normalizedValue = some value → ReadsNumber py value ∧ limit ≠ .nan := by
  unfold judgeLimit
  cases item.normalizedValue with
  | none => simp
  | some value =>
    simp only [Option.some.injEq, forall_eq']
    rw [returns_bind]
    unfold ReadsNumber
    constructor
    · rintro ⟨actual, hactual, h⟩
      rw [returns_bind_of_forall] at h
      · obtain ⟨hn, hlimit⟩ := (hviolates actual).mp h
        exact ⟨⟨actual, hactual, hn⟩, hlimit⟩
      · intro violated
        split_ifs <;> simp
    · rintro ⟨⟨actual, hactual, hn⟩, hlimit⟩
      refine ⟨actual, hactual, ?_⟩
      rw [returns_bind_of_forall]
      · exact (hviolates actual).mpr ⟨hn, hlimit⟩
      · intro violated
        split_ifs <;> simp

theorem judgeEvidence_returns : Returns (judgeEvidence py policy referenceDate item) ↔
    ∀ value, item.normalizedValue = some value → value ≠ "" → Returns (fromisoformat py value) := by
  unfold judgeEvidence
  cases hvalue : truthy item.normalizedValue with
  | none =>
    simp only [returns_pure, true_iff]
    intro value hnormalized hne
    simp [truthy_eq_some.mpr ⟨hnormalized, hne⟩] at hvalue
  | some s =>
    obtain ⟨hnormalized, hne⟩ := truthy_eq_some.mp hvalue
    rw [hnormalized]
    dsimp only
    rw [returns_bind_of_forall]
    · simp [hne]
    · intro observed
      split_ifs <;> simp

theorem judgeDuration_returns : Returns (judgeDuration py candidates policy item) ↔
    ∀ value, item.normalizedValue = some value → value ≠ "" →
      ∃ n, decimal py value = .ok n ∧ n.truncate.isSome = true := by
  unfold judgeDuration
  cases hvalue : truthy item.normalizedValue with
  | none =>
    simp only [returns_pure, true_iff]
    intro value hnormalized hne
    simp [truthy_eq_some.mpr ⟨hnormalized, hne⟩] at hvalue
  | some s =>
    obtain ⟨hnormalized, hne⟩ := truthy_eq_some.mp hvalue
    rw [hnormalized]
    dsimp only
    rw [returns_bind]
    simp only [Option.some.injEq, forall_eq', ne_eq, hne, not_false_eq_true, true_imp_iff]
    apply exists_congr
    intro n
    apply and_congr_right
    intro _
    rw [returns_bind_of_forall]
    · cases n.truncate <;> simp [Returns, orRaise]
    · intro months
      split_ifs <;> simp

theorem judgeAmount_returns : Returns (judgeAmount py candidates policy item) ↔
    ∀ value, item.normalizedValue = some value → value ≠ "" →
      ReadsNumber py value ∧ ReadsNumber py policy.requiresApprovalAboveAmount := by
  unfold judgeAmount
  cases hvalue : truthy item.normalizedValue with
  | none =>
    simp only [returns_pure, true_iff]
    intro value hnormalized hne
    simp [truthy_eq_some.mpr ⟨hnormalized, hne⟩] at hvalue
  | some s =>
    obtain ⟨hnormalized, hne⟩ := truthy_eq_some.mp hvalue
    rw [hnormalized]
    dsimp only
    simp only [Option.some.injEq, forall_eq', ne_eq, hne, not_false_eq_true, true_imp_iff]
    have hrest : ∀ number above : DecimalNumber, Returns (do
        let below ← less number above
        if !below ∧ (distinctApprovers candidates : ℤ) < policy.requiredApprovalCount then
          let required := toString policy.requiredApprovalCount
          let count := toString (distinctApprovers candidates)
          pure (some ⟨"REQUIRED_APPROVAL_COUNT",
            item.factId :: (confirmedApprovals candidates).map CandidateFact.factId,
            s!"{count} distinct authenticated approvers compared with {required}",
            "REQUIRED_APPROVAL_MISSING"⟩)
        else pure none : Raises (Option Verdict)) ↔ number ≠ .nan ∧ above ≠ .nan := by
      intro number above
      rw [returns_bind_of_forall, less_returns]
      intro below
      dsimp only
      split_ifs <;> simp
    rw [returns_bind]
    unfold ReadsNumber
    constructor
    · rintro ⟨number, hnumber, h⟩
      obtain ⟨above, habove, h⟩ := returns_bind.mp h
      obtain ⟨hn, ha⟩ := (hrest number above).mp h
      exact ⟨⟨number, hnumber, hn⟩, above, habove, ha⟩
    · rintro ⟨⟨number, hnumber, hn⟩, above, habove, ha⟩
      refine ⟨number, hnumber, returns_bind.mpr ⟨above, habove, (hrest number above).mpr ⟨hn, ha⟩⟩⟩

theorem effectiveVerdict_returns : Returns (effectiveVerdict py policy referenceDate) ↔
    Returns (fromisoformat py policy.effectiveDate) := by
  unfold effectiveVerdict
  rw [returns_bind_of_forall]
  intro effective
  split_ifs <;> simp

theorem valueVerdicts_returns : Returns (valueVerdicts py candidates policy referenceDate) ↔
    ∃ maximum minimum, decimal py policy.maximumDiscountPercent = .ok maximum ∧
      decimal py policy.minimumMarginPercent = .ok minimum ∧
      Returns (onFirst candidates .discountPercent (judgeDiscount py maximum)) ∧
      Returns (onFirst candidates .marginPercent (judgeMargin py minimum)) ∧
      Returns (onFirst candidates .evidenceDate (judgeEvidence py policy referenceDate)) ∧
      Returns (onFirst candidates .durationMonths (judgeDuration py candidates policy)) ∧
      Returns (onFirst candidates .amount (judgeAmount py candidates policy)) := by
  unfold valueVerdicts
  constructor
  · rintro ⟨values, h⟩
    obtain ⟨maximum, hmaximum, h⟩ := bind_ok_cases h
    obtain ⟨minimum, hminimum, h⟩ := bind_ok_cases h
    obtain ⟨discount, hdiscount, h⟩ := bind_ok_cases h
    obtain ⟨margin, hmargin, h⟩ := bind_ok_cases h
    obtain ⟨evidence, hevidence, h⟩ := bind_ok_cases h
    obtain ⟨duration, hduration, h⟩ := bind_ok_cases h
    obtain ⟨amount, hamount, -⟩ := bind_ok_cases h
    exact ⟨maximum, minimum, hmaximum, hminimum, ⟨_, hdiscount⟩, ⟨_, hmargin⟩, ⟨_, hevidence⟩,
      ⟨_, hduration⟩, ⟨_, hamount⟩⟩
  · rintro ⟨maximum, minimum, hmaximum, hminimum, ⟨discount, hdiscount⟩, ⟨margin, hmargin⟩,
      ⟨evidence, hevidence⟩, ⟨duration, hduration⟩, ⟨amount, hamount⟩⟩
    simp only [hmaximum, hminimum, hdiscount, hmargin, hevidence, hduration, hamount, ok_bind]
    exact returns_pure _

theorem readsNumber_of_ok {s : String} {n : DecimalNumber} (h : decimal py s = .ok n) :
    ReadsNumber py s ↔ n ≠ .nan := by
  unfold ReadsNumber
  simp [h]

/-- The verdicts are there exactly if what they read can be read. -/
theorem verdicts_returns : Returns (verdicts py candidates policy referenceDate) ↔
    Readable py policy candidates := by
  have hless : ∀ limit a, Returns (less limit a) ↔ a ≠ .nan ∧ limit ≠ .nan := fun limit a =>
    less_returns.trans and_comm
  unfold verdicts
  rw [returns_bind]
  constructor
  · rintro ⟨effective, heffective, h⟩
    rw [returns_bind_of_forall fun _ => returns_pure _, valueVerdicts_returns] at h
    obtain ⟨maximum, minimum, hmaximum, hminimum, hdiscount, hmargin, hevidence, hduration,
      hamount⟩ := h
    simp only [onFirst_returns] at hdiscount hmargin hevidence hduration hamount
    constructor
    · exact effectiveVerdict_returns.mp ⟨effective, heffective⟩
    · exact ⟨_, hmaximum⟩
    · exact ⟨_, hminimum⟩
    · intro item hitem value hvalue
      rw [readsNumber_of_ok hmaximum]
      exact (judgeLimit_returns (hless maximum)).mp (hdiscount item hitem) value hvalue
    · intro item hitem value hvalue
      rw [readsNumber_of_ok hminimum]
      exact (judgeLimit_returns fun a => less_returns).mp (hmargin item hitem) value hvalue
    · exact fun item hitem => judgeEvidence_returns.mp (hevidence item hitem)
    · exact fun item hitem => judgeDuration_returns.mp (hduration item hitem)
    · exact fun item hitem => judgeAmount_returns.mp (hamount item hitem)
  · intro h
    obtain ⟨effective, heffective⟩ := effectiveVerdict_returns.mpr h.effective
    obtain ⟨maximum, hmaximum⟩ := h.maximum
    obtain ⟨minimum, hminimum⟩ := h.minimum
    refine ⟨effective, heffective, ?_⟩
    rw [returns_bind_of_forall fun _ => returns_pure _, valueVerdicts_returns]
    refine ⟨maximum, minimum, hmaximum, hminimum, ?_, ?_, ?_, ?_, ?_⟩
    · refine onFirst_returns.mpr fun item hitem => (judgeLimit_returns (hless maximum)).mpr ?_
      intro value hvalue
      rw [← readsNumber_of_ok hmaximum]
      exact h.discount item hitem value hvalue
    · refine onFirst_returns.mpr fun item hitem => (judgeLimit_returns fun a => less_returns).mpr ?_
      intro value hvalue
      rw [← readsNumber_of_ok hminimum]
      exact h.margin item hitem value hvalue
    · exact onFirst_returns.mpr fun item hitem =>
        judgeEvidence_returns.mpr (h.evidence item hitem)
    · exact onFirst_returns.mpr fun item hitem =>
        judgeDuration_returns.mpr (h.duration item hitem)
    · exact onFirst_returns.mpr fun item hitem => judgeAmount_returns.mpr (h.amount item hitem)

end Judging

/-! ## Reports that are returned -/

section Reports

variable {py : Interpreter} {policy : Option PolicyContext} {referenceDate : ℤ}
  {candidates others : List CandidateFact}

theorem buildReport_returns {intakeId : String} {refs : List String} {conflicts : Bool} :
    Returns (buildReport py policy referenceDate intakeId candidates refs conflicts) ↔
      ∀ p, policy = some p → Readable py p candidates := by
  unfold buildReport
  rw [returns_bind_of_forall fun _ => returns_pure _]
  cases policy with
  | none => simp [policyFindings]
  | some p =>
    change Returns (comparePolicy py intakeId candidates p referenceDate) ↔ _
    rw [comparePolicy_eq, returns_bind_of_forall fun _ => returns_pure _, verdicts_returns]
    simp

/-- What the readability of candidates depends on. -/
def CandidateFact.valued (c : CandidateFact) : FactType × Option String :=
  (c.factType, c.normalizedValue)

theorem firstValue_congr {factType : FactType} {p : String → Prop}
    (h : others.map CandidateFact.valued = candidates.map CandidateFact.valued) :
    FirstValue others factType p ↔ FirstValue candidates factType p := by
  have hread : ∀ cs : List CandidateFact, FirstValue cs factType p ↔
      ∀ x, (cs.map CandidateFact.valued).find? (fun x => x.1 = factType) = some x →
        ∀ value, x.2 = some value → p value := by
    intro cs
    unfold FirstValue factValue
    rw [List.find?_map]
    change _ ↔ ∀ x, (cs.find? fun c => c.factType = factType).map CandidateFact.valued = some x → _
    cases cs.find? fun c => c.factType = factType with
    | none => simp
    | some item => simp [CandidateFact.valued]
  rw [hread, hread, h]

theorem readable_congr {p : PolicyContext}
    (h : others.map CandidateFact.valued = candidates.map CandidateFact.valued) :
    Readable py p others ↔ Readable py p candidates := by
  have hforward : ∀ {cs ds : List CandidateFact},
      cs.map CandidateFact.valued = ds.map CandidateFact.valued → Readable py p cs →
        Readable py p ds := by
    intro cs ds hvalued hread
    exact ⟨hread.effective, hread.maximum, hread.minimum,
      (firstValue_congr hvalued).mp hread.discount, (firstValue_congr hvalued).mp hread.margin,
      (firstValue_congr hvalued).mp hread.evidence, (firstValue_congr hvalued).mp hread.duration,
      (firstValue_congr hvalued).mp hread.amount⟩
  exact ⟨hforward h, hforward h.symm⟩

theorem map_valued_verifyCandidates :
    (verifyCandidates py policy candidates).map CandidateFact.valued =
      candidates.map CandidateFact.valued := by
  rw [verifyCandidates_eq_map, List.map_map]
  apply List.map_congr_left
  intro c _
  simp [CandidateFact.valued]

theorem verify_returns {extraction : ExtractionReport} :
    Returns (verify py policy referenceDate extraction) ↔
      ∀ p, policy = some p → Readable py p extraction.candidates := by
  unfold verify
  rw [buildReport_returns]
  exact forall₂_congr fun p _ => readable_congr map_valued_verifyCandidates

theorem reverify_returns {report : VerificationReport} :
    Returns (reverify py policy referenceDate report) ↔
      ∀ p, policy = some p → Readable py p report.candidates := by
  unfold reverify
  rw [buildReport_returns]
  exact forall₂_congr fun p _ => readable_congr map_valued_verifyCandidates

end Reports

end DecisionAssurance.Intake
