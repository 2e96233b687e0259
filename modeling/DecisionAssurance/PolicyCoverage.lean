import Mathlib.Tactic.Linarith
import DecisionAssurance.IntakeConflicts
import DecisionAssurance.PolicyReadability

/-!
# Which facts the policy is compared with

A comparison judges the first candidate of a type only. So every trusted fact that violates the
policy has a finding exactly where those facts are the first of their types, and durations exceed
their maximum by a whole month.
-/

namespace DecisionAssurance.Intake

def wholeNumber (n : ℤ) : DecimalNumber := .finite (decide (n < 0)) n.natAbs 0

section Violations

variable (py : Interpreter) (policy : PolicyContext) (referenceDate : ℤ)
  (candidates : List CandidateFact)

/-- The ways in which a fact among others violates the policy. -/
inductive Violates (c : CandidateFact) : Prop
  | discount {value : String} {actual limit : DecimalNumber} :
    c.factType = .discountPercent → c.normalizedValue = some value →
    decimal py value = .ok actual → decimal py policy.maximumDiscountPercent = .ok limit →
    less limit actual = .ok true → Violates c
  | margin {value : String} {actual limit : DecimalNumber} :
    c.factType = .marginPercent → c.normalizedValue = some value →
    decimal py value = .ok actual → decimal py policy.minimumMarginPercent = .ok limit →
    less actual limit = .ok true → Violates c
  | evidence {value : String} {observed : ℤ} :
    c.factType = .evidenceDate → truthy c.normalizedValue = some value →
    fromisoformat py value = .ok observed →
    policy.maximumEvidenceAgeDays < referenceDate - observed → Violates c
  | duration {value : String} {months : DecimalNumber} :
    c.factType = .durationMonths → truthy c.normalizedValue = some value →
    decimal py value = .ok months →
    less (wholeNumber policy.maximumDurationMonthsWithoutException) months = .ok true →
    verifiedException candidates policy = false → Violates c
  | amount {value : String} {number above : DecimalNumber} :
    c.factType = .amount → truthy c.normalizedValue = some value →
    decimal py value = .ok number → decimal py policy.requiresApprovalAboveAmount = .ok above →
    less number above = .ok false →
    (distinctApprovers candidates : ℤ) < policy.requiredApprovalCount → Violates c
  | override : c.factType = .untrustedInstruction → namesRole py c = true → Violates c

/-- The result code of the violations by facts of a type. -/
def violationCode : FactType → String
  | .discountPercent => "DISCOUNT_ABOVE_POLICY_LIMIT"
  | .marginPercent => "MARGIN_BELOW_POLICY_MINIMUM"
  | .evidenceDate => "EVIDENCE_OUTDATED"
  | .durationMonths => "DURATION_EXCEPTION_REQUIRED"
  | .amount => "REQUIRED_APPROVAL_MISSING"
  | .untrustedInstruction => "GOVERNANCE_OVERRIDE_ATTEMPT"
  | _ => ""

def numberText (s : String) : String :=
  valueOr (do return String.ofList (← decimal py s).text) ""

/-- What the finding of a violation says of the value of the fact. -/
def reading (item : CandidateFact) : String :=
  let value := item.normalizedValue.getD ""
  match item.factType with
  | .discountPercent | .marginPercent => numberText py value
  | .evidenceDate => valueOr (do return toString (referenceDate - (← fromisoformat py value))) ""
  | .durationMonths => value
  | _ => ""

/-- The verdict on a fact that violates the policy. -/
def verdictOn (item : CandidateFact) : Verdict :=
  let said := reading py referenceDate item
  match item.factType with
  | .discountPercent => ⟨"DISCOUNT_MAXIMUM", [item.factId],
      s!"{said} compared with {numberText py policy.maximumDiscountPercent}",
      "DISCOUNT_ABOVE_POLICY_LIMIT"⟩
  | .marginPercent => ⟨"MARGIN_MINIMUM", [item.factId],
      s!"{said} compared with {numberText py policy.minimumMarginPercent}",
      "MARGIN_BELOW_POLICY_MINIMUM"⟩
  | .evidenceDate => ⟨"EVIDENCE_FRESHNESS", [item.factId],
      s!"{said} days compared with {toString policy.maximumEvidenceAgeDays} days",
      "EVIDENCE_OUTDATED"⟩
  | .durationMonths => ⟨"DURATION_EXCEPTION", [item.factId],
      s!"{said} months compared with {toString policy.maximumDurationMonthsWithoutException} months",
      "DURATION_EXCEPTION_REQUIRED"⟩
  | .amount =>
    let required := toString policy.requiredApprovalCount
    let count := toString (distinctApprovers candidates)
    ⟨"REQUIRED_APPROVAL_COUNT",
      item.factId :: (confirmedApprovals candidates).map CandidateFact.factId,
      s!"{count} distinct authenticated approvers compared with {required}",
      "REQUIRED_APPROVAL_MISSING"⟩
  | _ => ⟨"GOVERNANCE_OVERRIDE", [item.factId],
      "untrusted input attempted to override authenticated governance roles",
      "GOVERNANCE_OVERRIDE_ATTEMPT"⟩

/-- A finding of the violation by a fact, which it refers to first. -/
def FoundOf (report : VerificationReport) (c : CandidateFact) : Prop :=
  ∃ f ∈ report.findings, f.resultCode = violationCode c.factType ∧
    f.factRefs.head? = some c.factId

/-- Every trusted fact, and every instruction of the text, that violates the policy has a finding. -/
def Covered (report : VerificationReport) : Prop :=
  ∀ c ∈ report.candidates,
    (c.verificationStatus.trusted = true ∨ c.factType = .untrustedInstruction) →
    Violates py policy referenceDate report.candidates c → FoundOf report c

/-- A duration, if it is one, above the maximum by a whole month. -/
def WholeMonths (c : CandidateFact) : Prop :=
  c.factType = .durationMonths → ∃ value number months, truthy c.normalizedValue = some value ∧
    decimal py value = .ok number ∧ number.truncate = some months ∧
    policy.maximumDurationMonthsWithoutException < months

/-- A fact of a type is the first of it, violates the policy, and by a whole month if it is a
duration. -/
structure Leads (factType : FactType) (item : CandidateFact) : Prop where
  first : factValue candidates factType = some item
  violates : Violates py policy referenceDate candidates item
  whole : WholeMonths py policy item

end Violations

/-! ## Judgements and violations -/

section Judging

variable {py : Interpreter} {policy : PolicyContext} {referenceDate : ℤ}
  {candidates : List CandidateFact} {item : CandidateFact} {v : Verdict}

theorem factValue_factType {factType : FactType} (h : factValue candidates factType = some item) :
    item.factType = factType := by
  simpa using List.find?_some h

theorem onFirst_some {factType : FactType} {judge : CandidateFact → Raises (Option Verdict)}
    (h : onFirst candidates factType judge = .ok (some v)) :
    ∃ item, factValue candidates factType = some item ∧ judge item = .ok (some v) := by
  unfold onFirst at h
  cases hitem : factValue candidates factType with
  | none =>
    rw [hitem] at h
    cases h
  | some item =>
    rw [hitem] at h
    exact ⟨item, rfl, h⟩

theorem onFirst_eq {factType : FactType} {judge : CandidateFact → Raises (Option Verdict)}
    (h : factValue candidates factType = some item) :
    onFirst candidates factType judge = judge item := by
  unfold onFirst
  rw [h]

theorem judgeLimit_some {limit : DecimalNumber}
    {violates : DecimalNumber → DecimalNumber → Raises Bool} {ruleId resultCode : String}
    (h : judgeLimit py limit violates ruleId resultCode item = .ok (some v)) :
    ∃ value actual, item.normalizedValue = some value ∧ decimal py value = .ok actual ∧
      violates actual limit = .ok true ∧ v = ⟨ruleId, [item.factId],
        s!"{String.ofList actual.text} compared with {String.ofList limit.text}", resultCode⟩ := by
  unfold judgeLimit at h
  cases hvalue : item.normalizedValue with
  | none =>
    rw [hvalue] at h
    cases h
  | some value =>
    rw [hvalue] at h
    obtain ⟨actual, hactual, h⟩ := bind_ok_cases h
    obtain ⟨violated, hviolated, h⟩ := bind_ok_cases h
    split_ifs at h with hcase
    · cases h
      rw [hcase] at hviolated
      exact ⟨value, actual, rfl, hactual, hviolated, rfl⟩
    · cases h

theorem judgeLimit_of_violates {limit actual : DecimalNumber}
    {violates : DecimalNumber → DecimalNumber → Raises Bool} {ruleId resultCode value : String}
    (hvalue : item.normalizedValue = some value) (hactual : decimal py value = .ok actual)
    (h : violates actual limit = .ok true) :
    ∃ v, judgeLimit py limit violates ruleId resultCode item = .ok (some v) := by
  unfold judgeLimit
  rw [hvalue]
  simp only [hactual, h, ok_bind]
  exact ⟨_, rfl⟩

theorem judgeEvidence_some (htype : item.factType = .evidenceDate)
    (h : judgeEvidence py policy referenceDate item = .ok (some v)) :
    ∃ value observed, truthy item.normalizedValue = some value ∧
      fromisoformat py value = .ok observed ∧
      policy.maximumEvidenceAgeDays < referenceDate - observed ∧
      v = verdictOn py policy referenceDate candidates item := by
  unfold judgeEvidence at h
  cases hvalue : truthy item.normalizedValue with
  | none =>
    rw [hvalue] at h
    cases h
  | some value =>
    rw [hvalue] at h
    obtain ⟨observed, hobserved, h⟩ := bind_ok_cases h
    dsimp only at h
    split_ifs at h with hage
    · cases h
      obtain ⟨hnormalized, -⟩ := truthy_eq_some.mp hvalue
      refine ⟨value, observed, rfl, hobserved, hage, ?_⟩
      simp only [verdictOn, reading, htype, hnormalized, Option.getD_some, hobserved]
      rfl
    · cases h

theorem judgeDuration_some (htype : item.factType = .durationMonths)
    (h : judgeDuration py candidates policy item = .ok (some v)) :
    ∃ value number months, truthy item.normalizedValue = some value ∧
      decimal py value = .ok number ∧ number.truncate = some months ∧
      policy.maximumDurationMonthsWithoutException < months ∧
      verifiedException candidates policy = false ∧
      v = verdictOn py policy referenceDate candidates item := by
  unfold judgeDuration at h
  cases hvalue : truthy item.normalizedValue with
  | none =>
    rw [hvalue] at h
    cases h
  | some value =>
    rw [hvalue] at h
    obtain ⟨number, hnumber, h⟩ := bind_ok_cases h
    obtain ⟨months, hmonths, h⟩ := bind_ok_cases h
    dsimp only at h
    split_ifs at h with hlong
    · cases h
      rw [Bool.not_eq_true] at hlong
      obtain ⟨hnormalized, -⟩ := truthy_eq_some.mp hvalue
      refine ⟨value, number, months, rfl, hnumber, orRaise_ok.mp hmonths, hlong.1, hlong.2, ?_⟩
      simp only [verdictOn, reading, htype, hnormalized, Option.getD_some]
    · cases h

theorem judgeAmount_some (htype : item.factType = .amount)
    (h : judgeAmount py candidates policy item = .ok (some v)) :
    ∃ value number above, truthy item.normalizedValue = some value ∧
      decimal py value = .ok number ∧ decimal py policy.requiresApprovalAboveAmount = .ok above ∧
      less number above = .ok false ∧
      (distinctApprovers candidates : ℤ) < policy.requiredApprovalCount ∧
      v = verdictOn py policy referenceDate candidates item := by
  unfold judgeAmount at h
  cases hvalue : truthy item.normalizedValue with
  | none =>
    rw [hvalue] at h
    cases h
  | some value =>
    rw [hvalue] at h
    obtain ⟨number, hnumber, h⟩ := bind_ok_cases h
    obtain ⟨above, habove, h⟩ := bind_ok_cases h
    obtain ⟨below, hbelow, h⟩ := bind_ok_cases h
    dsimp only at h
    split_ifs at h with hmissing
    · cases h
      rw [Bool.not_eq_true'] at hmissing
      rw [hmissing.1] at hbelow
      refine ⟨value, number, above, rfl, hnumber, habove, hbelow, hmissing.2, ?_⟩
      simp only [verdictOn, htype]
    · cases h

theorem signed_wholeNumber (n : ℤ) (p : ℕ) :
    DecimalNumber.signed (decide (n < 0)) (n.natAbs * p) = n * p := by
  unfold DecimalNumber.signed
  by_cases hn : n < 0
  · rw [decide_eq_true hn, if_pos rfl]
    push_cast
    rw [abs_of_neg hn]
    ring
  · rw [decide_eq_false hn, if_neg (by decide)]
    push_cast
    rw [abs_of_nonneg (not_lt.mp hn)]

/-- Truncated months above a maximum come from a number above it. -/
theorem less_of_truncate {number : DecimalNumber} {n months : ℤ}
    (h : number.truncate = some months) (hlt : n < months) :
    less (wholeNumber n) number = .ok true := by
  unfold less wholeNumber
  rw [orRaise_ok]
  cases number with
  | infinite s => cases h
  | nan => cases h
  | finite s c e =>
    cases e with
    | ofNat e =>
      obtain rfl := Option.some.inj h
      have hmin : min 0 (Int.ofNat e) = 0 := min_eq_left (Int.natCast_nonneg e)
      simp only [DecimalNumber.less, hmin, signed_wholeNumber, Option.some.injEq,
        decide_eq_true_eq]
      simpa using hlt
    | negSucc e =>
      obtain rfl := Option.some.inj h
      have hmin : min 0 (Int.negSucc e) = Int.negSucc e := min_eq_right (by omega)
      have hpow : (0 - Int.negSucc e).toNat = e + 1 := by omega
      simp only [DecimalNumber.less, hmin, hpow, signed_wholeNumber, Option.some.injEq,
        decide_eq_true_eq, sub_self, Int.toNat_zero, pow_zero, mul_one]
      have hpos : 0 < 10 ^ (e + 1) := by positivity
      have hdiv := Nat.div_add_mod c (10 ^ (e + 1))
      have hmod := Nat.mod_lt c hpos
      generalize hq : c / 10 ^ (e + 1) = q at *
      generalize hr : c % 10 ^ (e + 1) = r at *
      generalize 10 ^ (e + 1) = p at *
      have hcast : (c : ℤ) = p * q + r := by exact_mod_cast hdiv.symm
      have hr' : (r : ℤ) < p := by exact_mod_cast hmod
      have hr0 : (0 : ℤ) ≤ r := Int.natCast_nonneg r
      cases s with
      | false =>
        simp only [DecimalNumber.signed, Bool.false_eq_true, if_false] at hlt ⊢
        nlinarith
      | true =>
        simp only [DecimalNumber.signed, if_true] at hlt ⊢
        nlinarith

end Judging

/-! ## Verdicts and the facts they are about -/

section Verdicts

variable {py : Interpreter} {policy : PolicyContext} {referenceDate : ℤ}
  {candidates : List CandidateFact} {item : CandidateFact} {v : Verdict} {vs : List Verdict}

/-- The verdict on the fact that leads a type. -/
def Stems (py : Interpreter) (policy : PolicyContext) (referenceDate : ℤ)
    (candidates : List CandidateFact) (factType : FactType) (v : Verdict) : Prop :=
  ∃ item, Leads py policy referenceDate candidates factType item ∧
    v = verdictOn py policy referenceDate candidates item

/-- The types whose facts the policy judges. -/
def judgedTypes : List FactType := valueTypes ++ [.untrustedInstruction]

theorem violationCode_inj : ∀ s ∈ judgedTypes, ∀ t ∈ judgedTypes,
    violationCode s = violationCode t → s = t := by
  decide

/-- The codes of the findings that no value causes. -/
def otherCodes : List String :=
  ["POLICY_REFERENCE_NOT_REGISTERED", "POLICY_NOT_EFFECTIVE", "SEPARATION_OF_DUTIES_VIOLATION"]

theorem violationCode_notMem : ∀ t ∈ judgedTypes, violationCode t ∉ otherCodes := by
  decide

theorem Violates.factType_mem (h : Violates py policy referenceDate candidates item) :
    item.factType ∈ judgedTypes := by
  cases h <;> simp_all [judgedTypes, valueTypes]

theorem wholeMonths_of_ne (h : item.factType ≠ .durationMonths) : WholeMonths py policy item :=
  fun hduration => absurd hduration h

theorem verdictOn_resultCode (h : item.factType ∈ judgedTypes) :
    (verdictOn py policy referenceDate candidates item).resultCode =
      violationCode item.factType := by
  revert h
  unfold verdictOn
  cases item.factType <;> first | exact fun _ => rfl | exact fun h => absurd h (by decide)

theorem verdictOn_head? :
    (verdictOn py policy referenceDate candidates item).factRefs.head? = some item.factId := by
  unfold verdictOn
  cases item.factType <;> rfl

theorem numberText_eq {s : String} {n : DecimalNumber} (h : decimal py s = .ok n) :
    numberText py s = String.ofList n.text := by
  simp [numberText, h]

theorem discount_stems {limit : DecimalNumber}
    (hlimit : decimal py policy.maximumDiscountPercent = .ok limit)
    (h : onFirst candidates .discountPercent (judgeDiscount py limit) = .ok (some v)) :
    Stems py policy referenceDate candidates .discountPercent v := by
  obtain ⟨item, hfirst, hjudge⟩ := onFirst_some h
  obtain ⟨value, actual, hvalue, hactual, hless, rfl⟩ := judgeLimit_some hjudge
  have htype := factValue_factType hfirst
  refine ⟨item, ⟨hfirst, .discount htype hvalue hactual hlimit hless,
    wholeMonths_of_ne (by simp [htype])⟩, ?_⟩
  simp only [verdictOn, reading, htype, hvalue, Option.getD_some, numberText_eq hactual,
    numberText_eq hlimit]

theorem margin_stems {limit : DecimalNumber}
    (hlimit : decimal py policy.minimumMarginPercent = .ok limit)
    (h : onFirst candidates .marginPercent (judgeMargin py limit) = .ok (some v)) :
    Stems py policy referenceDate candidates .marginPercent v := by
  obtain ⟨item, hfirst, hjudge⟩ := onFirst_some h
  obtain ⟨value, actual, hvalue, hactual, hless, rfl⟩ := judgeLimit_some hjudge
  have htype := factValue_factType hfirst
  refine ⟨item, ⟨hfirst, .margin htype hvalue hactual hlimit hless,
    wholeMonths_of_ne (by simp [htype])⟩, ?_⟩
  simp only [verdictOn, reading, htype, hvalue, Option.getD_some, numberText_eq hactual,
    numberText_eq hlimit]

theorem evidence_stems
    (h : onFirst candidates .evidenceDate (judgeEvidence py policy referenceDate) =
      .ok (some v)) : Stems py policy referenceDate candidates .evidenceDate v := by
  obtain ⟨item, hfirst, hjudge⟩ := onFirst_some h
  have htype := factValue_factType hfirst
  obtain ⟨value, observed, hvalue, hobserved, hage, hv⟩ := judgeEvidence_some htype hjudge
  exact ⟨item, ⟨hfirst, .evidence htype hvalue hobserved hage,
    wholeMonths_of_ne (by simp [htype])⟩, hv⟩

theorem duration_stems
    (h : onFirst candidates .durationMonths (judgeDuration py candidates policy) =
      .ok (some v)) : Stems py policy referenceDate candidates .durationMonths v := by
  obtain ⟨item, hfirst, hjudge⟩ := onFirst_some h
  have htype := factValue_factType hfirst
  obtain ⟨value, number, months, hvalue, hnumber, hmonths, hlong, hexception, hv⟩ :=
    judgeDuration_some htype hjudge
  have hless := less_of_truncate hmonths hlong
  exact ⟨item, ⟨hfirst, .duration htype hvalue hnumber hless hexception,
    fun _ => ⟨value, number, months, hvalue, hnumber, hmonths, hlong⟩⟩, hv⟩

theorem amount_stems
    (h : onFirst candidates .amount (judgeAmount py candidates policy) = .ok (some v)) :
    Stems py policy referenceDate candidates .amount v := by
  obtain ⟨item, hfirst, hjudge⟩ := onFirst_some h
  have htype := factValue_factType hfirst
  obtain ⟨value, number, above, hvalue, hnumber, habove, hless, hcount, hv⟩ :=
    judgeAmount_some htype hjudge
  exact ⟨item, ⟨hfirst, .amount htype hvalue hnumber habove hless hcount,
    wholeMonths_of_ne (by simp [htype])⟩, hv⟩

theorem onFirst_judged {factType : FactType} {judge : CandidateFact → Raises (Option Verdict)}
    {result : Option Verdict} (h : onFirst candidates factType judge = .ok result)
    (hfirst : factValue candidates factType = some item)
    (hjudge : ∃ v, judge item = .ok (some v)) : ∃ v, result = some v := by
  obtain ⟨v, hv⟩ := hjudge
  rw [onFirst_eq hfirst, hv] at h
  exact ⟨v, (Except.ok.inj h).symm⟩

theorem judgeEvidence_of_violates {value : String} {observed : ℤ}
    (hvalue : truthy item.normalizedValue = some value)
    (hobserved : fromisoformat py value = .ok observed)
    (h : policy.maximumEvidenceAgeDays < referenceDate - observed) :
    ∃ v, judgeEvidence py policy referenceDate item = .ok (some v) := by
  unfold judgeEvidence
  rw [hvalue]
  simp only [hobserved, ok_bind, if_pos h]
  exact ⟨_, rfl⟩

theorem judgeDuration_of_violates {value : String} {number : DecimalNumber} {months : ℤ}
    (hvalue : truthy item.normalizedValue = some value) (hnumber : decimal py value = .ok number)
    (hmonths : number.truncate = some months)
    (hlong : policy.maximumDurationMonthsWithoutException < months)
    (hexception : verifiedException candidates policy = false) :
    ∃ v, judgeDuration py candidates policy item = .ok (some v) := by
  have horRaise : orRaise IntakeError.arithmetic number.truncate = .ok months :=
    orRaise_ok.mpr hmonths
  unfold judgeDuration
  rw [hvalue]
  simp only [hnumber, horRaise, ok_bind, hexception, hlong, Bool.false_eq_true, not_false_eq_true,
    and_self, if_true]
  exact ⟨_, rfl⟩

theorem judgeAmount_of_violates {value : String} {number above : DecimalNumber}
    (hvalue : truthy item.normalizedValue = some value) (hnumber : decimal py value = .ok number)
    (habove : decimal py policy.requiresApprovalAboveAmount = .ok above)
    (hless : less number above = .ok false)
    (hcount : (distinctApprovers candidates : ℤ) < policy.requiredApprovalCount) :
    ∃ v, judgeAmount py candidates policy item = .ok (some v) := by
  unfold judgeAmount
  rw [hvalue]
  simp only [hnumber, habove, hless, ok_bind, hcount, Bool.not_false, and_self, if_true]
  exact ⟨_, rfl⟩

/-- A verdict on a type of values is the one on the fact that leads the type. -/
theorem get_eq_some {values : ValueVerdicts}
    (h : valueVerdicts py candidates policy referenceDate = .ok values) {factType : FactType}
    (htype : factType ∈ valueTypes) :
    values.get factType = some v ↔ Stems py policy referenceDate candidates factType v := by
  obtain ⟨maximum, hmaximum, h⟩ := bind_ok_cases h
  obtain ⟨minimum, hminimum, h⟩ := bind_ok_cases h
  obtain ⟨discount, hdiscount, h⟩ := bind_ok_cases h
  obtain ⟨margin, hmargin, h⟩ := bind_ok_cases h
  obtain ⟨evidence, hevidence, h⟩ := bind_ok_cases h
  obtain ⟨duration, hduration, h⟩ := bind_ok_cases h
  obtain ⟨amount, hamount, h⟩ := bind_ok_cases h
  cases h
  have hstems : ∀ v, (ValueVerdicts.mk discount margin evidence duration amount).get factType =
      some v → Stems py policy referenceDate candidates factType v := by
    intro v hv
    cases factType with
    | discountPercent =>
      change discount = some v at hv
      exact discount_stems hmaximum (hv ▸ hdiscount)
    | marginPercent =>
      change margin = some v at hv
      exact margin_stems hminimum (hv ▸ hmargin)
    | evidenceDate =>
      change evidence = some v at hv
      exact evidence_stems (hv ▸ hevidence)
    | durationMonths =>
      change duration = some v at hv
      exact duration_stems (hv ▸ hduration)
    | amount =>
      change amount = some v at hv
      exact amount_stems (hv ▸ hamount)
    | _ => cases hv
  refine ⟨hstems v, ?_⟩
  rintro ⟨item, hleads, rfl⟩
  -- the judgement on the leading fact yields some verdict, which can only be the one on it
  suffices hsome : ∃ v, (ValueVerdicts.mk discount margin evidence duration amount).get factType =
      some v by
    obtain ⟨v, hv⟩ := hsome
    obtain ⟨other, hother, rfl⟩ := hstems v hv
    rw [hv, Option.some.inj (hother.first.symm.trans hleads.first)]
  have hkind := factValue_factType hleads.first
  obtain ⟨hfirst, hviolates, hwhole⟩ := hleads
  cases hviolates with
  | discount hdiscountType hvalue hactual hlimit hless =>
    obtain rfl : .discountPercent = factType := hdiscountType.symm.trans hkind
    obtain rfl := Except.ok.inj (hlimit.symm.trans hmaximum)
    exact onFirst_judged hdiscount hfirst (judgeLimit_of_violates hvalue hactual hless)
  | margin hmarginType hvalue hactual hlimit hless =>
    obtain rfl : .marginPercent = factType := hmarginType.symm.trans hkind
    obtain rfl := Except.ok.inj (hlimit.symm.trans hminimum)
    exact onFirst_judged hmargin hfirst (judgeLimit_of_violates hvalue hactual hless)
  | evidence hevidenceType hvalue hobserved hage =>
    obtain rfl : .evidenceDate = factType := hevidenceType.symm.trans hkind
    exact onFirst_judged hevidence hfirst (judgeEvidence_of_violates hvalue hobserved hage)
  | duration hdurationType hvalue hmonths hless hexception =>
    obtain rfl : .durationMonths = factType := hdurationType.symm.trans hkind
    obtain ⟨value, number, months, htruthy, hnumber, htruncate, hlong⟩ := hwhole hdurationType
    exact onFirst_judged hduration hfirst
      (judgeDuration_of_violates htruthy hnumber htruncate hlong hexception)
  | amount hamountType hvalue hnumber habove hless hcount =>
    obtain rfl : .amount = factType := hamountType.symm.trans hkind
    exact onFirst_judged hamount hfirst
      (judgeAmount_of_violates hvalue hnumber habove hless hcount)
  | override hoverrideType hrole =>
    obtain rfl : .untrustedInstruction = factType := hoverrideType.symm.trans hkind
    exact absurd htype (by decide)

theorem overrideVerdict_eq_some :
    overrideVerdict py candidates = some v ↔
      Stems py policy referenceDate candidates .untrustedInstruction v := by
  constructor
  · intro h
    obtain ⟨item, hitem, rfl⟩ := Option.map_eq_some_iff.mp h
    obtain ⟨hfirst, hrole⟩ := Option.filter_eq_some_iff.mp hitem
    have htype := factValue_factType hfirst
    refine ⟨item, ⟨hfirst, .override htype hrole, wholeMonths_of_ne (by simp [htype])⟩, ?_⟩
    simp only [verdictOn, htype]
  · rintro ⟨item, ⟨hfirst, hviolates, -⟩, rfl⟩
    have htype := factValue_factType hfirst
    have hrole : namesRole py item = true := by
      cases hviolates with
      | override _ hrole => exact hrole
      | _ => simp_all
    unfold overrideVerdict
    rw [hfirst, Option.filter_some, if_pos hrole]
    simp only [verdictOn, htype, Option.map_some]

theorem mem_toList {values : ValueVerdicts} :
    v ∈ values.toList ↔ ∃ t ∈ valueTypes, values.get t = some v := by
  simp [ValueVerdicts.toList, valueTypes, ValueVerdicts.get]

/-- A verdict has a code of its own, or stems from the fact that leads its type. -/
theorem code_of_mem_verdicts (h : verdicts py candidates policy referenceDate = .ok vs)
    (hv : v ∈ vs) :
    v.resultCode ∈ otherCodes ∨ ∃ t, Stems py policy referenceDate candidates t v := by
  obtain ⟨effective, heffective, h⟩ := bind_ok_cases h
  obtain ⟨values, hvalues, h⟩ := bind_ok_cases h
  cases h
  simp only [List.mem_append, Option.mem_toList] at hv
  rcases hv with (((hv | hv) | hv) | hv) | hv
  · obtain ⟨item, -, rfl⟩ := Option.map_eq_some_iff.mp hv
    exact Or.inl (by simp [otherCodes])
  · subst hv
    obtain ⟨date, -, heffective⟩ := bind_ok_cases heffective
    split_ifs at heffective
    · cases heffective
      exact Or.inl (by simp [otherCodes])
    · cases heffective
  · obtain ⟨t, ht, hget⟩ := mem_toList.mp hv
    exact Or.inr ⟨t, (get_eq_some hvalues ht).mp hget⟩
  · obtain ⟨item, -, rfl⟩ := Option.map_eq_some_iff.mp hv
    exact Or.inl (by simp [otherCodes])
  · exact Or.inr ⟨_, overrideVerdict_eq_some.mp hv⟩

theorem Stems.code {t : FactType} (h : Stems py policy referenceDate candidates t v) :
    t ∈ judgedTypes ∧ v.resultCode = violationCode t := by
  obtain ⟨item, hleads, rfl⟩ := h
  obtain rfl := factValue_factType hleads.first
  have hmem := hleads.violates.factType_mem
  exact ⟨hmem, verdictOn_resultCode hmem⟩

/-- The verdicts with the code of a type are those on the facts that lead it. -/
theorem mem_verdicts (h : verdicts py candidates policy referenceDate = .ok vs)
    {factType : FactType} (htype : factType ∈ judgedTypes) :
    v ∈ vs ∧ v.resultCode = violationCode factType ↔
      Stems py policy referenceDate candidates factType v := by
  constructor
  · rintro ⟨hv, heq⟩
    rcases code_of_mem_verdicts h hv with hother | ⟨t, hstems⟩
    · exact absurd (heq ▸ hother) (violationCode_notMem _ htype)
    · obtain ⟨hmem, ht⟩ := hstems.code
      exact violationCode_inj _ hmem _ htype (ht.symm.trans heq) ▸ hstems
  · intro hstems
    refine ⟨?_, hstems.code.2⟩
    obtain ⟨effective, -, h⟩ := bind_ok_cases h
    obtain ⟨values, hvalues, h⟩ := bind_ok_cases h
    cases h
    simp only [List.mem_append, Option.mem_toList]
    rcases List.mem_append.mp htype with hvalue | hinstruction
    · exact .inl (.inl (.inr (mem_toList.mpr ⟨_, hvalue, (get_eq_some hvalues hvalue).mpr hstems⟩)))
    · obtain rfl := List.mem_singleton.mp hinstruction
      exact .inr (overrideVerdict_eq_some.mpr hstems)

/-- A finding with the code of a type is there exactly for the fact that leads it. -/
theorem found_iff {intakeId : String}
    (h : verdicts py candidates policy referenceDate = .ok vs) {factType : FactType}
    (htype : factType ∈ judgedTypes) (factId : String) :
    (∃ f ∈ numbered intakeId policy vs, f.resultCode = violationCode factType ∧
      f.factRefs.head? = some factId) ↔
      ∃ item, Leads py policy referenceDate candidates factType item ∧ item.factId = factId := by
  constructor
  · rintro ⟨f, hf, hcode, hrefs⟩
    obtain ⟨v, hv, n, rfl⟩ := mem_numbered hf
    change v.resultCode = _ at hcode
    change v.factRefs.head? = _ at hrefs
    obtain ⟨item, hleads, rfl⟩ := (mem_verdicts h htype).mp ⟨hv, hcode⟩
    exact ⟨item, hleads, Option.some.inj (verdictOn_head?.symm.trans hrefs)⟩
  · rintro ⟨item, hleads, rfl⟩
    obtain ⟨hv, hcode⟩ := (mem_verdicts h htype).mpr ⟨item, hleads, rfl⟩
    obtain ⟨n, hn⟩ : ∃ n, (verdictOn py policy referenceDate candidates item).finding intakeId
        policy n ∈ numbered intakeId policy vs := numbered_of_mem hv
    exact ⟨_, hn, hcode, verdictOn_head?⟩

end Verdicts

/-! ## Verifications under a policy -/

section Coverage

variable (py : Interpreter) (policy : PolicyContext) (referenceDate : ℤ)

/-- What a verification is made of: an extraction, or a report to be verified again. -/
abbrev VerificationInput := ExtractionReport ⊕ VerificationReport

def VerificationInput.candidates : VerificationInput → List CandidateFact :=
  Sum.elim ExtractionReport.candidates VerificationReport.candidates

/-- `verify` or `reverify` under a policy -/
def verifyUnder : VerificationInput → Raises VerificationReport :=
  Sum.elim (verify py (some policy) referenceDate) (reverify py (some policy) referenceDate)

/-- The candidates as a verification under the policy settles them. -/
def settledUnder (input : VerificationInput) : List CandidateFact :=
  verifyCandidates py (some policy) input.candidates

/-- Every violating fact has the id of one that leads its type. -/
def FirstsOnly (candidates : List CandidateFact) : Prop :=
  ∀ c ∈ candidates, (c.verificationStatus.trusted = true ∨ c.factType = .untrustedInstruction) →
    Violates py policy referenceDate candidates c →
    ∃ item, Leads py policy referenceDate candidates c.factType item ∧ item.factId = c.factId

end Coverage

section Verifications

variable {py : Interpreter} {policy : PolicyContext} {referenceDate : ℤ}

theorem built_findings {intakeId : String} {candidates : List CandidateFact} {refs : List String}
    {conflicts : Bool} {report : VerificationReport}
    (h : buildReport py (some policy) referenceDate intakeId candidates refs conflicts =
      .ok report) : ∃ vs, verdicts py candidates policy referenceDate = .ok vs ∧
      report.findings = numbered intakeId policy vs := by
  obtain ⟨findings, hfindings, h⟩ := bind_ok_cases h
  change comparePolicy py intakeId candidates policy referenceDate = .ok findings at hfindings
  rw [comparePolicy_eq] at hfindings
  obtain ⟨vs, hvs, hfindings⟩ := bind_ok_cases hfindings
  cases hfindings
  cases h
  exact ⟨vs, hvs, rfl⟩

theorem verifyUnder_ok {input : VerificationInput} {report : VerificationReport}
    (h : verifyUnder py policy referenceDate input = .ok report) :
    report.candidates = settledUnder py policy input ∧
      ∃ intakeId vs, verdicts py (settledUnder py policy input) policy referenceDate = .ok vs ∧
      report.findings = numbered intakeId policy vs := by
  cases input with
  | inl extraction =>
    obtain ⟨vs, hvs, hfindings⟩ := built_findings h
    exact ⟨(buildReport_ok h).2.1, _, vs, hvs, hfindings⟩
  | inr before =>
    obtain ⟨vs, hvs, hfindings⟩ := built_findings h
    exact ⟨(buildReport_ok h).2.1, _, vs, hvs, hfindings⟩

end Verifications

/-- A verification under a policy covers the violating facts exactly if each is the first of its
type, and longer than allowed by a whole month if it is a duration. -/
theorem covered_iff (py : Interpreter) (policy : PolicyContext) (referenceDate : ℤ)
    (input : VerificationInput) (report : VerificationReport)
    (h : verifyUnder py policy referenceDate input = .ok report) :
    Covered py policy referenceDate report ↔
      FirstsOnly py policy referenceDate (settledUnder py policy input) := by
  obtain ⟨hcandidates, intakeId, vs, hvs, hfindings⟩ := verifyUnder_ok h
  unfold Covered FirstsOnly FoundOf
  rw [hcandidates, hfindings]
  apply forall₂_congr
  intro c _
  apply forall₂_congr
  intro _ hviolates
  exact found_iff hvs hviolates.factType_mem c.factId

/-! ## Two durations -/

def quoteInput (text : String) : VerificationInput := .inl (quoteOf text)

theorem covered_discount : ∃ report,
    verifyUnder asciiInterpreter quotePolicy 739617 (quoteInput "rabatt15%") = .ok report ∧
      Covered asciiInterpreter quotePolicy 739617 report := by
  have hsome : (toOption (verifyUnder asciiInterpreter quotePolicy 739617
      (quoteInput "rabatt15%"))).isSome = true := by
    rfl
  obtain ⟨report, hreport⟩ := Option.isSome_iff_exists.mp hsome
  rw [toOption_eq_some] at hreport
  refine ⟨report, hreport, (covered_iff _ _ _ _ _ hreport).mpr ?_⟩
  have hone : ∀ c ∈ settledUnder asciiInterpreter quotePolicy (quoteInput "rabatt15%"),
      c.factType = .discountPercent ∧ factValue (settledUnder asciiInterpreter quotePolicy
        (quoteInput "rabatt15%")) c.factType = some c := by
    decide +kernel
  intro c hc _ hviolates
  obtain ⟨htype, hfirst⟩ := hone c hc
  exact ⟨c, ⟨hfirst, hviolates, wholeMonths_of_ne (by simp [htype])⟩, rfl⟩

/-- The second of two durations is above the maximum, and nothing is found. -/
theorem second_duration_uncovered : ¬∀ (py : Interpreter) (policy : PolicyContext)
    (referenceDate : ℤ) (input : VerificationInput) (report : VerificationReport),
    verifyUnder py policy referenceDate input = .ok report →
      Covered py policy referenceDate report := by
  intro h
  have hend : (toOption (verifyUnder asciiInterpreter quotePolicy 739617
      (quoteInput "term6month term24month"))).any (fun report => report.findings = [] ∧
        verifiedException report.candidates quotePolicy = false ∧ report.candidates.any fun c =>
          c.factType = .durationMonths ∧ c.verificationStatus = .verified ∧
            truthy c.normalizedValue = some "24") = true := by
    decide
  obtain ⟨report, hreport, hend⟩ := (Option.any_eq_true _ _).mp hend
  obtain ⟨hfindings, hexception, hany⟩ := of_decide_eq_true hend
  obtain ⟨c, hc, hcase⟩ := List.any_eq_true.mp hany
  obtain ⟨htype, hstatus, hvalue⟩ := of_decide_eq_true hcase
  have hviolates : Violates asciiInterpreter quotePolicy 739617 report.candidates c := by
    have hnumber : decimal asciiInterpreter "24" = .ok (.finite false 24 0) := by
      rfl
    exact .duration htype hvalue hnumber (by decide) hexception
  have htrusted : c.verificationStatus.trusted = true := by
    rw [hstatus]
    rfl
  obtain ⟨f, hf, -⟩ := h _ _ _ _ report (toOption_eq_some.mp hreport) c hc (.inl htrusted)
    hviolates
  rw [hfindings] at hf
  cases hf

end DecisionAssurance.Intake
