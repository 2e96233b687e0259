import DecisionAssurance.FastReadiness

/-!
# What the intake raises

Under a well-formed policy a verification returns exactly if the first values of the types that are
compared can be read, and confirmations keep to their own exception exactly if no accepted
correction gives such a fact a value that cannot be read.
-/

namespace DecisionAssurance.Intake

section Values

variable (py : Interpreter)

/-- The decimal texts and the date of the policy can be read. -/
structure WellFormed (policy : PolicyContext) : Prop where
  effective : Returns (fromisoformat py policy.effectiveDate)
  maximum : ReadsNumber py policy.maximumDiscountPercent
  minimum : ReadsNumber py policy.minimumMarginPercent
  above : ReadsNumber py policy.requiresApprovalAboveAmount

/-- The text can be read as a value of the type; an empty one is no value of some types. -/
def ReadableAs : FactType → String → Prop
  | .discountPercent, s | .marginPercent, s => ReadsNumber py s
  | .evidenceDate, s => s ≠ "" → Returns (fromisoformat py s)
  | .durationMonths, s => s ≠ "" → ∃ n, decimal py s = .ok n ∧ n.truncate.isSome = true
  | .amount, s => s ≠ "" → ReadsNumber py s
  | _, _ => True

/-- The first candidate of every type that the policy reads can be read. -/
def FirstsReadable (candidates : List CandidateFact) : Prop :=
  ∀ factType ∈ valueTypes, FirstValue candidates factType (ReadableAs py factType)

/-- The call does not correct the first fact of a type to a text that cannot be read. -/
def ReadableCorrection (candidates : List CandidateFact) (call : ConfirmationCall) : Prop :=
  call.action = "CORRECT" → ∀ c, factValue candidates c.factType = some c →
    c.factId = call.factId → ∀ value, call.newValue = some value → ReadableAs py c.factType value

end Values

section Readability

variable {py : Interpreter} {policy : PolicyContext} {candidates : List CandidateFact}
  {call : ConfirmationCall}

theorem readable_iff (h : WellFormed py policy) :
    Readable py policy candidates ↔ FirstsReadable py candidates := by
  constructor
  · intro hread factType htype
    cases factType with
    | discountPercent => exact fun c hc s hs => (hread.discount c hc s hs).1
    | marginPercent => exact fun c hc s hs => (hread.margin c hc s hs).1
    | evidenceDate => exact hread.evidence
    | durationMonths => exact hread.duration
    | amount => exact fun c hc s hs hne => (hread.amount c hc s hs hne).1
    | _ => exact absurd htype (by decide)
  · intro hread
    obtain ⟨maximum, hmaximum, -⟩ := h.maximum
    obtain ⟨minimum, hminimum, -⟩ := h.minimum
    constructor
    · exact h.effective
    · exact ⟨maximum, hmaximum⟩
    · exact ⟨minimum, hminimum⟩
    · exact fun c hc s hs => ⟨hread .discountPercent (by decide) c hc s hs, h.maximum⟩
    · exact fun c hc s hs => ⟨hread .marginPercent (by decide) c hc s hs, h.minimum⟩
    · exact hread .evidenceDate (by decide)
    · exact hread .durationMonths (by decide)
    · exact fun c hc s hs hne => ⟨hread .amount (by decide) c hc s hs hne, h.above⟩

theorem firstsReadable_congr {others : List CandidateFact}
    (h : others.map CandidateFact.valued = candidates.map CandidateFact.valued) :
    FirstsReadable py others ↔ FirstsReadable py candidates :=
  forall₂_congr fun _ _ => firstValue_congr h

theorem replaced_eq_map_confirmed (hnodup : (candidates.map CandidateFact.factId).Nodup) :
    replaced call candidates = candidates.map (confirmed call) := by
  unfold replaced
  cases hfind : candidates.find? fun c => c.factId = call.factId with
  | none =>
    change candidates = _
    conv_lhs => rw [← List.map_id candidates]
    apply List.map_congr_left
    intro c hc
    have hne : c.factId ≠ call.factId := by simpa using List.find?_eq_none.mp hfind c hc
    exact (if_neg hne).symm
  | some current =>
    have hmem := List.mem_of_find?_eq_some hfind
    have hid : current.factId = call.factId := by simpa using List.find?_some hfind
    apply List.map_congr_left
    intro c hc
    unfold confirmed
    split_ifs with hsame
    · rw [List.inj_on_of_nodup_map hnodup hc hmem (hsame.trans hid.symm)]
    · rfl

theorem factValue_map_confirmed (factType : FactType) :
    factValue (candidates.map (confirmed call)) factType =
      (factValue candidates factType).map (confirmed call) := by
  unfold factValue
  rw [List.find?_map]
  simp only [Function.comp_def, confirmed_factType]

theorem confirmed_normalizedValue (c : CandidateFact) : (confirmed call c).normalizedValue =
    if c.factId = call.factId ∧ call.action = "CORRECT" then call.newValue
    else c.normalizedValue := by
  unfold confirmed updatedFact
  by_cases hid : c.factId = call.factId <;> simp [hid]

/-- The values stay readable through a call exactly if it makes a readable correction. -/
theorem firstsReadable_replaced (hnodup : (candidates.map CandidateFact.factId).Nodup)
    (hread : FirstsReadable py candidates) :
    FirstsReadable py (replaced call candidates) ↔ ReadableCorrection py candidates call := by
  rw [replaced_eq_map_confirmed hnodup]
  have hfirst : ∀ factType, FirstValue (candidates.map (confirmed call)) factType
      (ReadableAs py factType) ↔ ∀ c, factValue candidates factType = some c →
        ∀ value, (confirmed call c).normalizedValue = some value → ReadableAs py factType value := by
    intro factType
    unfold FirstValue
    rw [factValue_map_confirmed]
    simp
  unfold FirstsReadable
  simp only [hfirst]
  constructor
  · intro h haction c hc hid value hvalue
    by_cases htype : c.factType ∈ valueTypes
    · apply h c.factType htype c hc
      rw [confirmed_normalizedValue, if_pos ⟨hid, haction⟩]
      exact hvalue
    · revert htype
      cases c.factType <;> first | exact fun _ => trivial | exact fun h => absurd (by decide) h
  · intro h factType htype c hc value hvalue
    rw [confirmed_normalizedValue] at hvalue
    split_ifs at hvalue with hcorrect
    · have hkind : c.factType = factType := by simpa using List.find?_some hc
      subst hkind
      exact h hcorrect.2 c hc hcorrect.1 value hvalue
    · exact hread factType htype c hc value hvalue

end Readability

/-! ## What is raised -/

section Raising

variable {py : Interpreter} {policy : PolicyContext} {referenceDate : ℤ}
  {candidates : List CandidateFact} {item : CandidateFact}

/-- The computation raises nothing but the errors of numbers and dates. -/
def OnlyArithmetic {α : Type} (x : Raises α) : Prop := ∀ e, x = .error e → e = .arithmetic

theorem onlyArithmetic_ok {α : Type} (a : α) : OnlyArithmetic (.ok a : Raises α) := by
  intro e h
  cases h

theorem onlyArithmetic_pure {α : Type} (a : α) : OnlyArithmetic (pure a : Raises α) :=
  onlyArithmetic_ok a

theorem onlyArithmetic_orRaise {α : Type} (x : Option α) :
    OnlyArithmetic (orRaise IntakeError.arithmetic x) := by
  intro e h
  exact (orRaise_error.mp h).2.symm

theorem OnlyArithmetic.bind {α β : Type} {x : Raises α} {f : α → Raises β}
    (hx : OnlyArithmetic x) (hf : ∀ a, OnlyArithmetic (f a)) : OnlyArithmetic (x >>= f) := by
  intro e h
  rcases bind_error_cases h with h | ⟨a, -, h⟩
  · exact hx e h
  · exact hf a e h

theorem OnlyArithmetic.ite {α : Type} {c : Prop} [Decidable c] {x y : Raises α}
    (hx : OnlyArithmetic x) (hy : OnlyArithmetic y) : OnlyArithmetic (if c then x else y) := by
  split_ifs
  · exact hx
  · exact hy

theorem onlyArithmetic_onFirst {factType : FactType}
    {judge : CandidateFact → Raises (Option Verdict)} (h : ∀ c, OnlyArithmetic (judge c)) :
    OnlyArithmetic (onFirst candidates factType judge) := by
  unfold onFirst
  cases factValue candidates factType with
  | none => exact onlyArithmetic_pure _
  | some c => exact h c

theorem onlyArithmetic_judgeLimit {limit : DecimalNumber}
    {violates : DecimalNumber → DecimalNumber → Raises Bool} {ruleId resultCode : String}
    (h : ∀ a, OnlyArithmetic (violates a limit)) :
    OnlyArithmetic (judgeLimit py limit violates ruleId resultCode item) := by
  unfold judgeLimit
  cases item.normalizedValue with
  | none => exact onlyArithmetic_pure _
  | some value =>
    apply (onlyArithmetic_orRaise _).bind
    intro actual
    apply (h actual).bind
    intro violated
    exact (onlyArithmetic_pure _).ite (onlyArithmetic_pure _)

theorem onlyArithmetic_judgeEvidence :
    OnlyArithmetic (judgeEvidence py policy referenceDate item) := by
  unfold judgeEvidence
  cases truthy item.normalizedValue with
  | none => exact onlyArithmetic_pure _
  | some value =>
    apply (onlyArithmetic_orRaise _).bind
    intro observed
    exact (onlyArithmetic_pure _).ite (onlyArithmetic_pure _)

theorem onlyArithmetic_judgeDuration :
    OnlyArithmetic (judgeDuration py candidates policy item) := by
  unfold judgeDuration
  cases truthy item.normalizedValue with
  | none => exact onlyArithmetic_pure _
  | some value =>
    apply (onlyArithmetic_orRaise _).bind
    intro number
    apply (onlyArithmetic_orRaise _).bind
    intro months
    exact (onlyArithmetic_pure _).ite (onlyArithmetic_pure _)

theorem onlyArithmetic_judgeAmount :
    OnlyArithmetic (judgeAmount py candidates policy item) := by
  unfold judgeAmount
  cases truthy item.normalizedValue with
  | none => exact onlyArithmetic_pure _
  | some value =>
    apply (onlyArithmetic_orRaise _).bind
    intro number
    apply (onlyArithmetic_orRaise _).bind
    intro above
    apply (onlyArithmetic_orRaise _).bind
    intro below
    exact (onlyArithmetic_pure _).ite (onlyArithmetic_pure _)

theorem onlyArithmetic_verdicts :
    OnlyArithmetic (verdicts py candidates policy referenceDate) := by
  have heffective : OnlyArithmetic (effectiveVerdict py policy referenceDate) := by
    apply (onlyArithmetic_orRaise _).bind
    intro effective
    exact (onlyArithmetic_pure _).ite (onlyArithmetic_pure _)
  have hvalues : OnlyArithmetic (valueVerdicts py candidates policy referenceDate) := by
    apply (onlyArithmetic_orRaise _).bind
    intro maximum
    apply (onlyArithmetic_orRaise _).bind
    intro minimum
    apply (onlyArithmetic_onFirst fun c => onlyArithmetic_judgeLimit fun a =>
      onlyArithmetic_orRaise _).bind
    intro discount
    apply (onlyArithmetic_onFirst fun c => onlyArithmetic_judgeLimit fun a =>
      onlyArithmetic_orRaise _).bind
    intro margin
    apply (onlyArithmetic_onFirst fun c => onlyArithmetic_judgeEvidence).bind
    intro evidence
    apply (onlyArithmetic_onFirst fun c => onlyArithmetic_judgeDuration).bind
    intro duration
    apply (onlyArithmetic_onFirst fun c => onlyArithmetic_judgeAmount).bind
    intro amount
    exact onlyArithmetic_pure _
  apply heffective.bind
  intro effective
  apply hvalues.bind
  intro values
  exact onlyArithmetic_pure _

theorem onlyArithmetic_reverify {report : VerificationReport} :
    OnlyArithmetic (reverify py (some policy) referenceDate report) := by
  unfold reverify buildReport policyFindings
  dsimp only
  rw [comparePolicy_eq]
  apply (onlyArithmetic_verdicts.bind fun vs => onlyArithmetic_pure _).bind
  intro findings
  exact onlyArithmetic_pure _

theorem checkConfirmation_error {call : ConfirmationCall} {e : IntakeError}
    (h : checkConfirmation call = .error e) : ∃ code, e = .confirmation code := by
  unfold checkConfirmation at h
  dsimp only at h
  by_cases hkind : call.identity.kind = .human
  · rw [if_neg (not_not.mpr hkind)] at h
    by_cases hauthorized : call.identity.authorized .intakeConfirm = true
    · rw [if_neg (by simp [hauthorized])] at h
      by_cases haction : call.action ∈ ["CONFIRM", "CORRECT", "REJECT"]
      · rw [if_neg (not_not.mpr haction)] at h
        by_cases hvalue : call.action = "CORRECT" ∧ truthy call.newValue = none
        · rw [if_pos hvalue] at h
          cases h
          exact ⟨_, rfl⟩
        · rw [if_neg hvalue] at h
          by_cases hreason : isBlank call.reason = true
          · rw [if_pos hreason] at h
            cases h
            exact ⟨_, rfl⟩
          · rw [if_neg hreason] at h
            cases h
      · rw [if_pos haction] at h
        cases h
        exact ⟨_, rfl⟩
    · rw [if_pos (by simp [hauthorized])] at h
      cases h
      exact ⟨_, rfl⟩
  · rw [if_pos hkind] at h
    cases h
    exact ⟨_, rfl⟩

/-- A confirmation raises its own exception only. -/
theorem confirmFact_error {call : ConfirmationCall} {report : VerificationReport} {e : IntakeError}
    (h : confirmFact py call report = .error e) : ∃ code, e = .confirmation code := by
  rcases bind_error_cases h with h | ⟨⟨⟩, -, h⟩
  · exact checkConfirmation_error h
  · rcases bind_error_cases h with h | ⟨current, -, h⟩
    · exact ⟨_, (orRaise_error.mp h).2.symm⟩
    · cases h

end Raising

/-! ## Confirmations with the verification after each -/

section Attempts

variable (py : Interpreter) (policy : PolicyContext)

structure Attempt where
  call : ConfirmationCall
  referenceDate : ℤ

/-- `confirm_fact` and then `reverify` -/
def attempt (report : VerificationReport) (a : Attempt) : Raises VerificationReport := do
  let result ← confirmFact py a.call report
  reverify py (some policy) a.referenceDate result.1

/-- After an exception the report is the one before. -/
def Attempts (before : VerificationReport) (a : Attempt) (after : VerificationReport) : Prop :=
  after = valueOr (attempt py policy before a) before

/-- What the attempt raises, if anything, is a rejected confirmation. -/
def OnlyRejects (x : Runs.Transition VerificationReport Attempt) : Prop :=
  ∀ e, attempt py policy x.before x.label = .error e → ∃ code, e = .confirmation code

/-- The call passes the checks of a confirmation and names a fact. -/
def Confirmable (call : ConfirmationCall) (report : VerificationReport) : Prop :=
  checkConfirmation call = .ok () ∧ ∃ c ∈ report.candidates, c.factId = call.factId

/-- A call that is carried out makes a readable correction. -/
def KeepsReadable (x : Runs.Transition VerificationReport Attempt) : Prop :=
  Confirmable x.label.call x.before → ReadableCorrection py x.before.candidates x.label.call

/-- Distinct facts, of which the policy can read those it compares. -/
structure Sound (report : VerificationReport) : Prop where
  distinct : (report.candidates.map CandidateFact.factId).Nodup
  readable : FirstsReadable py report.candidates

variable {py policy} {report before after : VerificationReport} {a : Attempt}

theorem confirmFact_returns {call : ConfirmationCall} :
    Returns (confirmFact py call report) ↔ Confirmable call report := by
  unfold confirmFact
  rw [returns_bind]
  constructor
  · rintro ⟨⟨⟩, hcheck, h⟩
    obtain ⟨current, hfind, -⟩ := returns_bind.mp h
    rw [orRaise_ok] at hfind
    refine ⟨hcheck, current, List.mem_of_find?_eq_some hfind, ?_⟩
    simpa using List.find?_some hfind
  · rintro ⟨hcheck, c, hc, hid⟩
    obtain ⟨current, hfind⟩ := Option.isSome_iff_exists.mp
      (List.find?_isSome.mpr ⟨c, hc, by simpa using hid⟩ :
        (report.candidates.find? fun c => c.factId = call.factId).isSome = true)
    exact ⟨(), hcheck, returns_bind.mpr ⟨current, orRaise_ok.mpr hfind, returns_pure _⟩⟩

/-- An attempt from a sound report rejects at most exactly if it keeps the values readable. -/
theorem onlyRejects_iff {x : Runs.Transition VerificationReport Attempt}
    (hpolicy : WellFormed py policy) (h : Sound py x.before) :
    OnlyRejects py policy x ↔ KeepsReadable py x := by
  have hreturns : ∀ updated confirmation,
      confirmFact py x.label.call x.before = .ok (updated, confirmation) →
        (Returns (reverify py (some policy) x.label.referenceDate updated) ↔
          ReadableCorrection py x.before.candidates x.label.call) := by
    intro updated confirmation hconfirm
    rw [reverify_returns, (confirmFact_replaced hconfirm).1,
      ← firstsReadable_replaced h.distinct h.readable, ← readable_iff hpolicy]
    simp
  constructor
  · intro honly hconfirmable
    obtain ⟨⟨updated, confirmation⟩, hconfirm⟩ := confirmFact_returns.mpr hconfirmable
    rw [← hreturns updated confirmation hconfirm]
    cases hreverify : reverify py (some policy) x.label.referenceDate updated with
    | ok after => exact ⟨after, rfl⟩
    | error e =>
      have hattempt : attempt py policy x.before x.label = .error e := by
        unfold attempt
        rw [hconfirm]
        exact hreverify
      obtain ⟨code, rfl⟩ := honly e hattempt
      cases onlyArithmetic_reverify _ hreverify
  · intro hkeeps e hattempt
    rcases bind_error_cases hattempt with herror | ⟨⟨updated, confirmation⟩, hconfirm, herror⟩
    · exact confirmFact_error herror
    · obtain ⟨after, hafter⟩ := (hreturns updated confirmation hconfirm).mpr
        (hkeeps (confirmFact_returns.mp ⟨_, hconfirm⟩))
      cases hafter.symm.trans herror

theorem sound_step (hpolicy : WellFormed py policy) (h : Sound py before)
    (hstep : Attempts py policy before a after) : Sound py after := by
  unfold Attempts at hstep
  cases hattempt : attempt py policy before a with
  | error e =>
    rw [hattempt] at hstep
    exact hstep ▸ h
  | ok report =>
    rw [hattempt] at hstep
    obtain rfl : after = report := hstep
    obtain ⟨⟨updated, confirmation⟩, hconfirm, hreverify⟩ := bind_ok_cases hattempt
    have hcandidates := (buildReport_ok hreverify).2.1
    have hread := reverify_returns.mp ⟨after, hreverify⟩ policy rfl
    constructor
    · rw [hcandidates, verifyCandidates_eq_map, List.map_map, (confirmFact_replaced hconfirm).1,
        replaced_eq_map_confirmed h.distinct, List.map_map]
      simpa [Function.comp_def] using h.distinct
    · rw [hcandidates, firstsReadable_congr map_valued_verifyCandidates, ← readable_iff hpolicy]
      exact hread

end Attempts

/-- Under a well-formed policy an extracted text is verified exactly if its first values can be
read, and confirmations of the report raise rejections only exactly if the corrections that are
carried out can be read. -/
theorem pipeline_raises_iff (py : Interpreter) (policy : PolicyContext)
    (hpolicy : WellFormed py policy) (referenceDate : ℤ) (rawInput locale intakeId : String) :
    (Returns (verify py (some policy) referenceDate
        (QuoteExtractor.extract py rawInput locale intakeId)) ↔
      FirstsReadable py (QuoteExtractor.extract py rawInput locale intakeId).candidates) ∧
    ∀ report last tr, verify py (some policy) referenceDate
        (QuoteExtractor.extract py rawInput locale intakeId) = .ok report →
      Runs.Run (Attempts py policy) report tr last →
      ((∀ x ∈ tr, OnlyRejects py policy x) ↔ ∀ x ∈ tr, KeepsReadable py x) := by
  constructor
  · rw [verify_returns, ← readable_iff hpolicy]
    simp
  · intro report last tr hverify hrun
    have hsound : Sound py report := by
      constructor
      · exact (verified_of_verify hverify).distinct
      · rw [(buildReport_ok hverify).2.1, firstsReadable_congr map_valued_verifyCandidates,
          ← readable_iff hpolicy]
        exact verify_returns.mp ⟨report, hverify⟩ policy rfl
    apply forall₂_congr
    intro x hx
    obtain ⟨pre, post, rfl⟩ := List.append_of_mem hx
    obtain ⟨hpre, -, -⟩ := hrun.split
    have hbefore := hpre.invariant_state (Sound py) hsound fun t a u ht hs =>
      sound_step hpolicy ht hs
    exact onlyRejects_iff hpolicy hbefore

/-! ## An amount with two points -/

theorem wellFormed_quotePolicy : WellFormed asciiInterpreter quotePolicy where
  effective := ⟨739617, by decide⟩
  maximum := ⟨.finite false 10 0, by decide⟩
  minimum := ⟨.finite false 1 0, by decide⟩
  above := ⟨.finite false 1000 0, by decide⟩

/-- The amount is corrected to another one. -/
def correctAmount : Attempt := ⟨{ confirmFirst "CORRECT" with newValue := some "2" }, 739617⟩

theorem pipeline_raises_quote : WellFormed asciiInterpreter quotePolicy ∧
    FirstsReadable asciiInterpreter (quoteOf "1€").candidates ∧
    ∃ report last, verify asciiInterpreter (some quotePolicy) 739617 (quoteOf "1€") = .ok report ∧
      Runs.Run (Attempts asciiInterpreter quotePolicy) report [⟨report, correctAmount, last⟩] last ∧
      last.candidates.map CandidateFact.normalizedValue = [some "2"] ∧
      OnlyRejects asciiInterpreter quotePolicy ⟨report, correctAmount, last⟩ := by
  have hquote : (toOption (verify asciiInterpreter (some quotePolicy) 739617 (quoteOf "1€"))).any
      (fun report => report.candidates.all (fun c => c.factType = .amount) &&
        (toOption (attempt asciiInterpreter quotePolicy report correctAmount)).any fun last =>
          last.candidates.map CandidateFact.normalizedValue = [some "2"]) = true := by
    decide +kernel
  obtain ⟨report, hreport, hquote⟩ := (Option.any_eq_true _ _).mp hquote
  rw [Bool.and_eq_true, List.all_eq_true] at hquote
  obtain ⟨hamount, hcorrected⟩ := hquote
  obtain ⟨last, hlast, hvalue⟩ := (Option.any_eq_true _ _).mp hcorrected
  rw [toOption_eq_some] at hreport hlast
  obtain ⟨hverify, hattempts⟩ := pipeline_raises_iff asciiInterpreter quotePolicy
    wellFormed_quotePolicy 739617 "1€" "en" "quote"
  have hrun : Runs.Run (Attempts asciiInterpreter quotePolicy) report
      [⟨report, correctAmount, last⟩] last :=
    .single (by rw [Attempts, hlast]; rfl)
  have hkeeps : ∀ x ∈ [⟨report, correctAmount, last⟩], KeepsReadable asciiInterpreter x := by
    rw [List.forall_mem_singleton]
    rintro - - c hc - value hnew
    obtain rfl : "2" = value := Option.some.inj hnew
    have htype := of_decide_eq_true (hamount c (List.mem_of_find?_eq_some hc))
    rw [htype]
    exact fun _ => ⟨.finite false 2 0, by decide⟩
  exact ⟨wellFormed_quotePolicy, hverify.mp ⟨report, hreport⟩, report, last, hreport, hrun,
    of_decide_eq_true hvalue, (hattempts report last _ hreport hrun).mpr hkeeps _
      (List.mem_singleton_self _)⟩

/-- An amount grouped by points stays as it is in an English text, and cannot be read. -/
theorem pipeline_raises_points : ¬∀ (py : Interpreter) (policy : PolicyContext),
    WellFormed py policy → ∀ (referenceDate : ℤ) (rawInput locale intakeId : String),
      locale = "de" ∨ locale = "en" →
      Returns (verify py (some policy) referenceDate
        (QuoteExtractor.extract py rawInput locale intakeId)) ∧
      ∀ report last tr, verify py (some policy) referenceDate
          (QuoteExtractor.extract py rawInput locale intakeId) = .ok report →
        Runs.Run (Attempts py policy) report tr last → ∀ x ∈ tr, OnlyRejects py policy x := by
  intro h
  obtain ⟨⟨report, hreport⟩, -⟩ := h asciiInterpreter quotePolicy wellFormed_quotePolicy 739617
    "1.234.567€" "en" "quote" (.inr rfl)
  have hnone : toOption (verify asciiInterpreter (some quotePolicy) 739617
      (quoteOf "1.234.567€")) = none := by
    decide
  change verify asciiInterpreter (some quotePolicy) 739617 (quoteOf "1.234.567€") = .ok report
    at hreport
  rw [toOption_eq_some.mpr hreport] at hnone
  cases hnone

end DecisionAssurance.Intake
