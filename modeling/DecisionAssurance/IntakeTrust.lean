import DecisionAssurance.DecisionContract
import DecisionAssurance.IntakeVerification
import DecisionAssurance.Runs

/-!
# What the passes may do to a candidate

The three passes of a verification change one status at a time, so they are one function on
candidates. From it: raw text confers no authority along any sequence of verifications and
confirmations.
-/

namespace DecisionAssurance.Intake

/-! ## The passes as one function -/

section Settling

variable (py : Interpreter)

@[simp] theorem verifyCandidate_factId (c : CandidateFact) :
    (verifyCandidate c).factId = c.factId := by
  unfold verifyCandidate
  split_ifs <;> rfl

@[simp] theorem verifyCandidate_factType (c : CandidateFact) :
    (verifyCandidate c).factType = c.factType := by
  unfold verifyCandidate
  split_ifs <;> rfl

@[simp] theorem verifyCandidate_source (c : CandidateFact) :
    (verifyCandidate c).source = c.source := by
  unfold verifyCandidate
  split_ifs <;> rfl

@[simp] theorem verifyCandidate_normalizedValue (c : CandidateFact) :
    (verifyCandidate c).normalizedValue = c.normalizedValue := by
  unfold verifyCandidate
  split_ifs <;> rfl

/-- Whether a pass after the first rejects the candidate. -/
def rejectedByPass (policy : Option PolicyContext) (candidates : List CandidateFact)
    (c : CandidateFact) : Bool :=
  (c.factType ∈ governanceClaims ∧ c.embedded candidates) ∨
    (c.factType = .policyClaim ∧ policy.any fun policy =>
      !QuoteExtractor.contains (py.lowerText policy.policyId)
        (py.lowerText (c.normalizedValue.getD "")))

/-- What `verify` and `reverify` make of a candidate among others. -/
def settle (policy : Option PolicyContext) (candidates : List CandidateFact)
    (c : CandidateFact) : CandidateFact :=
  if rejectedByPass py policy candidates c then (verifyCandidate c).reject else verifyCandidate c

variable {py} {policy : Option PolicyContext} {candidates others : List CandidateFact}
  {c : CandidateFact}

@[simp] theorem settle_factId : (settle py policy candidates c).factId = c.factId := by
  unfold settle
  split_ifs <;> simp [CandidateFact.reject]

@[simp] theorem settle_factType : (settle py policy candidates c).factType = c.factType := by
  unfold settle
  split_ifs <;> simp [CandidateFact.reject]

@[simp] theorem settle_source : (settle py policy candidates c).source = c.source := by
  unfold settle
  split_ifs <;> simp [CandidateFact.reject]

@[simp] theorem settle_normalizedValue :
    (settle py policy candidates c).normalizedValue = c.normalizedValue := by
  unfold settle
  split_ifs <;> simp [CandidateFact.reject]

/-- What the spans of the instructions depend on. -/
def CandidateFact.span (c : CandidateFact) : FactType × SourceReference := (c.factType, c.source)

theorem embedded_iff : c.embedded candidates = true ↔ ∃ i ∈ candidates,
    i.factType = .untrustedInstruction ∧ i.source.start < c.source.stop ∧
      c.source.start < i.source.stop := by
  simp [CandidateFact.embedded]

theorem embedded_congr {d : CandidateFact} (hspan : d.span = c.span)
    (h : others.map CandidateFact.span = candidates.map CandidateFact.span) :
    d.embedded others = c.embedded candidates := by
  obtain ⟨-, hsource⟩ := Prod.mk.inj hspan
  have hread : ∀ cs : List CandidateFact, ∀ e : CandidateFact, e.embedded cs =
      ((cs.map CandidateFact.span).filter fun s => s.1 = .untrustedInstruction).any fun s =>
        s.2.start < e.source.stop ∧ e.source.start < s.2.stop := by
    intro cs e
    rw [List.filter_map, List.any_map]
    rfl
  rw [hread others d, hread candidates c, h, hsource]

theorem map_span_settle : (candidates.map (settle py policy others)).map CandidateFact.span =
    candidates.map CandidateFact.span := by
  rw [List.map_map]
  apply List.map_congr_left
  intro c _
  simp [CandidateFact.span]

theorem verifyCandidates_eq_map (candidates : List CandidateFact) :
    verifyCandidates py policy candidates = candidates.map (settle py policy candidates) := by
  have hembedded : ∀ c, (verifyCandidate c).embedded (candidates.map verifyCandidate) =
      c.embedded candidates := by
    intro c
    apply embedded_congr
    · simp [CandidateFact.span]
    · simp [CandidateFact.span, Function.comp_def]
  unfold verifyCandidates rejectEmbeddedGovernanceClaims
  cases policy with
  | none =>
    simp only [verifyPolicyReferences, List.map_map]
    apply List.map_congr_left
    intro c _
    simp only [Function.comp_apply, verifyCandidate_factType, hembedded, settle, rejectedByPass,
      Option.any_none, Bool.false_eq_true, and_false, or_false, decide_eq_true_eq]
  | some policy =>
    simp only [verifyPolicyReferences, List.map_map]
    apply List.map_congr_left
    intro c _
    simp only [Function.comp_apply, verifyCandidate_factType, hembedded, settle, rejectedByPass,
      Option.any_some, decide_eq_true_eq, Bool.not_eq_true', Bool.not_eq_true]
    by_cases hin : c.factType ∈ governanceClaims ∧ c.embedded candidates = true
    · rw [if_pos hin, if_pos (Or.inl hin)]
      split_ifs
      · rfl
      · rfl
    · rw [if_neg hin]
      simp only [verifyCandidate_factType, verifyCandidate_normalizedValue, hin, false_or]

theorem settle_status : (settle py policy candidates c).verificationStatus =
    if rejectedByPass py policy candidates c then .rejected
    else (verifyCandidate c).verificationStatus := by
  unfold settle
  split_ifs <;> rfl

/-- A verification confirms nothing. -/
theorem humanConfirmed_settle
    (h : (settle py policy candidates c).verificationStatus = .humanConfirmed) :
    rejectedByPass py policy candidates c = false ∧ c.verificationStatus = .humanConfirmed := by
  rw [settle_status] at h
  by_cases hpass : rejectedByPass py policy candidates c = true
  · simp [hpass] at h
  · refine ⟨by simpa using hpass, ?_⟩
    rw [if_neg hpass] at h
    unfold verifyCandidate at h
    split_ifs at h <;> simp_all

theorem settle_humanConfirmed (hpass : rejectedByPass py policy candidates c = false)
    (h : c.verificationStatus = .humanConfirmed) :
    (settle py policy candidates c).verificationStatus = .humanConfirmed := by
  rw [settle_status, if_neg (by simp [hpass])]
  simp [verifyCandidate, h]

theorem settle_embedded (htype : c.factType ∈ governanceClaims)
    (h : c.embedded candidates = true) :
    (settle py policy candidates c).verificationStatus = .rejected := by
  rw [settle_status, if_pos]
  simp [rejectedByPass, htype, h]

/-- Only an objective fact is verified on account of the text alone. -/
theorem settle_ne_verified (htype : c.factType ∉ objectiveFacts)
    (h : c.verificationStatus ≠ .verified) :
    (settle py policy candidates c).verificationStatus ≠ .verified := by
  rw [settle_status]
  by_cases hpass : rejectedByPass py policy candidates c = true
  · simp [hpass]
  · rw [if_neg hpass]
    unfold verifyCandidate
    split_ifs <;> simp_all

end Settling

/-! ## What the functions return -/

section Returns

variable {py : Interpreter} {policy : Option PolicyContext} {referenceDate : ℤ}
  {report updated : VerificationReport}

theorem buildReport_ok {intakeId : String} {candidates : List CandidateFact} {refs : List String}
    {conflicts : Bool}
    (h : buildReport py policy referenceDate intakeId candidates refs conflicts = .ok report) :
    report.intakeId = intakeId ∧ report.candidates = candidates ∧
      report.unresolvedRequirementRefs = refs ∧
      report.reasonCodes = reportReasons policy candidates refs conflicts ∧
      report.ready = report.reasonCodes.isEmpty := by
  obtain ⟨findings, -, h⟩ := bind_ok_cases h
  cases h
  exact ⟨rfl, rfl, rfl, rfl, rfl⟩

theorem mem_reportReasons_conflicts {candidates : List CandidateFact} {refs : List String}
    {conflicts : Bool} :
    "CONFLICTS_UNRESOLVED" ∈ reportReasons policy candidates refs conflicts ↔
      conflicts = true := by
  have hmissing : ∀ factType ∈ requiredFacts,
      "REQUIRED_FACT_MISSING:" ++ factType.value ≠ "CONFLICTS_UNRESOLVED" := by decide
  simp only [reportReasons, List.mem_eraseDups, List.mem_append, List.mem_map, List.mem_filter,
    List.mem_ite_nil_right, List.mem_ite_nil_left, List.mem_singleton]
  constructor
  · rintro ((((⟨-, h⟩ | h) | ⟨-, h⟩) | ⟨factType, hmem, h⟩) | ⟨-, h⟩)
    · exact absurd h (by decide)
    · exact h.1
    · exact absurd h (by decide)
    · exact absurd h (hmissing factType hmem.1)
    · exact absurd h (by decide)
  · intro h
    simp [h]

theorem mem_reportReasons_missing {candidates : List CandidateFact} {refs : List String}
    {conflicts : Bool} (h : refs ≠ []) :
    "MANDATORY_INFORMATION_MISSING" ∈ reportReasons policy candidates refs conflicts := by
  simp [reportReasons, List.mem_eraseDups, h]

theorem not_ready_of_mem {code : String} (hready : report.ready = report.reasonCodes.isEmpty)
    (h : code ∈ report.reasonCodes) : report.ready = false := by
  rw [hready, List.isEmpty_eq_false_iff]
  exact List.ne_nil_of_mem h

/-- What has been checked of a call that confirmed a fact. -/
structure ConfirmationCall.Allowed (call : ConfirmationCall) : Prop where
  human : call.identity.kind = .human
  authorized : call.identity.authorized .intakeConfirm = true
  action : call.action ∈ ["CONFIRM", "CORRECT", "REJECT"]
  value : call.action = "CORRECT" → call.newValue.isSome

variable {call : ConfirmationCall} {confirmation : HumanConfirmation}

theorem checkConfirmation_ok (h : checkConfirmation call = .ok ()) : call.Allowed := by
  unfold checkConfirmation at h
  by_cases hkind : call.identity.kind = .human
  · by_cases hauth : call.identity.authorized .intakeConfirm = true
    · by_cases haction : call.action ∈ ["CONFIRM", "CORRECT", "REJECT"]
      · by_cases hvalue : call.action = "CORRECT" ∧ truthy call.newValue = none
        · simp [hkind, hauth, hvalue] at h
          cases h
        · refine ⟨hkind, hauth, haction, fun hcorrect => ?_⟩
          cases hnew : call.newValue with
          | none => exact absurd ⟨hcorrect, by rw [hnew]; rfl⟩ hvalue
          | some value => rfl
      · rw [if_neg (not_not.mpr hkind), if_neg (by simp [hauth]), if_pos haction] at h
        cases h
    · rw [if_neg (not_not.mpr hkind), if_pos (by simp [hauth])] at h
      cases h
  · rw [if_pos hkind] at h
    cases h

theorem confirmFact_ok (h : confirmFact py call report = .ok (updated, confirmation)) :
    call.Allowed ∧ ∃ current ∈ report.candidates, current.factId = call.factId ∧
      (∀ d ∈ report.candidates, d.factId = call.factId →
        (report.candidates.map CandidateFact.factId).Nodup → d = current) ∧
      updated.intakeId = report.intakeId ∧
      updated.candidates = report.candidates.map (fun c =>
        if c.factId = call.factId then updatedFact call current else c) ∧
      updated.unresolvedRequirementRefs = report.unresolvedRequirementRefs ∧
      updated.reasonCodes = confirmationReasons call updated.candidates report.reasonCodes := by
  obtain ⟨⟨⟩, hcheck, h⟩ := bind_ok_cases h
  obtain ⟨current, hfind, h⟩ := bind_ok_cases h
  rw [orRaise_ok] at hfind
  have hmem : current ∈ report.candidates := List.mem_of_find?_eq_some hfind
  have hid : current.factId = call.factId := by simpa using List.find?_some hfind
  refine ⟨checkConfirmation_ok hcheck, current, hmem, hid, ?_, ?_⟩
  · intro d hd hdid hnodup
    exact List.inj_on_of_nodup_map hnodup hd hmem (hdid.trans hid.symm)
  · cases h
    exact ⟨rfl, rfl, rfl, rfl⟩

end Returns

/-! ## Sequences of verifications and confirmations -/

section Sequences

variable (py : Interpreter)

inductive TrustStep
  | verify (policy : Option PolicyContext) (referenceDate : ℤ)
  | confirm (call : ConfirmationCall)
  | reverify (policy : Option PolicyContext) (referenceDate : ℤ)

def TrustStep.verifies : TrustStep → Bool
  | .verify _ _ | .reverify _ _ => true
  | .confirm _ => false

/-- What a call on the last report returns, where it does not raise; only `verify` can be the
first. -/
def TrustStep.perform (extraction : ExtractionReport) :
    TrustStep → Option VerificationReport → Option VerificationReport
  | .verify policy referenceDate, _ =>
    toOption (Intake.verify py policy referenceDate extraction)
  | .confirm call, some report => (toOption (confirmFact py call report)).map Prod.fst
  | .reverify policy referenceDate, some report =>
    toOption (Intake.reverify py policy referenceDate report)
  | .confirm _, none | .reverify _ _, none => none

def performed (extraction : ExtractionReport) (before : Option VerificationReport)
    (a : TrustStep) : Option (Option VerificationReport) :=
  (a.perform py extraction before).map some

def Performs (extraction : ExtractionReport) (before : Option VerificationReport)
    (a : TrustStep) (after : Option VerificationReport) : Prop :=
  performed py extraction before a = some after

/-- The types of the claims about authority. -/
def authorityClaims : List FactType :=
  [.policyClaim, .exceptionClaim, .approvalClaim, .selfApprovalClaim, .roleClaim,
    .untrustedInstruction]

/-- A person who may confirm has confirmed or corrected the fact in one of the steps. -/
def ConfirmedIn (tr : Runs.Trace (Option VerificationReport) TrustStep) (factId : String) : Prop :=
  ∃ x ∈ tr, ∃ call, x.label = .confirm call ∧ call.factId = factId ∧
    call.identity.kind = .human ∧ call.identity.authorized .intakeConfirm = true ∧
    (call.action = "CONFIRM" ∨ call.action = "CORRECT")

structure Earned (tr : Runs.Trace (Option VerificationReport) TrustStep)
    (c : CandidateFact) : Prop where
  neverVerified : c.factType ∈ authorityClaims → c.verificationStatus ≠ .verified
  confirmed : c.verificationStatus = .humanConfirmed → ConfirmedIn tr c.factId

variable {py} {tr : Runs.Trace (Option VerificationReport) TrustStep}

theorem ConfirmedIn.snoc {factId : String} (h : ConfirmedIn tr factId)
    (x : Runs.Transition (Option VerificationReport) TrustStep) : ConfirmedIn (tr ++ [x]) factId := by
  obtain ⟨y, hy, call, hcall⟩ := h
  exact ⟨y, List.mem_append_left _ hy, call, hcall⟩

theorem Earned.snoc {c : CandidateFact} (h : Earned tr c)
    (x : Runs.Transition (Option VerificationReport) TrustStep) : Earned (tr ++ [x]) c :=
  ⟨h.neverVerified, fun hc => (h.confirmed hc).snoc x⟩

theorem Earned.settle {c : CandidateFact} (h : Earned tr c) (policy : Option PolicyContext)
    (candidates : List CandidateFact) : Earned tr (settle py policy candidates c) := by
  constructor
  · intro htype
    rw [settle_factType] at htype
    apply settle_ne_verified _ (h.neverVerified htype)
    revert htype
    cases c.factType <;> decide
  · intro hc
    rw [settle_factId]
    exact h.confirmed (humanConfirmed_settle hc).2

theorem unresolved_of_mem_extract {rawInput locale intakeId : String} {c : CandidateFact}
    (h : c ∈ (QuoteExtractor.extract py rawInput locale intakeId).candidates) :
    c.verificationStatus = .unresolved := by
  obtain ⟨d, hd, rfl⟩ := List.mem_map.mp h
  obtain ⟨i, hi, rfl⟩ := List.mem_mapIdx.mp hd
  unfold QuoteExtractor.withConflict
  split <;> rfl

theorem embedded_rejected {policy : Option PolicyContext} {candidates : List CandidateFact}
    {c i : CandidateFact} (hc : c ∈ verifyCandidates py policy candidates)
    (hi : i ∈ verifyCandidates py policy candidates) (htype : c.factType ∈ governanceClaims)
    (hinstruction : i.factType = .untrustedInstruction)
    (hstart : i.source.start < c.source.stop) (hstop : c.source.start < i.source.stop) :
    c.verificationStatus = .rejected := by
  rw [verifyCandidates_eq_map] at hc hi
  obtain ⟨c, -, rfl⟩ := List.mem_map.mp hc
  obtain ⟨i, hmem, rfl⟩ := List.mem_map.mp hi
  apply settle_embedded
  · simpa using htype
  · rw [embedded_iff]
    exact ⟨i, hmem, by simpa using hinstruction, by simpa using hstart, by simpa using hstop⟩

theorem earned_verify {policy : Option PolicyContext} {referenceDate : ℤ}
    {rawInput locale intakeId : String} {report : VerificationReport}
    (h : verify py policy referenceDate (QuoteExtractor.extract py rawInput locale intakeId) =
      .ok report) : ∀ c ∈ report.candidates, Earned tr c := by
  obtain ⟨-, hcandidates, -⟩ := buildReport_ok h
  intro c hc
  rw [hcandidates, verifyCandidates_eq_map] at hc
  obtain ⟨d, hd, rfl⟩ := List.mem_map.mp hc
  have hunresolved := unresolved_of_mem_extract hd
  apply Earned.settle
  constructor
  · simp [hunresolved]
  · simp [hunresolved]

theorem earned_reverify {policy : Option PolicyContext} {referenceDate : ℤ}
    {report after : VerificationReport} (hinv : ∀ c ∈ report.candidates, Earned tr c)
    (h : reverify py policy referenceDate report = .ok after) :
    ∀ c ∈ after.candidates, Earned tr c := by
  obtain ⟨-, hcandidates, -⟩ := buildReport_ok h
  intro c hc
  rw [hcandidates, verifyCandidates_eq_map] at hc
  obtain ⟨d, hd, rfl⟩ := List.mem_map.mp hc
  exact (hinv d hd).settle policy report.candidates

theorem earned_confirm {call : ConfirmationCall} {report updated : VerificationReport}
    {confirmation : HumanConfirmation} (hinv : ∀ c ∈ report.candidates, Earned tr c)
    (h : confirmFact py call report = .ok (updated, confirmation))
    (after : Option VerificationReport) :
    ∀ c ∈ updated.candidates, Earned (tr ++ [⟨some report, .confirm call, after⟩]) c := by
  obtain ⟨hallowed, current, -, hid, -, -, hcandidates, -⟩ := confirmFact_ok h
  intro c hc
  rw [hcandidates] at hc
  obtain ⟨d, hd, rfl⟩ := List.mem_map.mp hc
  by_cases hfact : d.factId = call.factId
  · rw [if_pos hfact]
    constructor
    · intro _
      unfold updatedFact
      split_ifs <;> simp
    · intro hconfirmed
      have haction : call.action ≠ "REJECT" := by
        intro hreject
        simp [updatedFact, hreject] at hconfirmed
      refine ⟨_, List.mem_append_right _ (List.mem_singleton_self _), call, rfl, hid.symm,
        hallowed.human, hallowed.authorized, ?_⟩
      simpa [haction] using hallowed.action
  · rw [if_neg hfact]
    exact (hinv d hd).snoc _

/-- A call leaves every candidate with no more than it has earned. -/
theorem earned_step {rawInput locale intakeId : String} {before after : Option VerificationReport}
    {a : TrustStep} (hinv : ∀ report ∈ before, ∀ c ∈ report.candidates, Earned tr c)
    (h : Performs py (QuoteExtractor.extract py rawInput locale intakeId) before a after) :
    ∀ report ∈ after, ∀ c ∈ report.candidates, Earned (tr ++ [⟨before, a, after⟩]) c := by
  obtain ⟨report, hperform, rfl⟩ := Option.map_eq_some_iff.mp h
  intro r hr
  obtain rfl := Option.some.inj hr
  cases a with
  | verify policy referenceDate =>
    exact earned_verify (toOption_eq_some.mp hperform)
  | confirm call =>
    cases before with
    | none => cases hperform
    | some previous =>
      obtain ⟨⟨updated, confirmation⟩, hconfirm, rfl⟩ := Option.map_eq_some_iff.mp hperform
      exact earned_confirm (hinv previous rfl) (toOption_eq_some.mp hconfirm) _
  | reverify policy referenceDate =>
    cases before with
    | none => cases hperform
    | some previous =>
      intro c hc
      exact (earned_reverify (hinv previous rfl) (toOption_eq_some.mp hperform) c hc).snoc _

/-- After a verification the claims within an instruction are rejected. -/
theorem verified_embedded {extraction : ExtractionReport}
    {before after : Option VerificationReport} {a : TrustStep} (hverifies : a.verifies = true)
    (h : Performs py extraction before a after) :
    ∃ report policy candidates, after = some report ∧
      report.candidates = verifyCandidates py policy candidates := by
  obtain ⟨report, hperform, rfl⟩ := Option.map_eq_some_iff.mp h
  cases a with
  | verify policy referenceDate =>
    exact ⟨report, _, _, rfl, (buildReport_ok (toOption_eq_some.mp hperform)).2.1⟩
  | confirm call => cases hverifies
  | reverify policy referenceDate =>
    cases before with
    | none => cases hperform
    | some previous =>
      exact ⟨report, _, _, rfl, (buildReport_ok (toOption_eq_some.mp hperform)).2.1⟩

/-- Raw text confers no authority, along any sequence of calls that starts from extraction. -/
theorem authority_earned {rawInput locale intakeId : String} {s : Option VerificationReport}
    (h : Runs.Run (Performs py (QuoteExtractor.extract py rawInput locale intakeId)) none tr s) :
    (∀ report ∈ s, ∀ c ∈ report.candidates, c.factType ∈ authorityClaims →
      c.verificationStatus ≠ .verified ∧
      (c.verificationStatus = .humanConfirmed → ConfirmedIn tr c.factId)) ∧
    ∀ x ∈ tr, x.label.verifies = true → ∀ report ∈ x.after, ∀ c ∈ report.candidates,
      c.factType ∈ governanceClaims → ∀ i ∈ report.candidates,
      i.factType = .untrustedInstruction → i.source.start < c.source.stop →
      c.source.start < i.source.stop → c.verificationStatus = .rejected := by
  constructor
  · have hearned : ∀ report ∈ s, ∀ c ∈ report.candidates, Earned tr c := by
      apply h.invariant (fun tr s => ∀ report ∈ s, ∀ c ∈ report.candidates, Earned tr c)
      · intro report hreport
        cases hreport
      · intro tr before a after _ hinv hstep
        exact earned_step hinv hstep
    intro report hreport c hc htype
    exact ⟨(hearned report hreport c hc).neverVerified htype,
      (hearned report hreport c hc).confirmed⟩
  · intro x hx hverifies report hreport c hc htype i hi hinstruction hstart hstop
    obtain ⟨verified, policy, candidates, hafter, hverified⟩ :=
      verified_embedded hverifies (h.step_of_mem hx)
    obtain rfl : verified = report := Option.some.inj (hafter.symm.trans hreport)
    rw [hverified] at hc hi
    exact embedded_rejected hc hi htype hinstruction hstart hstop

end Sequences

/-! ## An approval that a person confirms -/

/-- The characters of ASCII and one date. -/
def asciiInterpreter : Interpreter where
  toPlatform := plainPlatform
  decimal c := if c.isDigit then some (c.toNat - 48) else none
  isAlnum := Char.isAlphanum
  lower cs := cs.map Char.toLower
  upper cs := cs.map Char.toUpper
  alike a c := a.toLower = c.toLower
  fromisoformat s := if s = "2026-01-01" then some 739617 else none
  isoformat _ := "2026-01-01"

def quoteValidator : Identity where
  actorId := "validator-1"
  tenant := tenantA
  role := .validator
  kind := .human
  roles := [.validator]
  named := by decide
  primary := List.mem_singleton_self _

def confirmFirst (action : String) : ConfirmationCall :=
  ⟨"quote:fact:1", action, none, "checked", "2026-01-01", quoteValidator⟩

def quoteOf (text : String) : ExtractionReport :=
  QuoteExtractor.extract asciiInterpreter text "en" "quote"

theorem authority_earned_approved : ∃ tr report,
    Runs.Run (Performs asciiInterpreter (quoteOf "approved")) none tr (some report) ∧
      ∀ c ∈ report.candidates, c.verificationStatus = .humanConfirmed ∧
        ConfirmedIn tr c.factId := by
  have hend : ([TrustStep.verify none 0, .confirm (confirmFirst "CONFIRM"),
      .reverify none 0].foldlM (performed asciiInterpreter (quoteOf "approved")) none).any
      (fun s => s.any fun report => report.candidates.all fun c =>
        c.factType = .approvalClaim ∧ c.verificationStatus = .humanConfirmed) = true := by
    rfl
  obtain ⟨s, hs, hall⟩ := (Option.any_eq_true _ _).mp hend
  obtain ⟨report, rfl, hall⟩ := (Option.any_eq_true _ _).mp hall
  obtain ⟨tr, hr, -⟩ := Runs.run_of_foldlM _ hs
  refine ⟨tr, report, hr, fun c hc => ?_⟩
  have hc' := List.all_eq_true.mp hall c hc
  simp only [decide_eq_true_eq] at hc'
  have hclaim : c.factType ∈ authorityClaims := by
    rw [hc'.1]
    decide
  exact ⟨hc'.2, ((authority_earned hr).1 report rfl c hc hclaim).2 hc'.2⟩

end DecisionAssurance.Intake
