import DecisionAssurance.IntakeStability
import DecisionAssurance.PolicyReadability

/-!
# Readiness after a confirmation

A confirmation takes codes away from the report before it, and a verification finds them anew. So
the readiness a confirmation returns is that of the verification after it unless the call rejects
the last trusted candidate of a required type.
-/

namespace DecisionAssurance.Intake

/-- A claim that waits for a person. -/
def CandidateFact.waits (c : CandidateFact) : Prop :=
  c.confirmationRequired = true ∧ c.verificationStatus = .unresolved ∧ c.factType ∈ waitingClaims

/-- A trusted candidate of every required type. -/
def HasRequired (candidates : List CandidateFact) : Prop :=
  ∀ factType ∈ requiredFacts, ∃ c ∈ candidates, c.verificationStatus.trusted = true ∧
    c.factType = factType

/-- Every required type keeps a trusted candidate when the call is made. -/
def KeepsRequired (call : ConfirmationCall) (candidates : List CandidateFact) : Prop :=
  ∀ factType ∈ requiredFacts,
    (∃ c ∈ candidates, c.factId ≠ call.factId ∧ c.verificationStatus.trusted = true ∧
      c.factType = factType) ∨
    (call.action ≠ "REJECT" ∧ ∃ current,
      candidates.find? (fun c => c.factId = call.factId) = some current ∧
      current.factType = factType)

/-- The candidates after the call, which puts the first candidate with the id in all its places. -/
def replaced (call : ConfirmationCall) (candidates : List CandidateFact) : List CandidateFact :=
  match candidates.find? fun c => c.factId = call.factId with
  | none => candidates
  | some current => candidates.map fun c =>
    if c.factId = call.factId then updatedFact call current else c

section Reasons

variable {policy : Option PolicyContext} {candidates : List CandidateFact} {refs : List String}
  {conflicts : Bool}

theorem mem_reportReasons {code : String} :
    code ∈ reportReasons policy candidates refs conflicts ↔
      (policy = none ∧ code = "TRUSTED_POLICY_UNAVAILABLE") ∨
      (conflicts = true ∧ code = "CONFLICTS_UNRESOLVED") ∨
      (refs ≠ [] ∧ code = "MANDATORY_INFORMATION_MISSING") ∨
      (∃ factType ∈ requiredFacts, (¬∃ c ∈ candidates, c.verificationStatus.trusted = true ∧
        c.factType = factType) ∧ code = "REQUIRED_FACT_MISSING:" ++ factType.value) ∨
      ((∃ c ∈ candidates, c.waits) ∧ code = "HUMAN_CONFIRMATION_REQUIRED") := by
  have hwaits : (candidates.any fun c => c.confirmationRequired ∧
      c.verificationStatus = .unresolved ∧ c.factType ∈ waitingClaims) = true ↔
      ∃ c ∈ candidates, c.waits := by
    simp [CandidateFact.waits]
  have hmissing : code ∈ (requiredFacts.filter fun factType => factType ∉
      (candidates.filter fun c => c.verificationStatus.trusted).map CandidateFact.factType).map
        (fun factType => "REQUIRED_FACT_MISSING:" ++ factType.value) ↔
      ∃ factType ∈ requiredFacts, (¬∃ c ∈ candidates, c.verificationStatus.trusted = true ∧
        c.factType = factType) ∧ code = "REQUIRED_FACT_MISSING:" ++ factType.value := by
    simp only [List.mem_map, List.mem_filter, decide_eq_true_eq, and_assoc, eq_comm (a := code)]
  unfold reportReasons
  simp only [List.mem_eraseDups, List.mem_append, hmissing, or_assoc]
  apply or_congr
  · cases policy <;> simp
  · apply or_congr
    · cases conflicts <;> simp
    · apply or_congr
      · cases refs <;> simp
      · apply or_congr_right
        by_cases h : ∃ c ∈ candidates, c.waits
        · rw [if_pos (hwaits.mpr h)]
          simp [h]
        · rw [if_neg (mt hwaits.mp h)]
          simp [h]

theorem waiting_mem : "HUMAN_CONFIRMATION_REQUIRED" ∈ reportReasons policy candidates refs conflicts ↔
    ∃ c ∈ candidates, c.waits := by
  have hmissing : ∀ factType ∈ requiredFacts,
      "HUMAN_CONFIRMATION_REQUIRED" ≠ "REQUIRED_FACT_MISSING:" ++ factType.value := by
    decide
  rw [mem_reportReasons]
  constructor
  · rintro (⟨-, h⟩ | ⟨-, h⟩ | ⟨-, h⟩ | ⟨factType, htype, -, h⟩ | ⟨h, -⟩)
    · exact absurd h (by decide)
    · exact absurd h (by decide)
    · exact absurd h (by decide)
    · exact absurd h (hmissing factType htype)
    · exact h
  · exact fun h => .inr (.inr (.inr (.inr ⟨h, rfl⟩)))

/-- The report waits for a person at most. -/
theorem only_waiting :
    (∀ code ∈ reportReasons policy candidates refs conflicts,
      code = "HUMAN_CONFIRMATION_REQUIRED") ↔
      policy ≠ none ∧ conflicts = false ∧ refs = [] ∧ HasRequired candidates := by
  have hmissing : ∀ factType ∈ requiredFacts,
      "REQUIRED_FACT_MISSING:" ++ factType.value ≠ "HUMAN_CONFIRMATION_REQUIRED" := by
    decide
  constructor
  · intro h
    refine ⟨?_, ?_, ?_, ?_⟩
    · intro hpolicy
      exact absurd (h _ (mem_reportReasons.mpr (.inl ⟨hpolicy, rfl⟩))) (by decide)
    · by_contra hconflicts
      rw [Bool.not_eq_false] at hconflicts
      exact absurd (h _ (mem_reportReasons.mpr (.inr (.inl ⟨hconflicts, rfl⟩)))) (by decide)
    · by_contra hrefs
      exact absurd (h _ (mem_reportReasons.mpr (.inr (.inr (.inl ⟨hrefs, rfl⟩))))) (by decide)
    · intro factType htype
      by_contra hnone
      exact hmissing factType htype
        (h _ (mem_reportReasons.mpr (.inr (.inr (.inr (.inl ⟨factType, htype, hnone, rfl⟩))))))
  · rintro ⟨hpolicy, hconflicts, hrefs, hrequired⟩ code hcode
    rcases mem_reportReasons.mp hcode with h | h | h | ⟨factType, htype, hnone, -⟩ | h
    · exact absurd h.1 hpolicy
    · exact absurd h.1 (by simp [hconflicts])
    · exact absurd hrefs h.1
    · exact absurd (hrequired factType htype) hnone
    · exact h.2

theorem reportReasons_eq_nil : reportReasons policy candidates refs conflicts = [] ↔
    (policy ≠ none ∧ conflicts = false ∧ refs = [] ∧ HasRequired candidates) ∧
      ¬∃ c ∈ candidates, c.waits := by
  rw [← only_waiting, ← waiting_mem, List.eq_nil_iff_forall_not_mem]
  constructor
  · exact fun h => ⟨fun code hcode => absurd hcode (h code), h _⟩
  · rintro ⟨honly, hwaiting⟩ code hcode
    exact hwaiting (honly code hcode ▸ hcode)

end Reasons

/-! ## The confirmation -/

section Confirmation

variable {py : Interpreter} {policy : Option PolicyContext} {referenceDate : ℤ}
  {candidates : List CandidateFact} {call : ConfirmationCall} {codes : List String}
  {report updated : VerificationReport} {confirmation : HumanConfirmation}

theorem confirmationReasons_eq_nil : confirmationReasons call candidates codes = [] ↔
    call.action ≠ "CORRECT" ∧ (∀ code ∈ codes, code = "HUMAN_CONFIRMATION_REQUIRED") ∧
      ("HUMAN_CONFIRMATION_REQUIRED" ∈ codes → ∀ c ∈ candidates,
        ¬(c.confirmationRequired = true ∧ c.verificationStatus = .unresolved)) := by
  have hstill : (candidates.any fun c => c.confirmationRequired ∧
      c.verificationStatus = .unresolved) = false ↔ ∀ c ∈ candidates,
        ¬(c.confirmationRequired = true ∧ c.verificationStatus = .unresolved) := by
    simp
  unfold confirmationReasons
  dsimp only
  rw [← hstill]
  generalize (candidates.any fun c => c.confirmationRequired ∧
    c.verificationStatus = .unresolved) = still
  have hfilter : (codes.filter fun code => code ≠ "HUMAN_CONFIRMATION_REQUIRED" ∨ still) = [] ↔
      (∀ code ∈ codes, code = "HUMAN_CONFIRMATION_REQUIRED") ∧
        ("HUMAN_CONFIRMATION_REQUIRED" ∈ codes → still = false) := by
    rw [List.filter_eq_nil_iff]
    constructor
    · intro h
      refine ⟨fun code hcode => ?_, fun hcode => ?_⟩
      · have hboth : code = "HUMAN_CONFIRMATION_REQUIRED" ∧ still = false := by
          simpa using h code hcode
        exact hboth.1
      · simpa using h _ hcode
    · rintro ⟨hall, hstill⟩ code hcode
      obtain rfl := hall code hcode
      simpa using hstill hcode
  rw [← hfilter]
  split_ifs with hcorrect
  · simp [hcorrect.1]
  · constructor
    · intro hnil
      refine ⟨fun haction => hcorrect ⟨haction, ?_⟩, hnil⟩
      rw [hnil]
      exact List.not_mem_nil
    · exact And.right

theorem confirmFact_replaced (h : confirmFact py call report = .ok (updated, confirmation)) :
    updated.candidates = replaced call report.candidates ∧
      updated.intakeId = report.intakeId ∧
      updated.unresolvedRequirementRefs = report.unresolvedRequirementRefs ∧
      updated.reasonCodes = confirmationReasons call updated.candidates report.reasonCodes ∧
      updated.ready = (updated.reasonCodes.isEmpty && report.findings.isEmpty &&
        report.unresolvedRequirementRefs.isEmpty) := by
  obtain ⟨⟨⟩, hcheck, h⟩ := bind_ok_cases h
  obtain ⟨current, hfind, h⟩ := bind_ok_cases h
  rw [orRaise_ok] at hfind
  cases h
  unfold replaced
  rw [hfind]
  exact ⟨rfl, rfl, rfl, rfl, rfl⟩

theorem replaced_eq {current : CandidateFact}
    (h : candidates.find? (fun c => c.factId = call.factId) = some current) :
    replaced call candidates = candidates.map fun c =>
      if c.factId = call.factId then updatedFact call current else c := by
  unfold replaced
  rw [h]

theorem mem_replaced {c current : CandidateFact}
    (h : candidates.find? (fun c => c.factId = call.factId) = some current) :
    c ∈ replaced call candidates ↔
      (c ∈ candidates ∧ c.factId ≠ call.factId) ∨ c = updatedFact call current := by
  have hmem := List.mem_of_find?_eq_some h
  have hid : current.factId = call.factId := by simpa using List.find?_some h
  rw [replaced_eq h, List.mem_map]
  constructor
  · rintro ⟨d, hd, rfl⟩
    by_cases hsame : d.factId = call.factId
    · exact .inr (if_pos hsame)
    · rw [if_neg hsame]
      exact .inl ⟨hd, hsame⟩
  · rintro (⟨hc, hne⟩ | rfl)
    · exact ⟨c, hc, if_neg hne⟩
    · exact ⟨current, hmem, if_pos hid⟩

theorem waits_settle {others : List CandidateFact} {c : CandidateFact}
    (h : (settle py policy others c).waits) : c.waits := by
  obtain ⟨hrequired, hstatus, htype⟩ := h
  rw [settle_factType] at htype
  rw [settle_status] at hstatus
  split_ifs at hstatus with hpass
  have hsettle : settle py policy others c = verifyCandidate c := if_neg hpass
  rw [hsettle] at hrequired
  unfold verifyCandidate at hrequired hstatus
  split_ifs at hrequired hstatus with hdone hobjective hinstruction
  · exact ⟨hrequired, hstatus, htype⟩
  · exact ⟨hrequired, hstatus, htype⟩

/-- A candidate of a required type is trusted after a verification as the first pass leaves it. -/
theorem settle_required {others : List CandidateFact} {c : CandidateFact}
    (htype : c.factType ∈ requiredFacts) : settle py policy others c = verifyCandidate c := by
  apply if_neg
  have hkinds : c.factType ∉ governanceClaims ∧ c.factType ≠ .policyClaim := by
    revert htype
    cases c.factType <;> decide
  simp [rejectedByPass, hkinds]

theorem verifyCandidate_updatedFact (c : CandidateFact) :
    verifyCandidate (updatedFact call c) = updatedFact call c := by
  apply if_pos
  unfold updatedFact
  dsimp only
  split_ifs
  · exact .inr rfl
  · exact .inl rfl

theorem updatedFact_trusted (c : CandidateFact) :
    (updatedFact call c).verificationStatus.trusted = true ↔ call.action ≠ "REJECT" := by
  unfold updatedFact
  dsimp only
  split_ifs with h <;> simp [h, VerificationStatus.trusted]

/-- The required facts are there after the call and a verification if they are kept by the call. -/
theorem hasRequired_iff {before : List CandidateFact} {current : CandidateFact}
    (h : (verifyCandidates py policy before).find? (fun c => c.factId = call.factId) =
      some current) :
    HasRequired (verifyCandidates py policy
        (replaced call (verifyCandidates py policy before))) ↔
      KeepsRequired call (verifyCandidates py policy before) := by
  apply forall₂_congr
  intro factType htype
  rw [verifyCandidates_eq_map (replaced call _)]
  simp only [List.mem_map, exists_exists_and_eq_and, mem_replaced h, settle_factType]
  have hsettled : ∀ c ∈ verifyCandidates py policy before, c.factType = factType →
      ∀ others, settle py policy others c = c := by
    intro c hc hcType others
    rw [settle_required (hcType ▸ htype)]
    rw [verifyCandidates_eq_map] at hc
    obtain ⟨d, -, rfl⟩ := List.mem_map.mp hc
    rw [settle_factType] at hcType
    rw [settle_required (hcType ▸ htype), verifyCandidate_idem]
  constructor
  · rintro ⟨c, ⟨hc, hne⟩ | rfl, htrusted, hcType⟩
    · rw [hsettled c hc hcType] at htrusted
      exact .inl ⟨c, hc, hne, htrusted, hcType⟩
    · rw [settle_required (hcType ▸ htype), verifyCandidate_updatedFact,
        updatedFact_trusted] at htrusted
      exact .inr ⟨htrusted, current, h, hcType⟩
  · rintro (⟨c, hc, hne, htrusted, hcType⟩ | ⟨haction, other, hother, hcType⟩)
    · refine ⟨c, .inl ⟨hc, hne⟩, ?_, hcType⟩
      rw [hsettled c hc hcType]
      exact htrusted
    · obtain rfl := Option.some.inj (h.symm.trans hother)
      have hupdated : (updatedFact call current).factType ∈ requiredFacts := hcType ▸ htype
      refine ⟨_, .inr rfl, ?_, hcType⟩
      rw [settle_required hupdated, verifyCandidate_updatedFact, updatedFact_trusted]
      exact haction

end Confirmation

/-! ## The readiness that follows -/

section Readiness

variable {py : Interpreter} {policy : Option PolicyContext} {referenceDate : ℤ}
  {call : ConfirmationCall} {report updated : VerificationReport}
  {confirmation : HumanConfirmation}

/-- A call that corrects nothing leaves the values of distinct facts as they are. -/
theorem map_valued_replaced {candidates : List CandidateFact} (haction : call.action ≠ "CORRECT")
    (hnodup : (candidates.map CandidateFact.factId).Nodup) :
    (replaced call candidates).map CandidateFact.valued =
      candidates.map CandidateFact.valued := by
  cases hfind : candidates.find? fun c => c.factId = call.factId with
  | none =>
    unfold replaced
    rw [hfind]
  | some current =>
    have hmem := List.mem_of_find?_eq_some hfind
    have hid : current.factId = call.factId := by simpa using List.find?_some hfind
    rw [replaced_eq hfind, List.map_map]
    apply List.map_congr_left
    intro c hc
    by_cases hsame : c.factId = call.factId
    · obtain rfl : c = current :=
        List.inj_on_of_nodup_map hnodup hc hmem (hsame.trans hid.symm)
      rw [Function.comp_apply, if_pos hsame]
      simp [CandidateFact.valued, updatedFact, haction]
    · rw [Function.comp_apply, if_neg hsame]

theorem built_of_verified (h : (∃ extraction, verify py policy referenceDate extraction = .ok report) ∨
    ∃ before, reverify py policy referenceDate before = .ok report) :
    ∃ intakeId candidates refs conflicts, buildReport py policy referenceDate intakeId
      (verifyCandidates py policy candidates) refs conflicts = .ok report := by
  rcases h with ⟨extraction, h⟩ | ⟨before, h⟩
  · exact ⟨_, _, _, _, h⟩
  · exact ⟨_, _, _, _, h⟩

/-- What a ready report says of the report and the call that it comes from. -/
theorem fast_ready (hconfirm : confirmFact py call report = .ok (updated, confirmation))
    (hready : updated.ready = true) :
    updated.reasonCodes = [] ∧ updated.unresolvedRequirementRefs = [] ∧ call.action ≠ "CORRECT" ∧
      (∀ code ∈ report.reasonCodes, code = "HUMAN_CONFIRMATION_REQUIRED") ∧
      ("HUMAN_CONFIRMATION_REQUIRED" ∈ report.reasonCodes →
        ∀ c ∈ replaced call report.candidates,
          ¬(c.confirmationRequired = true ∧ c.verificationStatus = .unresolved)) := by
  obtain ⟨hupdated, -, hrefs, hcodes, hfast⟩ := confirmFact_replaced hconfirm
  rw [hready] at hfast
  simp only [Bool.true_eq, Bool.and_eq_true, List.isEmpty_iff] at hfast
  obtain ⟨⟨hnone, -⟩, hnorefs⟩ := hfast
  refine ⟨hnone, hrefs.trans hnorefs, ?_⟩
  rw [hcodes, confirmationReasons_eq_nil, hupdated] at hnone
  exact hnone

theorem confirmFact_find? (hconfirm : confirmFact py call report = .ok (updated, confirmation)) :
    ∃ current, report.candidates.find? (fun c => c.factId = call.factId) = some current := by
  obtain ⟨-, current, hcurrent, hid, -⟩ := confirmFact_ok hconfirm
  rw [← Option.isSome_iff_exists, List.find?_isSome]
  exact ⟨current, hcurrent, by simpa using hid⟩

/-- No claim waits for a person in the verification after a call that returned a ready report. -/
theorem none_waits {intakeId : String} {candidates : List CandidateFact} {refs : List String}
    {conflicts : Bool} (hbuilt : buildReport py policy referenceDate intakeId
      (verifyCandidates py policy candidates) refs conflicts = .ok report)
    (hconfirm : confirmFact py call report = .ok (updated, confirmation))
    (hready : updated.ready = true) :
    ¬∃ c ∈ verifyCandidates py policy updated.candidates, c.waits := by
  obtain ⟨-, hcandidates, -, hreasons, -⟩ := buildReport_ok hbuilt
  obtain ⟨current, hcurrent⟩ := confirmFact_find? hconfirm
  rintro ⟨c, hc, hwaits⟩
  rw [verifyCandidates_eq_map] at hc
  obtain ⟨d, hd, rfl⟩ := List.mem_map.mp hc
  have hbefore := waits_settle hwaits
  rw [(confirmFact_replaced hconfirm).1] at hd
  rcases (mem_replaced hcurrent).mp hd with ⟨hmem, -⟩ | rfl
  · have hcode : "HUMAN_CONFIRMATION_REQUIRED" ∈ report.reasonCodes := by
      rw [hreasons, waiting_mem, ← hcandidates]
      exact ⟨d, hmem, hbefore⟩
    exact (fast_ready hconfirm hready).2.2.2.2 hcode d hd ⟨hbefore.1, hbefore.2.1⟩
  · exact absurd hbefore.1 (by simp [updatedFact])

theorem after_ready_iff {intakeId : String} {candidates : List CandidateFact} {refs : List String}
    {conflicts : Bool} {after : VerificationReport}
    (hbuilt : buildReport py policy referenceDate intakeId
      (verifyCandidates py policy candidates) refs conflicts = .ok report)
    (hconfirm : confirmFact py call report = .ok (updated, confirmation))
    (hready : updated.ready = true)
    (hafter : reverify py policy referenceDate updated = .ok after) :
    after.ready = true ↔ KeepsRequired call report.candidates := by
  obtain ⟨-, hcandidates, -, hreasons, -⟩ := buildReport_ok hbuilt
  obtain ⟨-, -, -, hafterReasons, hafterReady⟩ := buildReport_ok hafter
  obtain ⟨hcodes, hrefs, -, honly, -⟩ := fast_ready hconfirm hready
  obtain ⟨current, hcurrent⟩ := confirmFact_find? hconfirm
  rw [hreasons, only_waiting] at honly
  have hnone : remainingRequirements (verifyCandidates py policy updated.candidates)
      updated.unresolvedRequirementRefs = [] := by
    rw [hrefs]
    rfl
  rw [hafterReady, List.isEmpty_iff, hafterReasons, reportReasons_eq_nil,
    and_iff_left (none_waits hbuilt hconfirm hready), hcodes, hnone,
    (confirmFact_replaced hconfirm).1, hcandidates]
  rw [hcandidates] at hcurrent
  rw [hasRequired_iff hcurrent]
  simp [honly.1]

/-- A confirmation that returns a ready report is followed by a verification that does so too,
exactly if every required type keeps a trusted candidate, and the values can be read, which only
facts of one id can change. -/
theorem fast_readiness_iff (h : (∃ extraction,
      verify py policy referenceDate extraction = .ok report) ∨
      ∃ before, reverify py policy referenceDate before = .ok report)
    (hconfirm : confirmFact py call report = .ok (updated, confirmation))
    (hready : updated.ready = true) :
    (∃ after, reverify py policy referenceDate updated = .ok after ∧ after.ready = true) ↔
      KeepsRequired call report.candidates ∧
        ((report.candidates.map CandidateFact.factId).Nodup ∨
          ∀ p, policy = some p → Readable py p (replaced call report.candidates)) := by
  obtain ⟨intakeId, candidates, refs, conflicts, hbuilt⟩ := built_of_verified h
  have hread : (∀ p, policy = some p → Readable py p updated.candidates) ↔
      ((report.candidates.map CandidateFact.factId).Nodup ∨
        ∀ p, policy = some p → Readable py p (replaced call report.candidates)) := by
    rw [(confirmFact_replaced hconfirm).1]
    refine ⟨.inr, ?_⟩
    rintro (hnodup | hread)
    · intro p hp
      have haction := (fast_ready hconfirm hready).2.2.1
      rw [readable_congr (map_valued_replaced haction hnodup), (buildReport_ok hbuilt).2.1]
      exact buildReport_returns.mp ⟨report, hbuilt⟩ p hp
    · exact hread
  have hafter : ∀ after, reverify py policy referenceDate updated = .ok after →
      (after.ready = true ↔ KeepsRequired call report.candidates) := fun after =>
    after_ready_iff hbuilt hconfirm hready
  rw [← hread, ← reverify_returns]
  constructor
  · rintro ⟨after, hreturn, hafterReady⟩
    exact ⟨(hafter after hreturn).mp hafterReady, after, hreturn⟩
  · rintro ⟨hkeeps, after, hreturn⟩
    exact ⟨after, hreturn, (hafter after hreturn).mpr hkeeps⟩

end Readiness

/-! ## A rejected amount -/

/-- The calls on the first fact of a quote that is ready. -/
def confirmReady (action : String) : Option (VerificationReport × VerificationReport) :=
  (toOption (verify asciiInterpreter (some quotePolicy) 739617
    (quoteOf "1€ marge2% rabatt3%"))).bind fun report =>
      (toOption (confirmFact asciiInterpreter (confirmFirst action) report)).map fun result =>
        (report, result.1)

theorem confirmReady_eq {action : String} {report updated : VerificationReport}
    (h : confirmReady action = some (report, updated)) :
    verify asciiInterpreter (some quotePolicy) 739617 (quoteOf "1€ marge2% rabatt3%") =
        .ok report ∧ ∃ confirmation,
      confirmFact asciiInterpreter (confirmFirst action) report = .ok (updated, confirmation) := by
  unfold confirmReady at h
  rw [Option.bind_eq_some_iff] at h
  obtain ⟨first, hreport, h⟩ := h
  rw [Option.map_eq_some_iff] at h
  obtain ⟨⟨second, confirmation⟩, hconfirm, h⟩ := h
  obtain ⟨rfl, rfl⟩ := Prod.mk.inj h
  exact ⟨toOption_eq_some.mp hreport, confirmation, toOption_eq_some.mp hconfirm⟩

theorem fast_readiness_confirmed : ∃ report updated after,
    confirmReady "CONFIRM" = some (report, updated) ∧ updated.ready = true ∧
      reverify asciiInterpreter (some quotePolicy) 739617 updated = .ok after ∧
      after.ready = true := by
  have hend : (confirmReady "CONFIRM").any (fun x => x.2.ready = true ∧
      (x.1.candidates.map CandidateFact.factId).Nodup ∧
      ∀ factType ∈ requiredFacts, (∃ c ∈ x.1.candidates, c.factId ≠ "quote:fact:1" ∧
        c.verificationStatus.trusted = true ∧ c.factType = factType) ∨
        (x.1.candidates.find? fun c => c.factId = "quote:fact:1").any fun c =>
          c.factType = factType) = true := by
    decide +kernel
  obtain ⟨⟨report, updated⟩, hcalls, hend⟩ := (Option.any_eq_true _ _).mp hend
  obtain ⟨hready, hnodup, hkeeps⟩ := of_decide_eq_true hend
  obtain ⟨hreport, confirmation, hconfirm⟩ := confirmReady_eq hcalls
  have hrequired : KeepsRequired (confirmFirst "CONFIRM") report.candidates := by
    intro factType htype
    rcases hkeeps factType htype with hother | hfirst
    · exact .inl hother
    · obtain ⟨c, hc, hcType⟩ := (Option.any_eq_true _ _).mp hfirst
      exact .inr ⟨by decide, c, hc, of_decide_eq_true hcType⟩
  obtain ⟨after, hafter⟩ := (fast_readiness_iff (.inl ⟨_, hreport⟩) hconfirm hready).mpr
    ⟨hrequired, .inl hnodup⟩
  exact ⟨report, updated, after, hcalls, hready, hafter⟩

/-- The only amount is rejected, and the report stays ready. -/
theorem fast_readiness_rejected : ¬∀ (py : Interpreter) (policy : Option PolicyContext)
    (referenceDate : ℤ) (call : ConfirmationCall) (report updated : VerificationReport)
    (confirmation : HumanConfirmation),
    ((∃ extraction, verify py policy referenceDate extraction = .ok report) ∨
      ∃ before, reverify py policy referenceDate before = .ok report) →
    confirmFact py call report = .ok (updated, confirmation) → updated.ready = true →
    ∃ after, reverify py policy referenceDate updated = .ok after ∧ after.ready = true := by
  intro h
  have hend : (confirmReady "REJECT").any (fun x => x.2.ready = true ∧
      (toOption (reverify asciiInterpreter (some quotePolicy) 739617 x.2)).all fun after =>
        after.ready = false) = true := by
    rfl
  obtain ⟨⟨report, updated⟩, hcalls, hend⟩ := (Option.any_eq_true _ _).mp hend
  obtain ⟨hready, hall⟩ := of_decide_eq_true hend
  obtain ⟨hreport, confirmation, hconfirm⟩ := confirmReady_eq hcalls
  obtain ⟨after, hafter, hafterReady⟩ := h _ _ _ _ _ _ _ (.inl ⟨_, hreport⟩) hconfirm hready
  rw [toOption_eq_some.mpr hafter, Option.all_some, decide_eq_true_eq, hafterReady] at hall
  cases hall

end DecisionAssurance.Intake
