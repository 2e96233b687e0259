import DecisionAssurance.IntakeRevisions

/-!
# Conflicting values and readiness

Conflicts are looked for once, in the extracted text; afterwards the report only carries the code
of the ones found there. So trusted values that come to differ through a confirmation go unnoticed.
-/

namespace DecisionAssurance.Intake

/-- Two trusted candidates of one of the types that conflict have different values. -/
def Differing (candidates : List CandidateFact) : Prop :=
  ∃ c ∈ candidates, ∃ d ∈ candidates, c.factType ∈ QuoteExtractor.conflictTypes ∧
    d.factType = c.factType ∧ c.verificationStatus.trusted = true ∧
    d.verificationStatus.trusted = true ∧ c.normalizedValue ≠ d.normalizedValue

instance (candidates : List CandidateFact) : Decidable (Differing candidates) :=
  inferInstanceAs (Decidable (∃ c ∈ candidates, ∃ d ∈ candidates, _))

/-- Differing trusted values keep the report from being ready, and it says so. -/
def ConflictsBlock (report : VerificationReport) : Prop :=
  Differing report.candidates →
    report.ready = false ∧ "CONFLICTS_UNRESOLVED" ∈ report.reasonCodes

/-- The call trusts a value that differs from the value of another trusted candidate. -/
def Disagrees (call : ConfirmationCall) (report : VerificationReport) : Prop :=
  call.action ≠ "REJECT" ∧ ∃ c ∈ report.candidates, c.factId = call.factId ∧
    c.factType ∈ QuoteExtractor.conflictTypes ∧ ∃ d ∈ report.candidates,
    d.factId ≠ call.factId ∧ d.factType = c.factType ∧ d.verificationStatus.trusted = true ∧
    d.normalizedValue ≠ (updatedFact call c).normalizedValue

/-- What holds of the candidates that can conflict after every verification. -/
structure Verified (report : VerificationReport) : Prop where
  distinct : (report.candidates.map CandidateFact.factId).Nodup
  valued : ∀ c ∈ report.candidates, c.factType ∈ QuoteExtractor.conflictTypes →
    c.normalizedValue.isSome = true
  decided : ∀ c ∈ report.candidates, c.factType ∈ QuoteExtractor.conflictTypes →
    c.verificationStatus ≠ .unresolved

section Values

variable {py : Interpreter} {policy : Option PolicyContext} {candidates : List CandidateFact}
  {c : CandidateFact} {call : ConfirmationCall}

theorem settle_conflictType (htype : c.factType ∈ QuoteExtractor.conflictTypes)
    (hvalue : c.normalizedValue.isSome = true) :
    (settle py policy candidates c).verificationStatus =
      if c.verificationStatus = .humanConfirmed then .humanConfirmed
      else if c.verificationStatus = .rejected then .rejected else .verified := by
  have hkinds : c.factType ∈ objectiveFacts ∧ c.factType ∉ governanceClaims ∧
      c.factType ≠ .policyClaim := by
    revert htype
    cases c.factType <;> decide
  have hpass : rejectedByPass py policy candidates c = false := by
    simp [rejectedByPass, hkinds]
  rw [settle_status, hpass]
  unfold verifyCandidate
  cases hstatus : c.verificationStatus <;> simp [hstatus, hkinds, hvalue]

theorem settle_trusted (htype : c.factType ∈ QuoteExtractor.conflictTypes)
    (hvalue : c.normalizedValue.isSome = true) :
    (settle py policy candidates c).verificationStatus.trusted = true ↔
      c.verificationStatus ≠ .rejected := by
  rw [settle_conflictType htype hvalue]
  cases c.verificationStatus <;> decide

theorem settle_decided (htype : c.factType ∈ QuoteExtractor.conflictTypes)
    (hvalue : c.normalizedValue.isSome = true) :
    (settle py policy candidates c).verificationStatus ≠ .unresolved := by
  rw [settle_conflictType htype hvalue]
  cases c.verificationStatus <;> decide

theorem trusted_iff_ne_rejected {status : VerificationStatus} (h : status ≠ .unresolved) :
    status.trusted = true ↔ status ≠ .rejected := by
  cases status <;> simp_all [VerificationStatus.trusted]

theorem updatedFact_valued (hallowed : call.Allowed) (hvalue : c.normalizedValue.isSome = true) :
    (updatedFact call c).normalizedValue.isSome = true := by
  simp only [updatedFact]
  split_ifs with hcorrect
  · exact hallowed.value hcorrect
  · exact hvalue

theorem updatedFact_status :
    (updatedFact call c).verificationStatus ≠ .rejected ↔ call.action ≠ "REJECT" := by
  simp only [updatedFact]
  split_ifs <;> simp_all

theorem confirmed_valued (hallowed : call.Allowed) (hvalue : c.normalizedValue.isSome = true) :
    (confirmed call c).normalizedValue.isSome = true := by
  unfold confirmed
  split_ifs
  · exact updatedFact_valued hallowed hvalue
  · exact hvalue

end Values

section Steps

variable {py : Interpreter} {before after : VerificationReport} {r : Revision}

theorem Verified.revised (hbefore : Verified before) (h : Revised py before r after) :
    Verified after := by
  constructor
  · exact h.nodup hbefore.distinct
  · intro c hc htype
    rw [h.candidates] at hc
    obtain ⟨d, hd, rfl⟩ := List.mem_map.mp hc
    simp only [settle_factType, confirmed_factType] at htype
    rw [settle_normalizedValue]
    exact confirmed_valued h.allowed (hbefore.valued d hd htype)
  · intro c hc htype
    rw [h.candidates] at hc
    obtain ⟨d, hd, rfl⟩ := List.mem_map.mp hc
    simp only [settle_factType, confirmed_factType] at htype
    apply settle_decided
    · simpa using htype
    · exact confirmed_valued h.allowed (hbefore.valued d hd htype)

/-- A candidate after the revision, of a type that can conflict. -/
theorem revised_trusted (hbefore : Verified before) (h : Revised py before r after)
    {c : CandidateFact} (hc : c ∈ before.candidates)
    (htype : c.factType ∈ QuoteExtractor.conflictTypes) (others : List CandidateFact) :
    (settle py r.policy others (confirmed r.call c)).verificationStatus.trusted = true ↔
      if c.factId = r.call.factId then r.call.action ≠ "REJECT"
      else c.verificationStatus.trusted = true := by
  rw [settle_trusted (by simpa using htype)
    (confirmed_valued h.allowed (hbefore.valued c hc htype))]
  unfold confirmed
  split_ifs
  · exact updatedFact_status
  · exact (trusted_iff_ne_rejected (hbefore.decided c hc htype)).symm

/-- Where the trusted values agree, they differ after a revision exactly if its call disagrees. -/
theorem differing_revised (hbefore : Verified before) (hagree : ¬Differing before.candidates)
    (h : Revised py before r after) :
    Differing after.candidates ↔ Disagrees r.call before := by
  have hunique : ∀ c ∈ before.candidates, ∀ d ∈ before.candidates,
      c.factId = r.call.factId → d.factId = r.call.factId → c = d := fun c hc d hd hcid hdid =>
    List.inj_on_of_nodup_map hbefore.distinct hc hd (hcid.trans hdid.symm)
  constructor
  · rintro ⟨c', hc', d', hd', htype, hsame, hctrust, hdtrust, hne⟩
    rw [h.candidates] at hc' hd'
    obtain ⟨c, hc, rfl⟩ := List.mem_map.mp hc'
    obtain ⟨d, hd, rfl⟩ := List.mem_map.mp hd'
    simp only [settle_factType, confirmed_factType, settle_normalizedValue] at htype hsame hne
    rw [revised_trusted hbefore h hc htype] at hctrust
    rw [revised_trusted hbefore h hd (hsame ▸ htype)] at hdtrust
    by_cases hcid : c.factId = r.call.factId
    · rw [if_pos hcid] at hctrust
      by_cases hdid : d.factId = r.call.factId
      · exact absurd (congrArg _ (congrArg _ (hunique c hc d hd hcid hdid))) hne
      · rw [if_neg hdid] at hdtrust
        refine ⟨hctrust, c, hc, hcid, htype, d, hd, hdid, hsame, hdtrust, ?_⟩
        simpa [confirmed, hcid, hdid, eq_comm] using hne
    · rw [if_neg hcid] at hctrust
      by_cases hdid : d.factId = r.call.factId
      · rw [if_pos hdid] at hdtrust
        refine ⟨hdtrust, d, hd, hdid, hsame ▸ htype, c, hc, hcid, hsame.symm, hctrust, ?_⟩
        simpa [confirmed, hcid, hdid] using hne
      · rw [if_neg hdid] at hdtrust
        refine absurd ⟨c, hc, d, hd, htype, hsame, hctrust, hdtrust, ?_⟩ hagree
        simpa [confirmed, hcid, hdid] using hne
  · rintro ⟨haction, c, hc, hcid, htype, d, hd, hdid, hsame, hdtrust, hne⟩
    rw [h.candidates]
    refine ⟨_, List.mem_map_of_mem hc, _, List.mem_map_of_mem hd, ?_, ?_, ?_, ?_, ?_⟩
    · simpa using htype
    · simpa using hsame
    · rw [revised_trusted hbefore h hc htype, if_pos hcid]
      exact haction
    · rw [revised_trusted hbefore h hd (hsame ▸ htype), if_neg hdid]
      exact hdtrust
    · simpa [confirmed, hcid, hdid, eq_comm] using hne

end Steps

/-! ## Runs -/

section Runs

variable {py : Interpreter} {policy : Option PolicyContext} {referenceDate : ℤ}
  {rawInput locale intakeId : String} {report last : VerificationReport}
  {tr : Runs.Trace VerificationReport Revision}

theorem verified_of_verify (h : verify py policy referenceDate
    (QuoteExtractor.extract py rawInput locale intakeId) = .ok report) : Verified report := by
  obtain ⟨-, hcandidates, -⟩ := buildReport_ok h
  rw [verifyCandidates_eq_map] at hcandidates
  constructor
  · rw [hcandidates, List.map_map]
    simpa [Function.comp_def] using nodup_extract
  · intro c hc _
    rw [hcandidates] at hc
    obtain ⟨d, hd, rfl⟩ := List.mem_map.mp hc
    rw [settle_normalizedValue]
    exact valued_extract hd
  · intro c hc htype
    rw [hcandidates] at hc
    obtain ⟨d, hd, rfl⟩ := List.mem_map.mp hc
    apply settle_decided
    · simpa using htype
    · exact valued_extract hd

theorem differing_of_verify (h : verify py policy referenceDate
    (QuoteExtractor.extract py rawInput locale intakeId) = .ok report)
    (hdiffer : Differing report.candidates) :
    Conflicting (QuoteExtractor.extract py rawInput locale intakeId).candidates := by
  obtain ⟨-, hcandidates, -⟩ := buildReport_ok h
  rw [hcandidates, verifyCandidates_eq_map] at hdiffer
  obtain ⟨c', hc', d', hd', htype, hsame, -, -, hne⟩ := hdiffer
  obtain ⟨c, hc, rfl⟩ := List.mem_map.mp hc'
  obtain ⟨d, hd, rfl⟩ := List.mem_map.mp hd'
  exact ⟨c, hc, d, hd, by simpa using htype, by simpa using hsame, by simpa using hne⟩

theorem conflicts_mem_of_verify (h : verify py policy referenceDate
    (QuoteExtractor.extract py rawInput locale intakeId) = .ok report) :
    "CONFLICTS_UNRESOLVED" ∈ report.reasonCodes ↔
      Conflicting (QuoteExtractor.extract py rawInput locale intakeId).candidates := by
  obtain ⟨-, -, -, hreasons, -⟩ := buildReport_ok h
  rw [hreasons, mem_reportReasons_conflicts, Bool.not_eq_true', extract_conflicts_iff]

/-- The reports of a run: verified, and with the code the first one has. -/
def Carries (conflicting : Prop) (report : VerificationReport) : Prop :=
  Verified report ∧ ("CONFLICTS_UNRESOLVED" ∈ report.reasonCodes ↔ conflicting)

theorem carries_step {conflicting : Prop} (t : VerificationReport) (a : Revision)
    (u : VerificationReport) (ht : Carries conflicting t) (h : Revises py t a u) :
    Carries conflicting u := by
  have hrevised := h.revised ht.1.distinct
  exact ⟨ht.1.revised hrevised, hrevised.conflicts.trans ht.2⟩

/-- Conflicts block readiness along a run exactly if the text itself conflicts, or no confirmation
trusts a value that disagrees with another trusted one. -/
theorem conflicts_block_iff (hverify : verify py policy referenceDate
      (QuoteExtractor.extract py rawInput locale intakeId) = .ok report)
    (h : Runs.Run (Revises py) report tr last) :
    (ConflictsBlock report ∧ ∀ x ∈ tr, ConflictsBlock x.after) ↔
      Conflicting (QuoteExtractor.extract py rawInput locale intakeId).candidates ∨
        ∀ x ∈ tr, ¬Disagrees x.label.call x.before := by
  have hcarries : Carries (Conflicting
      (QuoteExtractor.extract py rawInput locale intakeId).candidates) report :=
    ⟨verified_of_verify hverify, conflicts_mem_of_verify hverify⟩
  have hfirst : ConflictsBlock report := by
    intro hdiffer
    have hmem := hcarries.2.mpr (differing_of_verify hverify hdiffer)
    exact ⟨not_ready_of_mem (buildReport_ok hverify).2.2.2.2 hmem, hmem⟩
  rw [and_iff_right hfirst]
  by_cases hconflict : Conflicting (QuoteExtractor.extract py rawInput locale intakeId).candidates
  · have hall : ∀ x ∈ tr, ConflictsBlock x.after := by
      intro x hx _
      obtain ⟨pre, post, rfl⟩ := List.append_of_mem hx
      obtain ⟨hpre, hs, -⟩ := h.split
      have hbefore := hpre.invariant_state _ hcarries carries_step
      have hrevised := hs.revised hbefore.1.distinct
      have hmem := hrevised.conflicts.mpr (hbefore.2.mpr hconflict)
      exact ⟨not_ready_of_mem hrevised.ready hmem, hmem⟩
    exact ⟨fun _ => Or.inl hconflict, fun _ => hall⟩
  · rw [or_iff_right hconflict]
    apply h.forall_after_iff _ ConflictsBlock (fun x => ¬Disagrees x.label.call x.before) hcarries
      hfirst carries_step
    intro t a u ht hblock hs
    have hagree : ¬Differing t.candidates := fun hdiffer =>
      hconflict (ht.2.mp (hblock hdiffer).2)
    rw [← differing_revised ht.1 hagree (hs.revised ht.1.distinct)]
    constructor
    · intro hblock' hdiffer
      exact hconflict ((carries_step t a u ht hs).2.mp (hblock' hdiffer).2)
    · intro hagree' hdiffer
      exact absurd hdiffer hagree'

end Runs

/-! ## Two amounts -/

/-- A policy that the quotes of the examples keep to. -/
def quotePolicy : PolicyContext where
  policyId := "quotes"
  policyVersion := "1"
  effectiveDate := "2026-01-01"
  maximumDiscountPercent := "10"
  minimumMarginPercent := "1"
  maximumDurationMonthsWithoutException := 12
  requiresApprovalAboveAmount := "1000"
  maximumEvidenceAgeDays := 365
  requiredApprovalCount := 1

def reviseFirst (action : String) (newValue : Option String) : Revision :=
  ⟨⟨"quote:fact:1", action, newValue, "checked", "2026-01-01", quoteValidator⟩,
    some quotePolicy, 739617⟩

theorem conflicts_block_rejected : ∃ report tr last,
    Runs.Run (Revises asciiInterpreter) report tr last ∧
      tr.map Runs.Transition.label = [reviseFirst "REJECT" none] ∧
      ∀ x ∈ tr, ConflictsBlock x.after := by
  have hend : (toOption (verify asciiInterpreter (some quotePolicy) 739617
      (quoteOf "1€1€"))).any (fun report =>
        (revise asciiInterpreter report (reviseFirst "REJECT" none)).isSome) = true := by
    rfl
  obtain ⟨report, hreport, hsome⟩ := (Option.any_eq_true _ _).mp hend
  obtain ⟨last, hlast⟩ := Option.isSome_iff_exists.mp hsome
  have hr : Runs.Run (Revises asciiInterpreter) report _ last := Runs.Run.single hlast
  refine ⟨report, _, last, hr, rfl, ?_⟩
  have hiff := conflicts_block_iff (toOption_eq_some.mp hreport) hr
  refine (hiff.mpr (Or.inr ?_)).2
  rw [List.forall_mem_singleton]
  exact fun hdisagrees => hdisagrees.1 rfl

/-- The first of two equal amounts is corrected, and the report stays ready with both. -/
theorem conflicts_unnoticed : ¬∀ (py : Interpreter) (policy : Option PolicyContext)
    (referenceDate : ℤ) (rawInput locale intakeId : String) (report last : VerificationReport)
    (tr : Runs.Trace VerificationReport Revision),
    verify py policy referenceDate (QuoteExtractor.extract py rawInput locale intakeId) =
      .ok report → Runs.Run (Revises py) report tr last → ConflictsBlock last := by
  intro h
  have hend : (toOption (verify asciiInterpreter (some quotePolicy) 739617
      (quoteOf "1€1€ marge2% rabatt3%"))).any (fun report =>
        (revise asciiInterpreter report (reviseFirst "CORRECT" (some "2"))).any fun last =>
          Differing last.candidates ∧ last.ready = true) = true := by
    decide +kernel
  obtain ⟨report, hreport, hrevised⟩ := (Option.any_eq_true _ _).mp hend
  obtain ⟨last, hlast, hready⟩ := (Option.any_eq_true _ _).mp hrevised
  obtain ⟨hdiffer, hready⟩ := of_decide_eq_true hready
  have hblock := h _ _ _ _ _ _ _ last _ (toOption_eq_some.mp hreport) (Runs.Run.single hlast)
  rw [(hblock hdiffer).1] at hready
  cases hready

end DecisionAssurance.Intake
