import DecisionAssurance.IntakeConflicts

/-!
# Repeated verification

A verification settles every candidate for good: made again with the same policy and date, it finds
the same candidates, requirements, conflicts and findings, and so returns an equal report.
-/

namespace DecisionAssurance.Intake

section Stability

variable {py : Interpreter} {policy : Option PolicyContext} {referenceDate : ℤ}
  {candidates others : List CandidateFact} {c : CandidateFact}

theorem verifyCandidate_rejected (h : c.verificationStatus = .rejected) : verifyCandidate c = c := by
  unfold verifyCandidate
  rw [if_pos (Or.inr h)]

theorem verifyCandidate_idem (c : CandidateFact) :
    verifyCandidate (verifyCandidate c) = verifyCandidate c := by
  by_cases hdone : c.verificationStatus = .humanConfirmed ∨ c.verificationStatus = .rejected
  · have hsame : verifyCandidate c = c := if_pos hdone
    rw [hsame, hsame]
  · by_cases hobjective : c.factType ∈ objectiveFacts ∧ c.normalizedValue.isSome = true
    · simp [verifyCandidate, hdone, hobjective]
    · by_cases hinstruction : c.factType = .untrustedInstruction
      · apply verifyCandidate_rejected
        simp [verifyCandidate, hdone, hinstruction]
        split_ifs with hvalue
        · exact absurd hvalue.1 (by decide)
        · rfl
      · have hsame : verifyCandidate c = c := by
          unfold verifyCandidate
          rw [if_neg hdone, if_neg hobjective, if_neg hinstruction]
        rw [hsame, hsame]

/-- A pass sees what it rejects by in the candidates that were settled as well. -/
theorem rejectedByPass_settle : rejectedByPass py policy
    (candidates.map (settle py policy candidates)) (settle py policy candidates c) =
      rejectedByPass py policy candidates c := by
  have hembedded : (settle py policy candidates c).embedded
      (candidates.map (settle py policy candidates)) = c.embedded candidates := by
    apply embedded_congr
    · simp [CandidateFact.span]
    · exact map_span_settle
  unfold rejectedByPass
  rw [hembedded, settle_factType, settle_normalizedValue]

theorem settle_idem : settle py policy (candidates.map (settle py policy candidates))
    (settle py policy candidates c) = settle py policy candidates c := by
  rw [settle, rejectedByPass_settle]
  split_ifs with hpass
  · have hsettled : settle py policy candidates c = (verifyCandidate c).reject := if_pos hpass
    rw [hsettled, verifyCandidate_rejected rfl]
    rfl
  · have hsettled : settle py policy candidates c = verifyCandidate c := if_neg hpass
    rw [hsettled, verifyCandidate_idem]

theorem verifyCandidates_idem : verifyCandidates py policy (verifyCandidates py policy candidates) =
    verifyCandidates py policy candidates := by
  rw [verifyCandidates_eq_map, verifyCandidates_eq_map, List.map_map]
  exact List.map_congr_left fun c _ => settle_idem

theorem remainingRequirements_idem (refs : List String) :
    remainingRequirements candidates (remainingRequirements candidates refs) =
      remainingRequirements candidates refs := by
  unfold remainingRequirements
  rw [List.filter_filter]
  simp only [Bool.and_self]

/-- A report that was built from settled candidates and remaining requirements is found again. -/
theorem reverify_built {intakeId : String} {refs : List String} {conflicts : Bool}
    {report : VerificationReport} (h : buildReport py policy referenceDate intakeId
      (verifyCandidates py policy candidates) refs conflicts = .ok report)
    (hrefs : remainingRequirements (verifyCandidates py policy candidates) refs = refs) :
    reverify py policy referenceDate report = .ok report := by
  obtain ⟨hid, hcandidates, hunresolved, hreasons, -⟩ := buildReport_ok h
  have hconflicts : report.reasonCodes.contains "CONFLICTS_UNRESOLVED" = conflicts := by
    rw [Bool.eq_iff_iff, List.contains_iff_mem, hreasons]
    exact mem_reportReasons_conflicts
  unfold reverify
  dsimp only
  rw [hid, hcandidates, verifyCandidates_idem, hunresolved, hrefs, hconflicts]
  exact h

theorem unconfirmed_of_unresolved (h : ∀ c ∈ candidates, c.verificationStatus = .unresolved) :
    confirmedApproval (verifyCandidates py policy candidates) = false := by
  rw [verifyCandidates_eq_map, ← Bool.not_eq_true]
  intro hconfirmed
  obtain ⟨c', hc', htype⟩ := List.any_eq_true.mp hconfirmed
  obtain ⟨c, hc, rfl⟩ := List.mem_map.mp hc'
  have hstatus := (humanConfirmed_settle (of_decide_eq_true htype).2).2
  rw [h c hc] at hstatus
  cases hstatus

end Stability

/-- A verification of an extraction is stable, and so is every verification of a report. -/
theorem reverification_stable (py : Interpreter) (policy : Option PolicyContext)
    (referenceDate : ℤ) (report : VerificationReport)
    (h : (∃ rawInput locale intakeId, verify py policy referenceDate
        (QuoteExtractor.extract py rawInput locale intakeId) = .ok report) ∨
      ∃ before, reverify py policy referenceDate before = .ok report) :
    reverify py policy referenceDate report = .ok report := by
  rcases h with ⟨rawInput, locale, intakeId, hverify⟩ | ⟨before, hreverify⟩
  · apply reverify_built hverify
    unfold remainingRequirements
    rw [unconfirmed_of_unresolved fun c hc => unresolved_of_mem_extract hc]
    simp
  · exact reverify_built hreverify (remainingRequirements_idem _)

theorem reverification_stable_quote : ∃ report,
    verify asciiInterpreter (some quotePolicy) 739617 (quoteOf "1€") = .ok report ∧
      reverify asciiInterpreter (some quotePolicy) 739617 report = .ok report := by
  have hsome : (toOption (verify asciiInterpreter (some quotePolicy) 739617
      (quoteOf "1€"))).isSome = true := by
    rfl
  obtain ⟨report, hreport⟩ := Option.isSome_iff_exists.mp hsome
  rw [toOption_eq_some] at hreport
  exact ⟨report, hreport, reverification_stable _ _ _ _ (.inl ⟨_, _, _, hreport⟩)⟩

end DecisionAssurance.Intake
