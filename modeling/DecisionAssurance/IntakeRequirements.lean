import DecisionAssurance.IntakeConflicts

/-!
# Approval requirements along revisions

A revision drops the requirement of an approval for good once an approval is confirmed, so the
requirement follows the confirmations as long as the last confirmed approval is not rejected.
-/

namespace DecisionAssurance.Intake

/-- Every requirement of an approval stands, and keeps the report from being ready, exactly while
no approval is confirmed. -/
def RequirementFollows (extraction : ExtractionReport) (report : VerificationReport) : Prop :=
  ∀ q ∈ extraction.requirements, q.factType = .approvalClaim →
    ((q.requirementId ∈ report.unresolvedRequirementRefs ∧ report.ready = false) ↔
      confirmedApproval report.candidates = false)

/-- The call rejects the only approval that is confirmed. -/
def WithdrawsLast (call : ConfirmationCall) (report : VerificationReport) : Prop :=
  call.action = "REJECT" ∧ confirmedApproval report.candidates = true ∧
    ∀ c ∈ report.candidates, c.factType = .approvalClaim →
      c.verificationStatus = .humanConfirmed → c.factId = call.factId

/-- What holds of the approvals of a report after every verification. -/
structure Standing (report : VerificationReport) : Prop where
  distinct : (report.candidates.map CandidateFact.factId).Nodup
  apart : ∀ c ∈ report.candidates, c.factType = .approvalClaim →
    c.verificationStatus = .humanConfirmed → c.embedded report.candidates = false
  blocked : report.unresolvedRequirementRefs ≠ [] → report.ready = false

section Approvals

variable {py : Interpreter} {before after : VerificationReport} {r : Revision}
  {candidates : List CandidateFact}

theorem confirmedApproval_iff : confirmedApproval candidates = true ↔ ∃ c ∈ candidates,
    c.factType = .approvalClaim ∧ c.verificationStatus = .humanConfirmed := by
  simp [confirmedApproval]

theorem rejectedByPass_approval {policy : Option PolicyContext} {c : CandidateFact}
    (h : c.factType = .approvalClaim) :
    rejectedByPass py policy candidates c = c.embedded candidates := by
  simp [rejectedByPass, h, governanceClaims]

theorem Standing.revised (hbefore : Standing before) (h : Revised py before r after) :
    Standing after := by
  constructor
  · exact h.nodup hbefore.distinct
  · intro c' hc' htype hconfirmed
    rw [h.candidates] at hc'
    obtain ⟨c, hc, rfl⟩ := List.mem_map.mp hc'
    obtain ⟨hpass, -⟩ := humanConfirmed_settle hconfirmed
    rw [rejectedByPass_approval (by simpa using htype)] at hpass
    rw [← hpass, h.candidates]
    apply embedded_congr
    · simp [CandidateFact.span]
    · simp [CandidateFact.span, Function.comp_def]
  · intro hne
    exact not_ready_of_mem h.ready (h.missing hne)

/-- An approval is still confirmed after the revision exactly if its confirmation is not undone. -/
theorem settle_approval (h : Standing before) {c : CandidateFact} (hc : c ∈ before.candidates)
    (htype : c.factType = .approvalClaim) (hconfirmed : c.verificationStatus = .humanConfirmed)
    (hkept : (confirmed r.call c).verificationStatus = .humanConfirmed) :
    (settle py r.policy (before.candidates.map (confirmed r.call))
      (confirmed r.call c)).verificationStatus = .humanConfirmed := by
  apply settle_humanConfirmed _ hkept
  rw [rejectedByPass_approval (by simpa using htype),
    embedded_congr (confirmed_span r.call c) (map_span_confirmed r.call _)]
  exact h.apart c hc htype hconfirmed

theorem withdraws_iff (hbefore : Standing before) (h : Revised py before r after) :
    (confirmedApproval before.candidates = true ∧ confirmedApproval after.candidates = false) ↔
      WithdrawsLast r.call before := by
  have hafter : confirmedApproval after.candidates = true ↔ ∃ c ∈ before.candidates,
      c.factType = .approvalClaim ∧ (settle py r.policy (before.candidates.map (confirmed r.call))
        (confirmed r.call c)).verificationStatus = .humanConfirmed := by
    rw [confirmedApproval_iff, h.candidates]
    simp
  rw [← Bool.not_eq_true, hafter]
  constructor
  · rintro ⟨hconfirmed, hnone⟩
    have hlost : ∀ c ∈ before.candidates, c.factType = .approvalClaim →
        c.verificationStatus = .humanConfirmed →
        (confirmed r.call c).verificationStatus ≠ .humanConfirmed := by
      intro c hc htype hstatus hkept
      exact hnone ⟨c, hc, htype, settle_approval hbefore hc htype hstatus hkept⟩
    have hids : ∀ c ∈ before.candidates, c.factType = .approvalClaim →
        c.verificationStatus = .humanConfirmed → c.factId = r.call.factId := by
      intro c hc htype hstatus
      by_contra hid
      exact hlost c hc htype hstatus (by simpa [confirmed, hid] using hstatus)
    refine ⟨?_, hconfirmed, hids⟩
    obtain ⟨c, hc, htype, hstatus⟩ := confirmedApproval_iff.mp hconfirmed
    by_contra haction
    exact hlost c hc htype hstatus (by simp [confirmed, hids c hc htype hstatus, updatedFact, haction])
  · rintro ⟨haction, hconfirmed, hids⟩
    refine ⟨hconfirmed, ?_⟩
    rintro ⟨c, hc, htype, hstatus⟩
    have hkept := (humanConfirmed_settle hstatus).2
    by_cases hid : c.factId = r.call.factId
    · simp [confirmed, hid, updatedFact, haction] at hkept
    · rw [confirmed, if_neg hid] at hkept
      exact hid (hids c hc htype hkept)

end Approvals

section Requirements

variable {py : Interpreter} {policy : Option PolicyContext} {referenceDate : ℤ}
  {rawInput locale intakeId : String} {report last : VerificationReport}
  {tr : Runs.Trace VerificationReport Revision} {q : VerificationRequirement}

theorem requirement_marked
    (h : q ∈ (QuoteExtractor.extract py rawInput locale intakeId).requirements)
    (htype : q.factType = .approvalClaim) :
    QuoteExtractor.contains approvalMarker q.requirementId.toList = true := by
  have hid : ∃ n : ℕ, q.requirementId =
      s!"{intakeId}:requirement:{FactType.approvalClaim.value}:{toString n}" := by
    unfold QuoteExtractor.extract QuoteExtractor.missingRequirements
      QuoteExtractor.missingPatterns at h
    simp only [List.foldl_cons, List.foldl_nil] at h
    split_ifs at h <;> simp only [List.mem_append, List.mem_singleton, List.not_mem_nil, false_or]
      at h
    · rcases h with rfl | rfl
      · cases htype
      · exact ⟨_, rfl⟩
    · subst h
      exact ⟨_, rfl⟩
    · subst h
      cases htype
  obtain ⟨n, hn⟩ := hid
  have hmarker : approvalMarker = ":requirement:".toList ++ (FactType.approvalClaim.value.toList ++
      ":".toList) := by decide
  simp only [QuoteExtractor.contains, decide_eq_true_eq, hn, toString, String.toList_append, hmarker]
  refine ⟨intakeId.toList, n.repr.toList, ?_⟩
  simp only [List.append_assoc]

theorem mem_remaining (h : QuoteExtractor.contains approvalMarker q.requirementId.toList = true)
    {candidates : List CandidateFact} {refs : List String} :
    q.requirementId ∈ remainingRequirements candidates refs ↔
      q.requirementId ∈ refs ∧ confirmedApproval candidates = false := by
  simp [remainingRequirements, h]

theorem confirmedApproval_verify (h : verify py policy referenceDate
    (QuoteExtractor.extract py rawInput locale intakeId) = .ok report) :
    ∀ c ∈ report.candidates, c.verificationStatus ≠ .humanConfirmed := by
  obtain ⟨-, hcandidates, -⟩ := buildReport_ok h
  rw [hcandidates, verifyCandidates_eq_map]
  intro c hc hconfirmed
  obtain ⟨d, hd, rfl⟩ := List.mem_map.mp hc
  have hstatus := (humanConfirmed_settle hconfirmed).2
  rw [unresolved_of_mem_extract hd] at hstatus
  cases hstatus

theorem standing_of_verify (h : verify py policy referenceDate
    (QuoteExtractor.extract py rawInput locale intakeId) = .ok report) : Standing report := by
  refine ⟨(verified_of_verify h).distinct, ?_, ?_⟩
  · intro c hc _ hconfirmed
    exact absurd hconfirmed (confirmedApproval_verify h c hc)
  · obtain ⟨-, -, -, hreasons, hready⟩ := buildReport_ok h
    intro hne
    apply not_ready_of_mem hready
    rw [hreasons]
    apply mem_reportReasons_missing
    rwa [(buildReport_ok h).2.2.1] at hne

theorem follows_of_verify (h : verify py policy referenceDate
    (QuoteExtractor.extract py rawInput locale intakeId) = .ok report) :
    RequirementFollows (QuoteExtractor.extract py rawInput locale intakeId) report := by
  intro q hq _
  have hmem : q.requirementId ∈ report.unresolvedRequirementRefs := by
    rw [(buildReport_ok h).2.2.1]
    exact List.mem_map_of_mem hq
  have hnone : confirmedApproval report.candidates = false := by
    rw [← Bool.not_eq_true, confirmedApproval_iff]
    rintro ⟨c, hc, -, hconfirmed⟩
    exact confirmedApproval_verify h c hc hconfirmed
  have hready := (standing_of_verify h).blocked (List.ne_nil_of_mem hmem)
  simp [hmem, hnone, hready]

/-- A requirement that is in step with a report stays so exactly if no approval is lost. -/
theorem follows_revised {before after : VerificationReport} {r : Revision}
    (hq : QuoteExtractor.contains approvalMarker q.requirementId.toList = true)
    (hbefore : Standing before) (h : Revised py before r after)
    (hfollows : (q.requirementId ∈ before.unresolvedRequirementRefs ∧ before.ready = false) ↔
      confirmedApproval before.candidates = false) :
    ((q.requirementId ∈ after.unresolvedRequirementRefs ∧ after.ready = false) ↔
      confirmedApproval after.candidates = false) ↔ ¬WithdrawsLast r.call before := by
  have hstanding : ∀ {t : VerificationReport}, Standing t →
      (q.requirementId ∈ t.unresolvedRequirementRefs ∧ t.ready = false ↔
        q.requirementId ∈ t.unresolvedRequirementRefs) := by
    intro t ht
    rw [and_iff_left_iff_imp]
    exact fun hmem => ht.blocked (List.ne_nil_of_mem hmem)
  rw [hstanding hbefore] at hfollows
  rw [hstanding (hbefore.revised h), ← withdraws_iff hbefore h, h.requirements, mem_remaining hq,
    hfollows]
  cases confirmedApproval before.candidates <;> cases confirmedApproval after.candidates <;> simp

/-- The requirement of an approval follows the confirmations along a run exactly if it is not
raised, or no step rejects the only approval that is confirmed. -/
theorem requirement_follows_iff (hverify : verify py policy referenceDate
      (QuoteExtractor.extract py rawInput locale intakeId) = .ok report)
    (h : Runs.Run (Revises py) report tr last) :
    (RequirementFollows (QuoteExtractor.extract py rawInput locale intakeId) report ∧
      ∀ x ∈ tr, RequirementFollows (QuoteExtractor.extract py rawInput locale intakeId) x.after) ↔
      ((∃ q ∈ (QuoteExtractor.extract py rawInput locale intakeId).requirements,
          q.factType = .approvalClaim) →
        ∀ x ∈ tr, ¬WithdrawsLast x.label.call x.before) := by
  rw [and_iff_right (follows_of_verify hverify)]
  by_cases hraised : ∃ q ∈ (QuoteExtractor.extract py rawInput locale intakeId).requirements,
      q.factType = .approvalClaim
  · rw [imp_iff_right hraised]
    apply h.forall_after_iff Standing _ (fun x => ¬WithdrawsLast x.label.call x.before)
      (standing_of_verify hverify) (follows_of_verify hverify)
    · intro t a u ht hs
      exact ht.revised (hs.revised ht.distinct)
    · intro t a u ht hfollows hs
      have hrevised := hs.revised ht.distinct
      constructor
      · intro hafter
        obtain ⟨q, hq, htype⟩ := hraised
        exact (follows_revised (requirement_marked hq htype) ht hrevised
          (hfollows q hq htype)).mp (hafter q hq htype)
      · intro hkept q hq htype
        exact (follows_revised (requirement_marked hq htype) ht hrevised
          (hfollows q hq htype)).mpr hkept
  · constructor
    · exact fun _ hq => absurd hq hraised
    · exact fun _ x _ q hq htype => absurd ⟨q, hq, htype⟩ hraised

end Requirements

/-! ## An approval that is named as missing -/

theorem requirement_follows_confirmed : ∃ report tr last,
    Runs.Run (Revises asciiInterpreter) report tr last ∧
      tr.map Runs.Transition.label = [reviseFirst "CONFIRM" none] ∧
      ∀ x ∈ tr, RequirementFollows (quoteOf "approval missing") x.after := by
  have hend : (toOption (verify asciiInterpreter (some quotePolicy) 739617
      (quoteOf "approval missing"))).any (fun report =>
        (revise asciiInterpreter report (reviseFirst "CONFIRM" none)).isSome) = true := by
    rfl
  obtain ⟨report, hreport, hsome⟩ := (Option.any_eq_true _ _).mp hend
  obtain ⟨last, hlast⟩ := Option.isSome_iff_exists.mp hsome
  have hr : Runs.Run (Revises asciiInterpreter) report _ last := Runs.Run.single hlast
  refine ⟨report, _, last, hr, rfl, ?_⟩
  have hiff := requirement_follows_iff (toOption_eq_some.mp hreport) hr
  refine (hiff.mpr fun _ => ?_).2
  rw [List.forall_mem_singleton]
  have haction : (reviseFirst "CONFIRM" none).call.action ≠ "REJECT" := by decide
  exact fun hwithdraws => haction hwithdraws.1

/-- An approval is confirmed and later rejected: its requirement is not raised again. -/
theorem requirement_dropped : ¬∀ (py : Interpreter) (policy : Option PolicyContext)
    (referenceDate : ℤ) (rawInput locale intakeId : String) (report last : VerificationReport)
    (tr : Runs.Trace VerificationReport Revision),
    verify py policy referenceDate (QuoteExtractor.extract py rawInput locale intakeId) =
      .ok report → Runs.Run (Revises py) report tr last →
      RequirementFollows (QuoteExtractor.extract py rawInput locale intakeId) last := by
  intro h
  have hend : (toOption (verify asciiInterpreter (some quotePolicy) 739617
      (quoteOf "approval missing"))).any (fun report =>
        ([reviseFirst "CONFIRM" none, reviseFirst "REJECT" none].foldlM
          (revise asciiInterpreter) report).any fun last =>
            (quoteOf "approval missing").requirements.any (fun q =>
              q.factType = .approvalClaim ∧
                q.requirementId ∉ last.unresolvedRequirementRefs) ∧
            confirmedApproval last.candidates = false) = true := by
    rfl
  obtain ⟨report, hreport, hrevised⟩ := (Option.any_eq_true _ _).mp hend
  obtain ⟨last, hlast, hdropped⟩ := (Option.any_eq_true _ _).mp hrevised
  obtain ⟨hraised, hnone⟩ := of_decide_eq_true hdropped
  obtain ⟨q, hq, hq'⟩ := List.any_eq_true.mp hraised
  obtain ⟨htype, habsent⟩ := of_decide_eq_true hq'
  obtain ⟨tr, hr, -⟩ := Runs.run_of_foldlM _ hlast
  exact habsent ((h _ _ _ _ _ _ _ last tr (toOption_eq_some.mp hreport) hr q hq htype).mpr hnone).1

end DecisionAssurance.Intake
