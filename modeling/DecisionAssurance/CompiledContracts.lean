import DecisionAssurance.DecisionCompiler
import DecisionAssurance.DecisionValidity
import DecisionAssurance.EvaluationOutcomes
import DecisionAssurance.IntakeConflicts

/-!
# The contract of a compiled decision

A compiled document keeps to the contract as far as its parts do. Above all, its id is the one of
the intake with a suffix, for which there has to be room. Where it keeps to the contract, it also
keeps to the semantic rules, and its evaluation says what the findings of the report say.
-/

namespace DecisionAssurance.Intake.DecisionFileCompiler

/-! ## Ids with a suffix -/

/-- An id of the pattern of decision ids that leaves room for the suffix of the compiler. -/
def leavesRoom (intakeId : String) : Bool :=
  matchesIdentifier ['.', '_', '-'] 118 intakeId.toList

theorem toList_compiledId (intakeId : String) :
    (compiledId intakeId).toList = intakeId.toList ++ "-decision".toList := by
  simp only [compiledId, toString, String.toList_append]

theorem length_of_leavesRoom {intakeId : String} (h : leavesRoom intakeId = true) :
    intakeId.toList.length ≤ 119 := matchesIdentifier_length h

/-- The suffix has nine characters, all of the pattern, and does not end with a newline. -/
theorem isDecisionId_compiledId (intakeId : String) :
    isDecisionId (compiledId intakeId) = leavesRoom intakeId := by
  have hlast : (compiledId intakeId).toList.getLast? ≠ some '\n' := by
    rw [toList_compiledId, List.getLast?_append_of_ne_nil _ (by decide)]
    decide
  have hsuffix : ("-decision".toList.all fun d =>
      d.isAlphanum || ['.', '_', '-'].contains d) = true := by
    decide
  unfold isDecisionId searches leavesRoom
  rw [decide_eq_false hlast, Bool.false_and, Bool.or_false, toList_compiledId]
  cases intakeId.toList with
  | nil => decide
  | cons c cs =>
    have hlength : (cs ++ "-decision".toList).length ≤ 127 ↔ cs.length ≤ 118 := by
      rw [List.length_append, show "-decision".toList.length = 9 by decide]
      omega
    simp only [List.cons_append, matchesIdentifier, List.all_append, hsuffix, Bool.and_true,
      hlength]

theorem nonEmpty_append_left {s t : String} (h : nonEmpty s = true) : nonEmpty (s ++ t) = true := by
  unfold nonEmpty at h ⊢
  rw [String.toList_append]
  cases hs : s.toList with
  | nil => simp [hs] at h
  | cons c cs => rfl

theorem nonEmpty_append_right {s t : String} (h : nonEmpty t = true) :
    nonEmpty (s ++ t) = true := by
  unfold nonEmpty at h ⊢
  rw [String.toList_append]
  cases hs : s.toList with
  | nil => exact h
  | cons c cs => rfl

/-! ## The contract -/

def trusted (report : VerificationReport) : List CandidateFact :=
  report.candidates.filter fun c => c.verificationStatus.trusted

/-- What the compiler takes over from its arguments fits the contract. -/
structure Fits (report : VerificationReport) (actorId : String) : Prop where
  intake : leavesRoom report.intakeId = true
  actor : nonEmpty actorId = true
  some : trusted report ≠ []
  facts : ∀ c ∈ trusted report, nonEmpty c.factId = true
  codes : ∀ f ∈ report.findings, nonEmpty f.resultCode = true

section Contract

variable {py : Interpreter} {report : VerificationReport} {policy : PolicyContext}
  {actorId timestamp : String} {d : DecisionFile}

/-- A ready report is compiled if nothing is left to resolve and something is trusted. -/
theorem compile_eq_ok (hready : report.ready = true) :
    compile py report policy actorId .ready timestamp = .ok d ↔
      report.unresolvedRequirementRefs = [] ∧ trusted report ≠ [] ∧
        d = compiledDecision py report policy actorId timestamp (trusted report) := by
  have hopen : (IntakeStatus.ready ≠ .ready ∨ (!report.ready) = true ∨
      (!report.unresolvedRequirementRefs.isEmpty) = true) ↔
        report.unresolvedRequirementRefs ≠ [] := by
    simp [hready]
  unfold compile
  dsimp only
  rw [← trusted]
  by_cases hrefs : report.unresolvedRequirementRefs = []
  · rw [if_neg (fun h => hopen.mp h hrefs)]
    by_cases hsome : trusted report = []
    · rw [if_pos (List.isEmpty_iff.mpr hsome)]
      exact ⟨fun h => (nomatch h), fun h => absurd hsome h.2.1⟩
    · rw [if_neg (fun h => hsome (List.isEmpty_iff.mp h)), Except.ok.injEq]
      exact ⟨fun h => ⟨hrefs, hsome, h.symm⟩, fun h => h.2.2.symm⟩
  · rw [if_pos (hopen.mpr hrefs)]
    exact ⟨fun h => (nomatch h), fun h => absurd h.1 hrefs⟩

theorem compiledActor_contractValid :
    (compilerActor actorId).contractValid = nonEmpty actorId := by
  unfold Actor.contractValid compilerActor
  exact Bool.and_true _

theorem compiledClaim_contractValid (c : CandidateFact) (index : ℕ) :
    (compiledClaim c index).contractValid = true := by
  have hid : nonEmpty (claimId index) = true := nonEmpty_append_left (by decide)
  have hstatement : nonEmpty (compiledClaim c index).statement = true :=
    nonEmpty_append_left (nonEmpty_append_right (by decide))
  unfold Claim.contractValid
  rw [hstatement, Bool.and_true]
  exact hid

theorem compiledEvidence_contractValid (c : CandidateFact) (index : ℕ) :
    (compiledEvidence c index).contractValid py.toPlatform = nonEmpty c.factId := by
  have hsource : nonEmpty (compiledEvidence c index).sourceRef = true := by
    unfold compiledEvidence
    exact nonEmpty_append_left (nonEmpty_append_left (nonEmpty_append_left
      (nonEmpty_append_right (by decide))))
  unfold Evidence.contractValid
  rw [hsource]
  simp [compiledEvidence]

theorem contractValid_compiledDecision (hclock : py.dateTime timestamp = true) :
    (compiledDecision py report policy actorId timestamp (trusted report)).contractValid
      py.toPlatform = true ↔ Fits report actorId := by
  have htitle : leavesRoom report.intakeId = true →
      lengthBetween 1 200 s!"Compiled intake {report.intakeId}" = true := by
    intro hroom
    have hlength := length_of_leavesRoom hroom
    simp only [lengthBetween, toString, String.toList_append, List.length_append,
      Bool.and_eq_true, decide_eq_true_eq]
    rw [show "Compiled intake ".toList.length = 16 by decide]
    omega
  have hclaims : (compiledDecision py report policy actorId timestamp (trusted report)).claims.all
      Claim.contractValid = true := by
    rw [List.all_eq_true]
    intro claim hclaim
    obtain ⟨i, hi, rfl⟩ := List.mem_mapIdx.mp hclaim
    exact compiledClaim_contractValid _ _
  have hevidence : (compiledDecision py report policy actorId timestamp
      (trusted report)).evidence.all (Evidence.contractValid py.toPlatform) = true ↔
        ∀ c ∈ trusted report, nonEmpty c.factId = true := by
    rw [List.all_eq_true]
    constructor
    · intro h c hc
      obtain ⟨i, hi, rfl⟩ := List.getElem_of_mem hc
      have hvalid := h _ (List.mem_mapIdx.mpr ⟨i, hi, rfl⟩)
      rwa [compiledEvidence_contractValid] at hvalid
    · intro h e he
      obtain ⟨i, hi, rfl⟩ := List.mem_mapIdx.mp he
      rw [compiledEvidence_contractValid]
      exact h _ (List.getElem_mem hi)
  have hcodes : (compiledDecision py report policy actorId timestamp
      (trusted report)).constraints.all (fun c => nonEmpty c.reasonCode) = true ↔
        ∀ f ∈ report.findings, nonEmpty f.resultCode = true := by
    rw [List.all_eq_true]
    exact List.forall_mem_map
  have hsome : (!(compiledDecision py report policy actorId timestamp
      (trusted report)).claims.isEmpty) = true ↔ trusted report ≠ [] := by
    simp [compiledDecision]
  have hid : isDecisionId (compiledDecision py report policy actorId timestamp
      (trusted report)).decisionId = leavesRoom report.intakeId := isDecisionId_compiledId _
  have hevent : (compiledEvent py report.intakeId timestamp (compilerActor actorId)
      ((trusted report).map CandidateFact.factId)).contractValid py.toPlatform =
        nonEmpty actorId := by
    unfold AuditEvent.contractValid compiledEvent
    rw [hclock, compiledActor_contractValid, Bool.true_and]
    exact Bool.and_true _
  have hdescription : nonEmpty
      "Decision File compiled exclusively from verified intake facts." = true := by decide
  have huseCase : lengthBetween 1 100 "controlled-real-world-intake" = true := by decide
  unfold DecisionFile.contractValid
  rw [hid]
  simp only [Bool.and_eq_true, hclaims, hevidence, hcodes, hsome]
  simp only [compiledDecision, hclock, compiledActor_contractValid, hdescription, huseCase, hevent,
    Option.all_none, List.all_nil, List.all_cons, Bool.and_true, List.nodup_nil, decide_true,
    and_true]
  constructor
  · rintro ⟨⟨⟨⟨⟨⟨⟨⟨hroom, -⟩, hactor⟩, -⟩, -⟩, hsome⟩, hfacts⟩, hcodes⟩, -⟩
    exact ⟨hroom, hactor, hsome, hfacts, hcodes⟩
  · intro h
    exact ⟨⟨⟨⟨⟨⟨⟨⟨h.intake, htitle h.intake⟩, h.actor⟩, h.actor⟩, h.actor⟩, h.some⟩, h.facts⟩,
      h.codes⟩, h.actor⟩

/-! ## The semantic rules -/

theorem claimId_injective : Function.Injective claimId := by
  intro i j h
  exact numbered_injective "" "claim-" (by simpa [claimId, toString] using h)

theorem compiled_claimIds (verified : List CandidateFact) :
    (compiledDecision py report policy actorId timestamp verified).claims.map Claim.id =
      (List.range verified.length).map fun i => claimId (i + 1) := by
  apply List.ext_getElem
  · simp [compiledDecision]
  · intro i hi hi'
    simp [compiledDecision, compiledClaim]

theorem compiled_evidenceIds (verified : List CandidateFact) :
    (compiledDecision py report policy actorId timestamp verified).evidence.map Evidence.id =
      verified.map CandidateFact.factId := by
  apply List.ext_getElem
  · simp [compiledDecision]
  · intro i hi hi'
    simp [compiledDecision, compiledEvidence]

/-- Every claim is supported by the evidence of its candidate. -/
theorem compiled_evidence {verified : List CandidateFact} {e : Evidence}
    (he : e ∈ (compiledDecision py report policy actorId timestamp verified).evidence) :
    e.status = .verified ∧ ∀ ref ∈ e.claimRefs, ref ∈ (compiledDecision py report policy actorId
      timestamp verified).claims.map Claim.id := by
  obtain ⟨i, hi, rfl⟩ := List.mem_mapIdx.mp he
  refine ⟨rfl, fun ref href => ?_⟩
  rw [compiled_claimIds]
  obtain rfl := List.mem_singleton.mp href
  exact List.mem_map.mpr ⟨i, List.mem_range.mpr hi, rfl⟩

theorem compiled_supported {verified : List CandidateFact} {claim : Claim}
    (hclaim : claim ∈ (compiledDecision py report policy actorId timestamp verified).claims) :
    ¬(compiledDecision py report policy actorId timestamp verified).LacksEvidence claim := by
  obtain ⟨i, hi, rfl⟩ := List.mem_mapIdx.mp hclaim
  intro hlacks
  have hunavailable := hlacks.2 (compiledEvidence (verified[i]) (i + 1))
    (List.mem_mapIdx.mpr ⟨i, hi, rfl⟩) (List.mem_singleton_self _)
  cases hunavailable

theorem validateSemantics_compiledDecision {verified : List CandidateFact}
    (hclock : py.earlier timestamp timestamp = .ok false)
    (hdistinct : (verified.map CandidateFact.factId).Nodup) :
    validateSemantics py.toPlatform
      (compiledDecision py report policy actorId timestamp verified) = .ok () := by
  have hclaims : ((compiledDecision py report policy actorId timestamp verified).claims.map
      Claim.id).Nodup := by
    rw [compiled_claimIds]
    exact List.nodup_range.map fun i j h => Nat.succ_injective (claimId_injective h)
  have hevidence : ((compiledDecision py report policy actorId timestamp verified).evidence.map
      Evidence.id).Nodup := by
    rwa [compiled_evidenceIds]
  have hunknown : (compiledDecision py report policy actorId timestamp verified).unknownClaims =
      [] := by
    apply List.filter_eq_nil_iff.mpr
    intro ref href
    obtain ⟨e, he, href⟩ := List.mem_flatMap.mp href
    simpa using (compiled_evidence he).2 ref href
  rw [validateSemantics_iff]
  refine ⟨hclock, ?_⟩
  unfold DecisionFile.semanticErrors
  rw [decide_eq_true hclaims, decide_eq_true hevidence, hunknown]
  rfl

/-! ## The outcome -/

theorem compiled_highImpact {verified : List CandidateFact} :
    ¬(compiledDecision py report policy actorId timestamp verified).HighImpact := by
  rintro ⟨r, hr, -⟩
  cases hr

theorem compiled_blocks {verified : List CandidateFact} :
    (compiledDecision py report policy actorId timestamp verified).Blocks ↔
      ∃ f ∈ report.findings, f.resultCode ∈ mandatoryResults := by
  constructor
  · intro h
    cases h with
    | fabricated e he hstatus =>
      rw [(compiled_evidence he).1] at hstatus
      cases hstatus
    | constraint c hc hmandatory hviolated =>
      obtain ⟨f, hf, rfl⟩ := List.mem_map.mp hc
      refine ⟨f, hf, ?_⟩
      by_contra hcode
      rw [compiledConstraint, if_neg hcode] at hmandatory
      cases hmandatory
    | conflict c hc hcritical hopen => cases hc
    | evidence claim hclaim hlacks himpact => exact absurd himpact compiled_highImpact
  · rintro ⟨f, hf, hcode⟩
    exact .constraint (compiledConstraint f) (List.mem_map_of_mem hf) (if_pos hcode) rfl

theorem compiled_passes {verified : List CandidateFact} :
    (compiledDecision py report policy actorId timestamp verified).Passes ↔
      report.findings = [] := by
  constructor
  · intro h
    apply List.eq_nil_iff_forall_not_mem.mpr
    intro f hf
    have hsatisfied := h.constraints (compiledConstraint f) (List.mem_map_of_mem hf)
    by_cases hcode : f.resultCode ∈ mandatoryResults
    · cases hsatisfied (Or.inl (if_pos hcode))
    · cases hsatisfied (Or.inr (if_neg hcode))
  · intro hnil
    refine ⟨fun e he => (compiled_evidence he).1, fun claim hclaim => compiled_supported hclaim,
      ?_, ?_, ?_, fun h => compiled_highImpact h.1⟩
    · intro c hc
      simp [compiledDecision, hnil] at hc
    · intro p hp
      obtain rfl := List.mem_singleton.mp hp
      rfl
    · intro c hc
      cases hc

/-! ## Faithful compilations -/

variable (py) (report) in
/-- A document says what the report it was compiled from says. -/
structure Faithful (now : String) (d : DecisionFile) : Prop where
  contract : validateContract py.toPlatform d = .ok ()
  semantic : validateSemantics py.toPlatform d = .ok ()
  claims : d.claims.map Claim.statement = (trusted report).map fun c =>
    c.factType.value ++ " = " ++ c.normalizedValue.getD "None"
  evidence : (d.evidence.map fun e => (e.id, e.status, e.claimRefs)) =
    (trusted report).zipWith (fun c claim => (c.factId, .verified, [claim.id])) d.claims
  outcome : ∃ updated assessed,
    evaluateDecisionFile py.toPlatform now d = .ok (updated, assessed) ∧
      (assessed.outcome = .block ↔ ∃ f ∈ report.findings, f.resultCode ∈ mandatoryResults) ∧
      (assessed.outcome = .pass ↔ report.findings = []) ∧
      (assessed.outcome = .review ↔ report.findings ≠ [] ∧
        ∀ f ∈ report.findings, f.resultCode ∉ mandatoryResults)

theorem faithful_compiledDecision {now : String}
    (hcontract : (compiledDecision py report policy actorId timestamp
      (trusted report)).contractValid py.toPlatform = true)
    (hdistinct : (report.candidates.map CandidateFact.factId).Nodup)
    (hclock : py.earlier timestamp timestamp = .ok false) (hnow : py.dateTime now = true) :
    Faithful py report now
      (compiledDecision py report policy actorId timestamp (trusted report)) where
  contract := if_pos hcontract
  semantic := by
    apply validateSemantics_compiledDecision hclock
    exact hdistinct.sublist (List.filter_sublist.map _)
  claims := by
    apply List.ext_getElem
    · simp [compiledDecision]
    · intro i hi hi'
      simp [compiledDecision, compiledClaim]
  evidence := by
    apply List.ext_getElem
    · simp [compiledDecision]
    · intro i hi hi'
      simp [compiledDecision, compiledClaim, compiledEvidence]
  outcome := by
    have hsemantic : validateSemantics py.toPlatform
        (compiledDecision py report policy actorId timestamp (trusted report)) = .ok () :=
      validateSemantics_compiledDecision hclock (hdistinct.sublist (List.filter_sublist.map _))
    have hsem := validateSemantics_ok hsemantic
    refine ⟨_, _, evaluateDecisionFile_ok (if_pos hcontract) hsemantic hnow,
      (assess_block_iff hsem).trans compiled_blocks, (assess_pass_iff hsem).trans compiled_passes,
      (assess_review_iff hsem).trans ?_⟩
    rw [compiled_blocks, compiled_passes, and_comm]
    push Not
    rfl

variable (py) (report) (policy) (actorId) (timestamp) in
/-- A ready report is compiled to a document that says the same, if and only if the document has
room for the id of the intake and something to say. -/
theorem faithful_iff (now : String) (hready : report.ready = true)
    (hdistinct : (report.candidates.map CandidateFact.factId).Nodup)
    (htimestamp : py.dateTime timestamp = true) (hnow : py.dateTime now = true)
    (hclock : py.earlier timestamp timestamp = .ok false) :
    (∃ d, compile py report policy actorId .ready timestamp = .ok d ∧ Faithful py report now d) ↔
      Fits report actorId ∧ report.unresolvedRequirementRefs = [] := by
  constructor
  · rintro ⟨d, hcompile, hfaithful⟩
    obtain ⟨hrefs, -, rfl⟩ := (compile_eq_ok hready).mp hcompile
    have hcontract := validateContract_ok hfaithful.contract
    exact ⟨(contractValid_compiledDecision htimestamp).mp hcontract, hrefs⟩
  · rintro ⟨hfits, hrefs⟩
    have hcontract : (compiledDecision py report policy actorId timestamp
        (trusted report)).contractValid py.toPlatform = true :=
      (contractValid_compiledDecision htimestamp).mpr hfits
    exact ⟨_, (compile_eq_ok hready).mpr ⟨hrefs, hfits.some, rfl⟩,
      faithful_compiledDecision hcontract hdistinct hclock hnow⟩

end Contract

/-! ## Short and long ids -/

/-- The report of an intake with one amount, within its policy. -/
def amountReport (intakeId : String) : VerificationReport where
  schemaVersion := "0.3.0"
  intakeId := intakeId
  candidates := [⟨s!"{intakeId}:fact:1", .amount, "1€", some "1",
    ⟨s!"{intakeId}:raw", 0, 2, "sha256:0"⟩, "regex", "1", "1.0", .verified, none, some "EUR", [],
    false, none, none⟩]
  findings := []
  unresolvedRequirementRefs := []
  ready := true
  reasonCodes := []

theorem faithful_iff_quote : ∃ d, compile asciiInterpreter (amountReport "quote") quotePolicy
    "system:intake-compiler" .ready "2026-01-01" = .ok d ∧
      Faithful asciiInterpreter (amountReport "quote") "2026-01-02" d := by
  refine (faithful_iff asciiInterpreter (amountReport "quote") quotePolicy "system:intake-compiler"
    "2026-01-01" "2026-01-02" rfl (by decide) rfl rfl rfl).mpr ⟨⟨?_, ?_, ?_, ?_, ?_⟩, rfl⟩
  · decide
  · decide
  · decide
  · decide
  · decide

/-- An id of 128 characters keeps to the pattern of decision ids. -/
def longId : String := String.ofList (List.replicate 128 'a')

/-- No document is compiled for it that keeps to the contract. -/
theorem longId_unfaithful : ¬∀ report : VerificationReport, report.ready = true →
    (report.candidates.map CandidateFact.factId).Nodup → isDecisionId report.intakeId = true →
      ∃ d, compile asciiInterpreter report quotePolicy "system:intake-compiler" .ready
        "2026-01-01" = .ok d ∧ Faithful asciiInterpreter report "2026-01-02" d := by
  intro h
  obtain ⟨d, hcompile, hfaithful⟩ := h (amountReport longId) rfl (List.nodup_singleton _)
    (by decide +kernel)
  obtain ⟨-, -, rfl⟩ := (compile_eq_ok rfl).mp hcompile
  have hfits := (contractValid_compiledDecision rfl).mp (validateContract_ok hfaithful.contract)
  have hroom : leavesRoom (amountReport longId).intakeId = false := by decide +kernel
  rw [hfits.intake] at hroom
  cases hroom

end DecisionAssurance.Intake.DecisionFileCompiler
