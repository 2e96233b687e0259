import DecisionAssurance.CompiledContracts
import DecisionAssurance.CompiledDecisions
import DecisionAssurance.PolicyCoverage
import DecisionAssurance.ReportLaws

/-!
# The contract of a stored compilation

A compilation stores its document without a validation. What the document takes over from the report
of the intake is never empty, whatever requests come before it; whether it keeps to the contract is
left to the id that the client gave the intake.
-/

namespace DecisionAssurance.Intake

open DecisionFileCompiler

/-! ## Reports that fit -/

/-- A report of an intake whose ids and codes are not empty. -/
structure FitReport (k : IntakeKey) (report : VerificationReport) : Prop where
  intake : report.intakeId = k.2
  facts : ∀ c ∈ report.candidates, nonEmpty c.factId = true
  codes : ∀ f ∈ report.findings, nonEmpty f.resultCode = true

section Reports

variable {py : Interpreter} {policy : Option PolicyContext} {referenceDate : ℤ}
  {report : VerificationReport}

theorem nonEmpty_verdict {policy : PolicyContext} {candidates : List CandidateFact}
    {vs : List Verdict} {v : Verdict} (h : verdicts py candidates policy referenceDate = .ok vs)
    (hv : v ∈ vs) : nonEmpty v.resultCode = true := by
  have hother : ∀ code ∈ otherCodes, nonEmpty code = true := by decide
  have hviolation : ∀ t ∈ judgedTypes, nonEmpty (violationCode t) = true := by decide
  rcases code_of_mem_verdicts h hv with hcode | ⟨t, hstems⟩
  · exact hother _ hcode
  · rw [hstems.code.2]
    exact hviolation t hstems.code.1

theorem nonEmpty_findings {intakeId : String} {candidates : List CandidateFact}
    {refs : List String} {conflicts : Bool}
    (h : buildReport py policy referenceDate intakeId candidates refs conflicts = .ok report) :
    ∀ f ∈ report.findings, nonEmpty f.resultCode = true := by
  obtain ⟨findings, hfindings, h⟩ := bind_ok_cases h
  cases h
  cases policy with
  | none =>
    cases hfindings
    exact fun f hf => absurd hf List.not_mem_nil
  | some policy =>
    change comparePolicy py intakeId candidates policy referenceDate = .ok findings at hfindings
    rw [comparePolicy_eq] at hfindings
    obtain ⟨vs, hvs, hfindings⟩ := bind_ok_cases hfindings
    cases hfindings
    intro f hf
    obtain ⟨v, hv, n, rfl⟩ := mem_numbered hf
    exact nonEmpty_verdict hvs hv

theorem nonEmpty_verifyCandidates {candidates : List CandidateFact}
    (h : ∀ c ∈ candidates, nonEmpty c.factId = true) :
    ∀ c ∈ verifyCandidates py policy candidates, nonEmpty c.factId = true := by
  rw [verifyCandidates_eq_map, List.forall_mem_map]
  intro c hc
  rw [settle_factId]
  exact h c hc

theorem nonEmpty_extract {rawInput locale intakeId : String} :
    ∀ c ∈ (QuoteExtractor.extract py rawInput locale intakeId).candidates,
      nonEmpty c.factId = true := by
  intro c hc
  obtain ⟨d, hd, rfl⟩ := List.mem_map.mp hc
  obtain ⟨i, hi, rfl⟩ := List.mem_mapIdx.mp hd
  rw [withConflict_factId]
  exact nonEmpty_append_left (nonEmpty_append_right (by decide))

/-- The reports of all intakes fit. -/
theorem fitReport_law : ReportLaw py FitReport := by
  constructor
  · intro m body report hverify
    obtain ⟨hintake, hcandidates, -⟩ := buildReport_ok hverify
    refine ⟨hintake, ?_, nonEmpty_findings hverify⟩
    rw [hcandidates]
    exact nonEmpty_verifyCandidates nonEmpty_extract
  · intro m intakeId body record updated confirmation hfit hconfirmed
    obtain ⟨⟨report, c⟩, hconfirm, h⟩ := bind_ok_cases hconfirmed
    obtain ⟨after, hreverify, h⟩ := bind_ok_cases h
    cases h
    obtain ⟨-, current, hcurrent, -, -, hintake, hupdated, -⟩ := confirmFact_ok hconfirm
    obtain ⟨hsame, hcandidates, -⟩ := buildReport_ok hreverify
    refine ⟨(hsame.trans hintake).trans hfit.intake, ?_, nonEmpty_findings hreverify⟩
    rw [hcandidates]
    apply nonEmpty_verifyCandidates
    rw [hupdated, List.forall_mem_map]
    intro c hc
    split_ifs
    · exact hfit.facts current hcurrent
    · exact hfit.facts c hc

end Reports

/-! ## Stored documents -/

section Stored

variable {b : Backend} {py : Interpreter} {k : IntakeKey} {acts : List Act} {m : Moment}
  {record : IntakeRecord} {d : DecisionFile}

theorem nonEmpty_intakeCompiler : nonEmpty intakeCompiler = true := by decide

/-- A document that a compilation stores keeps to the contract if the id of its intake leaves room
for the suffix. -/
theorem Stores.contractValid_iff (h : Stores k (steps b py acts) m record d)
    (hclock : py.dateTime m.caller.now = true) :
    d.contractValid py.toPlatform = true ↔ leavesRoom k.2 = true := by
  obtain ⟨y, hy, ⟨client, found, key, digest, -, hflight⟩, -⟩ := h
  have hkeeps := (keeps_steps fitReport_law acts hy).1
  obtain ⟨hfit, policy, -, hcompile⟩ := hkeeps.flights client _ hflight
  change compile py record.verification policy intakeCompiler .ready m.caller.now = .ok d
    at hcompile
  obtain ⟨-, hready, -⟩ := compile_ok hcompile
  obtain ⟨-, hsome, rfl⟩ := (compile_eq_ok hready).mp hcompile
  have hintake : record.verification.intakeId = k.2 := hfit.intake
  rw [contractValid_compiledDecision hclock]
  constructor
  · intro hfits
    exact hintake ▸ hfits.intake
  · intro hroom
    refine ⟨hintake ▸ hroom, nonEmpty_intakeCompiler, hsome, ?_, hfit.codes⟩
    intro c hc
    exact hfit.facts c (List.mem_filter.mp hc).1

theorem validateSemantics_ne_contract {pf : Platform} :
    validateSemantics pf d ≠ .error .contract := by
  unfold validateSemantics
  cases pf.earlier d.updatedAt d.createdAt with
  | error e => exact fun h => nomatch h
  | ok early =>
    dsimp only
    split_ifs
    · exact fun h => nomatch h
    · exact fun h => nomatch h

/-- An evaluation fails with a contract error where the document does not keep to the contract. -/
theorem evaluateDecisionFile_contract {pf : Platform} {now : String}
    (hnow : pf.dateTime now = true) :
    evaluateDecisionFile pf now d = .error .contract ↔ d.contractValid pf = false := by
  constructor
  · intro h
    by_contra hvalid
    have hcontract : validateContract pf d = .ok () := if_pos (by simpa using hvalid)
    cases hsemantic : validateSemantics pf d with
    | ok u =>
      rw [evaluateDecisionFile_ok hcontract hsemantic hnow] at h
      cases h
    | error e =>
      have herror : evaluateDecisionFile pf now d = .error e := by
        unfold evaluateDecisionFile
        rw [hcontract, hsemantic]
        rfl
      obtain rfl := Except.error.inj (herror.symm.trans h)
      exact validateSemantics_ne_contract hsemantic
  · intro hinvalid
    have hcontract : validateContract pf d = .error .contract := if_neg (by simp [hinvalid])
    unfold evaluateDecisionFile
    rw [hcontract]
    rfl

/-- In any interleaving of requests, a document that a compilation stores keeps to the contract, and
its evaluation never fails with a contract error, if and only if the id of the intake leaves room
for the suffix. -/
theorem stored_contract_iff (b : Backend) (py : Interpreter) (k : IntakeKey) (acts : List Act)
    (m : Moment) (record : IntakeRecord) (d : DecisionFile)
    (h : Stores k (steps b py acts) m record d) (hclock : py.dateTime m.caller.now = true) :
    (validateContract py.toPlatform d = .ok () ∧ ∀ now, py.dateTime now = true →
      evaluateDecisionFile py.toPlatform now d ≠ .error .contract) ↔ leavesRoom k.2 = true := by
  rw [← h.contractValid_iff hclock]
  constructor
  · intro hvalid
    exact validateContract_ok hvalid.1
  · intro hvalid
    refine ⟨if_pos hvalid, fun now hnow hcontract => ?_⟩
    rw [evaluateDecisionFile_contract hnow, hvalid] at hcontract
    cases hcontract

end Stored

/-! ## Two ids -/

/-- A ready quote is created under an id and compiled. -/
def namedActs (intakeId : String) : List Act :=
  [.load 0 (.create (momentOf authorIdentity) ⟨intakeId, "1€ marge2% rabatt3%", .en⟩), .advance 0,
    .load 0 (.compile (momentOf quoteValidator) intakeId), .advance 0, .advance 0, .advance 0]

/-- The document that a step of a compilation stores, with its request and its record. -/
def storing (k : IntakeKey) (x : Runs.Transition World Act) :
    Option (Moment × IntakeRecord × DecisionFile) :=
  match x.label with
  | .advance client =>
    match x.before.flights client with
    | some ⟨.compile m intakeId, _, .drafted record d _ _⟩ =>
      if intakeId = k.2 ∧ x.before.store.decisions.documentOf (compiledCase k) = none ∧
          x.after.store.decisions.documentOf (compiledCase k) = some d then some (m, record, d)
      else none
    | _ => none
  | _ => none

theorem stores_of_storing {k : IntakeKey} {tr : Steps} {x : Runs.Transition World Act}
    (hx : x ∈ tr) (h : (storing k x).isSome = true) : ∃ m record d, Stores k tr m record d := by
  obtain ⟨⟨m, record, d⟩, h⟩ := Option.isSome_iff_exists.mp h
  unfold storing at h
  split at h
  · rename_i client hlabel
    split at h
    · rename_i m' intakeId found record' d' key digest hflight
      split_ifs at h with hstored
      obtain ⟨rfl, hbefore, hafter⟩ := hstored
      exact ⟨m', record', d', x, hx, ⟨client, found, key, digest, hlabel, hflight⟩, hbefore, hafter⟩
    · cases h
  · cases h

theorem stores_named {intakeId : String}
    (h : ((steps .sqlite asciiInterpreter (namedActs intakeId)).any fun x =>
      (storing ("tenant-a", intakeId) x).isSome) = true) :
    ∃ m record d, Stores ("tenant-a", intakeId) (steps .sqlite asciiInterpreter
      (namedActs intakeId)) m record d := by
  obtain ⟨x, hx, hstores⟩ := List.any_eq_true.mp h
  exact stores_of_storing hx hstores

theorem stored_contract_iff_quote : ∃ d, validateContract plainPlatform d = .ok () ∧
    ∃ m record, Stores ("tenant-a", "quote") (steps .sqlite asciiInterpreter (namedActs "quote"))
      m record d := by
  obtain ⟨m, record, d, h⟩ : ∃ m record d, Stores ("tenant-a", "quote")
      (steps .sqlite asciiInterpreter (namedActs "quote")) m record d :=
    stores_named (by decide +kernel)
  have hiff := stored_contract_iff .sqlite asciiInterpreter ("tenant-a", "quote") _ m record d h rfl
  exact ⟨d, (hiff.mpr (by decide)).1, m, record, h⟩

/-- A space in the id of an intake gets into the id of its decision. -/
theorem stored_contract_spaced : ¬∀ (b : Backend) (py : Interpreter) (k : IntakeKey)
    (acts : List Act) (m : Moment) (record : IntakeRecord) (d : DecisionFile),
    Stores k (steps b py acts) m record d → py.dateTime m.caller.now = true →
      validateContract py.toPlatform d = .ok () := by
  intro h
  obtain ⟨m, record, d, hstores⟩ : ∃ m record d, Stores ("tenant-a", "my quote")
      (steps .sqlite asciiInterpreter (namedActs "my quote")) m record d :=
    stores_named (by decide +kernel)
  have hvalid := validateContract_ok (h _ asciiInterpreter _ _ m record d hstores rfl)
  exact absurd ((hstores.contractValid_iff rfl).mp hvalid) (by decide)

end DecisionAssurance.Intake
