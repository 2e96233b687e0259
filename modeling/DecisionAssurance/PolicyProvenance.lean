import DecisionAssurance.CompiledDecisions
import DecisionAssurance.PolicyVerdicts

/-!
# The policy of a compiled decision

A verification and a compilation each ask the registry for the policy of the tenant that is active
at their time, and the record of the intake keeps no link between the two. The findings that a
decision is constrained by belong to the policy of the last verification; the decision names the
one that is active when it is compiled.
-/

namespace DecisionAssurance.Intake

open Tables DecisionFileCompiler

/-! ## Requests between changes of the policy -/

/-- The store, and the policies that are active in the registry. -/
structure Tenancy where
  store : IntakeStore
  active : String → Option PolicyContext

inductive RegistryAct
  | activate (tenantId : String) (policy : Option PolicyContext)
  | serve (r : StoreRequest)

/-- `get_active` -/
def Moment.under (active : String → Option PolicyContext) (m : Moment) : Moment :=
  { m with policy := active m.tenant.tenantId }

/-- A request with the policy that the registry has for its tenant. -/
def IntakeRequest.under (active : String → Option PolicyContext) : IntakeRequest → IntakeRequest
  | .create m body => .create (m.under active) body
  | .confirm m intakeId body => .confirm (m.under active) intakeId body
  | .compile m intakeId => .compile (m.under active) intakeId

def StoreRequest.under (active : String → Option PolicyContext) : StoreRequest → StoreRequest
  | .intake r => .intake (r.under active)
  | .decision r => .decision r

section Registry

variable (b : Backend) (py : Interpreter)

def Tenancy.next (w : Tenancy) : RegistryAct → Tenancy
  | .activate tenantId policy => ⟨w.store, Function.update w.active tenantId policy⟩
  | .serve r => ⟨served b py w.store (r.under w.active), w.active⟩

abbrev RegistrySteps := Runs.Trace Tenancy RegistryAct

/-- No intake is stored and no policy is active. -/
def Tenancy.empty : Tenancy := ⟨.empty, fun _ => none⟩

def registrySteps (acts : List RegistryAct) : RegistrySteps :=
  Runs.execute (Tenancy.next b py) .empty acts

end Registry

def Tenancy.row (k : IntakeKey) (w : Tenancy) : Option RecordRow :=
  lookup RecordRow.key k w.store.intakes.records

def IntakeRequest.verifies : IntakeRequest → Bool
  | .create _ _ | .confirm _ _ _ => true
  | .compile _ _ => false

/-- A step in which a creation or a confirmation writes the record of the intake. -/
def verifies (k : IntakeKey) (x : Runs.Transition Tenancy RegistryAct) : Bool :=
  match x.label with
  | .serve (.intake r) =>
    r.verifies && decide (r.intake = k) && decide (x.after.row k ≠ x.before.row k)
  | _ => false

/-- The policy under which the intake was verified last. -/
def verifiedUnder (k : IntakeKey) (tr : RegistrySteps) : Option PolicyContext :=
  (tr.reverse.find? (verifies k)).bind fun y => y.before.active k.1

theorem verifiedUnder_snoc (k : IntakeKey) (tr : RegistrySteps)
    (x : Runs.Transition Tenancy RegistryAct) :
    verifiedUnder k (tr ++ [x]) =
      if verifies k x then x.before.active k.1 else verifiedUnder k tr := by
  unfold verifiedUnder
  rw [List.reverse_append, List.reverse_singleton, List.singleton_append, List.find?_cons]
  cases verifies k x <;> rfl

/-! ## What a verification computes -/

/-- The findings of a report are those of a comparison with the policy, if there is one. -/
structure ComputedUnder (py : Interpreter) (policy : Option PolicyContext)
    (report : VerificationReport) : Prop where
  findings : ∃ today, policyFindings py policy today report.intakeId report.candidates =
    .ok report.findings
  available : report.ready = true → policy.isSome

section Verification

variable {py : Interpreter} {policy : Option PolicyContext} {referenceDate : ℤ}
  {report : VerificationReport}

theorem computedUnder_buildReport {intakeId : String} {candidates : List CandidateFact}
    {refs : List String} {conflicts : Bool}
    (h : buildReport py policy referenceDate intakeId candidates refs conflicts = .ok report) :
    ComputedUnder py policy report := by
  obtain ⟨-, -, -, hreasons, hready⟩ := buildReport_ok h
  obtain ⟨findings, hfindings, h⟩ := bind_ok_cases h
  cases h
  refine ⟨⟨referenceDate, hfindings⟩, fun hok => ?_⟩
  cases policy with
  | some policy => rfl
  | none =>
    have hmem : "TRUSTED_POLICY_UNAVAILABLE" ∈ reportReasons none candidates refs conflicts := by
      simp [reportReasons, List.mem_eraseDups]
    rw [← hreasons] at hmem
    rw [not_ready_of_mem hready hmem] at hok
    cases hok

/-- What a request writes was computed under its policy, or is the report it has loaded. -/
theorem load_computed {r : IntakeRequest} {s : IntakeStore} {plan : Planned} {w : IntakeWrite}
    (h : r.load py s = .ok plan) (hw : plan.Writes py r w) : w.intakeId = r.intakeId ∧
    if r.verifies then ComputedUnder py r.moment.policy w.record.verification
    else ∃ record, s.intakes.get r.moment.tenant r.intakeId = some record ∧
      w.record.verification = record.verification := by
  cases r with
  | create m body =>
    rcases loadCreate_cases h with ⟨response, rfl⟩ | ⟨record, key, digest, rfl⟩ |
      ⟨verification, key, digest, rfl, -, hverify⟩
    · cases hw
    · cases hw
    · obtain rfl := hw
      exact ⟨rfl, computedUnder_buildReport hverify⟩
  | confirm m intakeId body =>
    rcases loadConfirm_cases h with ⟨response, rfl⟩ |
      ⟨record, updated, confirmation, key, digest, rfl, hconfirmed⟩
    · cases hw
    · obtain rfl := hw
      obtain ⟨⟨report, c⟩, -, hreverify⟩ := bind_ok_cases hconfirmed.report
      obtain ⟨after, hafter, hreverify⟩ := bind_ok_cases hreverify
      cases hreverify
      exact ⟨rfl, computedUnder_buildReport hafter⟩
  | compile m intakeId =>
    rcases loadCompile_cases h with ⟨response, rfl, -⟩ | ⟨record, decision, write, rfl, -⟩ |
      ⟨record, document, key, digest, rfl, hdrafted⟩
    · cases hw
    · cases hw
    · obtain ⟨decision, rfl⟩ := hw
      exact ⟨rfl, record, hdrafted.stored, rfl⟩

end Verification

/-! ## Reports along a run -/

section Runs

variable {b : Backend} {py : Interpreter} {k : IntakeKey} {tr : RegistrySteps} {w : Tenancy}

/-- The report of every intake was computed under the policy it was verified under last. -/
def Traced (py : Interpreter) (tr : RegistrySteps) (w : Tenancy) : Prop :=
  ∀ k row, w.row k = some row → ComputedUnder py (verifiedUnder k tr) row.record.verification

theorem intake_under (active : String → Option PolicyContext) (r : IntakeRequest) :
    (r.under active).intake = r.intake := by
  cases r <;> rfl

theorem verifies_under (active : String → Option PolicyContext) (r : IntakeRequest) :
    (r.under active).verifies = r.verifies := by
  cases r <;> rfl

theorem policy_under (active : String → Option PolicyContext) (r : IntakeRequest) :
    (r.under active).moment.policy = active r.intake.1 := by
  cases r <;> rfl

/-- A step after which the record of an intake is as before is no verification of it. -/
theorem verifies_of_row {x : Runs.Transition Tenancy RegistryAct}
    (h : x.after.row k = x.before.row k) : verifies k x = false := by
  unfold verifies
  split
  · simp [h]
  · rfl

/-- The record of an intake changes by a write of a request for it. -/
theorem row_next (w : Tenancy) (a : RegistryAct) (k : IntakeKey) :
    (w.next b py a).row k = w.row k ∨ ∃ r plan write, a = .serve (.intake r) ∧ r.intake = k ∧
      (r.under w.active).load py w.store = .ok plan ∧ plan.Writes py (r.under w.active) write ∧
      ∃ row, (w.next b py a).row k = some row ∧ row.record = write.record := by
  cases a with
  | activate tenantId policy => exact Or.inl rfl
  | serve r =>
    cases r with
    | decision r => exact Or.inl rfl
    | intake r =>
      change lookup RecordRow.key k ((r.under w.active).respond b py w.store).2.intakes.records =
        lookup RecordRow.key k w.store.intakes.records ∨ _
      cases hload : (r.under w.active).load py w.store with
      | error e =>
        left
        simp only [IntakeRequest.respond, hload]
      | ok plan =>
        have hrespond : (r.under w.active).respond b py w.store =
            (r.under w.active).write b py w.store plan := by
          simp only [IntakeRequest.respond, hload]
        rcases @write_intakes b py (r.under w.active) w.store plan with hquiet | ⟨write, hw, hsaved⟩
        · left
          rw [hrespond, hquiet.1]
        · obtain ⟨hid, -⟩ := load_computed hload hw
          have hkey : ((r.under w.active).moment.tenant.tenantId, write.intakeId) = r.intake := by
            rw [hid]
            exact intake_under w.active r
          by_cases hk : r.intake = k
          · right
            have hrow := hsaved.lookup
            rw [hkey, hk] at hrow
            rw [← hrespond] at hrow
            exact ⟨r, plan, write, rfl, hk, hload, hw, _, hrow, rfl⟩
          · left
            rw [hrespond, hsaved.records, lookup_upsert]
            apply if_neg
            change ((r.under w.active).moment.tenant.tenantId, write.intakeId) ≠ k
            rwa [hkey]

theorem Traced.next (h : Traced py tr w) (a : RegistryAct) :
    Traced py (tr ++ [⟨w, a, w.next b py a⟩]) (w.next b py a) := by
  intro k row hrow
  rw [verifiedUnder_snoc]
  rcases @row_next b py w a k with hsame |
    ⟨r, plan, write, rfl, hk, hload, hw, row', hrow', hrecord⟩
  · rw [verifies_of_row hsame, if_neg Bool.false_ne_true]
    exact h k row (hsame ▸ hrow)
  · obtain rfl := Option.some.inj (hrow.symm.trans hrow')
    by_cases hsame : (w.next b py (.serve (.intake r))).row k = w.row k
    · rw [verifies_of_row hsame, if_neg Bool.false_ne_true]
      exact h k row (hsame ▸ hrow)
    · obtain ⟨-, hcomputed⟩ := load_computed hload hw
      have hverifies : verifies k ⟨w, .serve (.intake r), w.next b py (.serve (.intake r))⟩ =
          r.verifies := by
        simp [verifies, hk, hsame]
      rw [hverifies]
      rw [verifies_under, policy_under, hk, ← hrecord] at hcomputed
      cases hr : r.verifies with
      | true =>
        rw [hr] at hcomputed
        exact hcomputed
      | false =>
        rw [hr] at hcomputed
        obtain ⟨record, hget, hverification⟩ := hcomputed
        obtain ⟨old, hold, rfl⟩ := Option.map_eq_some_iff.mp hget
        have hkey : ((r.under w.active).moment.tenant.tenantId, (r.under w.active).intakeId) = k :=
          (intake_under w.active r).trans hk
        rw [hkey] at hold
        rw [hverification]
        exact h k old hold

/-- `next` as a relation. -/
def Tenancy.Next (b : Backend) (py : Interpreter) (w : Tenancy) (a : RegistryAct) (w' : Tenancy) :
    Prop := w' = w.next b py a

theorem run_registrySteps (acts : List RegistryAct) :
    Runs.Run (Tenancy.Next b py) .empty (registrySteps b py acts)
      (acts.foldl (Tenancy.next b py) .empty) :=
  Runs.run_execute (Tenancy.Next b py) (Tenancy.next b py) (fun _ _ => rfl) _ acts

theorem traced_run (h : Runs.Run (Tenancy.Next b py) .empty tr w) : Traced py tr w := by
  apply h.invariant (Traced py)
  · intro k row hrow
    cases hrow
  · rintro tr w a _ - htraced rfl
    exact htraced.next a

end Runs

/-! ## Compilations -/

/-- A compilation of the intake stores a document, as a new case. -/
structure CompilationStores (k : IntakeKey) (x : Runs.Transition Tenancy RegistryAct)
    (d : DecisionFile) : Prop where
  request : ∃ m, x.label = .serve (.intake (.compile m k.2)) ∧ m.tenant.tenantId = k.1
  fresh : x.before.store.decisions.documentOf (compiledCase k) = none
  stored : x.after.store.decisions.documentOf (compiledCase k) = some d

section Compilations

variable {b : Backend} {py : Interpreter} {k : IntakeKey} {w : Tenancy} {d : DecisionFile}

theorem finish_decisions (tenant : TenantContext) (write : IntakeIdempotencyWrite)
    (s : IntakeStore) : (IntakeRequest.finish b tenant write s).2.decisions = s.decisions := by
  unfold IntakeRequest.finish
  cases s.intakes.storeIdempotency b tenant write <;> rfl

theorem commit_decisions (tenant : TenantContext) (write : IntakeWrite) (s : IntakeStore) :
    (IntakeRequest.commit b tenant write s).2.decisions = s.decisions := by
  unfold IntakeRequest.commit
  cases s.intakes.saveOperation b tenant write <;> rfl

/-- The writes of a request change the decisions by the creation of the document it compiled. -/
theorem write_decisions (r : IntakeRequest) (s : IntakeStore) (plan : Planned) :
    (r.write b py s plan).2.decisions = s.decisions ∨ ∃ record document key digest,
      plan = .compiled record document key digest ∧ s.decisions.createDecision b r.moment.tenant
        document document.auditEvents none = .ok (r.write b py s plan).2.decisions := by
  cases plan with
  | answered response => exact Or.inl rfl
  | finished write => exact Or.inl (finish_decisions _ write s)
  | saved write => exact Or.inl (commit_decisions _ write s)
  | compiled record document key digest =>
    simp only [IntakeRequest.write, settleDecision]
    cases s.decisions.getDecision r.moment.tenant document.decisionId with
    | some existing => exact Or.inl (commit_decisions _ _ _)
    | none =>
      dsimp only
      cases hcreate : s.decisions.createDecision b r.moment.tenant document document.auditEvents
          none with
      | error e => exact Or.inl rfl
      | ok decisions =>
        refine Or.inr ⟨record, document, key, digest, rfl, hcreate.trans ?_⟩
        exact congrArg Except.ok (commit_decisions _ _ ⟨s.intakes, decisions⟩).symm

/-- What a compilation stores was compiled from the report of the record under the active policy. -/
theorem CompilationStores.compiled {a : RegistryAct}
    (h : CompilationStores k ⟨w, a, w.next b py a⟩ d) : ∃ row policy now,
      w.row k = some row ∧ w.active k.1 = some policy ∧
        compile py row.record.verification policy intakeCompiler .ready now = .ok d := by
  obtain ⟨⟨m, hlabel, htenant⟩, hfresh, hstored⟩ := h
  dsimp only at hlabel hfresh hstored
  subst hlabel
  let r := (IntakeRequest.compile m k.2).under w.active
  change (r.respond b py w.store).2.decisions.documentOf (compiledCase k) = some d at hstored
  unfold IntakeRequest.respond at hstored
  cases hload : r.load py w.store with
  | error e =>
    simp only [hload, hfresh] at hstored
    cases hstored
  | ok plan =>
    simp only [hload] at hstored
    rcases @write_decisions b py r w.store plan with
      hsame | ⟨record, document, key, digest, rfl, hcreate⟩
    · rw [hsame, hfresh] at hstored
      cases hstored
    · rw [(DecisionTables.documentOf_createDecision hcreate).2] at hstored
      split_ifs at hstored with hcase
      · obtain rfl := Option.some.inj hstored
        rcases loadCompile_cases hload with ⟨response, hplan, -⟩ | ⟨record, d, write, hplan, -⟩ |
          ⟨record', d', key', digest', hplan, hdrafted⟩
        · cases hplan
        · cases hplan
        · cases hplan
          obtain ⟨policy, hpolicy, hcompile⟩ := hdrafted.compiled
          obtain ⟨row, hrow, rfl⟩ := Option.map_eq_some_iff.mp hdrafted.stored
          have hkey : ((m.under w.active).tenant.tenantId, k.2) = k := Prod.ext htenant rfl
          rw [hkey] at hrow
          refine ⟨row, policy, _, hrow, ?_, hcompile⟩
          rw [← htenant]
          exact hpolicy
      · rw [hfresh] at hstored
        cases hstored

/-- The document names the policy. -/
def NamesPolicy (policy : PolicyContext) (d : DecisionFile) : Prop :=
  d.policies.map (fun p => (p.id, p.version)) = [(policy.policyId, policy.policyVersion)]

/-- The constraints of the document are the findings that a comparison of the record with the
policy has made. -/
def ConstrainedUnder (py : Interpreter) (policy : PolicyContext) (record : IntakeRecord)
    (d : DecisionFile) : Prop :=
  ∃ today, comparePolicy py record.verification.intakeId record.verification.candidates policy
      today = .ok record.verification.findings ∧
    d.constraints = record.verification.findings.map compiledConstraint

/-- Every document that a compilation stores is constrained by the findings under the policy of the
last verification, and it names that policy if and only if the one active at the compilation has
the same id and version. -/
theorem provenance_iff (b : Backend) (py : Interpreter) (acts : List RegistryAct)
    (pre post : RegistrySteps) (x : Runs.Transition Tenancy RegistryAct) (k : IntakeKey)
    (d : DecisionFile) (hx : registrySteps b py acts = pre ++ x :: post)
    (h : CompilationStores k x d) : ∃ row checked current,
      x.before.row k = some row ∧ verifiedUnder k pre = some checked ∧
      ConstrainedUnder py checked row.record d ∧ x.before.active k.1 = some current ∧
      (NamesPolicy checked d ↔
        current.policyId = checked.policyId ∧ current.policyVersion = checked.policyVersion) := by
  have hrun := @run_registrySteps b py acts
  rw [hx] at hrun
  obtain ⟨hpre, hstep, -⟩ := hrun.split
  obtain ⟨w, a, w'⟩ := x
  obtain rfl : w' = w.next b py a := hstep
  obtain ⟨row, current, now, hrow, hactive, hcompile⟩ := h.compiled
  have hcomputed := traced_run hpre k row hrow
  obtain ⟨-, hready, rfl⟩ := compile_ok hcompile
  obtain ⟨checked, hchecked⟩ := Option.isSome_iff_exists.mp (hcomputed.available hready)
  obtain ⟨today, hfindings⟩ := hcomputed.findings
  rw [hchecked] at hfindings
  refine ⟨row, checked, current, hrow, hchecked, ⟨today, hfindings, rfl⟩, hactive, ?_⟩
  simp [NamesPolicy, compiledDecision]

end Compilations

/-! ## A policy that changes -/

def nextPolicy : PolicyContext := { quotePolicy with policyVersion := "2" }

/-- A quote is created under one version of the policy and compiled under another. -/
def changingActs (later : PolicyContext) : List RegistryAct :=
  [.activate "tenant-a" (some quotePolicy),
    .serve (.intake (.create (momentOf authorIdentity) quoteBody)),
    .activate "tenant-a" (some later),
    .serve (.intake (.compile (momentOf quoteValidator) "quote"))]

def stepsBefore (later : PolicyContext) : RegistrySteps :=
  registrySteps .sqlite asciiInterpreter ((changingActs later).take 3)

/-- The compilation of the quote. -/
def compilation (later : PolicyContext) : Runs.Transition Tenancy RegistryAct :=
  let w := ((changingActs later).take 3).foldl (Tenancy.next .sqlite asciiInterpreter) .empty
  let compile := RegistryAct.serve (.intake (.compile (momentOf quoteValidator) "quote"))
  ⟨w, compile, w.next .sqlite asciiInterpreter compile⟩

theorem changingSteps_eq (later : PolicyContext) :
    registrySteps .sqlite asciiInterpreter (changingActs later) =
      stepsBefore later ++ [compilation later] := rfl

/-- The compilation stores a decision, after a verification under the first policy. -/
def storesQuote (later : PolicyContext) : Bool :=
  ((compilation later).before.store.decisions.documentOf (compiledCase quoteKey)).isNone &&
    ((compilation later).after.store.decisions.documentOf (compiledCase quoteKey)).isSome &&
    verifiedUnder quoteKey (stepsBefore later) = some quotePolicy

theorem compilation_stores {later : PolicyContext} (h : storesQuote later = true) :
    verifiedUnder quoteKey (stepsBefore later) = some quotePolicy ∧
      ∃ d, CompilationStores quoteKey (compilation later) d := by
  unfold storesQuote at h
  rw [Bool.and_eq_true, Bool.and_eq_true, decide_eq_true_eq] at h
  obtain ⟨⟨hfresh, hstored⟩, hunder⟩ := h
  obtain ⟨d, hd⟩ := Option.isSome_iff_exists.mp hstored
  exact ⟨hunder, d, ⟨_, rfl, rfl⟩, Option.isNone_iff_eq_none.mp hfresh, hd⟩

theorem provenance_iff_kept : ∃ d, CompilationStores quoteKey (compilation quotePolicy) d ∧
    NamesPolicy quotePolicy d := by
  have hstores : storesQuote quotePolicy = true := by decide +kernel
  obtain ⟨hunder, d, hd⟩ := compilation_stores hstores
  obtain ⟨row, checked, current, -, hchecked, -, hactive, hiff⟩ := provenance_iff .sqlite
    asciiInterpreter _ _ [] _ quoteKey d (changingSteps_eq quotePolicy) hd
  obtain rfl := Option.some.inj (hunder.symm.trans hchecked)
  obtain rfl : quotePolicy = current := Option.some.inj hactive
  exact ⟨d, hd, hiff.mpr ⟨rfl, rfl⟩⟩

/-- The decision names the policy that came after the verification. -/
theorem provenance_lost : ¬∀ (b : Backend) (py : Interpreter) (acts : List RegistryAct)
    (pre post : RegistrySteps) (x : Runs.Transition Tenancy RegistryAct) (k : IntakeKey)
    (d : DecisionFile) (checked : PolicyContext), registrySteps b py acts = pre ++ x :: post →
    CompilationStores k x d → verifiedUnder k pre = some checked → NamesPolicy checked d := by
  intro h
  have hstores : storesQuote nextPolicy = true := by rfl
  obtain ⟨hunder, d, hd⟩ := compilation_stores hstores
  have hnames := h .sqlite asciiInterpreter _ _ [] _ quoteKey d quotePolicy
    (changingSteps_eq nextPolicy) hd hunder
  obtain ⟨row, current, now, -, hactive, hcompile⟩ :
      ∃ row policy now, (compilation nextPolicy).before.row quoteKey = some row ∧
        (compilation nextPolicy).before.active quoteKey.1 = some policy ∧
        compile asciiInterpreter row.record.verification policy intakeCompiler .ready now = .ok d :=
    hd.compiled
  obtain rfl : nextPolicy = current := Option.some.inj hactive
  obtain ⟨-, -, rfl⟩ := compile_ok hcompile
  exact absurd hnames (by simp [NamesPolicy, compiledDecision, nextPolicy, quotePolicy])

end DecisionAssurance.Intake
