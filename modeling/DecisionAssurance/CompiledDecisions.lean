import Mathlib.Logic.Relation
import DecisionAssurance.DecisionWrites
import DecisionAssurance.IntakeConflicts
import DecisionAssurance.IntakeSteps
import DecisionAssurance.IntakeTrust

/-!
# Where compiled decisions come from

The compiled decision of an intake has an id that is derived from the id of the intake, among the
ids of all decisions of the tenant. Where no client creates a decision of that id, a compilation
returns and records what the compiler has made of a ready report of the intake.
-/

namespace DecisionAssurance

open Tables

/-- The stored document of a case. -/
def DecisionTables.documentOf (k : CaseKey) (t : DecisionTables) : Option DecisionFile :=
  (lookup DecisionRow.key k t.decisions).map DecisionRow.document

section Documents

variable {b : Backend} {pf : Platform} {t t' : DecisionTables} {k : CaseKey} {d d' : DecisionFile}

theorem DecisionTables.Sound.decisionId_documentOf (hs : t.Sound)
    (h : t.documentOf k = some d) : d.decisionId = k.2 := by
  obtain ⟨row, hrow, rfl⟩ := Option.map_eq_some_iff.mp h
  rw [hs.named row (mem_of_lookup hrow)]
  exact congrArg Prod.snd (key_of_lookup hrow)

/-- A creation stores the document of a new case and no other. -/
theorem DecisionTables.documentOf_createDecision {tenant : TenantContext}
    {events : List AuditEvent} {write : Option IdempotencyWrite}
    (h : createDecision b tenant d events write t = .ok t') :
    t.documentOf (tenant.tenantId, d.decisionId) = none ∧
      ∀ k, t'.documentOf k =
        if k = (tenant.tenantId, d.decisionId) then some d else t.documentOf k := by
  obtain ⟨hfresh, hdecisions, -⟩ := createDecision_cases h
  have hnone := lookup_eq_none.mpr hfresh
  refine ⟨Option.map_eq_none_iff.mpr hnone, fun k => ?_⟩
  unfold documentOf
  rw [hdecisions]
  split_ifs with hk
  · rw [hk]
    let row : DecisionRow := ⟨tenant.tenantId, d.decisionId, d⟩
    have hself : lookup DecisionRow.key row.key (t.decisions ++ [row]) = some row :=
      lookup_append_self hnone
    exact congrArg (Option.map DecisionRow.document) hself
  · rw [lookup_append_of_ne]
    exact fun hsame => hk hsame.symm

/-- A case comes to be stored by a creation only. -/
theorem created_of_documentOf (hs : t.Sound) {r : DecisionRequest} (hnone : t.documentOf k = none)
    (h : (served b pf t r).documentOf k = some d) : ∃ c body, r = .create c body := by
  rcases (@effect_served b pf t hs r).cases_writes with
    hsame | ⟨c, body, hcreate, -⟩ | ⟨tenant, decisionId, d, d', e, hreplaces⟩
  · rw [hsame, hnone] at h
    cases h
  · exact ⟨c, body, hcreate⟩
  · obtain ⟨row, hrow, -⟩ := Option.map_eq_some_iff.mp h
    have hkey : k ∈ (served b pf t r).decisions.map DecisionRow.key :=
      List.mem_map.mpr ⟨row, mem_of_lookup hrow, key_of_lookup hrow⟩
    rw [hreplaces.keys] at hkey
    obtain ⟨row', hrow', hk⟩ := List.mem_map.mp hkey
    exact absurd hk (lookup_eq_none.mp (Option.map_eq_none_iff.mp hnone) row' hrow')

/-- An erasure leaves the other cases as they are. -/
theorem documentOf_eraseCase (hs : t.Sound) {tenant : TenantContext} {decisionId : String}
    (h : (t.eraseCase tenant decisionId).documentOf k = some d) : t.documentOf k = some d := by
  obtain ⟨row, hrow, rfl⟩ := Option.map_eq_some_iff.mp h
  have hmem := (mem_deleteWhere.mp (mem_of_lookup hrow)).1
  unfold DecisionTables.documentOf
  rw [hs.decisions.lookup_eq_some.mpr ⟨hmem, key_of_lookup hrow⟩]
  rfl

end Documents

namespace Intake

open DecisionFileCompiler

/-! ## Operations are told apart -/

theorem toList_compileOperation (i : String) :
    (compileOperation i).toList = "intake:compile:".toList ++ i.toList := by
  have hsplit : compileOperation i = "intake:compile:" ++ i := rfl
  rw [hsplit, String.toList_append]

theorem toList_createOperation (i : String) :
    (createOperation i).toList = "intake:create:".toList ++ i.toList := by
  have hsplit : createOperation i = "intake:create:" ++ i := rfl
  rw [hsplit, String.toList_append]

theorem toList_confirmOperation (i f : String) :
    (confirmOperation i f).toList = "intake:confirm:".toList ++ (i ++ ":" ++ f).toList := by
  have hsplit : confirmOperation i f = "intake:confirm:" ++ i ++ ":" ++ f := rfl
  rw [hsplit, String.toList_append, String.toList_append, String.toList_append, String.toList_append,
    String.toList_append, List.append_assoc, List.append_assoc, List.append_assoc]

theorem compileOperation_injective : Function.Injective compileOperation := by
  intro i j h
  have hchars := congrArg String.toList h
  rw [toList_compileOperation, toList_compileOperation, List.append_cancel_left_eq] at hchars
  exact String.toList_inj.mp hchars

theorem createOperation_ne (i j : String) : createOperation i ≠ compileOperation j := by
  intro h
  have hchars := congrArg String.toList h
  rw [toList_createOperation, toList_compileOperation] at hchars
  have heighth := congrArg (·[8]?) hchars
  rw [List.getElem?_append_left (by decide), List.getElem?_append_left (by decide)] at heighth
  exact absurd heighth (by decide)

theorem confirmOperation_ne (i f j : String) : confirmOperation i f ≠ compileOperation j := by
  intro h
  have hchars := congrArg String.toList h
  rw [toList_confirmOperation, toList_compileOperation] at hchars
  have hninth := congrArg (·[9]?) hchars
  rw [List.getElem?_append_left (by decide), List.getElem?_append_left (by decide)] at hninth
  exact absurd hninth (by decide)
/-- The operation under which a request keeps its answer. -/
def IntakeRequest.operation : IntakeRequest → String
  | .create _ body => createOperation body.intakeId
  | .confirm _ intakeId body => confirmOperation intakeId body.factId
  | .compile _ intakeId => compileOperation intakeId

/-! ## Provenance -/

/-- The case of the compiled decision of an intake. -/
def compiledCase (k : IntakeKey) : CaseKey := (k.1, compiledId k.2)

section Provenance

variable (b : Backend) (py : Interpreter) (k : IntakeKey)

/-- A request of the decision routes takes the stored document of the case to its next version. -/
def Serves (d d' : DecisionFile) : Prop :=
  ∃ t r, t.Sound ∧ t.documentOf (compiledCase k) = some d ∧
    (DecisionAssurance.served b py.toPlatform t r).documentOf (compiledCase k) = some d'

/-- In a run a compilation of the intake has loaded a record whose ready report is compiled to the
document. -/
structure Compiles (tr : Steps) (m : Moment) (record : IntakeRecord) (d : DecisionFile) :
    Prop where
  tenant : m.tenant.tenantId = k.1
  loaded : ∃ y ∈ tr, (∃ client, y.label = .load client (.compile m k.2)) ∧
    y.before.store.intakes.get m.tenant k.2 = some record
  intake : record.verification.intakeId = k.2
  ready : record.status = .ready ∧ record.verification.ready = true
  compiled : ∃ policy, m.policy = some policy ∧
    compile py record.verification policy intakeCompiler .ready m.caller.now = .ok d

/-- In a run the document of a compilation was stored as a new case. -/
def Stores (tr : Steps) (m : Moment) (record : IntakeRecord) (d : DecisionFile) : Prop :=
  ∃ y ∈ tr, (∃ client found key digest, y.label = .advance client ∧
      y.before.flights client = some ⟨.compile m k.2, found, .drafted record d key digest⟩) ∧
    y.before.store.decisions.documentOf (compiledCase k) = none ∧
    y.after.store.decisions.documentOf (compiledCase k) = some d

/-- A version of a Decision File that a compilation of the intake has created in a run. -/
def CompiledIn (tr : Steps) (d : DecisionFile) : Prop :=
  ∃ m record d₀, Compiles py k tr m record d₀ ∧ Stores k tr m record d₀ ∧
    Relation.ReflTransGen (Serves b py k) d₀ d

/-- In a run the stored record of the intake has named its compiled decision. -/
def Recorded (tr : Steps) : Prop :=
  ∃ y ∈ tr, ∃ row, lookup RecordRow.key k y.after.store.intakes.records = some row ∧
    row.record.compiledDecisionId = some (compiledId k.2)

/-- A client stores a decision of its own under the id of the compiled one. -/
def ClientStores (x : Runs.Transition World Act) : Prop :=
  (∃ c body, x.label = .decision (.create c body)) ∧
    x.before.store.decisions.documentOf (compiledCase k) = none ∧
    (x.after.store.decisions.documentOf (compiledCase k)).isSome

/-! ## What stays sourced along a run -/

def AnswerSourced (tr : Steps) (tenantId operation : String) (response : IntakeResponse) : Prop :=
  tenantId = k.1 → operation = compileOperation k.2 →
    ∃ d, response = .decision d ∧ CompiledIn b py k tr d ∧ Recorded k tr

structure RecordSourced (tr : Steps) (owner : IntakeKey) (record : IntakeRecord) : Prop where
  intake : record.verification.intakeId = owner.2
  compiled : owner = k → ∀ id, record.compiledDecisionId = some id →
    id = compiledId k.2 ∧ ∃ d, CompiledIn b py k tr d

/-- A compilation that has its document, but has not created it. -/
def DraftSourced (tr : Steps) (r : IntakeRequest) (record : IntakeRecord) (d : DecisionFile) :
    Prop :=
  ∃ m intakeId, r = .compile m intakeId ∧ RecordSourced b py k tr r.intake record ∧
    d.decisionId = compiledId intakeId ∧ (r.intake = k → Compiles py k tr m record d)

def StageSourced (tr : Steps) (r : IntakeRequest) : Stage → Prop
  | .planned (.answered response) =>
    AnswerSourced b py k tr r.moment.tenant.tenantId r.operation response
  | .planned (.finished write) => write.operation = r.operation ∧
    AnswerSourced b py k tr r.moment.tenant.tenantId r.operation write.response
  | .planned (.saved write) => (∀ m intakeId, r ≠ .compile m intakeId) ∧
    write.intakeId = r.intakeId ∧ write.idempotency.operation = r.operation ∧
      RecordSourced b py k tr r.intake write.record
  | .planned (.compiled record document _ _) => DraftSourced b py k tr r record document
  | .drafted record document _ _ => DraftSourced b py k tr r record document
  | .settled record decision _ _ => (∃ m intakeId, r = .compile m intakeId) ∧
    RecordSourced b py k tr r.intake record ∧ (r.intake = k → CompiledIn b py k tr decision)

structure StoreSourced (tr : Steps) (s : IntakeStore) : Prop where
  tables : s.decisions.Sound
  document : ∀ d, s.decisions.documentOf (compiledCase k) = some d → CompiledIn b py k tr d
  records : ∀ row ∈ s.intakes.records, RecordSourced b py k tr row.key row.record
  answers : ∀ row ∈ s.intakes.idempotency,
    AnswerSourced b py k tr row.tenantId row.operation row.response

structure Sourced (tr : Steps) (w : World) : Prop where
  store : StoreSourced b py k tr w.store
  flights : ∀ client f, w.flights client = some f → StageSourced b py k tr f.request f.stage

end Provenance

section Growth

variable {b : Backend} {py : Interpreter} {k : IntakeKey} {tr : Steps} {m : Moment}
  {record : IntakeRecord} {d : DecisionFile}

theorem Compiles.decisionId (h : Compiles py k tr m record d) : d.decisionId = compiledId k.2 := by
  obtain ⟨policy, -, hcompile⟩ := h.compiled
  rw [compile_decisionId hcompile, h.intake]

theorem CompiledIn.decisionId (h : CompiledIn b py k tr d) : d.decisionId = compiledId k.2 := by
  obtain ⟨m, record, d₀, hcompiles, -, hserves⟩ := h
  rcases hserves.cases_tail with rfl | ⟨d', -, t, r, hsound, -, hafter⟩
  · exact hcompiles.decisionId
  · exact (sound_served hsound r).decisionId_documentOf hafter

theorem Compiles.mono {tr' : Steps} (h : Compiles py k tr m record d) (hsub : tr ⊆ tr') :
    Compiles py k tr' m record d := by
  obtain ⟨y, hy, hload⟩ := h.loaded
  exact ⟨h.tenant, ⟨y, hsub hy, hload⟩, h.intake, h.ready, h.compiled⟩

theorem CompiledIn.mono {tr' : Steps} (h : CompiledIn b py k tr d) (hsub : tr ⊆ tr') :
    CompiledIn b py k tr' d := by
  obtain ⟨m, record, d₀, hcompiles, ⟨y, hy, hstores⟩, hserves⟩ := h
  exact ⟨m, record, d₀, hcompiles.mono hsub, ⟨y, hsub hy, hstores⟩, hserves⟩

theorem Recorded.mono {tr' : Steps} (h : Recorded k tr) (hsub : tr ⊆ tr') : Recorded k tr' := by
  obtain ⟨y, hy, hrow⟩ := h
  exact ⟨y, hsub hy, hrow⟩

theorem AnswerSourced.mono {tr' : Steps} {tenantId operation : String} {response : IntakeResponse}
    (h : AnswerSourced b py k tr tenantId operation response) (hsub : tr ⊆ tr') :
    AnswerSourced b py k tr' tenantId operation response := by
  intro htenant hoperation
  obtain ⟨d, hd, hcompiled, hrecorded⟩ := h htenant hoperation
  exact ⟨d, hd, hcompiled.mono hsub, hrecorded.mono hsub⟩

theorem RecordSourced.mono {tr' : Steps} {owner : IntakeKey}
    (h : RecordSourced b py k tr owner record) (hsub : tr ⊆ tr') :
    RecordSourced b py k tr' owner record := by
  refine ⟨h.intake, fun howner id hid => ?_⟩
  obtain ⟨rfl, d, hd⟩ := h.compiled howner id hid
  exact ⟨rfl, d, hd.mono hsub⟩

theorem DraftSourced.mono {tr' : Steps} {r : IntakeRequest} (h : DraftSourced b py k tr r record d)
    (hsub : tr ⊆ tr') : DraftSourced b py k tr' r record d := by
  obtain ⟨m, intakeId, rfl, hrecord, hid, hcompiles⟩ := h
  exact ⟨m, intakeId, rfl, hrecord.mono hsub, hid, fun hk => (hcompiles hk).mono hsub⟩

theorem StageSourced.mono {tr' : Steps} {r : IntakeRequest} {stage : Stage}
    (h : StageSourced b py k tr r stage) (hsub : tr ⊆ tr') : StageSourced b py k tr' r stage := by
  cases stage with
  | planned plan =>
    cases plan with
    | answered response => exact AnswerSourced.mono h hsub
    | finished write => exact ⟨h.1, h.2.mono hsub⟩
    | saved write => exact ⟨h.1, h.2.1, h.2.2.1, h.2.2.2.mono hsub⟩
    | compiled record document key digest => exact DraftSourced.mono h hsub
  | drafted record document key digest => exact DraftSourced.mono h hsub
  | settled record decision key digest =>
    exact ⟨h.1, h.2.1.mono hsub, fun hk => (h.2.2 hk).mono hsub⟩

theorem StoreSourced.mono {tr' : Steps} {s : IntakeStore} (h : StoreSourced b py k tr s)
    (hsub : tr ⊆ tr') : StoreSourced b py k tr' s :=
  ⟨h.tables, fun d hd => (h.document d hd).mono hsub, fun row hr => (h.records row hr).mono hsub,
    fun row hr => (h.answers row hr).mono hsub⟩

theorem sourced_empty : Sourced b py k [] (.idle .empty) := by
  refine ⟨⟨DecisionTables.sound_empty, ?_, ?_, ?_⟩, ?_⟩
  · intro d hd
    cases hd
  · exact fun _ hr => absurd hr List.not_mem_nil
  · exact fun _ hr => absurd hr List.not_mem_nil
  · intro client f hf
    cases hf

end Growth

/-! ## Loads -/

section Loads

variable {b : Backend} {py : Interpreter} {k : IntakeKey} {tr : Steps} {w : World} {s : IntakeStore}
  {m : Moment} {intakeId : String} {record : IntakeRecord}

theorem confirmedReport_intakeId {body : IntakeConfirmationBody} {updated : VerificationReport}
    {confirmation : HumanConfirmation}
    (h : confirmedReport py m body record = .ok (updated, confirmation)) :
    updated.intakeId = record.verification.intakeId := by
  obtain ⟨⟨report, c⟩, hconfirm, h⟩ := bind_ok_cases h
  obtain ⟨updated, hreverify, h⟩ := bind_ok_cases h
  cases h
  obtain ⟨-, current, -, -, -, hintake, -⟩ := confirmFact_ok hconfirm
  exact (buildReport_ok hreverify).1.trans hintake

theorem StoreSourced.get (hs : StoreSourced b py k tr s)
    (h : s.intakes.get m.tenant intakeId = some record) :
    RecordSourced b py k tr (m.tenant.tenantId, intakeId) record := by
  obtain ⟨row, hrow, rfl⟩ := Option.map_eq_some_iff.mp h
  have hrecord := hs.records row (mem_of_lookup hrow)
  rwa [key_of_lookup hrow] at hrecord

/-- The decision that a compiled record names is the compiled one. -/
theorem StoreSourced.storedDecision (hs : StoreSourced b py k tr s) {d : DecisionFile}
    (hk : (m.tenant.tenantId, intakeId) = k)
    (hget : s.intakes.get m.tenant intakeId = some record)
    (h : storedDecision m record s.decisions = some d) :
    CompiledIn b py k tr d ∧ record.compiledDecisionId = some (compiledId k.2) := by
  obtain ⟨id, hid, hd⟩ := Option.bind_eq_some_iff.mp h
  have hcompiled : record.compiledDecisionId = some id := by
    unfold truthy at hid
    split at hid
    · cases hid
    · exact hid
  obtain ⟨rfl, -⟩ := (hs.get hget).compiled hk id hcompiled
  refine ⟨hs.document d ?_, hcompiled⟩
  have htenant : m.tenant.tenantId = k.1 := congrArg Prod.fst hk
  unfold compiledCase
  rw [← htenant]
  exact hd

theorem StoreSourced.load (hs : StoreSourced b py k tr w.store) {client : ℕ} {r : IntakeRequest}
    {plan : Planned} {w' : World} (h : r.load py w.store = .ok plan)
    (hw' : w'.store = w.store) :
    StageSourced b py k (tr ++ [⟨w, .load client r, w'⟩]) r (.planned plan) := by
  have hsub : tr ⊆ tr ++ [⟨w, .load client r, w'⟩] := List.subset_append_left _ _
  have hlast : (⟨w, .load client r, w'⟩ : Runs.Transition World Act) ∈
      tr ++ [⟨w, .load client r, w'⟩] :=
    List.mem_append_right _ (List.mem_singleton_self _)
  cases r with
  | create m body =>
    rcases loadCreate_cases h with ⟨response, rfl⟩ | ⟨record, key, digest, rfl⟩ |
      ⟨verification, key, digest, rfl, -, hverify⟩
    · exact fun _ hoperation => absurd hoperation (createOperation_ne _ _)
    · exact ⟨rfl, fun _ hoperation => absurd hoperation (createOperation_ne _ _)⟩
    · refine ⟨fun _ _ hr => IntakeRequest.noConfusion hr, rfl, rfl, (buildReport_ok hverify).1, ?_⟩
      intro _ id hid
      cases hid
  | confirm m intakeId body =>
    rcases loadConfirm_cases h with ⟨response, rfl⟩ |
      ⟨record, updated, confirmation, key, digest, rfl, hconfirmed⟩
    · exact fun _ hoperation => absurd hoperation (confirmOperation_ne _ _ _)
    · have hrecord := (hs.get hconfirmed.stored).mono hsub
      refine ⟨fun _ _ hr => IntakeRequest.noConfusion hr, rfl, rfl, ?_, ?_⟩
      · change updated.intakeId = intakeId
        rw [confirmedReport_intakeId hconfirmed.report, hrecord.intake]
      · change (m.tenant.tenantId, intakeId) = k → ∀ id, record.compiledDecisionId = some id → _
        exact hrecord.compiled
  | compile m intakeId =>
    rcases loadCompile_cases h with ⟨response, rfl, row, hrow, rfl, htenant, hoperation⟩ |
      ⟨record, decision, write, rfl, hget, hstored, hresponse, hoperation⟩ |
      ⟨record, document, key, digest, rfl, hdrafted⟩
    · have hanswer := (hs.answers row hrow).mono hsub
      rwa [htenant, hoperation] at hanswer
    · refine ⟨hoperation, fun htenant hcompile => ?_⟩
      have hk : (m.tenant.tenantId, intakeId) = k :=
        Prod.ext htenant (compileOperation_injective hcompile)
      obtain ⟨hcompiled, hnamed⟩ := hs.storedDecision hk hget hstored
      obtain ⟨row, hrow, rfl⟩ := Option.map_eq_some_iff.mp hget
      rw [hk, ← hw'] at hrow
      exact ⟨decision, hresponse, hcompiled.mono hsub, _, hlast, row, hrow, hnamed⟩
    · have hrecord := (hs.get hdrafted.stored).mono hsub
      obtain ⟨policy, hpolicy, hcompile⟩ := hdrafted.compiled
      have hid : document.decisionId = compiledId intakeId := by
        rw [compile_decisionId hcompile, hrecord.intake]
      refine ⟨m, intakeId, rfl, hrecord, hid, fun hk => ?_⟩
      obtain rfl : (m.tenant.tenantId, intakeId) = k := hk
      exact ⟨rfl, ⟨_, hlast, ⟨client, rfl⟩, hdrafted.stored⟩, hrecord.intake,
        ⟨hdrafted.ready, (compile_ok hcompile).2.1⟩, policy, hpolicy, hcompile⟩

end Loads

/-! ## Steps -/

section Steps

variable {b : Backend} {py : Interpreter} {k : IntakeKey} {tr : Steps} {s : IntakeStore}
  {tenant : TenantContext}

theorem StoreSourced.stored (hs : StoreSourced b py k tr s) {write : IntakeIdempotencyWrite}
    {db : IntakeDatabase} (hstored : s.intakes.storeIdempotency b tenant write = .ok db)
    (hanswer : AnswerSourced b py k tr tenant.tenantId write.operation write.response) :
    StoreSourced b py k tr ⟨db, s.decisions⟩ := by
  obtain rfl := IntakeDatabase.storeIdempotency_ok hstored
  refine ⟨hs.tables, hs.document, hs.records, fun row hrow => ?_⟩
  rcases List.mem_append.mp hrow with hrow | hrow
  · exact hs.answers row hrow
  · obtain rfl := List.mem_singleton.mp hrow
    exact hanswer

theorem StoreSourced.saved (hs : StoreSourced b py k tr s) {write : IntakeWrite}
    {db : IntakeDatabase} (hsaved : IntakeDatabase.Saved tenant write s.intakes db)
    (hrecord : RecordSourced b py k tr (tenant.tenantId, write.intakeId) write.record)
    (hanswer : AnswerSourced b py k tr tenant.tenantId write.idempotency.operation
      write.idempotency.response) : StoreSourced b py k tr ⟨db, s.decisions⟩ := by
  refine ⟨hs.tables, hs.document, fun row hrow => ?_, fun row hrow => ?_⟩
  · rw [hsaved.records] at hrow
    rcases mem_upsert hrow with rfl | hrow
    · exact hrecord
    · exact hs.records row hrow
  · rw [hsaved.idempotency] at hrow
    rcases List.mem_append.mp hrow with hrow | hrow
    · exact hs.answers row hrow
    · obtain rfl := List.mem_singleton.mp hrow
      exact hanswer

/-- A step of one request, from what it leaves in the store and how it goes on. -/
theorem Sourced.after {tr' : Steps} {w : World} {f : Flight} {client : ℕ}
    (hs : Sourced b py k tr w) (progress : Progress) (hsub : tr ⊆ tr')
    (hstore : StoreSourced b py k tr' s)
    (hprogress : ∀ stage, progress = .goesOn stage → StageSourced b py k tr' f.request stage) :
    Sourced b py k tr' ⟨s, Function.update w.flights client (f.after progress)⟩ := by
  refine ⟨hstore, fun other g hg => ?_⟩
  by_cases hother : other = client
  · subst hother
    change Function.update w.flights other (f.after progress) other = some g at hg
    rw [Function.update_self] at hg
    cases progress with
    | goesOn stage =>
      cases hg
      exact hprogress stage rfl
    | ends answer => cases hg
  · change Function.update w.flights client (f.after progress) other = some g at hg
    rw [Function.update_of_ne hother] at hg
    exact (hs.flights other g hg).mono hsub

/-- A compilation that creates its document stores it as a new case. -/
theorem StoreSourced.create {w w' : World} {client : ℕ} {m : Moment} {intakeId : String}
    {found : Option IntakeRecord} {record : IntakeRecord} {d : DecisionFile} {key digest : String}
    (hs : StoreSourced b py k tr w.store)
    (hf : w.flights client = some ⟨.compile m intakeId, found, .drafted record d key digest⟩)
    (hdraft : DraftSourced b py k tr (.compile m intakeId) record d)
    (hintakes : w'.store.intakes = w.store.intakes)
    (hcreate : w.store.decisions.createDecision b m.tenant d d.auditEvents none =
      .ok w'.store.decisions) :
    StoreSourced b py k (tr ++ [⟨w, .advance client, w'⟩]) w'.store ∧
      ((m.tenant.tenantId, intakeId) = k →
        CompiledIn b py k (tr ++ [⟨w, .advance client, w'⟩]) d) := by
  have hsub : tr ⊆ tr ++ [⟨w, .advance client, w'⟩] := List.subset_append_left _ _
  obtain ⟨hnone, hdocument⟩ := DecisionTables.documentOf_createDecision hcreate
  obtain ⟨-, -, -, -, -, hsound⟩ := DecisionTables.createDecision_cases hcreate
  obtain ⟨_, _, hrequest, -, hid, hcompiles⟩ := hdraft
  cases hrequest
  have hnew : (m.tenant.tenantId, intakeId) = k →
      CompiledIn b py k (tr ++ [⟨w, .advance client, w'⟩]) d := by
    rintro rfl
    have hcase : compiledCase (m.tenant.tenantId, intakeId) =
        (m.tenant.tenantId, d.decisionId) := by
      rw [hid]
      rfl
    refine ⟨m, record, d, (hcompiles rfl).mono hsub, ?_, Relation.ReflTransGen.refl⟩
    refine ⟨⟨w, .advance client, w'⟩, List.mem_append_right _ (List.mem_singleton_self _),
      ⟨client, found, key, digest, rfl, hf⟩, ?_, ?_⟩
    · rw [hcase]
      exact hnone
    · change w'.store.decisions.documentOf _ = _
      rw [hdocument, if_pos hcase]
  refine ⟨⟨hsound hs.tables, fun d' hd' => ?_, ?_, ?_⟩, hnew⟩
  · rw [hdocument] at hd'
    split_ifs at hd' with hcase
    · cases hd'
      apply hnew
      have hcompiled : compiledId k.2 = compiledId intakeId := (congrArg Prod.snd hcase).trans hid
      exact Prod.ext (congrArg Prod.fst hcase).symm (compiledId_injective hcompiled).symm
    · exact (hs.document d' hd').mono hsub
  · rw [hintakes]
    exact fun row hr => (hs.records row hr).mono hsub
  · rw [hintakes]
    exact fun row hr => (hs.answers row hr).mono hsub

/-- The record that a compilation saves names its decision. -/
theorem RecordSourced.compiled_record {m : Moment} {intakeId : String} {record : IntakeRecord}
    {d : DecisionFile} (hrecord : RecordSourced b py k tr (m.tenant.tenantId, intakeId) record)
    (hd : (m.tenant.tenantId, intakeId) = k → CompiledIn b py k tr d) :
    RecordSourced b py k tr (m.tenant.tenantId, intakeId)
      (compiledRecord py m intakeId record d) := by
  refine ⟨hrecord.intake, ?_⟩
  rintro rfl id hid
  cases hid
  exact ⟨(hd rfl).decisionId, d, hd rfl⟩

theorem operation_ne_compile {r : IntakeRequest} (h : ∀ m intakeId, r ≠ .compile m intakeId)
    (intakeId : String) : r.operation ≠ compileOperation intakeId := by
  cases r with
  | create m body => exact createOperation_ne _ _
  | confirm m intakeId body => exact confirmOperation_ne _ _ _
  | compile m intakeId => exact absurd rfl (h m intakeId)

/-- What a step of a request under way leaves, and what it answers. -/
structure Advanced (b : Backend) (py : Interpreter) (k : IntakeKey) (tr : Steps)
    (r : IntakeRequest) (s : IntakeStore) (progress : Progress) : Prop where
  store : StoreSourced b py k tr s
  stage : ∀ stage, progress = .goesOn stage → StageSourced b py k tr r stage
  answer : ∀ m response, r = .compile m k.2 → m.tenant.tenantId = k.1 →
    progress = .ends (.ok response) →
      ∃ d, response = .decision d ∧ CompiledIn b py k tr d ∧ Recorded k tr

theorem Sourced.advanced {w : World} (hs : Sourced b py k tr w) (w' : World) {client : ℕ}
    {f : Flight} {progress : Progress} (hf : w.flights client = some f)
    (htakes : Takes b py f.request w.store f.stage progress s) (hw' : w'.store = s) :
    Advanced b py k (tr ++ [⟨w, .advance client, w'⟩]) f.request s progress := by
  have hsub : tr ⊆ tr ++ [⟨w, .advance client, w'⟩] := List.subset_append_left _ _
  have hstore := hs.store.mono hsub
  have hstage := (hs.flights client f hf).mono hsub
  obtain ⟨r, loaded, stage⟩ := f
  dsimp only at htakes hstage ⊢
  cases htakes with
  | failed stage e =>
    refine ⟨hstore, ?_, ?_⟩
    · rintro _ ⟨⟩
    · rintro _ _ - - ⟨⟩
  | answered response =>
    refine ⟨hstore, ?_, ?_⟩
    · rintro _ ⟨⟩
    · rintro m _ rfl htenant ⟨⟩
      exact hstage htenant rfl
  | finished write db stored =>
    obtain ⟨hoperation, hanswer⟩ := hstage
    refine ⟨hstore.stored stored (hoperation ▸ hanswer), ?_, ?_⟩
    · rintro _ ⟨⟩
    · rintro m _ rfl htenant ⟨⟩
      exact hanswer htenant rfl
  | saved write db stored =>
    obtain ⟨hother, hintake, hoperation, hrecord⟩ := hstage
    refine ⟨hstore.saved stored ?_ ?_, ?_, ?_⟩
    · rw [hintake]
      exact hrecord
    · rw [hoperation]
      exact fun _ hcompile => absurd hcompile (operation_ne_compile hother _)
    · rintro _ ⟨⟩
    · rintro m _ hr
      exact absurd hr (hother m k.2)
  | found record document existing key digest known =>
    obtain ⟨m, intakeId, rfl, hrecord, hid, -⟩ := hstage
    refine ⟨hstore, ?_, ?_⟩
    · rintro _ ⟨⟩
      refine ⟨⟨m, intakeId, rfl⟩, hrecord, fun hk => hstore.document existing ?_⟩
      rw [hid] at known
      rw [← hk]
      exact known
    · rintro _ _ - - ⟨⟩
  | missing record document key digest unknown =>
    refine ⟨hstore, ?_, ?_⟩
    · rintro _ ⟨⟩
      exact hstage
    · rintro _ _ - - ⟨⟩
  | created record document key digest decisions stored =>
    have hdraft := hs.flights client _ hf
    obtain ⟨m, intakeId, rfl, hrecord, -⟩ := hstage
    have hcreate : w.store.decisions.createDecision b m.tenant document document.auditEvents none =
        .ok w'.store.decisions := by
      rw [hw']
      exact stored
    obtain ⟨hnew, hcompiled⟩ := hs.store.create hf hdraft (by rw [hw']) hcreate
    rw [hw'] at hnew
    refine ⟨hnew, ?_, ?_⟩
    · rintro _ ⟨⟩
      exact ⟨⟨m, intakeId, rfl⟩, hrecord, hcompiled⟩
    · rintro _ _ - - ⟨⟩
  | settled record decision key digest db stored =>
    obtain ⟨⟨m, intakeId, rfl⟩, hrecord, hcompiled⟩ := hstage
    have hsaved : (m.tenant.tenantId, intakeId) = k → ∃ d,
        IntakeResponse.decision decision = .decision d ∧
          CompiledIn b py k (tr ++ [⟨w, .advance client, w'⟩]) d ∧
            Recorded k (tr ++ [⟨w, .advance client, w'⟩]) := by
      intro hk
      obtain ⟨row, hrow, hnamed⟩ : ∃ row, lookup RecordRow.key k w'.store.intakes.records =
          some row ∧ row.record.compiledDecisionId = some decision.decisionId := by
        rw [hw', ← hk]
        exact ⟨_, stored.lookup, rfl⟩
      rw [(hcompiled hk).decisionId] at hnamed
      exact ⟨decision, rfl, hcompiled hk, _,
        List.mem_append_right _ (List.mem_singleton_self _), row, hrow, hnamed⟩
    refine ⟨hstore.saved stored (hrecord.compiled_record hcompiled) ?_, ?_, ?_⟩
    · intro htenant hoperation
      exact hsaved (Prod.ext htenant (compileOperation_injective hoperation))
    · rintro _ ⟨⟩
    · rintro m' _ hr htenant ⟨⟩
      cases hr
      exact hsaved (Prod.ext htenant rfl)

theorem Sourced.advance {w : World} (hs : Sourced b py k tr w) {client : ℕ} {f : Flight}
    (hf : w.flights client = some f) :
    Sourced b py k (tr ++ [⟨w, .advance client, w.next b py (.advance client)⟩])
      (w.next b py (.advance client)) := by
  obtain ⟨progress, s, htakes, hnext, -⟩ := @next_takes b py _ _ _ hf
  have hadvanced := hs.advanced (w.next b py (.advance client)) hf htakes (by rw [hnext])
  rw [hnext] at hadvanced ⊢
  exact hs.after progress (List.subset_append_left _ _) hadvanced.store hadvanced.stage

theorem Sourced.decision {w : World} (hs : Sourced b py k tr w) {r : DecisionRequest}
    (hclient : ¬ClientStores k ⟨w, .decision r, w.next b py (.decision r)⟩) :
    Sourced b py k (tr ++ [⟨w, .decision r, w.next b py (.decision r)⟩])
      (w.next b py (.decision r)) := by
  have hsub : tr ⊆ tr ++ [⟨w, .decision r, w.next b py (.decision r)⟩] :=
    List.subset_append_left _ _
  have hstore := hs.store.mono hsub
  refine ⟨⟨sound_served hstore.tables r, fun d hd => ?_, hstore.records, hstore.answers⟩,
    fun client f hf => (hs.flights client f hf).mono hsub⟩
  cases hbefore : w.store.decisions.documentOf (compiledCase k) with
  | none =>
    obtain ⟨c, body, hcreate⟩ := created_of_documentOf hs.store.tables hbefore hd
    refine absurd ⟨⟨c, body, congrArg Act.decision hcreate⟩, hbefore, ?_⟩ hclient
    exact Option.isSome_iff_exists.mpr ⟨d, hd⟩
  | some d' =>
    obtain ⟨m, record, d₀, hcompiles, hstores, hserves⟩ := hstore.document d' hbefore
    exact ⟨m, record, d₀, hcompiles, hstores, hserves.tail ⟨_, r, hs.store.tables, hbefore, hd⟩⟩

theorem Sourced.erase {w : World} (hs : Sourced b py k tr w) {tenant : TenantContext}
    {decisionId : String} :
    Sourced b py k (tr ++ [⟨w, .erase tenant decisionId, w.next b py (.erase tenant decisionId)⟩])
      (w.next b py (.erase tenant decisionId)) := by
  have hsub : tr ⊆ tr ++
      [⟨w, .erase tenant decisionId, w.next b py (.erase tenant decisionId)⟩] :=
    List.subset_append_left _ _
  have hstore := hs.store.mono hsub
  refine ⟨?_, fun client f hf => (hs.flights client f hf).mono hsub⟩
  change StoreSourced b py k _ (w.store.eraseCase tenant decisionId)
  unfold IntakeStore.eraseCase
  split_ifs
  · exact hstore
  · obtain ⟨hrecords, hanswers⟩ := IntakeDatabase.mem_eraseCase tenant decisionId w.store.intakes
    exact ⟨hstore.tables.eraseCase tenant decisionId,
      fun d hd => hstore.document d (documentOf_eraseCase hstore.tables hd),
      fun row hr => hstore.records row (hrecords row hr),
      fun row hr => hstore.answers row (hanswers row hr)⟩

theorem Sourced.next {w : World} (hs : Sourced b py k tr w) {a : Act}
    (hclient : ¬ClientStores k ⟨w, a, w.next b py a⟩) :
    Sourced b py k (tr ++ [⟨w, a, w.next b py a⟩]) (w.next b py a) := by
  have hidle : ∀ w' : World, w' = w → Sourced b py k (tr ++ [⟨w, a, w'⟩]) w' := by
    rintro _ rfl
    exact ⟨hs.store.mono (List.subset_append_left _ _),
      fun client f hf => (hs.flights client f hf).mono (List.subset_append_left _ _)⟩
  cases a with
  | load client r =>
    by_cases hbusy : (w.flights client).isSome
    · exact hidle _ (if_pos hbusy)
    · cases hload : r.load py w.store with
      | error e =>
        apply hidle
        simp [World.next, hbusy, hload]
      | ok plan =>
        have hnext : w.next b py (.load client r) =
            ⟨w.store, Function.update w.flights client (some (r.flight w.store plan))⟩ := by
          simp [World.next, hbusy, hload]
        rw [hnext]
        have hstore := hs.store.mono (List.subset_append_left tr
          [⟨w, .load client r,
            ⟨w.store, Function.update w.flights client (some (r.flight w.store plan))⟩⟩])
        apply hs.after (f := r.flight w.store plan) (.goesOn (.planned plan))
          (List.subset_append_left _ _) hstore
        rintro _ ⟨⟩
        exact hs.store.load hload rfl
  | advance client =>
    cases hf : w.flights client with
    | none =>
      apply hidle
      simp [World.next, hf]
    | some f => exact hs.advance hf
  | decision r => exact hs.decision hclient
  | erase tenant decisionId => exact hs.erase

end Steps

/-! ## Runs -/

section Runs

variable {b : Backend} {py : Interpreter} {k : IntakeKey}

/-- A run in which no client stores a decision under the id of the compiled one. -/
theorem sourced_steps {tr : Steps} {w : World}
    (h : Runs.Run (World.Next b py) (.idle .empty) tr w)
    (hclient : ∀ x ∈ tr, ¬ClientStores k x) : Sourced b py k tr w := by
  apply h.invariant_of_steps _ (Sourced b py k) sourced_empty _ hclient
  rintro tr w a _ - hs rfl hc
  exact hs.next hc

/-- Every decision that a compilation of the intake returns, and every one that its record names,
was made by the compiler from a ready report of the intake, in a run in which no client stores a
decision under the id of the compiled one. -/
theorem compiled_decisions (b : Backend) (py : Interpreter) (k : IntakeKey) (acts : List Act)
    (hclient : ∀ x ∈ steps b py acts, ¬ClientStores k x) (pre post : Steps)
    (x : Runs.Transition World Act) (hx : steps b py acts = pre ++ x :: post) :
    (∀ m response, x.before.reply b py x.label = some (.compile m k.2, .ok response) →
      m.tenant.tenantId = k.1 → ∃ d, response = .decision d ∧ d.decisionId = compiledId k.2 ∧
        CompiledIn b py k (pre ++ [x]) d ∧ Recorded k (pre ++ [x])) ∧
    ∀ row, lookup RecordRow.key k x.after.store.intakes.records = some row →
      ∀ id, row.record.compiledDecisionId = some id →
        id = compiledId k.2 ∧ ∃ d, CompiledIn b py k (pre ++ [x]) d := by
  have hrun := run_steps b py acts
  rw [hx] at hrun hclient
  obtain ⟨hpre, hstep, -⟩ := hrun.split
  have hbefore : Sourced b py k pre x.before :=
    sourced_steps hpre fun y hy => hclient y (List.mem_append_left _ hy)
  obtain ⟨w, a, w'⟩ := x
  obtain rfl : w' = w.next b py a := hstep
  constructor
  · intro m response hreply htenant
    cases a with
    | load client r => cases hreply
    | decision r => cases hreply
    | erase tenant decisionId => cases hreply
    | advance client =>
      cases hf : w.flights client with
      | none =>
        simp only [World.reply, hf] at hreply
        cases hreply
      | some f =>
        obtain ⟨progress, s, htakes, hnext, hprogress⟩ := @next_takes b py _ _ _ hf
        have hadvanced := hbefore.advanced (w.next b py (.advance client)) hf htakes
          (by rw [hnext])
        dsimp only at hreply ⊢
        rw [hprogress] at hreply
        cases progress with
        | goesOn stage => cases hreply
        | ends answer =>
          obtain ⟨hrequest, rfl⟩ := Prod.mk.inj (Option.some.inj hreply)
          obtain ⟨d, hd, hcompiled, hrecorded⟩ := hadvanced.answer m response hrequest htenant rfl
          exact ⟨d, hd, hcompiled.decisionId, hcompiled, hrecorded⟩
  · have hlast := hclient ⟨w, a, w.next b py a⟩ (List.mem_append_right _ List.mem_cons_self)
    have hafter := (hbefore.next hlast).store.records
    intro row hrow
    exact ((hafter row (mem_of_lookup hrow)).compiled (key_of_lookup hrow))

end Runs

/-! ## A quote that is compiled -/

def momentOf (identity : Identity) : Moment :=
  ⟨⟨identity, some "key", "corr", "2026-01-01"⟩, some quotePolicy, 739617⟩

def quoteBody : IntakeRequestBody := ⟨"quote", "1€ marge2% rabatt3%", .en⟩

def quoteKey : IntakeKey := ("tenant-a", "quote")

/-- A ready quote is created and compiled. -/
def quoteActs : List Act :=
  [.load 0 (.create (momentOf authorIdentity) quoteBody), .advance 0,
    .load 0 (.compile (momentOf quoteValidator) "quote"), .advance 0, .advance 0, .advance 0]

/-- The steps of the quote, after others. -/
def quoteSteps (acts : List Act) : Steps := steps .sqlite asciiInterpreter (acts ++ quoteActs)

/-- A step that returns the decision of the quote. -/
def returnsDecision (x : Runs.Transition World Act) : Bool :=
  match x.before.reply .sqlite asciiInterpreter x.label with
  | some (.compile m intakeId, .ok (.decision _)) => (m.tenant.tenantId, intakeId) = quoteKey
  | _ => false

theorem returnsDecision_ok {x : Runs.Transition World Act} (h : returnsDecision x = true) :
    ∃ m d, m.tenant.tenantId = quoteKey.1 ∧ x.before.reply .sqlite asciiInterpreter x.label =
      some (.compile m quoteKey.2, .ok (.decision d)) := by
  unfold returnsDecision at h
  split at h
  · rename_i m intakeId d hreply
    obtain ⟨htenant, rfl⟩ := Prod.mk.inj (of_decide_eq_true h)
    exact ⟨m, d, htenant, hreply⟩
  · cases h

theorem compiled_decisions_quote : ∃ pre post x m d, quoteSteps [] = pre ++ x :: post ∧
    x.before.reply .sqlite asciiInterpreter x.label =
      some (.compile m quoteKey.2, .ok (.decision d)) ∧
    CompiledIn .sqlite asciiInterpreter quoteKey (pre ++ [x]) d := by
  have hreturned : (quoteSteps []).any returnsDecision = true := by decide +kernel
  obtain ⟨x, hx, hdecision⟩ := List.any_eq_true.mp hreturned
  obtain ⟨m, d, htenant, hreply⟩ := returnsDecision_ok hdecision
  have hclient : ∀ y ∈ quoteSteps [], ¬ClientStores quoteKey y := by
    rintro y hy ⟨⟨c, body, hlabel⟩, -⟩
    have hact := Runs.label_of_mem_execute hy
    rw [hlabel] at hact
    simp [quoteActs] at hact
  obtain ⟨pre, post, hsplit⟩ := List.append_of_mem hx
  obtain ⟨d', hd, -, hcompiled, -⟩ := (compiled_decisions .sqlite asciiInterpreter quoteKey _
    hclient pre post x hsplit).1 m _ hreply htenant
  cases hd
  exact ⟨pre, post, x, m, d, hsplit, hreply, hcompiled⟩

def clientCase : DecisionFile := { draftCase with decisionId := "quote-decision" }

/-- A step of a compilation that is about to create its document. -/
def createsDocument (x : Runs.Transition World Act) : Bool :=
  match x.label with
  | .advance client =>
    match x.before.flights client with
    | some ⟨_, _, .drafted _ _ _ _⟩ => true
    | _ => false
  | _ => false

/-- A client creates a decision of the derived id first: it is what the compilation returns. -/
theorem foreign_decision : ¬∀ (b : Backend) (py : Interpreter) (k : IntakeKey) (acts : List Act)
    (pre post : Steps) (x : Runs.Transition World Act), steps b py acts = pre ++ x :: post →
    ∀ m response, x.before.reply b py x.label = some (.compile m k.2, .ok response) →
      m.tenant.tenantId = k.1 → ∃ d, response = .decision d ∧ CompiledIn b py k (pre ++ [x]) d := by
  intro h
  have hreturned : (quoteSteps [.decision (.create authorCaller clientCase)]).any
      returnsDecision = true := by
    rfl
  have hnever : (quoteSteps [.decision (.create authorCaller clientCase)]).any
      createsDocument = false := by
    rfl
  obtain ⟨x, hx, hdecision⟩ := List.any_eq_true.mp hreturned
  obtain ⟨m, d, htenant, hreply⟩ := returnsDecision_ok hdecision
  obtain ⟨pre, post, hsplit⟩ := List.append_of_mem hx
  obtain ⟨_, -, _, _, _, -, ⟨y, hy, ⟨client, found, key, digest, hlabel, hflight⟩, -⟩, -⟩ :=
    h _ _ quoteKey _ pre post x hsplit m _ hreply htenant
  have hmem : y ∈ quoteSteps [.decision (.create authorCaller clientCase)] := by
    rw [hsplit, ← List.singleton_append, ← List.append_assoc]
    exact List.mem_append_left _ hy
  have hcreates : createsDocument y = true := by
    unfold createsDocument
    rw [hlabel]
    simp only [hflight]
  exact absurd hcreates (by simp [List.any_eq_false.mp hnever y hmem])

end Intake

end DecisionAssurance
