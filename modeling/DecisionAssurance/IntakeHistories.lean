import DecisionAssurance.IntakeRoutes
import DecisionAssurance.Runs

/-!
# Intake records and their histories

Every write of a route goes on from the record it has loaded: the status moves along the
lifecycle, the readiness is that of the report, and the events of the record and of the table stay
the same list. So they are the same list after any run of requests.
-/

namespace DecisionAssurance.Intake

open Tables DecisionFileCompiler

/-! ## What a write does to the record it starts from -/

/-- The status and the flag of a record agree with its report. -/
structure Consistent (record : IntakeRecord) : Prop where
  ready : record.status = .ready → record.verification.ready = true
  waiting : record.status = .needsConfirmation → record.verification.ready = false
  contract : record.contractReady = record.verification.ready

/-- The events of the record a request starts from. -/
def eventsBefore (before : Option IntakeRecord) : List IntakeAuditEvent :=
  before.elim [] IntakeRecord.auditEvents

def statusBefore (before : Option IntakeRecord) : IntakeStatus :=
  before.elim .received IntakeRecord.status

/-- A write that goes on from the record of an intake, if there is one. -/
structure Continues (py : Interpreter) (intakeId : String) (before : Option IntakeRecord)
    (w : IntakeWrite) : Prop where
  intake : w.intakeId = intakeId
  status : w.status = w.record.status
  events : w.record.auditEvents = eventsBefore before ++ w.events
  history : History py intakeId (eventsBefore before) (statusBefore before) →
    History py intakeId w.record.auditEvents w.record.status
  moves : ∀ r ∈ before, w.record.status = r.status ∨
    (r.status, w.record.status) ∈ allowedTransitions
  unfinished : ∀ r ∈ before, r.status ≠ .compiled
  consistent : (∀ r ∈ before, Consistent r) → Consistent w.record

theorem targetStatus_cases (ready : Bool) :
    (ready = true ∧ targetStatus ready = .ready) ∨
      (ready = false ∧ targetStatus ready = .needsConfirmation) := by
  cases ready
  · exact Or.inr ⟨rfl, rfl⟩
  · exact Or.inl ⟨rfl, rfl⟩

/-- A record whose status has just been determined from its report. -/
theorem consistent_of_target {record : IntakeRecord}
    (hstatus : record.status = targetStatus record.verification.ready)
    (hcontract : record.contractReady = record.verification.ready) : Consistent record := by
  rcases targetStatus_cases record.verification.ready with ⟨hready, htarget⟩ | ⟨hready, htarget⟩
  · refine ⟨fun _ => hready, fun hwaiting => ?_, hcontract⟩
    rw [hstatus, htarget] at hwaiting
    cases hwaiting
  · refine ⟨fun hr => ?_, fun _ => hready, hcontract⟩
    rw [hstatus, htarget] at hr
    cases hr

section Loads

variable {py : Interpreter} {m : Moment} {db : IntakeDatabase} {w : IntakeWrite}

theorem createdRecord_history (body : IntakeRequestBody) (extraction : ExtractionReport)
    (verification : VerificationReport) :
    History py body.intakeId (createdRecord py m body extraction verification).auditEvents
      (targetStatus verification.ready) := by
  have hedge : (IntakeStatus.received, IntakeStatus.extracted) ∈ allowedTransitions := by decide
  have hextracted : History py body.intakeId
      ([] ++ [nextEvent py body.intakeId [] (extractedFacts m extraction)]) .extracted :=
    History.start.snoc (f := extractedFacts m extraction) (Or.inr hedge)
  apply hextracted.snoc (f := determinedFacts m verification)
  right
  change (IntakeStatus.extracted, targetStatus verification.ready) ∈ allowedTransitions
  rcases targetStatus_cases verification.ready with ⟨-, htarget⟩ | ⟨-, htarget⟩
  · rw [htarget]
    decide
  · rw [htarget]
    decide

/-- The writes of a creation. -/
def createdWrite (py : Interpreter) (m : Moment) (body : IntakeRequestBody)
    (verification : VerificationReport) (key digest : String) : IntakeWrite :=
  let extraction := QuoteExtractor.extract py body.rawInput body.locale.value body.intakeId
  let record := createdRecord py m body extraction verification
  { intakeId := body.intakeId
    status := record.status
    record := record
    facts := verification.candidates
    confirmation := none
    events := record.auditEvents
    idempotency :=
      ⟨m.caller.identity.actorId, createOperation body.intakeId, key, digest, .record record⟩ }

theorem loadCreate_cases {body : IntakeRequestBody} {plan : Planned}
    (h : loadCreate py m body db = .ok plan) :
    (∃ response, plan = .answered response) ∨
      (∃ record key digest, plan = .finished ⟨m.caller.identity.actorId,
        createOperation body.intakeId, key, digest, .record record⟩) ∨
      ∃ verification key digest, plan = .saved (createdWrite py m body verification key digest) ∧
        db.get m.tenant body.intakeId = none ∧ verify py m.policy m.today
          (QuoteExtractor.extract py body.rawInput body.locale.value body.intakeId) =
            .ok verification := by
  obtain ⟨⟨⟩, -, h⟩ := bind_ok_cases h
  obtain ⟨⟨key, digest, replay⟩, -, h⟩ := bind_ok_cases h
  dsimp only at h
  cases replay with
  | some response =>
    cases h
    exact Or.inl ⟨response, rfl⟩
  | none =>
    cases hget : db.get m.tenant body.intakeId with
    | some existing =>
      simp only [hget] at h
      split_ifs at h
      cases h
      exact Or.inr (Or.inl ⟨existing, key, digest, rfl⟩)
    | none =>
      simp only [hget] at h
      obtain ⟨verification, hverify, h⟩ := bind_ok_cases h
      obtain ⟨-, -, h⟩ := bind_ok_cases h
      obtain ⟨-, -, h⟩ := bind_ok_cases h
      cases h
      exact Or.inr (Or.inr ⟨verification, key, digest, rfl, rfl, mapError_ok hverify⟩)

theorem createdWrite_continues (body : IntakeRequestBody) (verification : VerificationReport)
    (key digest : String) :
    Continues py body.intakeId none (createdWrite py m body verification key digest) := by
  refine ⟨rfl, rfl, rfl, ?_, ?_, ?_, ?_⟩
  · exact fun _ => createdRecord_history body _ verification
  · exact fun _ hr => absurd hr (by simp)
  · exact fun _ hr => absurd hr (by simp)
  · exact fun _ => consistent_of_target rfl rfl

theorem moveStatus_ok {source target : IntakeStatus} {ready : Bool} (hne : target ≠ .rejected)
    (h : moveStatus source target ready = .ok ()) :
    target = source ∨ (source, target) ∈ allowedTransitions := by
  unfold moveStatus at h
  split_ifs at h with hsame
  · exact Or.inl hsame
  · cases hnext : nextStatus source target ready with
    | error e =>
      rw [hnext] at h
      cases h
    | ok t => exact Or.inr (nextStatus_ok hne hnext)

theorem targetStatus_ne (ready : Bool) :
    targetStatus ready ≠ .rejected ∧ targetStatus ready ≠ .compiled := by
  cases ready <;> decide

/-- The writes of a confirmation. -/
def confirmedWrite (py : Interpreter) (m : Moment) (intakeId : String)
    (body : IntakeConfirmationBody) (record : IntakeRecord) (updated : VerificationReport)
    (confirmation : HumanConfirmation) (key digest : String) : IntakeWrite :=
  let saved := confirmedRecord py m intakeId body record updated confirmation
  { intakeId := intakeId
    status := saved.status
    record := saved
    facts := updated.candidates
    confirmation := some confirmation
    events := [confirmedEvent py m intakeId body record updated confirmation]
    idempotency := ⟨m.caller.identity.actorId, confirmOperation intakeId body.factId, key, digest,
      .record saved⟩ }

theorem confirmedWrite_continues {intakeId : String} {body : IntakeConfirmationBody}
    {record : IntakeRecord} {updated : VerificationReport} {confirmation : HumanConfirmation}
    {key digest : String}
    (hmove : moveStatus record.status (targetStatus updated.ready) updated.ready = .ok ()) :
    Continues py intakeId (some record)
      (confirmedWrite py m intakeId body record updated confirmation key digest) := by
  obtain ⟨hrejected, hcompiled⟩ := targetStatus_ne updated.ready
  have hedge := moveStatus_ok hrejected hmove
  refine ⟨rfl, rfl, rfl, ?_, ?_, ?_, ?_⟩
  · intro hhistory
    exact History.snoc (f := confirmedFacts m body record updated confirmation) hhistory hedge
  · rintro _ ⟨⟩
    exact hedge
  · rintro _ ⟨⟩ hdone
    rw [hdone] at hedge
    rcases hedge with hsame | hallowed
    · exact hcompiled hsame
    · revert hallowed
      cases updated.ready <;> decide
  · exact fun _ => consistent_of_target rfl rfl

/-- What a load of a confirmation that goes on has found out. -/
structure Confirmed (py : Interpreter) (m : Moment) (intakeId : String)
    (body : IntakeConfirmationBody) (db : IntakeDatabase) (record : IntakeRecord)
    (updated : VerificationReport) (confirmation : HumanConfirmation) : Prop where
  stored : db.get m.tenant intakeId = some record
  report : confirmedReport py m body record = .ok (updated, confirmation)
  move : moveStatus record.status (targetStatus updated.ready) updated.ready = .ok ()

theorem loadConfirm_cases {intakeId : String} {body : IntakeConfirmationBody} {plan : Planned}
    (h : loadConfirm py m intakeId body db = .ok plan) :
    (∃ response, plan = .answered response) ∨ ∃ record updated confirmation key digest,
      plan = .saved (confirmedWrite py m intakeId body record updated confirmation key digest) ∧
        Confirmed py m intakeId body db record updated confirmation := by
  obtain ⟨⟨⟩, -, h⟩ := bind_ok_cases h
  obtain ⟨⟨key, digest, replay⟩, -, h⟩ := bind_ok_cases h
  dsimp only at h
  cases replay with
  | some response =>
    cases h
    exact Or.inl ⟨response, rfl⟩
  | none =>
    obtain ⟨record, hrecord, h⟩ := bind_ok_cases h
    obtain ⟨⟨updated, confirmation⟩, hreport, h⟩ := bind_ok_cases h
    obtain ⟨⟨⟩, hmove, h⟩ := bind_ok_cases h
    cases h
    exact Or.inr ⟨record, updated, confirmation, key, digest, rfl, orRaise_ok.mp hrecord,
      mapError_ok hreport, hmove⟩

theorem draftDecision_ok {record : IntakeRecord} {policy : PolicyContext} {d : DecisionFile}
    (h : draftDecision py m record policy = .ok d) :
    record.status = .ready ∧
      compile py record.verification policy intakeCompiler .ready m.caller.now = .ok d := by
  unfold draftDecision at h
  split_ifs at h with hready
  obtain ⟨-, -, h⟩ := bind_ok_cases h
  rw [not_not] at hready
  rw [hready] at h
  exact ⟨hready, h⟩

theorem compiledWrite_continues {intakeId : String} {record : IntakeRecord}
    {decision : DecisionFile} {key digest : String} (hready : record.status = .ready) :
    Continues py intakeId (some record)
      (compiledWrite py m intakeId record decision key digest) := by
  have hedge : (IntakeStatus.ready, IntakeStatus.compiled) ∈ allowedTransitions := by decide
  refine ⟨rfl, rfl, rfl, ?_, ?_, ?_, ?_⟩
  · intro hhistory
    apply History.snoc (f := compiledFacts m decision) _ (Or.inr hedge)
    have hfrom : (compiledFacts m decision).fromStatus = record.status := hready.symm
    rw [hfrom]
    exact hhistory
  · rintro _ ⟨⟩
    rw [hready]
    exact Or.inr hedge
  · rintro _ ⟨⟩ hdone
    rw [hready] at hdone
    cases hdone
  · intro hbefore
    have hcontract := (hbefore record rfl).contract
    refine ⟨?_, ?_, hcontract⟩
    · intro hstatus
      cases hstatus
    · intro hstatus
      cases hstatus

/-- What a load of a compilation that goes on has found out. -/
structure Drafted (py : Interpreter) (m : Moment) (intakeId : String) (s : IntakeStore)
    (record : IntakeRecord) (document : DecisionFile) : Prop where
  stored : s.intakes.get m.tenant intakeId = some record
  ready : record.status = .ready
  compiled : ∃ policy, m.policy = some policy ∧
    compile py record.verification policy intakeCompiler .ready m.caller.now = .ok document
  fresh : storedDecision m record s.decisions = none

theorem loadCompile_cases {intakeId : String} {s : IntakeStore} {plan : Planned}
    (h : loadCompile py m intakeId s.intakes s.decisions = .ok plan) :
    (∃ response, plan = .answered response ∧ ∃ row ∈ s.intakes.idempotency,
      row.response = response ∧ row.tenantId = m.tenant.tenantId ∧
        row.operation = compileOperation intakeId) ∨
      (∃ record decision write, plan = .finished write ∧
        s.intakes.get m.tenant intakeId = some record ∧
        storedDecision m record s.decisions = some decision ∧
        write.response = .decision decision ∧ write.operation = compileOperation intakeId) ∨
      ∃ record document key digest, plan = .compiled record document key digest ∧
        Drafted py m intakeId s record document := by
  obtain ⟨⟨⟩, -, h⟩ := bind_ok_cases h
  obtain ⟨⟨key, digest, replay⟩, hbegin, h⟩ := bind_ok_cases h
  dsimp only at h
  cases replay with
  | some response =>
    cases h
    refine Or.inl ⟨response, rfl, ?_⟩
    obtain ⟨key, -, hbegin⟩ := bind_ok_cases hbegin
    obtain ⟨replay, hreplay, hbegin⟩ := bind_ok_cases hbegin
    cases hbegin
    have hfound := mapError_ok hreplay
    unfold IntakeDatabase.getIdempotency at hfound
    split at hfound
    · cases hfound
    · rename_i row hrow
      split_ifs at hfound
      cases hfound
      have hkey := key_of_lookup hrow
      refine ⟨row, mem_of_lookup hrow, rfl, congrArg Prod.fst hkey, ?_⟩
      exact congrArg (fun k => k.2.2.1) hkey
  | none =>
    obtain ⟨record, hrecord, h⟩ := bind_ok_cases h
    obtain ⟨policy, hpolicy, h⟩ := bind_ok_cases h
    cases hstored : storedDecision m record s.decisions with
    | some decision =>
      simp only [hstored] at h
      cases h
      exact Or.inr (Or.inl ⟨record, decision, _, rfl, orRaise_ok.mp hrecord, hstored, rfl, rfl⟩)
    | none =>
      simp only [hstored] at h
      obtain ⟨document, hdraft, h⟩ := bind_ok_cases h
      cases h
      obtain ⟨hready, hcompile⟩ := draftDecision_ok (mapError_ok hdraft)
      exact Or.inr (Or.inr ⟨record, document, key, digest, rfl, orRaise_ok.mp hrecord, hready,
        ⟨policy, orRaise_ok.mp hpolicy, hcompile⟩, hstored⟩)

end Loads

/-! ## What a request writes -/

section Requests

variable {b : Backend} {py : Interpreter} {s : IntakeStore} {db db' : IntakeDatabase}

/-- No record and no audit row is written. -/
def Quiet (db db' : IntakeDatabase) : Prop :=
  db'.records = db.records ∧ db'.auditEvents = db.auditEvents

theorem finish_quiet (tenant : TenantContext) (write : IntakeIdempotencyWrite) (s : IntakeStore) :
    Quiet s.intakes (IntakeRequest.finish b tenant write s).2.intakes := by
  unfold IntakeRequest.finish
  cases hstore : s.intakes.storeIdempotency b tenant write with
  | error e => exact ⟨rfl, rfl⟩
  | ok intakes =>
    obtain rfl := IntakeDatabase.storeIdempotency_ok hstore
    exact ⟨rfl, rfl⟩

theorem commit_cases (tenant : TenantContext) (w : IntakeWrite) (s : IntakeStore) :
    (IntakeRequest.commit b tenant w s).2 = s ∨ ∃ db', IntakeDatabase.Saved tenant w s.intakes db' ∧
      IntakeRequest.commit b tenant w s =
        (.ok w.idempotency.response, { s with intakes := db' }) := by
  unfold IntakeRequest.commit
  cases hsave : s.intakes.saveOperation b tenant w with
  | error e => exact Or.inl rfl
  | ok intakes => exact Or.inr ⟨intakes, IntakeDatabase.saveOperation_ok hsave, rfl⟩

/-- The write of a plan; a compilation still has to find out its decision. -/
def Planned.Writes (py : Interpreter) (r : IntakeRequest) (w : IntakeWrite) : Planned → Prop
  | .answered _ | .finished _ => False
  | .saved write => w = write
  | .compiled record _ key digest =>
    ∃ decision, w = compiledWrite py r.moment r.intakeId record decision key digest

theorem load_continues {r : IntakeRequest} {plan : Planned} {w : IntakeWrite}
    (h : r.load py s = .ok plan) (hw : plan.Writes py r w) :
    Continues py r.intakeId (s.intakes.get r.moment.tenant r.intakeId) w := by
  cases r with
  | create m body =>
    rcases loadCreate_cases h with ⟨response, rfl⟩ | ⟨record, key, digest, rfl⟩ |
      ⟨verification, key, digest, rfl, hget, -⟩
    · cases hw
    · cases hw
    · obtain rfl := hw
      change Continues py body.intakeId (s.intakes.get m.tenant body.intakeId) _
      rw [hget]
      exact createdWrite_continues body verification key digest
  | confirm m intakeId body =>
    rcases loadConfirm_cases h with ⟨response, rfl⟩ |
      ⟨record, updated, confirmation, key, digest, rfl, hconfirmed⟩
    · cases hw
    · obtain rfl := hw
      change Continues py intakeId (s.intakes.get m.tenant intakeId) _
      rw [hconfirmed.stored]
      exact confirmedWrite_continues hconfirmed.move
  | compile m intakeId =>
    rcases loadCompile_cases h with ⟨response, rfl, -⟩ | ⟨record, decision, write, rfl, -⟩ |
      ⟨record, document, key, digest, rfl, hdrafted⟩
    · cases hw
    · cases hw
    · obtain ⟨decision, rfl⟩ := hw
      change Continues py intakeId (s.intakes.get m.tenant intakeId) _
      rw [hdrafted.stored]
      exact compiledWrite_continues hdrafted.ready

/-- The writes of a request after its load write no record, or the one of its plan. -/
theorem write_intakes (r : IntakeRequest) (s : IntakeStore) (plan : Planned) :
    Quiet s.intakes (r.write b py s plan).2.intakes ∨ ∃ w, plan.Writes py r w ∧
      IntakeDatabase.Saved r.moment.tenant w s.intakes (r.write b py s plan).2.intakes := by
  have hcommit : ∀ (w : IntakeWrite) (t : IntakeStore), t.intakes = s.intakes →
      plan.Writes py r w →
      Quiet s.intakes (IntakeRequest.commit b r.moment.tenant w t).2.intakes ∨
        ∃ w', plan.Writes py r w' ∧ IntakeDatabase.Saved r.moment.tenant w' s.intakes
          (IntakeRequest.commit b r.moment.tenant w t).2.intakes := by
    intro w t ht hw
    rcases commit_cases (b := b) r.moment.tenant w t with hsame | ⟨db', hsaved, hdone⟩
    · rw [hsame, ht]
      exact Or.inl ⟨rfl, rfl⟩
    · rw [hdone]
      exact Or.inr ⟨w, hw, ht ▸ hsaved⟩
  cases plan with
  | answered response => exact Or.inl ⟨rfl, rfl⟩
  | finished write => exact Or.inl (finish_quiet r.moment.tenant write s)
  | saved write => exact hcommit write s rfl rfl
  | compiled record document key digest =>
    simp only [IntakeRequest.write]
    cases hsettle : settleDecision r.moment b document s.decisions with
    | error e => exact Or.inl ⟨rfl, rfl⟩
    | ok settled => exact hcommit _ { s with decisions := settled.2 } rfl ⟨settled.1, rfl⟩

/-- A request writes no record, or goes on from the one it has loaded. -/
theorem respond_intakes (r : IntakeRequest) (s : IntakeStore) :
    Quiet s.intakes (r.respond b py s).2.intakes ∨ ∃ w,
      Continues py r.intakeId (s.intakes.get r.moment.tenant r.intakeId) w ∧
        IntakeDatabase.Saved r.moment.tenant w s.intakes (r.respond b py s).2.intakes := by
  unfold IntakeRequest.respond
  cases hload : r.load py s with
  | error e => exact Or.inl ⟨rfl, rfl⟩
  | ok plan =>
    rcases @write_intakes b py r s plan with hquiet | ⟨w, hw, hsaved⟩
    · exact Or.inl hquiet
    · exact Or.inr ⟨w, load_continues hload hw, hsaved⟩

end Requests

/-! ## Sound tables -/

section Sound

variable {b : Backend} {py : Interpreter} {db db' : IntakeDatabase} {tenant : TenantContext}

/-- The row of a record: consistent, with a history that the audit rows repeat. -/
structure RowSound (py : Interpreter) (db : IntakeDatabase) (row : RecordRow) : Prop where
  named : row.record.intakeId = row.intakeId
  status : row.status = row.record.status
  consistent : Consistent row.record
  history : History py row.intakeId row.record.auditEvents row.record.status
  stored : db.rowsOf row.key = IntakeDatabase.eventRows row.key 0 row.record.auditEvents

structure IntakeSound (py : Interpreter) (db : IntakeDatabase) : Prop where
  rows : ∀ k row, lookup RecordRow.key k db.records = some row → RowSound py db row
  bare : ∀ k, lookup RecordRow.key k db.records = none → db.rowsOf k = []

/-- The tables are sound as far as one intake goes. -/
structure SoundAt (py : Interpreter) (db : IntakeDatabase) (k : IntakeKey) : Prop where
  row : ∀ row, lookup RecordRow.key k db.records = some row → RowSound py db row
  bare : lookup RecordRow.key k db.records = none → db.rowsOf k = []

theorem intakeSound_iff : IntakeSound py db ↔ ∀ k, SoundAt py db k :=
  ⟨fun h k => ⟨h.rows k, h.bare k⟩, fun h => ⟨fun k => (h k).row, fun k => (h k).bare⟩⟩

theorem soundAt_empty (k : IntakeKey) : SoundAt py .empty k := by
  constructor
  · intro row hrow
    cases hrow
  · exact fun _ => rfl

theorem intakeSound_empty : IntakeSound py .empty := intakeSound_iff.mpr soundAt_empty

section At

variable {k : IntakeKey} {w : IntakeWrite}

theorem RowSound.congr {row : RecordRow} (h : RowSound py db row)
    (hrows : db'.rowsOf row.key = db.rowsOf row.key) : RowSound py db' row :=
  ⟨h.named, h.status, h.consistent, h.history, hrows.trans h.stored⟩

/-- What is written of other intakes does not matter. -/
theorem SoundAt.congr (hs : SoundAt py db k)
    (hrecords : lookup RecordRow.key k db'.records = lookup RecordRow.key k db.records)
    (hrows : db'.rowsOf k = db.rowsOf k) : SoundAt py db' k := by
  constructor
  · intro row hrow
    rw [hrecords] at hrow
    apply (hs.row row hrow).congr
    rw [key_of_lookup hrow, hrows]
  · intro hnone
    rw [hrecords] at hnone
    rw [hrows, hs.bare hnone]

theorem SoundAt.quiet (hs : SoundAt py db k) (h : Quiet db db') : SoundAt py db' k := by
  apply hs.congr
  · rw [h.1]
  · unfold IntakeDatabase.rowsOf
    rw [h.2]

theorem SoundAt.other (hs : SoundAt py db k) (h : IntakeDatabase.Saved tenant w db db')
    (hk : k ≠ (tenant.tenantId, w.intakeId)) : SoundAt py db' k := by
  apply hs.congr
  · rw [h.records, lookup_upsert]
    exact if_neg fun hsame => hk hsame.symm
  · exact h.others k hk

/-- The events of an intake before a request, in the record and in the table. -/
theorem SoundAt.before {intakeId : String} (hs : SoundAt py db (tenant.tenantId, intakeId)) :
    History py intakeId (eventsBefore (db.get tenant intakeId))
        (statusBefore (db.get tenant intakeId)) ∧
      db.rowsOf (tenant.tenantId, intakeId) = IntakeDatabase.eventRows (tenant.tenantId, intakeId)
        0 (eventsBefore (db.get tenant intakeId)) ∧
      ∀ r ∈ db.get tenant intakeId, Consistent r := by
  unfold IntakeDatabase.get
  cases hrow : lookup RecordRow.key (tenant.tenantId, intakeId) db.records with
  | none =>
    refine ⟨History.start, hs.bare hrow, ?_⟩
    exact fun _ hr => absurd hr (by simp)
  | some row =>
    obtain ⟨-, -, hconsistent, hhistory, hstored⟩ := hs.row row hrow
    have hkey : row.key = (tenant.tenantId, intakeId) := key_of_lookup hrow
    have hid : row.intakeId = intakeId := congrArg Prod.snd hkey
    rw [hid] at hhistory
    rw [hkey] at hstored
    refine ⟨hhistory, hstored, ?_⟩
    rintro _ ⟨⟩
    exact hconsistent

theorem SoundAt.saved (hs : SoundAt py db (tenant.tenantId, w.intakeId))
    (hc : Continues py w.intakeId (db.get tenant w.intakeId) w)
    (h : IntakeDatabase.Saved tenant w db db') :
    SoundAt py db' (tenant.tenantId, w.intakeId) := by
  obtain ⟨hhistory, hstored, hconsistent⟩ := hs.before
  have hnew := hc.history hhistory
  have hevents := h.events _ hstored (hc.events ▸ hnew.distinct)
  rw [← hc.events] at hevents
  have hlookup := h.lookup
  constructor
  · intro row hrow
    rw [hlookup] at hrow
    cases hrow
    exact ⟨h.named, hc.status, hc.consistent hconsistent, hnew, hevents⟩
  · intro hnone
    rw [hlookup] at hnone
    cases hnone

end At

theorem IntakeSound.quiet (hs : IntakeSound py db) (h : Quiet db db') : IntakeSound py db' :=
  intakeSound_iff.mpr fun k => (intakeSound_iff.mp hs k).quiet h

theorem IntakeSound.saved (hs : IntakeSound py db) {intakeId : String} {w : IntakeWrite}
    (hc : Continues py intakeId (db.get tenant intakeId) w)
    (h : IntakeDatabase.Saved tenant w db db') : IntakeSound py db' := by
  obtain rfl : w.intakeId = intakeId := hc.intake
  rw [intakeSound_iff] at hs ⊢
  intro k
  by_cases hk : k = (tenant.tenantId, w.intakeId)
  · subst hk
    exact (hs _).saved hc h
  · exact (hs k).other h hk

theorem IntakeSound.respond {s : IntakeStore} (hs : IntakeSound py s.intakes) (r : IntakeRequest) :
    IntakeSound py (r.respond b py s).2.intakes := by
  rcases respond_intakes (b := b) r s with hquiet | ⟨w, hcontinues, hsaved⟩
  · exact hs.quiet hquiet
  · exact hs.saved hcontinues hsaved

/-! ## How a record moves on -/

/-- A record is never lost, its status moves along the lifecycle, and a compiled one stays as it
is. -/
def Moves : Option RecordRow → Option RecordRow → Prop
  | none, _ => True
  | some _, none => False
  | some row, some row' =>
    (row'.status = row.status ∨ (row.status, row'.status) ∈ allowedTransitions) ∧
      (row.status = .compiled → row' = row) ∧
      ∃ events, row'.record.auditEvents = row.record.auditEvents ++ events

theorem moves_refl (row : Option RecordRow) : Moves row row := by
  cases row with
  | none => trivial
  | some row => exact ⟨Or.inl rfl, fun _ => rfl, [], (List.append_nil _).symm⟩

theorem moves_respond {s : IntakeStore} (hs : IntakeSound py s.intakes) (r : IntakeRequest)
    (k : IntakeKey) : Moves (lookup RecordRow.key k s.intakes.records)
      (lookup RecordRow.key k (r.respond b py s).2.intakes.records) := by
  rcases respond_intakes (b := b) r s with hquiet | ⟨w, hcontinues, hsaved⟩
  · rw [hquiet.1]
    exact moves_refl _
  · rw [hsaved.records, lookup_upsert]
    split_ifs with hk
    · cases hrow : lookup RecordRow.key k s.intakes.records with
      | none => trivial
      | some row =>
        have hget : s.intakes.get r.moment.tenant r.intakeId = some row.record := by
          have hk' : (r.moment.tenant.tenantId, w.intakeId) = k := hk
          rw [← hcontinues.intake, IntakeDatabase.get, hk', hrow]
          rfl
        have hstatus := (hs.rows k row hrow).status
        obtain ⟨-, hwstatus, hevents, -, hmoves, hunfinished, -⟩ := hcontinues
        refine ⟨?_, ?_, w.events, ?_⟩
        · rw [hwstatus, hstatus]
          exact hmoves row.record hget
        · intro hdone
          rw [hstatus] at hdone
          exact absurd hdone (hunfinished row.record hget)
        · rw [hevents, hget]
          rfl
    · exact moves_refl _

end Sound

/-! ## Runs of requests -/

/-- A request of the intake routes or of the decision routes. -/
inductive StoreRequest
  | intake (r : IntakeRequest)
  | decision (r : DecisionRequest)

/-- The store after a request that is served without another one in between. -/
def served (b : Backend) (py : Interpreter) (s : IntakeStore) : StoreRequest → IntakeStore
  | .intake r => (r.respond b py s).2
  | .decision r => { s with decisions := DecisionAssurance.served b py.toPlatform s.decisions r }

/-- What holds of a record that is stored under a key, and of its audit rows. -/
structure RecordHolds (py : Interpreter) (db : IntakeDatabase) (k : IntakeKey)
    (record : IntakeRecord) : Prop where
  consistent : Consistent record
  walks : Walks .received record.auditEvents record.status
  linked : Chains.Linked (IntakeAuditEvent.hash py) IntakeAuditEvent.previousEventHash
    record.auditEvents
  numbered : record.auditEvents.map IntakeAuditEvent.eventId =
    (List.range record.auditEvents.length).map fun i => auditEventId k.2 (i + 1)
  distinct : (record.auditEvents.map IntakeAuditEvent.eventId).Nodup
  audit : db.listAudit k = record.auditEvents

section Runs

variable {b : Backend} {py : Interpreter} {s : IntakeStore}

theorem RowSound.holds {db : IntakeDatabase} {k : IntakeKey} {row : RecordRow}
    (h : RowSound py db row) (hkey : row.key = k) : RecordHolds py db k row.record := by
  subst hkey
  exact ⟨h.consistent, h.history.walks, h.history.linked, h.history.numbered, h.history.distinct,
    IntakeDatabase.listAudit_of_rowsOf h.stored⟩

theorem intakeSound_served (hs : IntakeSound py s.intakes) (r : StoreRequest) :
    IntakeSound py (served b py s r).intakes := by
  cases r with
  | intake r => exact hs.respond r
  | decision r => exact hs

theorem moves_served (hs : IntakeSound py s.intakes) (r : StoreRequest) (k : IntakeKey) :
    Moves (lookup RecordRow.key k s.intakes.records)
      (lookup RecordRow.key k (served b py s r).intakes.records) := by
  cases r with
  | intake r => exact moves_respond hs r k
  | decision r => exact moves_refl _

theorem compiled_kept (requests : List StoreRequest) {k : IntakeKey} {row : RecordRow}
    (hs : IntakeSound py s.intakes) (hrow : lookup RecordRow.key k s.intakes.records = some row)
    (hdone : row.status = .compiled) :
    lookup RecordRow.key k (requests.foldl (served b py) s).intakes.records = some row := by
  induction requests generalizing s with
  | nil => exact hrow
  | cons r requests ih =>
    apply ih (intakeSound_served hs r)
    have hmoves := moves_served (b := b) hs r k
    rw [hrow] at hmoves
    cases hafter : lookup RecordRow.key k (served b py s r).intakes.records with
    | none =>
      rw [hafter] at hmoves
      exact hmoves.elim
    | some row' =>
      rw [hafter] at hmoves
      rw [hmoves.2.1 hdone]

/-- Every run of requests keeps the records, their histories and the audit rows in step. -/
theorem intake_histories (b : Backend) (py : Interpreter) (requests : List StoreRequest) :
    (∀ x ∈ Runs.execute (served b py) .empty requests,
      (∀ k row, lookup RecordRow.key k x.after.intakes.records = some row →
        row.status = row.record.status ∧ RecordHolds py x.after.intakes k row.record) ∧
      ∀ k, Moves (lookup RecordRow.key k x.before.intakes.records)
        (lookup RecordRow.key k x.after.intakes.records)) ∧
    ∀ earlier later, requests = earlier ++ later → ∀ k row,
      lookup RecordRow.key k (earlier.foldl (served b py) .empty).intakes.records = some row →
      row.status = .compiled →
      lookup RecordRow.key k (requests.foldl (served b py) .empty).intakes.records = some row := by
  constructor
  · intro x hx
    have hstep : ∀ s r, IntakeSound py s.intakes → True →
        IntakeSound py (served b py s r).intakes := fun _ r hs _ => intakeSound_served hs r
    obtain ⟨hbefore, hafter⟩ := Runs.execute_invariant (fun s => IntakeSound py s.intakes)
      (fun _ => True) hstep intakeSound_empty (fun _ _ => trivial) x hx
    constructor
    · intro k row hrow
      have hsound := hafter.rows k row hrow
      exact ⟨hsound.status, hsound.holds (key_of_lookup hrow)⟩
    · intro k
      rw [Runs.after_of_mem_execute hx]
      exact moves_served hbefore x.label k
  · rintro earlier later rfl k row hrow hdone
    have hearlier : IntakeSound py (earlier.foldl (served b py) .empty).intakes :=
      (Runs.run_execute (fun s r t => t = served b py s r) (served b py) (fun _ _ => rfl) .empty
        earlier).invariant_state (fun s => IntakeSound py s.intakes) intakeSound_empty
        (fun _ r _ hs ht => ht ▸ intakeSound_served hs r)
    rw [List.foldl_append]
    exact compiled_kept later hearlier hrow hdone

end Runs

end DecisionAssurance.Intake
