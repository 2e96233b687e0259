import DecisionAssurance.IntakeHistories

/-!
# Intake requests step by step

Any number of intake requests are under way at once. Each loads what it needs, a compilation looks
for its decision and creates it, and the last step writes; between the steps of one request others
take theirs, decision requests are served and cases are erased.
-/

namespace DecisionAssurance

open Tables

/-- The tables of the decisions after `_delete_case_data`. -/
def DecisionTables.eraseCase (tenant : TenantContext) (decisionId : String) (t : DecisionTables) :
    DecisionTables where
  decisions := deleteWhere (fun r => r.key = (tenant.tenantId, decisionId)) t.decisions
  auditEvents := deleteWhere (fun r => r.case = (tenant.tenantId, decisionId)) t.auditEvents
  reports := deleteWhere (fun r => r.key = (tenant.tenantId, decisionId)) t.reports
  idempotency := deleteWhere (fun r => r.tenantId = tenant.tenantId ∧
    (r.response.getText "decision_id" = some decisionId ∨
      r.response.getText "compiled_decision_id" = some decisionId)) t.idempotency
  researchHandoffs := deleteWhere
    (fun r => r.tenantId = tenant.tenantId ∧ r.decisionFileId = decisionId) t.researchHandoffs

theorem DecisionTables.Sound.eraseCase {t : DecisionTables} (hs : t.Sound) (tenant : TenantContext)
    (decisionId : String) : (t.eraseCase tenant decisionId).Sound := by
  have hkept : ∀ k, k ∈ t.decisions.map DecisionRow.key → k ≠ (tenant.tenantId, decisionId) →
      k ∈ (t.eraseCase tenant decisionId).decisions.map DecisionRow.key := by
    intro k hk hne
    obtain ⟨r, hr, rfl⟩ := List.mem_map.mp hk
    exact List.mem_map_of_mem (mem_deleteWhere.mpr ⟨hr, decide_eq_false hne⟩)
  refine ⟨keyed_deleteWhere hs.decisions, keyed_deleteWhere hs.auditEvents, ?_, ?_, ?_, ?_⟩
  · intro r hr
    exact hs.named r (mem_deleteWhere.mp hr).1
  · intro r hr
    exact hs.labelled r (mem_deleteWhere.mp hr).1
  · intro r hr
    obtain ⟨hr, hne⟩ := mem_deleteWhere.mp hr
    exact hkept _ (hs.owned r hr) (of_decide_eq_false hne)
  · intro r hr
    obtain ⟨hr, hne⟩ := mem_deleteWhere.mp hr
    exact hkept _ (hs.reported r hr) (of_decide_eq_false hne)

namespace Intake

open DecisionFileCompiler

/-! ## Requests under way -/

/-- How far a request has come: it has loaded, or a compilation has still to create its document,
or knows its decision. -/
inductive Stage
  | planned (plan : Planned)
  | drafted (record : IntakeRecord) (document : DecisionFile) (key digest : String)
  | settled (record : IntakeRecord) (decision : DecisionFile) (key digest : String)

/-- A request under way, with the record of its intake as it was loaded. -/
structure Flight where
  request : IntakeRequest
  found : Option IntakeRecord
  stage : Stage

inductive Progress
  | goesOn (stage : Stage)
  | ends (answer : IntakeAnswers IntakeResponse)

/-- The next step of a request that has loaded. -/
def Flight.advance (b : Backend) (py : Interpreter) (f : Flight) (s : IntakeStore) :
    Progress × IntakeStore :=
  let m := f.request.moment
  match f.stage with
  | .planned (.answered response) => (.ends (.ok response), s)
  | .planned (.finished write) => (IntakeRequest.finish b m.tenant write s).map .ends id
  | .planned (.saved write) => (IntakeRequest.commit b m.tenant write s).map .ends id
  | .planned (.compiled record document key digest) =>
    match s.decisions.getDecision m.tenant document.decisionId with
    | some existing => (.goesOn (.settled record existing key digest), s)
    | none => (.goesOn (.drafted record document key digest), s)
  | .drafted record document key digest =>
    match s.decisions.createDecision b m.tenant document document.auditEvents none with
    | .error e => (.ends (.error (.route (.repository e))), s)
    | .ok decisions => (.goesOn (.settled record document key digest), ⟨s.intakes, decisions⟩)
  | .settled record decision key digest =>
    (IntakeRequest.commit b m.tenant
      (compiledWrite py m f.request.intakeId record decision key digest) s).map .ends id

/-! ## The erasure of a case -/

/-- `response_json` of a row names the decision. -/
def IntakeResponse.names (decisionId : String) : IntakeResponse → Bool
  | .record r => r.compiledDecisionId = some decisionId
  | .decision d => d.decisionId = decisionId

/-- The intakes that `_delete_case_data` finds for a decision. -/
def IntakeDatabase.intakesOf (tenant : TenantContext) (decisionId : String) (db : IntakeDatabase) :
    List IntakeKey :=
  (db.records.filter fun r => r.tenantId = tenant.tenantId ∧
    (r.record.compiledDecisionId = some decisionId ∨ compiledId r.intakeId = decisionId)).map
      RecordRow.key

/-- The tables of the intakes after `_delete_case_data`. -/
def IntakeDatabase.eraseCase (tenant : TenantContext) (decisionId : String) (db : IntakeDatabase) :
    IntakeDatabase :=
  let erased := db.intakesOf tenant decisionId
  if erased.isEmpty then db
  else {
    records := deleteWhere (fun r => r.key ∈ erased) db.records
    facts := deleteWhere (fun r => r.key.1 ∈ erased) db.facts
    confirmations := deleteWhere (fun r => r.key.1 ∈ erased) db.confirmations
    auditEvents := deleteWhere (fun r => r.intake ∈ erased) db.auditEvents
    idempotency := deleteWhere
      (fun r => r.tenantId = tenant.tenantId ∧ r.response.names decisionId) db.idempotency }

/-- An erasure no legal hold prevents; it fails where the case is not stored. -/
def IntakeStore.eraseCase (tenant : TenantContext) (decisionId : String) (s : IntakeStore) :
    IntakeStore :=
  if (s.decisions.getDecision tenant decisionId).isNone then s
  else ⟨s.intakes.eraseCase tenant decisionId, s.decisions.eraseCase tenant decisionId⟩

/-- An erasure only takes records and answers away. -/
theorem IntakeDatabase.mem_eraseCase (tenant : TenantContext) (decisionId : String)
    (db : IntakeDatabase) :
    (∀ row ∈ (db.eraseCase tenant decisionId).records, row ∈ db.records) ∧
      ∀ row ∈ (db.eraseCase tenant decisionId).idempotency, row ∈ db.idempotency := by
  unfold eraseCase
  dsimp only
  split_ifs
  · exact ⟨fun _ hr => hr, fun _ hr => hr⟩
  · exact ⟨fun _ hr => (mem_deleteWhere.mp hr).1, fun _ hr => (mem_deleteWhere.mp hr).1⟩

/-! ## Steps -/

/-- The store, and the requests that clients are in the middle of. -/
structure World where
  store : IntakeStore
  flights : ℕ → Option Flight

inductive Act
  | load (client : ℕ) (r : IntakeRequest)
  | advance (client : ℕ)
  | decision (r : DecisionRequest)
  | erase (tenant : TenantContext) (decisionId : String)

def World.idle (s : IntakeStore) : World := ⟨s, fun _ => none⟩

section Steps

variable (b : Backend) (py : Interpreter)

/-- The flight of a client after a step of its request. -/
def Flight.after (f : Flight) : Progress → Option Flight
  | .goesOn stage => some { f with stage := stage }
  | .ends _ => none

/-- The flight of a request that has loaded. -/
def IntakeRequest.flight (r : IntakeRequest) (s : IntakeStore) (plan : Planned) : Flight :=
  ⟨r, s.intakes.get r.moment.tenant r.intakeId, .planned plan⟩

/-- A client that is idle loads a request, or one takes the next step of its request. -/
def World.next (w : World) : Act → World
  | .load client r =>
    if (w.flights client).isSome then w
    else match r.load py w.store with
      | .error _ => w
      | .ok plan => ⟨w.store, Function.update w.flights client (some (r.flight w.store plan))⟩
  | .advance client =>
    match w.flights client with
    | none => w
    | some f =>
      let (progress, store) := f.advance b py w.store
      ⟨store, Function.update w.flights client (f.after progress)⟩
  | .decision r => 
    ⟨⟨w.store.intakes, DecisionAssurance.served b py.toPlatform w.store.decisions r⟩, w.flights⟩
  | .erase tenant decisionId => ⟨w.store.eraseCase tenant decisionId, w.flights⟩

/-- The answer a step gives, with its request. -/
def World.reply (w : World) : Act → Option (IntakeRequest × IntakeAnswers IntakeResponse)
  | .advance client =>
    match w.flights client with
    | none => none
    | some f =>
      match (f.advance b py w.store).1 with
      | .goesOn _ => none
      | .ends answer => some (f.request, answer)
  | _ => none

abbrev Steps := Runs.Trace World Act

/-- The steps of a list of acts from the empty store. -/
def steps (acts : List Act) : Steps :=
  Runs.execute (World.next b py) (.idle .empty) acts

/-- `next` as a relation. -/
def World.Next (w : World) (a : Act) (w' : World) : Prop := w' = w.next b py a

theorem run_steps (acts : List Act) : Runs.Run (World.Next b py) (.idle .empty) (steps b py acts)
    (acts.foldl (World.next b py) (.idle .empty)) :=
  Runs.run_execute (World.Next b py) (World.next b py) (fun _ _ => rfl) _ acts

end Steps

/-! ## What a step does -/

section Takes

variable {b : Backend} {py : Interpreter}

/-- The steps of a request that has loaded; one that fails leaves the store as it is. -/
inductive Takes (b : Backend) (py : Interpreter) (r : IntakeRequest) (s : IntakeStore) :
    Stage → Progress → IntakeStore → Prop
  | failed (stage : Stage) (e : IntakeFailure) : Takes b py r s stage (.ends (.error e)) s
  | answered (response : IntakeResponse) :
      Takes b py r s (.planned (.answered response)) (.ends (.ok response)) s
  | finished (write : IntakeIdempotencyWrite) (db : IntakeDatabase)
      (stored : s.intakes.storeIdempotency b r.moment.tenant write = .ok db) :
      Takes b py r s (.planned (.finished write)) (.ends (.ok write.response)) ⟨db, s.decisions⟩
  | saved (write : IntakeWrite) (db : IntakeDatabase)
      (stored : IntakeDatabase.Saved r.moment.tenant write s.intakes db) :
      Takes b py r s (.planned (.saved write)) (.ends (.ok write.idempotency.response))
        ⟨db, s.decisions⟩
  | found (record : IntakeRecord) (document existing : DecisionFile) (key digest : String)
      (known : s.decisions.getDecision r.moment.tenant document.decisionId = some existing) :
      Takes b py r s (.planned (.compiled record document key digest))
        (.goesOn (.settled record existing key digest)) s
  | missing (record : IntakeRecord) (document : DecisionFile) (key digest : String)
      (unknown : s.decisions.getDecision r.moment.tenant document.decisionId = none) :
      Takes b py r s (.planned (.compiled record document key digest))
        (.goesOn (.drafted record document key digest)) s
  | created (record : IntakeRecord) (document : DecisionFile) (key digest : String)
      (decisions : DecisionTables)
      (stored : s.decisions.createDecision b r.moment.tenant document document.auditEvents none =
        .ok decisions) :
      Takes b py r s (.drafted record document key digest)
        (.goesOn (.settled record document key digest)) ⟨s.intakes, decisions⟩
  | settled (record : IntakeRecord) (decision : DecisionFile) (key digest : String)
      (db : IntakeDatabase)
      (stored : IntakeDatabase.Saved r.moment.tenant
        (compiledWrite py r.moment r.intakeId record decision key digest) s.intakes db) :
      Takes b py r s (.settled record decision key digest) (.ends (.ok (.decision decision)))
        ⟨db, s.decisions⟩

theorem Flight.takes (f : Flight) (s : IntakeStore) :
    Takes b py f.request s f.stage (f.advance b py s).1 (f.advance b py s).2 := by
  obtain ⟨r, found, stage⟩ := f
  cases stage with
  | planned plan =>
    cases plan with
    | answered response => exact Takes.answered response
    | finished write =>
      simp only [Flight.advance, IntakeRequest.finish]
      cases hstore : s.intakes.storeIdempotency b r.moment.tenant write with
      | error e => exact Takes.failed _ _
      | ok db => exact Takes.finished write db hstore
    | saved write =>
      simp only [Flight.advance, IntakeRequest.commit]
      cases hsave : s.intakes.saveOperation b r.moment.tenant write with
      | error e => exact Takes.failed _ _
      | ok db => exact Takes.saved write db (IntakeDatabase.saveOperation_ok hsave)
    | compiled record document key digest =>
      simp only [Flight.advance]
      cases hget : s.decisions.getDecision r.moment.tenant document.decisionId with
      | some existing => exact Takes.found record document existing key digest hget
      | none => exact Takes.missing record document key digest hget
  | drafted record document key digest =>
    simp only [Flight.advance]
    cases hcreate : s.decisions.createDecision b r.moment.tenant document document.auditEvents
        none with
    | error e => exact Takes.failed _ _
    | ok decisions => exact Takes.created record document key digest decisions hcreate
  | settled record decision key digest =>
    simp only [Flight.advance, IntakeRequest.commit]
    cases hsave : s.intakes.saveOperation b r.moment.tenant
        (compiledWrite py r.moment r.intakeId record decision key digest) with
    | error e => exact Takes.failed _ _
    | ok db =>
      exact Takes.settled record decision key digest db (IntakeDatabase.saveOperation_ok hsave)

/-- The answer with which a step ends, if it does. -/
def Progress.answer : Progress → Option (IntakeAnswers IntakeResponse)
  | .goesOn _ => none
  | .ends answer => some answer

/-- What a client that is in the middle of a request does next. -/
theorem next_takes {w : World} {client : ℕ} {f : Flight} (h : w.flights client = some f) :
    ∃ progress s, Takes b py f.request w.store f.stage progress s ∧
      w.next b py (.advance client) = ⟨s, Function.update w.flights client (f.after progress)⟩ ∧
      w.reply b py (.advance client) = progress.answer.map fun answer => (f.request, answer) := by
  refine ⟨_, _, f.takes w.store, ?_, ?_⟩
  · simp only [World.next, h]
  · simp only [World.reply, h]
    cases (f.advance b py w.store).1 with
    | goesOn stage => rfl
    | ends answer => rfl

end Takes

section Alone

variable {b : Backend} {py : Interpreter}

theorem next_advance {w : World} {client : ℕ} {f : Flight} (h : w.flights client = some f) :
    w.next b py (.advance client) = ⟨(f.advance b py w.store).2,
      Function.update w.flights client (f.after (f.advance b py w.store).1)⟩ := by
  simp only [World.next, h]

end Alone

end Intake

end DecisionAssurance
