import DecisionAssurance.DecisionCompiler
import DecisionAssurance.WorkflowRoutes
import DecisionAssurance.IntakeDatabase

/-!
# The intake routes

The routes that create, confirm and compile an intake. Each is a load, in which the answer and the
writes are computed from the tables as they are read, and the writes; between the two a compilation
looks for its decision or creates it.
-/

namespace DecisionAssurance.Intake

open DecisionFileCompiler

/-- Who sends a request and when, with the policy then active for the tenant and the day. -/
structure Moment where
  caller : Caller
  policy : Option PolicyContext
  today : ℤ

def Moment.tenant (m : Moment) : TenantContext := m.caller.identity.tenant

inductive Locale
  | de | en
  deriving DecidableEq

def Locale.value : Locale → String
  | .de => "de"
  | .en => "en"

structure IntakeRequestBody where
  intakeId : String
  rawInput : String
  locale : Locale

def IntakeRequestBody.toJson (body : IntakeRequestBody) : Json :=
  .obj [("schema_version", .str "0.3.0"), ("intake_id", .str body.intakeId),
    ("raw_input", .str body.rawInput), ("locale", .str body.locale.value)]

inductive ConfirmationAction
  | confirm | correct | reject
  deriving DecidableEq

def ConfirmationAction.value : ConfirmationAction → String
  | .confirm => "CONFIRM"
  | .correct => "CORRECT"
  | .reject => "REJECT"

def ConfirmationAction.eventType : ConfirmationAction → String
  | .confirm => "intake.fact-confirm"
  | .correct => "intake.fact-correct"
  | .reject => "intake.fact-reject"

structure IntakeConfirmationBody where
  factId : String
  action : ConfirmationAction
  newValue : Option String
  reason : String

def IntakeConfirmationBody.toJson (body : IntakeConfirmationBody) : Json :=
  .obj [("fact_id", .str body.factId), ("action", .str body.action.value),
    ("new_value", Json.ofOption body.newValue), ("reason", .str body.reason)]

/-- What a route raises: what the decision routes can raise too, an error of the functions of the
intake, or one of its repository. -/
inductive IntakeFailure
  | route (e : RouteError)
  | intake (e : IntakeError)
  | repository (e : IntakeRepositoryError)
  deriving DecidableEq

abbrev IntakeAnswers := Except IntakeFailure

def conflict (code : String) : IntakeFailure :=
  .route (.api 409 "CONFLICT" (.reasonCode code))

def notFound : IntakeFailure := .route (.api 404 "NOT_FOUND" .none)

/-- What a route has found out from the tables, before it writes. -/
inductive Planned
  | answered (response : IntakeResponse)
  | finished (write : IntakeIdempotencyWrite)
  | saved (write : IntakeWrite)
  | compiled (record : IntakeRecord) (document : DecisionFile) (key digest : String)

section Loading

variable (py : Interpreter) (m : Moment)

/-- `_begin`: the key, the digest of the payload and the stored response. -/
def begin (operation : String) (payload : Json) (db : IntakeDatabase) :
    IntakeAnswers (String × String × Option IntakeResponse) := do
  let key ← (requireIdempotencyKey m.caller.idempotencyKey).mapError .route
  let digest := payloadHash py.toPlatform payload
  let replay ← (db.getIdempotency m.tenant m.caller.identity.actorId operation key
    digest).mapError fun _ => conflict "IDEMPOTENCY_KEY_REUSED"
  return (key, digest, replay)

def require (p : Permission) : IntakeAnswers Unit :=
  (DecisionAssurance.require m.caller.identity p).mapError .route

/-! ## `create_intake` -/

def createOperation (intakeId : String) : String := s!"intake:create:{intakeId}"

def targetStatus (ready : Bool) : IntakeStatus := if ready then .ready else .needsConfirmation

def extractedFacts (extraction : ExtractionReport) : EventFacts where
  eventType := "intake.extracted"
  occurredAt := m.caller.now
  actorId := m.caller.identity.actorId
  fromStatus := .received
  toStatus := .extracted
  reasonCodes := ["RAW_INPUT_EXTRACTED"]
  payload := extraction.toJson

def determinedFacts (verification : VerificationReport) : EventFacts where
  eventType := "intake.readiness-determined"
  occurredAt := m.caller.now
  actorId := m.caller.identity.actorId
  fromStatus := .extracted
  toStatus := targetStatus verification.ready
  reasonCodes :=
    if verification.reasonCodes.isEmpty then ["INTAKE_READY"] else verification.reasonCodes
  payload := verification.toJson

def createdEvents (intakeId : String) (extraction : ExtractionReport)
    (verification : VerificationReport) : List IntakeAuditEvent :=
  let extracted := nextEvent py intakeId [] (extractedFacts m extraction)
  [extracted, nextEvent py intakeId [extracted] (determinedFacts m verification)]

def createdRecord (body : IntakeRequestBody) (extraction : ExtractionReport)
    (verification : VerificationReport) : IntakeRecord where
  intakeId := body.intakeId
  status := targetStatus verification.ready
  rawInput := body.rawInput
  rawInputHash := payloadHash py.toPlatform (.str body.rawInput)
  locale := body.locale.value
  createdAt := m.caller.now
  updatedAt := m.caller.now
  contractReady := verification.ready
  extraction := extraction
  verification := verification
  confirmations := []
  findings := verification.findings
  auditEvents := createdEvents py m body.intakeId extraction verification
  compiledDecisionId := none

def loadCreate (body : IntakeRequestBody) (db : IntakeDatabase) : IntakeAnswers Planned := do
  require m .intakeCreate
  let operation := createOperation body.intakeId
  let (key, digest, replay) ← begin py m operation body.toJson db
  let finish (record : IntakeRecord) : IntakeIdempotencyWrite :=
    ⟨m.caller.identity.actorId, operation, key, digest, .record record⟩
  match replay, db.get m.tenant body.intakeId with
  | some response, _ => return .answered response
  | none, some existing =>
    if existing.rawInput ≠ body.rawInput then .error (conflict "INTAKE_ALREADY_EXISTS")
    else return .finished (finish existing)
  | none, none =>
    let extraction := QuoteExtractor.extract py body.rawInput body.locale.value body.intakeId
    let verification ← (verify py m.policy m.today extraction).mapError .intake
    let target := targetStatus verification.ready
    let _ ← (nextStatus .received .extracted false).mapError .intake
    let _ ← (nextStatus .extracted target verification.ready).mapError .intake
    let record := createdRecord py m body extraction verification
    return .saved {
      intakeId := body.intakeId
      status := record.status
      record := record
      facts := verification.candidates
      confirmation := none
      events := record.auditEvents
      idempotency := finish record }

/-! ## `add_confirmation` -/

def confirmOperation (intakeId factId : String) : String := s!"intake:confirm:{intakeId}:{factId}"

def confirmationCall (body : IntakeConfirmationBody) : ConfirmationCall where
  factId := body.factId
  action := body.action.value
  newValue := body.newValue
  reason := body.reason
  occurredAt := m.caller.now
  identity := m.caller.identity

/-- `ConfirmationRejected` is answered with 409. -/
def confirmationError : IntakeError → IntakeFailure
  | .confirmation code => conflict code
  | e => .intake e

/-- `IntakeTransitionRejected` is answered with 409. -/
def transitionError : IntakeError → IntakeFailure
  | .transition code => conflict code
  | e => .intake e

def confirmedReport (body : IntakeConfirmationBody) (record : IntakeRecord) :
    Raises (VerificationReport × HumanConfirmation) := do
  let (updated, confirmation) ← confirmFact py (confirmationCall m body) record.verification
  let updated ← reverify py m.policy m.today updated
  return (updated, confirmation)

def withConfirmation (confirmations : List HumanConfirmation) (c : HumanConfirmation) :
    List HumanConfirmation :=
  if confirmations.any fun item => item.confirmationId = c.confirmationId then confirmations
  else confirmations ++ [c]

def confirmedFacts (body : IntakeConfirmationBody) (record : IntakeRecord)
    (updated : VerificationReport) (confirmation : HumanConfirmation) : EventFacts where
  eventType := body.action.eventType
  occurredAt := confirmation.occurredAt
  actorId := m.caller.identity.actorId
  fromStatus := record.status
  toStatus := targetStatus updated.ready
  reasonCodes := ["FACT_HUMAN_CONFIRMED"]
  payload := confirmation.toJson

def confirmedEvent (intakeId : String) (body : IntakeConfirmationBody) (record : IntakeRecord)
    (updated : VerificationReport) (confirmation : HumanConfirmation) : IntakeAuditEvent :=
  nextEvent py intakeId record.auditEvents (confirmedFacts m body record updated confirmation)

def confirmedRecord (intakeId : String) (body : IntakeConfirmationBody) (record : IntakeRecord)
    (updated : VerificationReport) (confirmation : HumanConfirmation) : IntakeRecord :=
  { record with
    confirmations := withConfirmation record.confirmations confirmation
    verification := updated
    findings := updated.findings
    contractReady := updated.ready
    status := targetStatus updated.ready
    updatedAt := confirmation.occurredAt
    auditEvents := record.auditEvents ++
      [confirmedEvent py m intakeId body record updated confirmation] }

/-- `next_status` where the status changes -/
def moveStatus (source target : IntakeStatus) (ready : Bool) : IntakeAnswers Unit :=
  if target = source then .ok ()
  else ((nextStatus source target ready).mapError transitionError).map fun _ => ()

def loadConfirm (intakeId : String) (body : IntakeConfirmationBody) (db : IntakeDatabase) :
    IntakeAnswers Planned := do
  require m .intakeConfirm
  let operation := confirmOperation intakeId body.factId
  let (key, digest, replay) ← begin py m operation body.toJson db
  match replay with
  | some response => return .answered response
  | none =>
    let record ← orRaise notFound (db.get m.tenant intakeId)
    let (updated, confirmation) ← (confirmedReport py m body record).mapError confirmationError
    moveStatus record.status (targetStatus updated.ready) updated.ready
    let saved := confirmedRecord py m intakeId body record updated confirmation
    return .saved {
      intakeId := intakeId
      status := saved.status
      record := saved
      facts := updated.candidates
      confirmation := some confirmation
      events := [confirmedEvent py m intakeId body record updated confirmation]
      idempotency := ⟨m.caller.identity.actorId, operation, key, digest, .record saved⟩ }

/-! ## `compile_intake` -/

def compileOperation (intakeId : String) : String := s!"intake:compile:{intakeId}"

def intakeCompiler : String := "system:intake-compiler"

/-- `CompilationRejected` is answered with 409. -/
def compilationError : IntakeError → IntakeFailure
  | .compilation code => conflict code
  | e => .intake e

/-- The decision of a record that has been compiled, where it is still stored. -/
def storedDecision (record : IntakeRecord) (decisions : DecisionTables) : Option DecisionFile :=
  (truthy record.compiledDecisionId).bind fun id => decisions.getDecision m.tenant id

def draftDecision (record : IntakeRecord) (policy : PolicyContext) : Raises DecisionFile := do
  if record.status ≠ .ready then .error (.compilation "NEEDS_CONFIRMATION")
  else
    let _ ← nextStatus record.status .compiled true
    compile py record.verification policy intakeCompiler record.status m.caller.now

def loadCompile (intakeId : String) (db : IntakeDatabase) (decisions : DecisionTables) :
    IntakeAnswers Planned := do
  require m .intakeCompile
  let operation := compileOperation intakeId
  let (key, digest, replay) ← begin py m operation (.obj []) db
  match replay with
  | some response => return .answered response
  | none =>
    let record ← orRaise notFound (db.get m.tenant intakeId)
    let policy ← orRaise (conflict "TRUSTED_POLICY_UNAVAILABLE") m.policy
    match storedDecision m record decisions with
    | some decision =>
      return .finished ⟨m.caller.identity.actorId, operation, key, digest, .decision decision⟩
    | none =>
      let document ← (draftDecision py m record policy).mapError compilationError
      return .compiled record document key digest

/-- The decision of a compilation: the stored one of its id, or the new one once it is stored. -/
def settleDecision (b : Backend) (document : DecisionFile) (decisions : DecisionTables) :
    IntakeAnswers (DecisionFile × DecisionTables) :=
  match decisions.getDecision m.tenant document.decisionId with
  | some existing => .ok (existing, decisions)
  | none => do
    let decisions ← (decisions.createDecision b m.tenant document document.auditEvents
      none).mapError fun e => .route (.repository e)
    return (document, decisions)

def compiledFacts (decision : DecisionFile) : EventFacts where
  eventType := "intake.compiled"
  occurredAt := decision.createdAt
  actorId := m.caller.identity.actorId
  fromStatus := .ready
  toStatus := .compiled
  reasonCodes := ["VERIFIED_INTAKE_COMPILED"]
  payload := .obj [("decision_id", .str decision.decisionId)]

def compiledRecordEvent (intakeId : String) (record : IntakeRecord) (decision : DecisionFile) :
    IntakeAuditEvent :=
  nextEvent py intakeId record.auditEvents (compiledFacts m decision)

def compiledRecord (intakeId : String) (record : IntakeRecord) (decision : DecisionFile) :
    IntakeRecord :=
  { record with
    compiledDecisionId := some decision.decisionId
    status := .compiled
    updatedAt := decision.createdAt
    auditEvents := record.auditEvents ++ [compiledRecordEvent py m intakeId record decision] }

/-- The writes of a compilation once its decision is known. -/
def compiledWrite (intakeId : String) (record : IntakeRecord) (decision : DecisionFile)
    (key digest : String) : IntakeWrite where
  intakeId := intakeId
  status := .compiled
  record := compiledRecord py m intakeId record decision
  facts := []
  confirmation := none
  events := [compiledRecordEvent py m intakeId record decision]
  idempotency := ⟨m.caller.identity.actorId, compileOperation intakeId, key, digest,
    .decision decision⟩

end Loading

/-! ## Requests -/

structure IntakeStore where
  intakes : IntakeDatabase
  decisions : DecisionTables

def IntakeStore.empty : IntakeStore := ⟨.empty, .empty⟩

inductive IntakeRequest
  | create (m : Moment) (body : IntakeRequestBody)
  | confirm (m : Moment) (intakeId : String) (body : IntakeConfirmationBody)
  | compile (m : Moment) (intakeId : String)

namespace IntakeRequest

def moment : IntakeRequest → Moment
  | create m _ | confirm m _ _ | compile m _ => m

def intakeId : IntakeRequest → String
  | create _ body => body.intakeId
  | confirm _ intakeId _ | compile _ intakeId => intakeId

/-- The intake a request is about. -/
def intake (r : IntakeRequest) : IntakeKey := (r.moment.tenant.tenantId, r.intakeId)

variable (b : Backend) (py : Interpreter)

/-- What a request finds out from the store before it writes. -/
def load (s : IntakeStore) : IntakeRequest → IntakeAnswers Planned
  | create m body => loadCreate py m body s.intakes
  | confirm m intakeId body => loadConfirm py m intakeId body s.intakes
  | compile m intakeId => loadCompile py m intakeId s.intakes s.decisions

/-- `save_operation` or `store_idempotency` -/
def commit (tenant : TenantContext) (write : IntakeWrite) (s : IntakeStore) :
    IntakeAnswers IntakeResponse × IntakeStore :=
  match s.intakes.saveOperation b tenant write with
  | .error e => (.error (.repository e), s)
  | .ok intakes => (.ok write.idempotency.response, { s with intakes := intakes })

def finish (tenant : TenantContext) (write : IntakeIdempotencyWrite) (s : IntakeStore) :
    IntakeAnswers IntakeResponse × IntakeStore :=
  match s.intakes.storeIdempotency b tenant write with
  | .error e => (.error (.repository e), s)
  | .ok intakes => (.ok write.response, { s with intakes := intakes })

/-- The rest of a request after its load; a decision stays created when the writes after it fail. -/
def write (r : IntakeRequest) (s : IntakeStore) : Planned → IntakeAnswers IntakeResponse × IntakeStore
  | .answered response => (.ok response, s)
  | .finished write => finish b r.moment.tenant write s
  | .saved write => commit b r.moment.tenant write s
  | .compiled record document key digest =>
    match settleDecision r.moment b document s.decisions with
    | .error e => (.error e, s)
    | .ok (decision, decisions) =>
      commit b r.moment.tenant (compiledWrite py r.moment r.intakeId record decision key digest)
        { s with decisions := decisions }

/-- A request that is served without another one in between. -/
def respond (r : IntakeRequest) (s : IntakeStore) : IntakeAnswers IntakeResponse × IntakeStore :=
  match r.load py s with
  | .error e => (.error e, s)
  | .ok plan => r.write b py s plan

end IntakeRequest

end DecisionAssurance.Intake
