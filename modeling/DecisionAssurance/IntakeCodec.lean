import DecisionAssurance.IntakeJson
import DecisionAssurance.JsonRecords

/-!
# The codec of verification reports

`to_dict` writes a report and then drops the identity of a confirmation where there is none;
`verification_from_dict` reads it by hand. The role of a confirmation is any text here, as the
record declares it.
-/

namespace DecisionAssurance.Intake

open Json (required getOr closed listOf nullable oneOf asString asBool asInt asFloat strings
  ofOption Restores closed_reread object_reread restores_strings restores_ofOption)

structure CandidateRecord where
  factId : String
  factType : FactType
  rawValue : String
  normalizedValue : Option String
  source : SourceReference
  method : String
  methodVersion : String
  extractionConfidence : String
  verificationStatus : VerificationStatus
  unit : Option String
  currency : Option String
  conflictRefs : List String
  confirmationRequired : Bool
  confirmedByActorId : Option String
  confirmedByRole : Option String
  deriving DecidableEq

structure VerificationRecord where
  schemaVersion : String
  intakeId : String
  candidates : List CandidateRecord
  findings : List DerivedFinding
  unresolvedRequirementRefs : List String
  ready : Bool
  reasonCodes : List String
  deriving DecidableEq

/-! ## Writing -/

/-- `asdict` of a candidate. -/
def CandidateRecord.asDict (c : CandidateRecord) : Json :=
  .obj [("fact_id", .str c.factId), ("fact_type", .str c.factType.value),
    ("raw_value", .str c.rawValue), ("normalized_value", ofOption c.normalizedValue),
    ("source", c.source.toJson), ("method", .str c.method),
    ("method_version", .str c.methodVersion),
    ("extraction_confidence", .float c.extractionConfidence),
    ("verification_status", .str c.verificationStatus.value), ("unit", ofOption c.unit),
    ("currency", ofOption c.currency), ("conflict_refs", strings c.conflictRefs),
    ("confirmation_required", .bool c.confirmationRequired),
    ("confirmed_by_actor_id", ofOption c.confirmedByActorId),
    ("confirmed_by_role", ofOption c.confirmedByRole)]

/-- `asdict` of a report. -/
def VerificationRecord.asDict (r : VerificationRecord) : Json :=
  .obj [("schema_version", .str r.schemaVersion), ("intake_id", .str r.intakeId),
    ("candidates", .arr (r.candidates.map CandidateRecord.asDict)),
    ("findings", .arr (r.findings.map DerivedFinding.toJson)),
    ("unresolved_requirement_refs", strings r.unresolvedRequirementRefs),
    ("ready", .bool r.ready), ("reason_codes", strings r.reasonCodes)]

/-- A field that `_remove_empty_confirmation_identity` drops. -/
def isEmptyIdentity (f : String × Json) : Bool :=
  (f.1 = "confirmed_by_actor_id" || f.1 = "confirmed_by_role") && f.2 = .null

mutual

/-- `_remove_empty_confirmation_identity` -/
def removeEmptyIdentity : Json → Json
  | .obj fields => .obj (removeInFields fields)
  | .arr items => .arr (removeInItems items)
  | .null => .null
  | .bool b => .bool b
  | .int n => .int n
  | .float text => .float text
  | .str s => .str s

def removeInFields : List (String × Json) → List (String × Json)
  | [] => []
  | (key, value) :: fields =>
    if isEmptyIdentity (key, value) then removeInFields fields
    else (key, removeEmptyIdentity value) :: removeInFields fields

def removeInItems : List Json → List Json
  | [] => []
  | item :: items => removeEmptyIdentity item :: removeInItems items

end

/-- `to_dict` of a report; `json.loads` returns what `json.dumps` wrote. -/
def toDict (r : VerificationRecord) : Json := removeEmptyIdentity r.asDict

/-! ## Reading -/

def readFactType : Json → Option FactType :=
  oneOf FactType.value [.amount, .discountPercent, .discountLimitPercent, .marginPercent,
    .minMarginPercent, .paymentTermDays, .durationMonths, .date, .evidenceDate, .policyClaim,
    .exceptionClaim, .approvalClaim, .selfApprovalClaim, .roleClaim, .untrustedInstruction]

def readVerificationStatus : Json → Option VerificationStatus :=
  oneOf VerificationStatus.value [.unresolved, .verified, .humanConfirmed, .rejected]

/-- `SourceReference(**item["source"])` -/
def sourceFromDict : Json → Option SourceReference :=
  closed ["source_id", "start", "end", "content_hash"] fun item => do
    return {
      sourceId := ← required item "source_id" asString
      start := ← required item "start" asInt
      stop := ← required item "end" asInt
      contentHash := ← required item "content_hash" asString }

def candidateFromDict (j : Json) : Option CandidateRecord := do
  let item ← j.asObject
  return {
    factId := ← required item "fact_id" asString
    factType := ← required item "fact_type" readFactType
    rawValue := ← required item "raw_value" asString
    normalizedValue := ← getOr item "normalized_value" (nullable asString) none
    source := ← required item "source" sourceFromDict
    method := ← required item "method" asString
    methodVersion := ← required item "method_version" asString
    extractionConfidence := ← required item "extraction_confidence" asFloat
    verificationStatus := ← required item "verification_status" readVerificationStatus
    unit := ← getOr item "unit" (nullable asString) none
    currency := ← getOr item "currency" (nullable asString) none
    conflictRefs := ← getOr item "conflict_refs" (listOf asString) []
    confirmationRequired := ← getOr item "confirmation_required" asBool true
    confirmedByActorId := ← getOr item "confirmed_by_actor_id" (nullable asString) none
    confirmedByRole := ← getOr item "confirmed_by_role" (nullable asString) none }

def findingFromDict (j : Json) : Option DerivedFinding := do
  let item ← j.asObject
  return {
    findingId := ← required item "finding_id" asString
    ruleId := ← required item "rule_id" asString
    factRefs := ← required item "fact_refs" (listOf asString)
    policyRef := ← getOr item "policy_ref" (nullable asString) none
    calculation := ← required item "calculation" asString
    resultCode := ← required item "result_code" asString
    uncertainty := ← getOr item "uncertainty" (nullable asString) none }

/-- `verification_from_dict` -/
def verificationFromDict (j : Json) : Option VerificationRecord := do
  let value ← j.asObject
  let candidates ← required value "candidates" (listOf candidateFromDict)
  let findings ← required value "findings" (listOf findingFromDict)
  return {
    schemaVersion := ← required value "schema_version" asString
    intakeId := ← required value "intake_id" asString
    candidates := candidates
    findings := findings
    unresolvedRequirementRefs := ← required value "unresolved_requirement_refs" (listOf asString)
    ready := ← required value "ready" asBool
    reasonCodes := ← required value "reason_codes" (listOf asString) }

/-! ## What is written -/

@[simp] theorem removeInFields_nil : removeInFields [] = [] := rfl

@[simp] theorem removeInFields_cons (key : String) (value : Json) (fields : List (String × Json)) :
    removeInFields ((key, value) :: fields) =
      if isEmptyIdentity (key, value) then removeInFields fields
      else (key, removeEmptyIdentity value) :: removeInFields fields := rfl

theorem removeInItems_map {α : Type} (f : α → Json) (as : List α) :
    removeInItems (as.map f) = as.map fun a => removeEmptyIdentity (f a) := by
  induction as with
  | nil => rfl
  | cons a as ih => simp only [List.map_cons, removeInItems, ih]

@[simp] theorem removeEmptyIdentity_strings (ss : List String) :
    removeEmptyIdentity (strings ss) = strings ss := by
  rw [strings, removeEmptyIdentity, removeInItems_map]
  rfl

@[simp] theorem removeEmptyIdentity_ofOption (s : Option String) :
    removeEmptyIdentity (ofOption s) = ofOption s := by
  cases s <;> rfl

@[simp] theorem removeEmptyIdentity_source (s : SourceReference) :
    removeEmptyIdentity s.toJson = s.toJson := by
  simp [SourceReference.toJson, removeEmptyIdentity, isEmptyIdentity]

@[simp] theorem removeEmptyIdentity_finding (f : DerivedFinding) :
    removeEmptyIdentity f.toJson = f.toJson := by
  simp [DerivedFinding.toJson, removeEmptyIdentity, isEmptyIdentity]

/-- A candidate loses the identity it does not have. -/
theorem removeEmptyIdentity_candidate (c : CandidateRecord) :
    removeEmptyIdentity c.asDict =
      .obj ([("fact_id", .str c.factId), ("fact_type", .str c.factType.value),
        ("raw_value", .str c.rawValue), ("normalized_value", ofOption c.normalizedValue),
        ("source", c.source.toJson), ("method", .str c.method),
        ("method_version", .str c.methodVersion),
        ("extraction_confidence", .float c.extractionConfidence),
        ("verification_status", .str c.verificationStatus.value), ("unit", ofOption c.unit),
        ("currency", ofOption c.currency), ("conflict_refs", strings c.conflictRefs),
        ("confirmation_required", .bool c.confirmationRequired)] ++
        optionalField "confirmed_by_actor_id" c.confirmedByActorId ++
        optionalField "confirmed_by_role" c.confirmedByRole) := by
  obtain ⟨_, _, _, _, _, _, _, _, _, _, _, _, _, actor, role⟩ := c
  cases actor <;> cases role <;>
    simp [CandidateRecord.asDict, removeEmptyIdentity, isEmptyIdentity, optionalField]

/-! ## What is read back -/

@[simp] theorem readFactType_value (t : FactType) : readFactType (.str t.value) = some t := by
  cases t <;> rfl

@[simp] theorem readVerificationStatus_value (s : VerificationStatus) :
    readVerificationStatus (.str s.value) = some s := by
  cases s <;> rfl

theorem restores_source : Restores sourceFromDict SourceReference.toJson := by
  intro o s
  apply closed_reread o (by simp) (by simp)
  intro item hitem
  simp [required, hitem]

theorem restores_finding : Restores findingFromDict DerivedFinding.toJson := by
  intro o f
  obtain ⟨item, hobject, -, hitem⟩ := object_reread o (rfl : f.toJson = .obj _) (by simp)
  rw [findingFromDict, hobject]
  simp [Json.asObject, required, getOr, hitem, restores_strings o _, restores_ofOption o _]

theorem restores_candidate :
    Restores candidateFromDict fun c => removeEmptyIdentity c.asDict := by
  intro o c
  have hwritten := removeEmptyIdentity_candidate c
  obtain ⟨_, _, _, _, _, _, _, _, _, _, _, _, _, actor, role⟩ := c
  cases actor <;> cases role
  all_goals
    obtain ⟨item, hobject, -, hitem⟩ := object_reread o hwritten (by simp [optionalField])
    dsimp only
    rw [candidateFromDict, hobject]
    simp only [Json.asObject, required, getOr, hitem, optionalField, List.cons_append,
      List.nil_append, List.append_nil, Json.field?_cons, Json.field?_nil, String.reduceEq, if_true,
      if_false, Option.map_some, Option.map_none, Option.bind_some, Json.some_bind,
      Json.reread_str, Json.reread_float, Json.reread_bool, Json.asString_str, Json.asFloat_float,
      Json.asBool_bool, Json.nullable_str, readFactType_value, readVerificationStatus_value,
      restores_strings o _, restores_ofOption o _, restores_source o _]
    rfl

theorem toDict_eq (r : VerificationRecord) : toDict r =
    .obj [("schema_version", .str r.schemaVersion), ("intake_id", .str r.intakeId),
      ("candidates", .arr (r.candidates.map fun c => removeEmptyIdentity c.asDict)),
      ("findings", .arr (r.findings.map DerivedFinding.toJson)),
      ("unresolved_requirement_refs", strings r.unresolvedRequirementRefs),
      ("ready", .bool r.ready), ("reason_codes", strings r.reasonCodes)] := by
  simp [toDict, VerificationRecord.asDict, removeEmptyIdentity, isEmptyIdentity, removeInItems_map]

theorem restores_verification : Restores verificationFromDict toDict := by
  intro o r
  obtain ⟨item, hobject, -, hitem⟩ := object_reread o (toDict_eq r) (by simp)
  rw [verificationFromDict, hobject]
  simp [Json.asObject, required, hitem, restores_strings o _, restores_candidate.list o _,
    restores_finding.list o _]

/-- A report is read back from its dictionary, also where a store has arranged the fields. -/
theorem verificationFromDict_toDict (r : VerificationRecord) :
    verificationFromDict (toDict r) = some r ∧
      ∀ o : KeyOrder, verificationFromDict ((toDict r).reread o Json.float) = some r :=
  ⟨restores_verification.read r, fun o => restores_verification o r⟩

end DecisionAssurance.Intake
