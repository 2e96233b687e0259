import DecisionAssurance.DecisionContract
import DecisionAssurance.ExportEvents

/-!
# The validation of exports

`validate_export` reads an archive of arbitrary bytes: the names of its entries, the manifest, the
members under their checksums, the audit chains, the versions of events and, for a manifest of
version `0.9.0`, the tenant and the signature. Which checks run is chosen by the manifest.
-/

namespace DecisionAssurance.Export

open Research (WallTime)

/-! ## Archives -/

structure ArchiveEntry where
  filename : String
  fileSize : ℕ
  deriving DecidableEq

/-- `BadZipFile`, or another exception of `zipfile.ZipFile` (`NotImplementedError` for a later
version of the format, `UnicodeDecodeError` for a name). -/
inductive OpenFailure
  | badZipFile | other
  deriving DecidableEq

/-- `KeyError`, or an exception of `zipfile` on a damaged or encrypted entry. -/
inductive ReadFailure
  | missing | damaged
  deriving DecidableEq

/-- An open `ZipFile`. -/
structure Archive where
  infos : List ArchiveEntry
  read : String → Except ReadFailure Bytes

def Archive.names (archive : Archive) : List String := archive.infos.map ArchiveEntry.filename

/-- `JSONDecodeError` and `UnicodeDecodeError`, or another exception of `json.loads`. -/
inductive LoadsFailure
  | decodeError | other
  deriving DecidableEq

/-- The values that the interpreter's limit of recursion lets the validator descend into, in the
errors of a manifest, in `json.dumps` and in `str`. A dictionary of scalars is within it. -/
structure Descent where
  checks : List (PyString × RawJson) → Bool
  dumps : RawJson → Bool
  prints : RawJson → Bool
  flat : ∀ fields, (∀ f ∈ fields, unhashable f.2 = false) → dumps (.obj fields) = true

def Descent.unlimited : Descent := ⟨fun _ => true, fun _ => true, fun _ => true, fun _ _ => rfl⟩

/-- What the validator takes from its libraries. -/
structure ExportLibrary extends SignatureLibrary where
  descent : Descent
  openArchive : Bytes → Except OpenFailure Archive
  loads : Bytes → Except LoadsFailure RawJson
  sha256 : Bytes → String
  fromisoformat : PyString → Option WallTime
  dateTime : PyString → Bool

def exportMembers : List String :=
  ["decision/decision-file.json", "decision/assurance-report.json", "intake/intake-records.json",
    "research/research-runs.json", "research/sources.json", "research/evidence.json",
    "audit/decision-events.json", "audit/intake-events.json", "audit/research-events.json",
    "audit/lifecycle-events.json"]

def maxArchiveBytes : ℕ := 20 * 1024 * 1024

def maxUncompressedBytes : ℕ := 40 * 1024 * 1024

inductive ManifestVersion
  | v08 | v09
  deriving DecidableEq

def ManifestVersion.value : ManifestVersion → String
  | .v08 => "0.8.0"
  | .v09 => "0.9.0"

inductive ProvenanceStatus
  | legacyUnsigned | signedValid
  deriving DecidableEq

structure ValidationReport where
  valid : Bool
  caseRef : PyString
  memberCount : ℕ
  exportId : PyString
  provenanceStatus : ProvenanceStatus
  tenantId : Option PyString
  keyId : Option PyString
  deriving DecidableEq

def reject {α : Type} (code : String) : Checks α := .error (.rejected code)

@[simp] theorem reject_ne_ok {α : Type} {code : String} {a : α} : reject code ≠ .ok a := by
  rintro ⟨⟩

/-- `if condition: raise ExportValidationError(code)` -/
def rejectIf (condition : Bool) (code : String) : Checks Unit :=
  if condition then reject code else .ok ()

theorem rejectIf_ok {condition : Bool} {code : String} {u : Unit}
    (h : rejectIf condition code = .ok u) : condition = false := by
  cases condition with
  | false => rfl
  | true => cases h

section Validator

variable (lib : ExportLibrary)

/-! ## Entries -/

/-- `_safe_path` -/
def safePath (name : String) : Bool :=
  !name.toList.contains '\\' && name.toList.head? ≠ some '/' && !name.toList.contains ':' &&
    !name.toList.isEmpty && !(name.toList.splitOn '/').contains ['.', '.']

def openExport (content : Bytes) : Checks Archive :=
  if content.isEmpty ∨ maxArchiveBytes < content.length then reject "EXPORT_SIZE_REJECTED"
  else (lib.openArchive content).mapError fun e =>
    match e with
    | .badZipFile => .rejected "INVALID_EXPORT_ARCHIVE"
    | .other => .raised .openError

def checkNames (archive : Archive) : Checks Unit := do
  rejectIf (decide ¬archive.names.Nodup) "DUPLICATE_EXPORT_MEMBER"
  rejectIf (archive.names.any fun name => !safePath name) "EXPORT_PATH_REJECTED"

/-- `archive.read(name)`, with the code for an entry that is not there. -/
def readEntry (archive : Archive) (name code : String) : Checks Bytes :=
  (archive.read name).mapError fun e =>
    match e with
    | .missing => .rejected code
    | .damaged => .raised .archiveError

/-- `json.loads`, with the code for bytes that are no JSON. -/
def parseJson (content : Bytes) (code : String) : Checks RawJson :=
  (lib.loads content).mapError fun e =>
    match e with
    | .decodeError => .rejected code
    | .other => .raised .jsonError

/-! ## Manifests -/

/-- `manifest.get("schema_version")` and its check. -/
def readVersion : RawJson → Checks (List (PyString × RawJson) × ManifestVersion)
  | .obj fields =>
    let version := item fields "schema_version"
    if unhashable version then .error (.raised .typeError)
    else if isText version ManifestVersion.v08.value then .ok (fields, .v08)
    else if isText version ManifestVersion.v09.value then .ok (fields, .v09)
    else reject "EXPORT_VERSION_UNSUPPORTED"
  | _ => .error (.raised .attributeError)

def expectedNames : ManifestVersion → List String
  | .v08 => "manifest.json" :: exportMembers
  | .v09 => "signature.json" :: "manifest.json" :: exportMembers

/-- Equality of the sets of two lists. -/
def sameSet (xs ys : List String) : Bool := (xs.all fun x => x ∈ ys) && ys.all fun y => y ∈ xs

def checkMemberSet (version : ManifestVersion) (archive : Archive) : Checks Unit :=
  if sameSet archive.names (expectedNames version) then .ok ()
  else if version = .v09 ∧ "signature.json" ∉ archive.names then reject "EXPORT_SIGNATURE_MISSING"
  else reject "EXPORT_MEMBER_SET_MISMATCH"

def checkSizes (archive : Archive) : Checks Unit :=
  rejectIf (maxUncompressedBytes < (archive.infos.map ArchiveEntry.fileSize).sum)
    "EXPORT_SIZE_REJECTED"

/-- The declaration of a member. -/
structure Declaration where
  path : String
  sha256 : String
  bytes : ℤ
  deriving DecidableEq

/-- What the validator uses of a manifest. -/
structure Manifest where
  exportId : PyString
  caseRef : PyString
  tenantId : PyString
  members : List Declaration
  deriving DecidableEq

/-- A string of a length between two bounds. -/
def readText (low high : ℕ) : RawJson → Option PyString
  | .str s => if low ≤ s.length ∧ s.length ≤ high then some s else none
  | _ => none

def nonEmptyText : RawJson → Bool
  | .str s => !s.isEmpty
  | _ => false

/-- A string that a pattern is found in; surrogates are in no class of the patterns. -/
def readPattern (p : List Char → Bool) : RawJson → Option String
  | .str s => (encodeText s).filter (searches p)
  | _ => none

/-- `[a-z][a-z0-9-]*` -/
def isSegment : List Char → Bool
  | [] => false
  | c :: cs => c.isLower && cs.all fun d => d.isLower || d.isDigit || d = '-'

/-- `[a-z][a-z0-9-]*/[a-z][a-z0-9-]*\.json` -/
def isMemberPath (cs : List Char) : Bool :=
  match cs.splitOn '/' with
  | [folder, file] =>
    isSegment folder && ".json".toList.isSuffixOf file && isSegment (file.take (file.length - 5))
  | _ => false

def isHex (low high : ℕ) (cs : List Char) : Bool :=
  low ≤ cs.length && cs.length ≤ high && cs.all isLowerHex

/-- A value of the type `integer`: also a floating point number without a fraction. -/
def readInteger : RawJson → Option ℤ
  | .int n => some n
  | .float text =>
    if ".0".toList.isSuffixOf text.toList then
      (String.ofList text.toList.dropLast.dropLast).toInt?
    else none
  | _ => none

def closedOver (keys : List String) (fields : List (PyString × RawJson)) : Bool :=
  fields.all fun f => f.1 ∈ keys.map py

def readDeclaration : RawJson → Option Declaration
  | .obj fields => do
    let path ← readPattern isMemberPath (item fields "path")
    let sha256 ← readPattern (isHex 64 64) (item fields "sha256")
    let bytes ← readInteger (item fields "bytes")
    if closedOver ["path", "sha256", "bytes"] fields ∧ 2 ≤ bytes ∧ bytes ≤ 10485760 then
      return ⟨path, sha256, bytes⟩
    else none
  | _ => none

def readMembers : RawJson → Option (List Declaration)
  | .arr items => do
    let members ← items.mapM readDeclaration
    if members ≠ [] ∧ members.length ≤ 32 ∧ members.Nodup then return members else none
  | _ => none

def softwareValid : RawJson → Bool
  | .obj fields => closedOver ["version", "commit_sha"] fields &&
    nonEmptyText (item fields "version") &&
    (readPattern (isHex 40 64) (item fields "commit_sha")).isSome
  | _ => false

def policiesValid : RawJson → Bool
  | .obj fields => fields.all fun f => nonEmptyText f.2
  | _ => false

def manifestKeys : ManifestVersion → List String
  | .v08 => ["schema_version", "export_id", "case_ref", "generated_at", "software",
    "policy_versions", "members"]
  | .v09 => ["schema_version", "export_id", "case_ref", "decision_id", "tenant_id",
    "generated_at", "software", "policy_versions", "event_schema_version", "members"]

/-- The fields of version `0.9.0` alone: the tenant. -/
def readSigned (fields : List (PyString × RawJson)) : ManifestVersion → Option PyString
  | .v08 => some []
  | .v09 => do
    let _ ← readText 1 256 (item fields "decision_id")
    let tenantId ← readText 1 128 (item fields "tenant_id")
    if isText (item fields "event_schema_version") "1.0.0" then return tenantId else none

/-- What the schemas admit, and what it says. -/
def readManifest (version : ManifestVersion) (fields : List (PyString × RawJson)) :
    Option Manifest := do
  let exportId ← readText 1 256 (item fields "export_id")
  let caseRef ← readText 1 256 (item fields "case_ref")
  let tenantId ← readSigned fields version
  let members ← readMembers (item fields "members")
  let dated := match item fields "generated_at" with
    | .str s => lib.dateTime s
    | _ => false
  if closedOver (manifestKeys version) fields && dated && softwareValid (item fields "software") &&
      policiesValid (item fields "policy_versions") then
    return ⟨exportId, caseRef, tenantId, members⟩
  else none

/-- `_validate_manifest` -/
def validateManifest (version : ManifestVersion) (fields : List (PyString × RawJson)) :
    Checks Manifest :=
  if lib.descent.checks fields then
    orRaise (.rejected "INVALID_EXPORT_MANIFEST") (readManifest lib version fields)
  else .error (.raised .recursionError)

/-- `by_path` names every member once. -/
def checkDeclared (members : List Declaration) : Checks Unit :=
  let paths := members.map Declaration.path
  rejectIf (!(sameSet paths exportMembers && decide paths.Nodup)) "EXPORT_MEMBER_SET_MISMATCH"

/-! ## Members -/

def readMember (archive : Archive) (members : List Declaration) (name : String) :
    Checks (String × RawJson) := do
  let payload ← readEntry archive name "EXPORT_MEMBER_SET_MISMATCH"
  let declared := members.any fun d =>
    d.path = name && d.bytes = payload.length && d.sha256 = lib.sha256 payload
  rejectIf (!declared) "EXPORT_CHECKSUM_MISMATCH"
  let value ← parseJson lib payload "INVALID_EXPORT_MEMBER"
  return (name, value)

/-! ## Audit chains -/

/-- A list of dictionaries. -/
def dictionaries : RawJson → Option (List (List (PyString × RawJson)))
  | .arr items => items.mapM fun value =>
    match value with
    | .obj fields => some fields
    | _ => none
  | _ => none

/-- `_prefixed_hash` -/
def prefixedHash (value : RawJson) : Checks PyString :=
  if lib.descent.dumps value then
    match value.encoded with
    | none => .error (.raised .unicodeEncodeError)
    | some j => .ok (py ("sha256:" ++ lib.sha256 (utf8 j.dumps)))
  else .error (.raised .recursionError)

/-- `_constant_equal` of two strings; `compare_digest` takes ASCII alone. -/
def constantEqual (left right : PyString) : Checks Bool :=
  if (encodeAscii left).isSome ∧ (encodeAscii right).isSome then .ok (decide (left = right))
  else .error (.raised .typeError)

/-- `value.rsplit(marker, 1)[0]` where the marker is found. -/
def beforeLast (marker : PyString) : PyString → Option PyString
  | [] => none
  | c :: cs =>
    match beforeLast marker cs with
    | some before => some (c :: before)
    | none => if marker.isPrefixOf (c :: cs) then some [] else none

def streamMarkers (name : String) : List String :=
  if name = "audit/intake-events.json" then [":intake-audit:"]
  else if name = "audit/research-events.json" then [":research-audit:", ":egress:"]
  else []

/-- `_audit_stream` -/
def auditStream (name : String) (event : List (PyString × RawJson)) : Checks PyString :=
  if name = "audit/decision-events.json" then .ok (py "decision")
  else
    match item event "event_id" with
    | .str eventId => orRaise (.rejected "INVALID_EXPORT_AUDIT_CHAIN") <|
      (streamMarkers name).findSome? fun marker =>
        (beforeLast (py marker) eventId).filter fun stream => !stream.isEmpty
    | _ => reject "INVALID_EXPORT_AUDIT_CHAIN"

/-- `previous == expected`, where there may be no expected hash. -/
def linksTo (previous : RawJson) (expected : Option PyString) : Bool :=
  match expected, previous with
  | none, .null => true
  | some hash, .str s => s = hash
  | _, _ => false

/-- The hash last stored for a stream. -/
def lastHash (streams : List (PyString × PyString)) (stream : PyString) : Option PyString :=
  (streams.find? fun s => s.1 = stream).map Prod.snd

def checkCoreChain (name : String) :
    List (List (PyString × RawJson)) → List (PyString × PyString) → Checks Unit
  | [], _ => .ok ()
  | event :: events, streams => do
    let stream ← auditStream name event
    if linksTo (item event "previous_event_hash") (lastHash streams stream) then do
      let hash ← prefixedHash lib (.obj event)
      checkCoreChain name events ((stream, hash) :: streams)
    else reject "INVALID_EXPORT_AUDIT_CHAIN"

def checkLifecycleChain :
    List (List (PyString × RawJson)) → List (PyString × PyString) → Checks Unit
  | [], _ => .ok ()
  | event :: events, streams =>
    match item event "request_id", item event "event_hash" with
    | .str requestId, .str eventHash =>
      if linksTo (item event "previous_event_hash") (lastHash streams requestId) then do
        let hash ← prefixedHash lib (.obj (event.filter fun f =>
          f.1 ≠ py "schema_version" && f.1 ≠ py "event_hash"))
        let same ← constantEqual eventHash hash
        if same then checkLifecycleChain events ((requestId, eventHash) :: streams)
        else reject "INVALID_EXPORT_AUDIT_CHAIN"
      else reject "INVALID_EXPORT_AUDIT_CHAIN"
    | _, _ => reject "INVALID_EXPORT_AUDIT_CHAIN"

/-- `members[name]` of the members parsed. -/
def parsedMember (parsed : List (String × RawJson)) (name : String) : RawJson :=
  ((parsed.find? fun p => p.1 = name).map Prod.snd).getD .null

/-- The events of a member, with the code for a member that is no list of dictionaries. -/
def eventsOf (parsed : List (String × RawJson)) (name code : String) :
    Checks (List (List (PyString × RawJson))) :=
  orRaise (.rejected code) (dictionaries (parsedMember parsed name))

def validateCoreChain (parsed : List (String × RawJson)) (name : String) : Checks Unit := do
  let events ← eventsOf parsed name "INVALID_EXPORT_AUDIT_CHAIN"
  checkCoreChain lib name events []

/-- `_validate_audit_chains` -/
def validateAuditChains (parsed : List (String × RawJson)) : Checks Unit := do
  validateCoreChain lib parsed "audit/decision-events.json"
  validateCoreChain lib parsed "audit/intake-events.json"
  validateCoreChain lib parsed "audit/research-events.json"
  let lifecycle ← eventsOf parsed "audit/lifecycle-events.json" "INVALID_EXPORT_AUDIT_CHAIN"
  checkLifecycleChain lib lifecycle []

def checkEvents (name : String) : List (List (PyString × RawJson)) → Checks Unit
  | [] => .ok ()
  | event :: events => do
    let accepted ← validateExportEvent lib.fromisoformat name event
    rejectIf (!accepted) "EXPORT_EVENT_VERSION_OR_TYPE_UNSUPPORTED"
    checkEvents name events

def validateMemberEvents (parsed : List (String × RawJson)) (name : String) : Checks Unit := do
  let events ← eventsOf parsed name "EXPORT_EVENT_VERSION_OR_TYPE_UNSUPPORTED"
  checkEvents lib name events

/-- `_validate_export_event_versions` on the members that the audit chains have been read from. -/
def validateEventVersions (parsed : List (String × RawJson)) : Checks Unit := do
  validateMemberEvents lib parsed "audit/decision-events.json"
  validateMemberEvents lib parsed "audit/intake-events.json"
  validateMemberEvents lib parsed "audit/research-events.json"
  validateMemberEvents lib parsed "audit/lifecycle-events.json"

/-! ## Signatures -/

/-- `str(value)`, except of lists and dictionaries, whose texts are no timestamps; nor are those of
NaN and the infinities, which Python writes in small letters. -/
def pyStr : RawJson → Option PyString
  | .null => some (py "None")
  | .bool true => some (py "True")
  | .bool false => some (py "False")
  | .int n => some (py (toString n))
  | .float text => some (py text)
  | .str s => some s
  | .arr _ | .obj _ => none

/-- The text of `signed_at`. -/
def signingTime (value : RawJson) : Checks PyString :=
  if unhashable value && !lib.descent.prints value then .error (.raised .recursionError)
  else orRaise (.rejected "EXPORT_SIGNATURE_INVALID") (pyStr value)

def envelopeKeys : List String :=
  ["format_version", "algorithm", "key_id", "signed_at", "signature"]

/-- `set(envelope)` and its check; the elements of a list are hashed first. -/
def readEnvelope : RawJson → Checks (List (PyString × RawJson))
  | .obj fields =>
    if hasExactly fields envelopeKeys then .ok fields else reject "EXPORT_SIGNATURE_INVALID"
  | .arr items =>
    if items.any unhashable then .error (.raised .typeError)
    else if (items.all fun v => envelopeKeys.any fun k => isText v k) &&
        envelopeKeys.all fun k => items.any fun v => isText v k then
      .error (.raised .attributeError)
    else reject "EXPORT_SIGNATURE_INVALID"
  | .str _ => reject "EXPORT_SIGNATURE_INVALID"
  | _ => .error (.raised .typeError)

/-- The key of an envelope and its time of signing, if the key may verify at the two times. -/
def usableKey (resolver : Option (PyString → Option VerificationKey)) (keyId : PyString)
    (signedAt : RawJson) (verificationTime : WallTime) :
    Checks (VerificationKey × PyString) := do
  let resolve ← orRaise (.rejected "EXPORT_SIGNING_KEY_UNKNOWN") resolver
  let key ← orRaise (.rejected "EXPORT_SIGNING_KEY_UNKNOWN") (resolve keyId)
  let signedAt ← signingTime lib signedAt
  let time ← orRaise (.rejected "EXPORT_SIGNATURE_INVALID")
    (lib.fromisoformat (replaceZulu signedAt))
  rejectIf time.offset.isNone "EXPORT_SIGNING_KEY_UNUSABLE"
  let usable ← key.usableAt time
  rejectIf (!usable) "EXPORT_SIGNING_KEY_UNUSABLE"
  let revoked ← key.revokedBy verificationTime
  rejectIf revoked "EXPORT_SIGNING_KEY_UNUSABLE"
  return (key, signedAt)

/-- `_validate_signature` -/
def validateSignature (raw manifestBytes : Bytes)
    (resolver : Option (PyString → Option VerificationKey)) (verificationTime : WallTime) :
    Checks PyString := do
  let envelope ← parseJson lib raw "EXPORT_SIGNATURE_INVALID"
  let fields ← readEnvelope envelope
  rejectIf (!isText (item fields "format_version") "1.0.0") "EXPORT_SIGNATURE_VERSION_UNSUPPORTED"
  rejectIf (!isText (item fields "algorithm") "EdDSA") "EXPORT_SIGNATURE_ALGORITHM_UNSUPPORTED"
  match item fields "key_id", item fields "signature" with
  | .str keyId, .str signature => do
    let (key, signedAt) ← usableKey lib resolver keyId (item fields "signed_at") verificationTime
    rejectIf (!verifyEd25519 lib.toSignatureLibrary key.publicKeyPem manifestBytes signature
      ⟨py "1.0.0", py "EdDSA", keyId, signedAt, signature⟩) "EXPORT_SIGNATURE_INVALID"
    return keyId
  | _, _ => reject "EXPORT_SIGNING_KEY_UNKNOWN"

/-! ## `validate_export` -/

def checkTenant (tenantId : PyString) : Option PyString → Checks Unit
  | none => .ok ()
  | some expectedTenant => do
    let same ← constantEqual tenantId expectedTenant
    rejectIf (!same) "EXPORT_TENANT_MISMATCH"

/-- The branch of version `0.9.0`: the tenant and the key. -/
def validateSigned (archive : Archive) (manifestBytes : Bytes) (manifest : Manifest)
    (resolver : Option (PyString → Option VerificationKey)) (expectedTenant : Option PyString)
    (verificationTime : WallTime) : Checks PyString := do
  checkTenant manifest.tenantId expectedTenant
  let raw ← readEntry archive "signature.json" "EXPORT_SIGNATURE_MISSING"
  validateSignature lib raw manifestBytes resolver verificationTime

def validateExport (content : Bytes) (resolver : Option (PyString → Option VerificationKey))
    (expectedTenant : Option PyString) (verificationTime : WallTime) :
    Checks ValidationReport := do
  let archive ← openExport lib content
  checkNames archive
  let manifestBytes ← readEntry archive "manifest.json" "INVALID_EXPORT_MANIFEST"
  let value ← parseJson lib manifestBytes "INVALID_EXPORT_MANIFEST"
  let (fields, version) ← readVersion value
  checkMemberSet version archive
  checkSizes archive
  let manifest ← validateManifest lib version fields
  checkDeclared manifest.members
  let parsed ← exportMembers.mapM (readMember lib archive manifest.members)
  validateAuditChains lib parsed
  match version with
  | .v08 =>
    return { valid := true
             caseRef := manifest.caseRef
             memberCount := manifest.members.length
             exportId := manifest.exportId
             provenanceStatus := .legacyUnsigned
             tenantId := none
             keyId := none }
  | .v09 => do
    validateEventVersions lib parsed
    let keyId ← validateSigned lib archive manifestBytes manifest resolver expectedTenant
      verificationTime
    return { valid := true
             caseRef := manifest.caseRef
             memberCount := manifest.members.length
             exportId := manifest.exportId
             provenanceStatus := .signedValid
             tenantId := some manifest.tenantId
             keyId := some keyId }

end Validator

end DecisionAssurance.Export
