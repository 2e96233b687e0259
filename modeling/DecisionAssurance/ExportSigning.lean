import DecisionAssurance.EvidencePolicies
import DecisionAssurance.ParsedJson

/-!
# Signatures of exports

The envelope of a signature, the keys that verify one, and the text that is signed: the protected
fields of the envelope as canonical JSON, a point, and the manifest.
-/

namespace DecisionAssurance.Export

open Research (WallTime minTime maxTime)
open Jobs (Instant)

abbrev Bytes := List UInt8

/-- A Python string. -/
abbrev PyString := List CodePoint

instance : LawfulBEq PyString := inferInstance

def py (s : String) : PyString := s.toList.map CodePoint.char

theorem py_inj {s t : String} : py s = py t ↔ s = t := by
  constructor
  · intro h
    have hsame := congrArg encodeText h
    rw [py, py, encodeText_chars, encodeText_chars] at hsame
    exact Option.some.inj hsame
  · rintro rfl
    rfl

/-- `text.encode("utf-8")` of characters. -/
def utf8 (cs : List Char) : Bytes := cs.flatMap String.utf8EncodeChar

inductive PythonError
  | attributeError | typeError | valueError | overflowError | unicodeEncodeError | jsonError
  | recursionError | openError | archiveError
  deriving DecidableEq

/-- An `ExportValidationError` with its code, or another exception. -/
inductive ExportError
  | rejected (code : String)
  | raised (e : PythonError)
  deriving DecidableEq

abbrev Checks := Except ExportError

/-! ## Keys -/

structure VerificationKey where
  keyId : PyString
  publicKeyPem : Bytes
  notBefore : WallTime
  notAfter : WallTime
  revokedAt : Option WallTime
  deriving DecidableEq

/-- `_utc` -/
def utcOf (t : WallTime) : Checks Instant :=
  match t.offset with
  | none => .error (.raised .valueError)
  | some offset =>
    if minTime ≤ t.wall - offset ∧ t.wall - offset ≤ maxTime then .ok (t.wall - offset)
    else .error (.raised .overflowError)

def VerificationKey.usableAt (key : VerificationKey) (value : WallTime) : Checks Bool := do
  let instant ← utcOf value
  let first ← utcOf key.notBefore
  if instant < first then return false
  let last ← utcOf key.notAfter
  if last < instant then return false
  match key.revokedAt with
  | none => return true
  | some revoked =>
    let revocation ← utcOf revoked
    return decide (instant < revocation)

/-- `left <= right` of two times, which compare if both or none of them has an offset. -/
def atOrBefore (left right : WallTime) : Checks Bool :=
  match left.offset, right.offset with
  | some o, some o' => .ok (decide (left.wall - o ≤ right.wall - o'))
  | none, none => .ok (decide (left.wall ≤ right.wall))
  | _, _ => .error (.raised .typeError)

/-- `self.revoked_at is not None and self.revoked_at <= verification_time` -/
def VerificationKey.revokedBy (key : VerificationKey) (verificationTime : WallTime) :
    Checks Bool :=
  match key.revokedAt with
  | none => .ok false
  | some revoked => atOrBefore revoked verificationTime

/-! ## Envelopes -/

structure SignatureEnvelope where
  formatVersion : PyString
  algorithm : PyString
  keyId : PyString
  signedAt : PyString
  signature : PyString
  deriving DecidableEq

/-- What the verification of a signature takes from its libraries: Base64 with the URL alphabet,
and an Ed25519 key read from PEM with the signature it checks over a message. -/
structure SignatureLibrary where
  urlsafeB64decode : List Char → Option Bytes
  verify : Bytes → Bytes → Bytes → Bool

def protectedFields (algorithm formatVersion keyId signedAt : String) : Json :=
  .obj [("algorithm", .str algorithm), ("format_version", .str formatVersion),
    ("key_id", .str keyId), ("signed_at", .str signedAt)]

/-- `_signing_input`; a string that cannot be encoded raises. -/
def signingInput (envelope : SignatureEnvelope) (payload : Bytes) : Option Bytes := do
  let algorithm ← encodeText envelope.algorithm
  let formatVersion ← encodeText envelope.formatVersion
  let keyId ← encodeText envelope.keyId
  let signedAt ← encodeText envelope.signedAt
  return utf8 (protectedFields algorithm formatVersion keyId signedAt).dumps ++
    utf8 ['.'] ++ payload

/-- `padded.encode("ascii")` -/
def encodeAscii (text : PyString) : Option (List Char) :=
  (encodeText text).bind fun s =>
    if s.toList.all fun c => c.toNat < 128 then some s.toList else none

/-- `signature + "=" * (-len(signature) % 4)` -/
def padded (signature : PyString) : PyString :=
  signature ++ py (String.ofList (List.replicate ((4 - signature.length % 4) % 4) '='))

/-- `verify_ed25519` -/
def verifyEd25519 (lib : SignatureLibrary) (publicKeyPem payload : Bytes) (signature : PyString)
    (envelope : SignatureEnvelope) : Bool :=
  ((encodeAscii (padded signature)).bind lib.urlsafeB64decode).any fun decoded =>
    (signingInput envelope payload).any fun message => lib.verify publicKeyPem decoded message

end DecisionAssurance.Export
