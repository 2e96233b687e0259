import DecisionAssurance.ExportSigning

/-!
# The registry of exported events

`EventRegistry.validate_export_event`: an event is a current envelope or of a type that is known
for its member.
-/

namespace DecisionAssurance.Export

open Research (WallTime)

/-! ## Values -/

/-- `value.get(key)` of a dictionary, where a missing key is `None`. -/
def item (fields : List (PyString × RawJson)) (key : String) : RawJson :=
  ((fields.find? fun f => f.1 = py key).map Prod.snd).getD .null

@[simp] theorem item_cons_self (key : String) (x : RawJson) (fields : List (PyString × RawJson)) :
    item ((py key, x) :: fields) key = x := by
  simp [item]

theorem item_cons_ne {key key' : String} (h : key' ≠ key) (x : RawJson)
    (fields : List (PyString × RawJson)) :
    item ((py key', x) :: fields) key = item fields key := by
  simp [item, py_inj, h]

/-- `set(value) == keys` of a dictionary. -/
def hasExactly (fields : List (PyString × RawJson)) (keys : List String) : Bool :=
  (fields.all fun f => f.1 ∈ keys.map py) && keys.all fun key => py key ∈ fields.map Prod.fst

/-- A dictionary or a list, which no set can hold. -/
def unhashable : RawJson → Bool
  | .arr _ | .obj _ => true
  | _ => false

def isText (value : RawJson) (text : String) : Bool :=
  match value with
  | .str s => s = py text
  | _ => false

/-- `value.replace("Z", "+00:00")` -/
def replaceZulu (value : PyString) : PyString :=
  value.flatMap fun c => if c = .char 'Z' then py "+00:00" else [c]

/-! ## `EventRegistry` -/

def supportedTypes : List String :=
  ["deployment.evidence-created", "deployment.pilot-accepted", "export.signed",
    "export.verification-failed", "recovery.test-completed", "session.revoked"]

def legacyExportTypes (member : String) : List String :=
  if member = "audit/decision-events.json" then
    ["decision.received", "decision.created", "decision.evaluated", "evidence.validated",
      "finding.created", "governance.decided", "review.requested", "status.transitioned"]
  else if member = "audit/intake-events.json" then
    ["intake.extracted", "intake.readiness-determined", "intake.fact-confirmed",
      "intake.fact-corrected", "intake.compiled", "intake.ready"]
  else if member = "audit/research-events.json" then
    ["research.status-transitioned", "research.egress-decision", "research.evidence-attached"]
  else if member = "audit/lifecycle-events.json" then
    ["data.deletion-blocked", "data.deletion-completed", "data.deletion-executing",
      "data.deletion-requested", "data.legal-hold-placed", "data.legal-hold-released"]
  else []

def legacyExportVersions : List String :=
  ["0.3.0", "0.8.0", "research-audit-v1", "research-egress-decision-v1"]

/-- `_text`, where the exceptions are one to the validator. -/
def eventText : RawJson → Option PyString
  | .str s => if s ≠ [] ∧ s.length ≤ 256 then some s else none
  | _ => none

/-- `EventRegistry.parse`, whether it returns. -/
def parses (fromisoformat : PyString → Option WallTime) (fields : List (PyString × RawJson)) :
    Bool :=
  hasExactly fields ["event_type", "schema_version", "event_id", "timestamp", "tenant_id",
    "actor_id", "correlation_id", "source_component", "payload"] &&
  (match item fields "payload" with
    | .obj _ => true
    | _ => false) &&
  ((eventText (item fields "timestamp")).bind fun t => fromisoformat (replaceZulu t)).any
    (fun t => t.offset.isSome) &&
  (eventText (item fields "event_type")).any (fun t => t ∈ supportedTypes.map py) &&
  ["event_id", "tenant_id", "actor_id", "correlation_id", "source_component"].all fun key =>
    (eventText (item fields key)).isSome

/-- `EventRegistry.validate_export_event`, whether it returns; a version that no set can hold is
a `TypeError`. -/
def validateExportEvent (fromisoformat : PyString → Option WallTime) (member : String)
    (fields : List (PyString × RawJson)) : Checks Bool :=
  let version := item fields "schema_version"
  if isText version "1.0.0" then .ok (parses fromisoformat fields)
  else if unhashable version then .error (.raised .typeError)
  else
    let known := match version with
      | .null => true
      | .str s => decide (s ∈ legacyExportVersions.map py)
      | _ => false
    let named := match item fields "event_type" with
      | .str s => decide (s ∈ (legacyExportTypes member).map py)
      | _ => false
    .ok (known && named)

end DecisionAssurance.Export
