import DecisionAssurance.EventEnvelopes
import DecisionAssurance.ExportValidator

/-!
# The evidence of a deployment

Items of evidence, the bundle of a controlled pilot, and the gate that assesses it: each item is
resolved to its artifact by digest, and the artifact must say what the item says and hold a payload
of its kind. Strings are Python strings, which may hold surrogates that stand alone.
-/

namespace DecisionAssurance.Deployment

open Export (Bytes PyString py item hasExactly unhashable replaceZulu LoadsFailure PythonError)
open IsoTimes (replace)
open Research (WallTime minTime maxTime)
open Jobs (Instant)

/-- A `ValueError` with its code, or another exception. -/
inductive DeploymentError
  | valueError (code : String)
  | raised (e : PythonError)
  deriving DecidableEq

abbrev Raises := Except DeploymentError

abbrev Dictionary := List (PyString × RawJson)

/-- What the gate takes from the standard library. -/
structure Library where
  /-- The hex digits of a digest. -/
  sha256 : Bytes → String
  loads : Bytes → Except LoadsFailure RawJson
  isoformat : WallTime → PyString
  fromisoformat : PyString → Option WallTime
  /-- `str(value)` -/
  str : RawJson → PyString
  /-- A wall clock of the local zone in UTC. -/
  localTime : ℤ → Raises Instant
  /-- `ipaddress.ip_address(value).is_global`; without a value, a `ValueError`. -/
  isGlobal : PyString → Option Bool

/-! ## Texts -/

def isHexPoint : CodePoint → Bool
  | .char c => isLowerHex c
  | .surrogate _ => false

/-- `_DIGEST.fullmatch(value)` -/
def isDigest (value : PyString) : Bool :=
  value.take 7 = py "sha256:" && (value.drop 7).length = 64 && (value.drop 7).all isHexPoint

/-- `_COMMIT.fullmatch(value)` -/
def isCommit (value : PyString) : Bool :=
  40 ≤ value.length && value.length ≤ 64 && value.all isHexPoint

/-- `not value.strip()` -/
def isBlankText (value : PyString) : Bool :=
  value.all fun
    | .char c => isSpace c
    | .surrogate _ => false

/-! ## Items -/

inductive EvidenceKind
  | tlsCertificate | publicHost | edgeConfiguration | oidcRedirect | mfaPolicy
  | databaseMigration | recovery | monitoring | alertTest | multiInstance | signedExport
  | retentionLegalHold | independentReview
  deriving DecidableEq

def EvidenceKind.value : EvidenceKind → String
  | .tlsCertificate => "TLS_CERTIFICATE_EVIDENCE"
  | .publicHost => "PUBLIC_HOST_EVIDENCE"
  | .edgeConfiguration => "EDGE_CONFIGURATION_EVIDENCE"
  | .oidcRedirect => "OIDC_REDIRECT_EVIDENCE"
  | .mfaPolicy => "MFA_POLICY_EVIDENCE"
  | .databaseMigration => "DATABASE_MIGRATION_EVIDENCE"
  | .recovery => "RECOVERY_EVIDENCE"
  | .monitoring => "MONITORING_EVIDENCE"
  | .alertTest => "ALERT_TEST_EVIDENCE"
  | .multiInstance => "MULTI_INSTANCE_EVIDENCE"
  | .signedExport => "SIGNED_EXPORT_EVIDENCE"
  | .retentionLegalHold => "RETENTION_LEGAL_HOLD_EVIDENCE"
  | .independentReview => "INDEPENDENT_REVIEW_EVIDENCE"

/-- `REQUIRED_EVIDENCE` -/
def requiredEvidence : List EvidenceKind :=
  [.tlsCertificate, .publicHost, .edgeConfiguration, .oidcRedirect, .mfaPolicy,
    .databaseMigration, .recovery, .monitoring, .alertTest, .multiInstance, .signedExport,
    .retentionLegalHold, .independentReview]

theorem mem_requiredEvidence (kind : EvidenceKind) : kind ∈ requiredEvidence := by
  cases kind <;> decide

inductive EvidenceSource
  | measured | repository | selfDeclared
  deriving DecidableEq

def EvidenceSource.value : EvidenceSource → String
  | .measured => "MEASURED"
  | .repository => "REPOSITORY"
  | .selfDeclared => "SELF_DECLARED"

inductive EvidenceStatus
  | incomplete | technicallyVerified | pilotReviewRequired | pilotAccepted | blocked
  deriving DecidableEq

structure EvidenceItem where
  kind : EvidenceKind
  verified : Bool
  observedAt : WallTime
  digest : PyString
  source : EvidenceSource
  deploymentId : PyString
  tenantId : PyString
  commitSha : PyString
  digestValid : isDigest digest = true
  timeValid : observedAt.offset.isSome = true
  bindingValid : deploymentId ≠ [] ∧ tenantId ≠ [] ∧ isCommit commitSha = true

structure DeploymentBundle where
  schemaVersion : PyString
  deploymentId : PyString
  tenantId : PyString
  profile : PyString
  commitSha : PyString
  imageDigests : List (PyString × PyString)
  sbomChecksums : List (PyString × PyString)
  configChecksums : List (PyString × PyString)
  evidence : List EvidenceItem
  providerResidencyStatus : PyString
  openRisks : List PyString
  creator : PyString
  createdAt : WallTime
  headValid : schemaVersion = py "1.0.0" ∧ deploymentId ≠ [] ∧ tenantId ≠ [] ∧
    profile = py "controlled-pilot" ∧ isCommit commitSha = true ∧ creator ≠ [] ∧
    createdAt.offset.isSome = true
  digestsValid : ∀ values ∈ [imageDigests, sbomChecksums, configChecksums],
    values ≠ [] ∧ values.all (fun v => isDigest v.2) = true
  distinctKinds : (evidence.map EvidenceItem.kind).Nodup
  residencyValid : providerResidencyStatus = py "VERIFIED" ∨
    providerResidencyStatus = py "ACCESS_BLOCKED"
  risksValid : openRisks ≠ [] ∧ openRisks.all (fun risk => !isBlankText risk) = true

/-! ## Payloads -/

/-- The keys of a payload, which each kind has its own of. -/
def payloadKeys : EvidenceKind → List String
  | .tlsCertificate => ["schema_version", "host", "certificate_sha256", "not_before", "not_after",
      "chain_verified", "minimum_tls"]
  | .publicHost => ["schema_version", "hostname", "resolved_addresses", "public_only"]
  | .edgeConfiguration => ["schema_version", "config_sha256", "host_allowlist_valid",
      "tls_redirect_valid", "validation_tool"]
  | .oidcRedirect => ["schema_version", "issuer", "redirect_uri", "exact_match", "pkce_required"]
  | .mfaPolicy => ["schema_version", "policy_version", "methods", "flow_tested"]
  | .databaseMigration => ["schema_version", "database_schema_version", "forced_rls_tables",
      "application_role_tested", "migration_role_tested"]
  | .recovery => ["schema_version", "status", "commit_sha", "report_sha256", "source_database",
      "restore_database", "observed_rpo_seconds", "observed_rto_seconds", "integrity_verified"]
  | .monitoring => ["schema_version", "scrape_endpoint", "metric_names", "scrape_success"]
  | .alertTest => ["schema_version", "alert_name", "receiver", "triggered",
      "notification_received"]
  | .multiInstance => ["schema_version", "instance_count", "shared_session_verified",
      "cross_instance_revoke_verified", "tenant_isolation_verified"]
  | .signedExport => ["schema_version", "export_sha256", "algorithm", "key_id",
      "offline_verified"]
  | .retentionLegalHold => ["schema_version", "retention_policy_version", "deletion_verified",
      "legal_hold_block_verified", "restore_resurrection_blocked"]
  | .independentReview => ["schema_version", "reviewer_id", "reviewed_commit_sha", "result",
      "actor_independent"]

section Fields

variable (value : Dictionary)

/-- `value.get(name) == text` -/
def equals (name : String) (text : PyString) : Bool :=
  match item value name with
  | .str s => s = text
  | _ => false

def text (name : String) : Bool :=
  match item value name with
  | .str s => s ≠ []
  | _ => false

def truth (name : String) : Bool :=
  match item value name with
  | .bool b => b
  | _ => false

def digest (name : String) : Bool :=
  match item value name with
  | .str s => isDigest s
  | _ => false

/-- Two fields are not one text. -/
def distinct (name name' : String) : Bool :=
  match item value name, item value name' with
  | .str s, .str s' => s ≠ s'
  | _, _ => true

/-- `_nonempty_text_list` -/
def nonemptyTextList (name : String) : Bool :=
  match item value name with
  | .arr items => !items.isEmpty && items.length ≤ 128 && items.all fun
      | .str s => s ≠ [] && s.length ≤ 256
      | _ => false
  | _ => false

/-- `_integer_at_least` -/
def integerAtLeast (name : String) (minimum : ℤ) : Bool :=
  match item value name with
  | .int n => minimum ≤ n
  | _ => false

end Fields

section Matching

variable (lib : Library)

/-- `_public_addresses` -/
def publicAddresses (value : Dictionary) (name : String) : Bool :=
  nonemptyTextList value name && match item value name with
    | .arr items => items.all fun
        | .str s => lib.isGlobal s = some true
        | _ => false
    | _ => false

/-- `_parse_time`; without a value, a `ValueError`. -/
def parseTime (value : RawJson) : Option WallTime :=
  (lib.fromisoformat (replaceZulu (lib.str value))).filter fun t => t.offset.isSome

/-- The instant of a time that has an offset. -/
def instantOf (t : WallTime) : Instant := t.wall - t.offset.getD 0

/-- The check of a certificate; a `minimum_tls` that no set can hold is a `TypeError`. -/
def certificateMatches (e : EvidenceItem) (value : Dictionary) : Raises Bool :=
  if hasExactly value (payloadKeys .tlsCertificate) && (text value "host" &&
      digest value "certificate_sha256" && truth value "chain_verified") then
    match parseTime lib (item value "not_before"), parseTime lib (item value "not_after") with
    | some notBefore, some notAfter =>
      if instantOf notBefore ≤ instantOf e.observedAt ∧
          instantOf e.observedAt ≤ instantOf notAfter then
        if unhashable (item value "minimum_tls") then .error (.raised .typeError)
        else .ok (equals value "minimum_tls" (py "1.2") || equals value "minimum_tls" (py "1.3"))
      else .ok false
    | _, _ => .ok false
  else .ok false

/-- What a payload of each other kind must say. -/
def payloadHolds (e : EvidenceItem) (value : Dictionary) : Bool :=
  match e.kind with
  | .tlsCertificate => false
  | .publicHost => text value "hostname" && truth value "public_only" &&
      publicAddresses lib value "resolved_addresses"
  | .edgeConfiguration => digest value "config_sha256" && truth value "host_allowlist_valid" &&
      truth value "tls_redirect_valid" && text value "validation_tool"
  | .oidcRedirect => text value "issuer" && text value "redirect_uri" &&
      truth value "exact_match" && truth value "pkce_required"
  | .mfaPolicy => text value "policy_version" && nonemptyTextList value "methods" &&
      truth value "flow_tested"
  | .databaseMigration => equals value "database_schema_version" (py "004") &&
      integerAtLeast value "forced_rls_tables" 28 && truth value "application_role_tested" &&
      truth value "migration_role_tested"
  | .recovery => equals value "status" (py "PASS") && equals value "commit_sha" e.commitSha &&
      digest value "report_sha256" && text value "source_database" &&
      text value "restore_database" && distinct value "source_database" "restore_database" &&
      integerAtLeast value "observed_rpo_seconds" 0 &&
      integerAtLeast value "observed_rto_seconds" 0 && truth value "integrity_verified"
  | .monitoring => text value "scrape_endpoint" && nonemptyTextList value "metric_names" &&
      truth value "scrape_success"
  | .alertTest => text value "alert_name" && text value "receiver" && truth value "triggered" &&
      truth value "notification_received"
  | .multiInstance => integerAtLeast value "instance_count" 2 &&
      truth value "shared_session_verified" && truth value "cross_instance_revoke_verified" &&
      truth value "tenant_isolation_verified"
  | .signedExport => digest value "export_sha256" && equals value "algorithm" (py "EdDSA") &&
      text value "key_id" && truth value "offline_verified"
  | .retentionLegalHold => text value "retention_policy_version" &&
      truth value "deletion_verified" && truth value "legal_hold_block_verified" &&
      truth value "restore_resurrection_blocked"
  | .independentReview => text value "reviewer_id" &&
      equals value "reviewed_commit_sha" e.commitSha && equals value "result" (py "PASS") &&
      truth value "actor_independent"

/-- `_payload_matches` -/
def payloadMatches (e : EvidenceItem) : RawJson → Raises Bool
  | .obj value =>
    if equals value "schema_version" (py "1.0.0") then
      match e.kind with
      | .tlsCertificate => certificateMatches lib e value
      | kind => .ok (hasExactly value (payloadKeys kind) && payloadHolds lib e value)
    else .ok false
  | _ => .ok false

/-- `t.isoformat().replace("+00:00", "Z")` -/
def zuluTime (t : WallTime) : PyString := replace (py "+00:00") (py "Z") (lib.isoformat t)

def artifactKeys : List String :=
  ["kind", "deployment_id", "tenant_id", "commit_sha", "verified", "observed_at", "source",
    "payload"]

def bindingMatches (e : EvidenceItem) (raw : Dictionary) : Bool :=
  equals raw "kind" (py e.kind.value) && equals raw "deployment_id" e.deploymentId &&
    equals raw "tenant_id" e.tenantId && equals raw "commit_sha" e.commitSha &&
    (match item raw "verified" with
      | .bool b => b = e.verified
      | _ => false) &&
    equals raw "observed_at" (zuluTime lib e.observedAt) &&
    equals raw "source" (py e.source.value)

/-- `_artifact_matches` -/
def artifactMatches (e : EvidenceItem) (artifact : Bytes) : Raises Bool :=
  if artifact.length ≤ 2000000 ∧ py ("sha256:" ++ lib.sha256 artifact) = e.digest then
    match lib.loads artifact with
    | .error .decodeError => .ok false
    | .error .other => .error (.raised .valueError)
    | .ok (.obj raw) =>
      if hasExactly raw artifactKeys && bindingMatches lib e raw then
        payloadMatches lib e (item raw "payload")
      else .ok false
    | .ok _ => .ok false
  else .ok false

end Matching

/-! ## `PilotAcceptanceGate` -/

structure GateResult where
  status : EvidenceStatus
  reasons : List String
  deriving DecidableEq

/-- A gate with the resolver of its artifacts, as it answers during one evaluation. -/
structure PilotAcceptanceGate where
  maxAge : ℤ
  resolve : PyString → Raises (Option Bytes)

def reasonIf (found : Bool) (code : String) : List String := if found then [code] else []

/-- The kinds that a bundle lacks, sorted by name. -/
def missingKinds (bundle : DeploymentBundle) : List EvidenceKind :=
  (requiredEvidence.filter fun kind => kind ∉ bundle.evidence.map EvidenceItem.kind).insertionSort
    fun kind kind' => kind.value ≤ kind'.value

/-- An item is bound to another deployment, tenant or commit than its bundle. -/
def bindingDiffers (bundle : DeploymentBundle) (e : EvidenceItem) : Bool :=
  e.deploymentId ≠ bundle.deploymentId || e.tenantId ≠ bundle.tenantId ||
    e.commitSha ≠ bundle.commitSha

section Gate

variable (lib : Library) (gate : PilotAcceptanceGate)

/-- `t.astimezone(timezone.utc)` -/
def astimezone (t : WallTime) : Raises Instant :=
  match t.offset with
  | none => lib.localTime t.wall
  | some offset =>
    if minTime ≤ t.wall - offset ∧ t.wall - offset ≤ maxTime then .ok (t.wall - offset)
    else .error (.raised .overflowError)

/-- An item without an artifact that matches it. -/
def unresolved (e : EvidenceItem) : Raises Bool := do
  match ← gate.resolve e.digest with
  | none => return true
  | some artifact => return !(← artifactMatches lib e artifact)

/-- A time before an instant by more than the greatest age. -/
def isStale (instant : Instant) (t : WallTime) : Raises Bool := do
  return decide (gate.maxAge < instant - (← astimezone lib t))

def isFuture (instant : Instant) (t : WallTime) : Raises Bool := do
  return decide (instant < (← astimezone lib t))

/-- The reasons of `evaluate`, in its order. The kinds of a bundle's items are distinct, so that
its dictionary by kind holds them all. -/
def PilotAcceptanceGate.reasons (bundle : DeploymentBundle) (now : WallTime) :
    Raises (List String) := do
  let missing := (missingKinds bundle).map EvidenceKind.value
  let items := bundle.evidence
  let noArtifact ← items.anyM (unresolved lib gate)
  let instant ← astimezone lib now
  let staleItem ← items.anyM fun e => isStale lib gate instant e.observedAt
  let futureItem ← items.anyM fun e => isFuture lib instant e.observedAt
  let staleBundle ← isStale lib gate instant bundle.createdAt
  let futureBundle ← isFuture lib instant bundle.createdAt
  return reasonIf (!missing.isEmpty) ("MISSING_EVIDENCE:" ++ ",".intercalate missing) ++
    reasonIf (items.any fun e => !e.verified) "UNVERIFIED_EVIDENCE" ++
    reasonIf (items.any fun e => e.source = .selfDeclared) "SELF_DECLARED_EVIDENCE" ++
    reasonIf (items.any (bindingDiffers bundle)) "EVIDENCE_BINDING_MISMATCH" ++
    reasonIf noArtifact "EVIDENCE_ARTIFACT_UNRESOLVED" ++
    reasonIf staleItem "STALE_REQUIRED_EVIDENCE" ++
    reasonIf futureItem "FUTURE_REQUIRED_EVIDENCE" ++
    reasonIf staleBundle "STALE_DEPLOYMENT_EVIDENCE" ++
    reasonIf futureBundle "FUTURE_DEPLOYMENT_EVIDENCE"

def PilotAcceptanceGate.evaluate (bundle : DeploymentBundle) (now : WallTime) :
    Raises GateResult := do
  let reasons ← gate.reasons lib bundle now
  return ⟨if reasons = [] then .pilotReviewRequired else .blocked, reasons⟩

/-! ## What the gate assesses -/

/-- A time is neither in the future of an instant nor older than a gate allows. -/
def Timely (instant : Instant) (t : WallTime) : Prop :=
  ∃ utc, astimezone lib t = .ok utc ∧ utc ≤ instant ∧ instant - utc ≤ gate.maxAge

/-- The evidence of a bundle is complete, verified, bound to its deployment, tenant and commit,
resolved to artifacts that match it, and timely. -/
structure Supported (bundle : DeploymentBundle) (now : WallTime) : Prop where
  complete : ∀ kind, ∃ e ∈ bundle.evidence, e.kind = kind
  verified : ∀ e ∈ bundle.evidence, e.verified = true ∧ e.source ≠ .selfDeclared
  bound : ∀ e ∈ bundle.evidence, e.deploymentId = bundle.deploymentId ∧
    e.tenantId = bundle.tenantId ∧ e.commitSha = bundle.commitSha
  resolved : ∀ e ∈ bundle.evidence, ∃ artifact, gate.resolve e.digest = .ok (some artifact) ∧
    artifactMatches lib e artifact = .ok true
  timely : ∃ instant, astimezone lib now = .ok instant ∧
    (∀ e ∈ bundle.evidence, Timely lib gate instant e.observedAt) ∧
    Timely lib gate instant bundle.createdAt

end Gate

theorem reasonIf_eq_nil {found : Bool} {code : String} :
    reasonIf found code = [] ↔ found = false := by
  cases found <;> simp [reasonIf]

theorem anyM_eq_false {α ε : Type} {f : α → Except ε Bool} {xs : List α} :
    xs.anyM f = .ok false ↔ ∀ x ∈ xs, f x = .ok false := by
  induction xs with
  | nil => simp [List.anyM, pure, Except.pure]
  | cons x xs ih =>
    rw [List.anyM, List.forall_mem_cons, ← ih]
    cases hx : f x with
    | error e => simp
    | ok b => cases b <;> simp [pure, Except.pure]

section Gate

variable {lib : Library} {gate : PilotAcceptanceGate} {bundle : DeploymentBundle} {now : WallTime}
  {instant : Instant}

theorem timely_iff {t : WallTime} : Timely lib gate instant t ↔
    isStale lib gate instant t = .ok false ∧ isFuture lib instant t = .ok false := by
  unfold Timely isStale isFuture
  cases astimezone lib t with
  | error e => simp
  | ok utc => simp [pure, Except.pure, and_comm]

theorem unresolved_eq_false {e : EvidenceItem} : unresolved lib gate e = .ok false ↔
    ∃ artifact, gate.resolve e.digest = .ok (some artifact) ∧
      artifactMatches lib e artifact = .ok true := by
  unfold unresolved
  cases hresolve : gate.resolve e.digest with
  | error error => simp
  | ok found =>
    cases found with
    | none => simp [pure, Except.pure]
    | some artifact =>
      cases hmatch : artifactMatches lib e artifact <;> simp [pure, Except.pure, hmatch]

theorem missingKinds_eq_nil :
    missingKinds bundle = [] ↔ ∀ kind, ∃ e ∈ bundle.evidence, e.kind = kind := by
  unfold missingKinds
  rw [← List.length_eq_zero_iff, List.length_insertionSort, List.length_eq_zero_iff,
    List.filter_eq_nil_iff]
  constructor
  · intro h kind
    have hkind := h kind (mem_requiredEvidence kind)
    simpa using hkind
  · intro h kind _
    simpa using h kind

theorem bindingDiffers_eq_false {e : EvidenceItem} : bindingDiffers bundle e = false ↔
    e.deploymentId = bundle.deploymentId ∧ e.tenantId = bundle.tenantId ∧
      e.commitSha = bundle.commitSha := by
  simp [bindingDiffers, and_assoc]

/-- The gate finds no reason against a bundle exactly when its evidence supports it. -/
theorem reasons_eq_nil : gate.reasons lib bundle now = .ok [] ↔ Supported lib gate bundle now := by
  constructor
  · intro h
    obtain ⟨noArtifact, hartifacts, h⟩ := bind_ok_cases h
    obtain ⟨instant, hinstant, h⟩ := bind_ok_cases h
    obtain ⟨staleItem, hstale, h⟩ := bind_ok_cases h
    obtain ⟨futureItem, hfuture, h⟩ := bind_ok_cases h
    obtain ⟨staleBundle, hstale', h⟩ := bind_ok_cases h
    obtain ⟨futureBundle, hfuture', h⟩ := bind_ok_cases h
    have hempty := Except.ok.inj h
    simp only [List.append_eq_nil_iff, reasonIf_eq_nil] at hempty
    obtain ⟨⟨⟨⟨⟨hfacts, rfl⟩, rfl⟩, rfl⟩, rfl⟩, rfl⟩ := hempty
    obtain ⟨⟨⟨hmissing, hverified⟩, hdeclared⟩, hbinding⟩ := hfacts
    refine ⟨?_, ?_, ?_, ?_, instant, hinstant, ?_, timely_iff.mpr ⟨hstale', hfuture'⟩⟩
    · apply missingKinds_eq_nil.mp
      simpa using hmissing
    · intro e he
      have hv := List.any_eq_false.mp hverified e he
      have hd := List.any_eq_false.mp hdeclared e he
      exact ⟨by simpa using hv, by simpa using hd⟩
    · intro e he
      apply bindingDiffers_eq_false.mp
      simpa using List.any_eq_false.mp hbinding e he
    · intro e he
      exact unresolved_eq_false.mp (anyM_eq_false.mp hartifacts e he)
    · intro e he
      exact timely_iff.mpr ⟨anyM_eq_false.mp hstale e he, anyM_eq_false.mp hfuture e he⟩
  · intro h
    obtain ⟨instant, hinstant, hitems, hbundle⟩ := h.timely
    have hartifacts := anyM_eq_false.mpr fun e he => unresolved_eq_false.mpr (h.resolved e he)
    have hstale := anyM_eq_false.mpr fun e he => (timely_iff.mp (hitems e he)).1
    have hfuture := anyM_eq_false.mpr fun e he => (timely_iff.mp (hitems e he)).2
    have hmissing := missingKinds_eq_nil.mpr h.complete
    have hverified : (bundle.evidence.any fun e => !e.verified) = false := by
      apply List.any_eq_false.mpr
      intro e he
      simpa using (h.verified e he).1
    have hdeclared : (bundle.evidence.any fun e => e.source = .selfDeclared) = false := by
      apply List.any_eq_false.mpr
      intro e he
      simpa using (h.verified e he).2
    have hbinding : bundle.evidence.any (bindingDiffers bundle) = false := by
      apply List.any_eq_false.mpr
      intro e he
      simpa using bindingDiffers_eq_false.mpr (h.bound e he)
    unfold PilotAcceptanceGate.reasons
    simp only [hartifacts, hinstant, hstale, hfuture, (timely_iff.mp hbundle).1,
      (timely_iff.mp hbundle).2, hmissing, hverified, hdeclared, hbinding, ok_bind]
    rfl

/-- A bundle is assessed for review exactly when its evidence supports it. -/
theorem evaluate_review {result : GateResult} (h : gate.evaluate lib bundle now = .ok result) :
    result.status = .pilotReviewRequired ↔ Supported lib gate bundle now := by
  obtain ⟨reasons, hreasons, h⟩ := bind_ok_cases h
  cases h
  by_cases hempty : reasons = []
  · rw [hempty] at hreasons
    simp only [hempty, if_true, true_iff]
    exact reasons_eq_nil.mp hreasons
  · simp only [hempty, if_false, reduceCtorEq, false_iff]
    intro hsupported
    rw [reasons_eq_nil.mpr hsupported] at hreasons
    exact hempty (Except.ok.inj hreasons).symm

theorem evaluate_of_supported (h : Supported lib gate bundle now) :
    gate.evaluate lib bundle now = .ok ⟨.pilotReviewRequired, []⟩ := by
  rw [PilotAcceptanceGate.evaluate, reasons_eq_nil.mpr h]
  rfl

end Gate

end DecisionAssurance.Deployment
