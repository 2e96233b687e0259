import DecisionAssurance.DeploymentEvidence
import DecisionAssurance.Identity
import DecisionAssurance.JsonLengths

/-!
# The acceptance of pilots

`PilotAcceptanceTransition.accept` takes a bundle and a result of the gate from its caller. A result
names no bundle, so that what an acceptance rests on is a matter of how callers pair the two.
-/

namespace DecisionAssurance.Deployment

open Export (Bytes PyString py py_inj utf8 item_cons_ne hasExactly unhashable replaceZulu
  EventEnvelope constantEqual)
open IsoTimes (DateTime)
open Research (WallTime)

structure AcceptanceRecord where
  status : EvidenceStatus
  deploymentId : PyString
  creator : PyString
  reviewer : PyString
  auditEventId : PyString
  deriving DecidableEq

/-- A call of `accept` with what its clock reads in UTC and how the audit port answers. -/
structure Acceptance where
  bundle : DeploymentBundle
  technicalResult : GateResult
  reviewer : Identity
  correlationId : PyString
  clock : Raises DateTime
  append : EventEnvelope → Raises Unit

section Accept

variable (lib : Library) (a : Acceptance)

/-- `hmac.compare_digest(left, right)` -/
def compareDigest (left right : PyString) : Raises Bool :=
  (constantEqual left right).mapError fun _ => .raised .typeError

def Acceptance.eventId : Raises PyString :=
  match encodeText (a.bundle.deploymentId ++ py ":" ++ py a.reviewer.actorId ++ py ":" ++
    a.correlationId) with
  | some seed => .ok (py "pilot-accepted-" ++ (py (lib.sha256 (utf8 seed.toList))).take 24)
  | none => .error (.raised .unicodeEncodeError)

def Acceptance.event (eventId : PyString) (occurredAt : DateTime) : EventEnvelope where
  eventType := py "deployment.pilot-accepted"
  schemaVersion := py "1.0.0"
  eventId := eventId
  occurredAt := occurredAt
  tenantId := a.bundle.tenantId
  actorId := py a.reviewer.actorId
  correlationId := a.correlationId
  sourceComponent := py "deployment-evidence"
  payload := [(py "deployment_id", .str a.bundle.deploymentId),
    (py "commit_sha", .str a.bundle.commitSha), (py "creator", .str a.bundle.creator)]

/-- `if found: raise ValueError(code)` -/
def raiseIf (found : Prop) [Decidable found] (code : String) : Raises Unit :=
  if found then .error (.valueError code) else .ok ()

def Acceptance.accept : Raises AcceptanceRecord := do
  raiseIf (a.technicalResult.status ≠ .pilotReviewRequired) "TECHNICAL_EVIDENCE_GATE_REQUIRED"
  raiseIf (a.reviewer.kind ≠ .human ∨ .reviewer ∉ a.reviewer.roles) "PILOT_REVIEWER_REQUIRED"
  raiseIf (py a.reviewer.tenant.tenantId ≠ a.bundle.tenantId) "ACCEPTANCE_TENANT_MISMATCH"
  let same ← compareDigest a.bundle.creator (py a.reviewer.actorId)
  raiseIf (same = true) "ACCEPTANCE_ACTOR_INDEPENDENCE_REQUIRED"
  raiseIf (isBlankText a.correlationId = true) "ACCEPTANCE_CORRELATION_REQUIRED"
  let occurredAt ← a.clock
  let eventId ← a.eventId lib
  a.append (a.event eventId occurredAt)
  return ⟨.pilotAccepted, a.bundle.deploymentId, a.bundle.creator, py a.reviewer.actorId, eventId⟩

end Accept

/-! ## What an acceptance has checked -/

section Accepted

variable {lib : Library} {a : Acceptance} {record : AcceptanceRecord}

/-- The checks of an acceptance, all of them about its own call. -/
structure Admitted (a : Acceptance) : Prop where
  review : a.technicalResult.status = .pilotReviewRequired
  human : a.reviewer.kind = .human
  reviewer : Role.reviewer ∈ a.reviewer.roles
  tenant : py a.reviewer.tenant.tenantId = a.bundle.tenantId
  independent : py a.reviewer.actorId ≠ a.bundle.creator
  correlated : isBlankText a.correlationId = false

theorem raiseIf_ok {found : Prop} [Decidable found] {code : String} {u : Unit} :
    raiseIf found code = .ok u ↔ ¬ found := by
  by_cases hfound : found <;> simp [raiseIf, hfound]

theorem accept_cases (h : a.accept lib = .ok record) : Admitted a ∧
    ∃ occurredAt eventId, a.clock = .ok occurredAt ∧ a.eventId lib = .ok eventId ∧
      a.append (a.event eventId occurredAt) = .ok () ∧
      record = ⟨.pilotAccepted, a.bundle.deploymentId, a.bundle.creator, py a.reviewer.actorId,
        eventId⟩ := by
  obtain ⟨_, hstatus, h⟩ := bind_ok_cases h
  obtain ⟨_, hreviewer, h⟩ := bind_ok_cases h
  obtain ⟨_, htenant, h⟩ := bind_ok_cases h
  obtain ⟨same, hcompare, h⟩ := bind_ok_cases h
  obtain ⟨_, hdifferent, h⟩ := bind_ok_cases h
  obtain ⟨_, hcorrelated, h⟩ := bind_ok_cases h
  obtain ⟨occurredAt, hclock, h⟩ := bind_ok_cases h
  obtain ⟨eventId, hid, h⟩ := bind_ok_cases h
  obtain ⟨_, happend, h⟩ := bind_ok_cases h
  simp only [raiseIf_ok, not_not, not_or] at hstatus hreviewer htenant
  simp only [raiseIf_ok, Bool.not_eq_true] at hdifferent hcorrelated
  have hindependent : py a.reviewer.actorId ≠ a.bundle.creator := by
    intro hsame
    have hread := mapError_ok hcompare
    unfold constantEqual at hread
    split_ifs at hread
    rw [hdifferent, ← hsame] at hread
    simp at hread
  refine ⟨⟨hstatus, hreviewer.1, hreviewer.2, htenant, hindependent, hcorrelated⟩, occurredAt,
    eventId, hclock, hid, happend, (Except.ok.inj h).symm⟩

/-- A call that is admitted, and whose strings, clock and port allow it, is accepted. -/
theorem accept_of_admitted (h : Admitted a)
    (hcompare : compareDigest a.bundle.creator (py a.reviewer.actorId) = .ok false)
    {occurredAt : DateTime} {eventId : PyString} (hclock : a.clock = .ok occurredAt)
    (hid : a.eventId lib = .ok eventId)
    (happend : a.append (a.event eventId occurredAt) = .ok ()) :
    a.accept lib = .ok ⟨.pilotAccepted, a.bundle.deploymentId, a.bundle.creator,
      py a.reviewer.actorId, eventId⟩ := by
  unfold Acceptance.accept
  simp [raiseIf, h.review, h.human, h.reviewer, h.tenant, h.correlated, hcompare, hclock, hid,
    happend, pure, Except.pure]

end Accepted

/-! ## A pilot with all its evidence -/

/-- A number in hexadecimal, as 64 digits. -/
def hexText (n : ℕ) : String :=
  String.ofList ((List.range 64).map fun i => Json.hexDigit (n / 16 ^ (63 - i) % 16))

/-- 40 digits of a commit. -/
def sampleCommit : String := "0123456789abcdef0123456789abcdef01234567"

/-- The digest of a file that a payload mentions. -/
def sampleFile : String :=
  "sha256:" ++ hexText 0x0123456789abcdef0123456789abcdef0123456789abcdef0123456789abcdef

def samplePayload : EvidenceKind → List (String × Json)
  | .tlsCertificate => [("host", .str "pilot.example"), ("certificate_sha256", .str sampleFile),
      ("not_before", .str "2026-07-01T00:00:00Z"), ("not_after", .str "2027-07-01T00:00:00Z"),
      ("chain_verified", .bool true), ("minimum_tls", .str "1.2")]
  | .publicHost => [("hostname", .str "pilot.example"),
      ("resolved_addresses", .arr [.str "8.8.8.8"]), ("public_only", .bool true)]
  | .edgeConfiguration => [("config_sha256", .str sampleFile),
      ("host_allowlist_valid", .bool true), ("tls_redirect_valid", .bool true),
      ("validation_tool", .str "probe")]
  | .oidcRedirect => [("issuer", .str "issuer"), ("redirect_uri", .str "callback"),
      ("exact_match", .bool true), ("pkce_required", .bool true)]
  | .mfaPolicy => [("policy_version", .str "1"), ("methods", .arr [.str "totp"]),
      ("flow_tested", .bool true)]
  | .databaseMigration => [("database_schema_version", .str "004"), ("forced_rls_tables", .int 28),
      ("application_role_tested", .bool true), ("migration_role_tested", .bool true)]
  | .recovery => [("status", .str "PASS"), ("commit_sha", .str sampleCommit),
      ("report_sha256", .str sampleFile), ("source_database", .str "pilot"),
      ("restore_database", .str "restored"), ("observed_rpo_seconds", .int 0),
      ("observed_rto_seconds", .int 60), ("integrity_verified", .bool true)]
  | .monitoring => [("scrape_endpoint", .str "metrics"), ("metric_names", .arr [.str "requests"]),
      ("scrape_success", .bool true)]
  | .alertTest => [("alert_name", .str "alert"), ("receiver", .str "desk"),
      ("triggered", .bool true), ("notification_received", .bool true)]
  | .multiInstance => [("instance_count", .int 2), ("shared_session_verified", .bool true),
      ("cross_instance_revoke_verified", .bool true), ("tenant_isolation_verified", .bool true)]
  | .signedExport => [("export_sha256", .str sampleFile), ("algorithm", .str "EdDSA"),
      ("key_id", .str "key-1"), ("offline_verified", .bool true)]
  | .retentionLegalHold => [("retention_policy_version", .str "1"),
      ("deletion_verified", .bool true), ("legal_hold_block_verified", .bool true),
      ("restore_resurrection_blocked", .bool true)]
  | .independentReview => [("reviewer_id", .str "reviewer"),
      ("reviewed_commit_sha", .str sampleCommit), ("result", .str "PASS"),
      ("actor_independent", .bool true)]

def sampleArtifact (kind : EvidenceKind) : Json :=
  .obj [("kind", .str kind.value), ("deployment_id", .str "pilot-1"),
    ("tenant_id", .str "tenant-a"), ("commit_sha", .str sampleCommit), ("verified", .bool true),
    ("observed_at", .str "2026-08-01T00:00:00Z"), ("source", .str "MEASURED"),
    ("payload", .obj (("schema_version", .str "1.0.0") :: samplePayload kind))]

def sampleBytes (kind : EvidenceKind) : Bytes := utf8 (sampleArtifact kind).write

def sampleHash : EvidenceKind → ℕ
  | .tlsCertificate => 0xfbc98b2c4dc5e76d56e7a763c345d809f89991ba0be1be711856ea37959a11cd
  | .publicHost => 0xdcfcf112dc70c8d970d75f1ec644c376ab72599565982eae397e7eaf81e6041c
  | .edgeConfiguration => 0xb547536e5e21fba5655a46eaa613a23c8d5c4fd44d5de7ba55c7fd21e745d1a0
  | .oidcRedirect => 0x3494a83cbea3e3283e336e79c811028e121cb34dabc4dbb1d70526fb0d56a508
  | .mfaPolicy => 0xbf9d5f4b3b02537068b46517be0700a36af6bbe7efcd1cb21194c18a4d5ebd0d
  | .databaseMigration => 0x5bf4e985db4fd65bc91d5ba8761ca15fb509c0776a6a55e3e83f4d68334219d9
  | .recovery => 0xbd8349e0489f4bd6af172165da3911abeacd151b19dc7da04d0b05350f5f9412
  | .monitoring => 0x45bc617b6a7cc6f0d0b7b00a86a7c957400a8a920f6c678feb22b1c913348ac3
  | .alertTest => 0x69b06c056f89e5de60e6088225b38d4b6c1b38a54b527f11635c681c8507ed6f
  | .multiInstance => 0xa24b4f26e481b706a3adebbbb395ad6efb1d6d7af06faf08d6b3bc041b8778ac
  | .signedExport => 0x4fcb19b1ef10b71250dda6a75796d2053dff9e60ec42af1e453c16bf1ee0857c
  | .retentionLegalHold => 0xfa4689a1c82e8fc0e4aecbc075383ae54e073ade5318d714345350ae23dd8d8e
  | .independentReview => 0x864e7971b1088c27a1f5f1690a6c91abec7383533f89b1910364f2baeef8e0c4

theorem weight_sampleArtifact (kind : EvidenceKind) : (sampleArtifact kind).weight ≤ 500000 := by
  cases kind <;> decide +kernel

theorem hexDigit_injective {m n : ℕ} (hm : m < 16) (hn : n < 16)
    (h : Json.hexDigit m = Json.hexDigit n) : m = n := by
  have hdigits : ∀ i < 16, ∀ j < 16, Json.hexDigit i = Json.hexDigit j → i = j := by decide
  exact hdigits m hm n hn h

theorem hexText_leads {m n : ℕ} (h : hexText m = hexText n) :
    m / 16 ^ 63 % 16 = n / 16 ^ 63 % 16 ∧ m / 16 ^ 62 % 16 = n / 16 ^ 62 % 16 := by
  have hlist := String.ofList_injective h
  have hdigit : ∀ i < 64, m / 16 ^ (63 - i) % 16 = n / 16 ^ (63 - i) % 16 := by
    intro i hi
    have hget := congrArg (fun l => l[i]?) hlist
    simp only [List.getElem?_map, List.getElem?_range hi, Option.map_some,
      Option.some.injEq] at hget
    exact hexDigit_injective (Nat.mod_lt _ (by decide)) (Nat.mod_lt _ (by decide)) hget
  exact ⟨hdigit 0 (by decide), hdigit 1 (by decide)⟩

theorem isDigest_hexText (n : ℕ) : isDigest (py ("sha256:" ++ hexText n)) = true := by
  have hhex : ∀ d < 16, isLowerHex (Json.hexDigit d) = true := by decide
  have hsplit : py ("sha256:" ++ hexText n) = py "sha256:" ++ py (hexText n) := by
    simp only [py, String.toList_append, List.map_append]
  have hprefix : (py "sha256:").length = 7 := by rfl
  rw [isDigest, hsplit, ← hprefix, List.take_left, List.drop_left]
  simp only [py, hexText, String.toList_ofList, List.length_map, List.length_range, decide_true,
    Bool.true_and, List.all_map, List.all_eq_true, Function.comp_apply]
  intro i _
  exact hhex _ (Nat.mod_lt _ (by decide))

def sampleDigest (kind : EvidenceKind) : PyString := py ("sha256:" ++ hexText (sampleHash kind))

theorem sampleDigest_injective : Function.Injective sampleDigest := by
  intro kind kind' h
  have htext := String.append_right_inj _ |>.mp (py_inj.mp h)
  have hlead := hexText_leads htext
  cases kind <;> cases kind' <;> first | rfl | exact absurd hlead (by decide)

theorem floats_sampleArtifact (kind : EvidenceKind) :
    (sampleArtifact kind).Floats Json.FloatText := by
  cases kind <;> simp [sampleArtifact, samplePayload, Json.Floats, Json.FloatsFields,
    Json.FloatsItems]

theorem EvidenceKind.value_injective : Function.Injective EvidenceKind.value := by
  intro kind kind' h
  cases kind <;> cases kind' <;> first | rfl | simp [EvidenceKind.value] at h

theorem sampleBytes_injective : Function.Injective sampleBytes := by
  intro kind kind' h
  have htext : (sampleArtifact kind).write ++ [] = (sampleArtifact kind').write ++ [] := by
    rw [List.append_nil, List.append_nil]
    exact Json.utf8_injective h
  have hsame := (Json.write_unique _ _ (floats_sampleArtifact kind) (floats_sampleArtifact kind')
    Json.ended_nil Json.ended_nil htext).1
  simp only [sampleArtifact, Json.obj.injEq, List.cons.injEq, Prod.mk.injEq,
    Json.str.injEq] at hsame
  exact EvidenceKind.value_injective hsame.1.2

theorem find_kind {α : Type} [DecidableEq α] {f : EvidenceKind → α} (hf : Function.Injective f)
    (kind : EvidenceKind) : requiredEvidence.find? (fun k => f k = f kind) = some kind := by
  simp only [hf.eq_iff]
  cases kind <;> rfl

def sampleTime : WallTime := ⟨1785542400000000, some 0⟩

/-- The functions of the standard library on the inputs that occur in the samples. -/
def sampleLibrary : Library where
  sha256 content :=
    match requiredEvidence.find? fun kind => sampleBytes kind = content with
    | some kind => hexText (sampleHash kind)
    | none =>
      if content = utf8 "pilot-1:reviewer-1:accept-1".toList then
        hexText 0xc243ffb5e187fe855919aa0e94dd90856a27be6542aef0841e34b1a0bb503671
      else hexText 0x0cf6995c80517d52741d47884358a35393a0f8a1a6bd70fbde8d14a793c2195d
  loads content :=
    match requiredEvidence.find? fun kind => sampleBytes kind = content with
    | some kind => .ok (sampleArtifact kind).raw
    | none => .error .decodeError
  isoformat _ := py "2026-08-01T00:00:00+00:00"
  fromisoformat text :=
    if text = py "2026-07-01T00:00:00+00:00" then some ⟨1782864000000000, some 0⟩
    else if text = py "2027-07-01T00:00:00+00:00" then some ⟨1814400000000000, some 0⟩
    else none
  str
    | .str text => text
    | _ => []
  localTime wall := .ok wall
  isGlobal address := if address = py "8.8.8.8" then some true else none

theorem sampleCommit_valid : isCommit (py sampleCommit) = true := by
  rfl

def sampleItem (kind : EvidenceKind) : EvidenceItem where
  kind := kind
  verified := true
  observedAt := sampleTime
  digest := sampleDigest kind
  source := .measured
  deploymentId := py "pilot-1"
  tenantId := py "tenant-a"
  commitSha := py sampleCommit
  digestValid := isDigest_hexText _
  timeValid := rfl
  bindingValid := ⟨by decide, by decide, sampleCommit_valid⟩

theorem sha256_sampleBytes (kind : EvidenceKind) :
    sampleLibrary.sha256 (sampleBytes kind) = hexText (sampleHash kind) := by
  simp only [sampleLibrary, find_kind sampleBytes_injective]

theorem loads_sampleBytes (kind : EvidenceKind) :
    sampleLibrary.loads (sampleBytes kind) = .ok (sampleArtifact kind).raw := by
  simp only [sampleLibrary, find_kind sampleBytes_injective]

theorem length_sampleBytes (kind : EvidenceKind) : (sampleBytes kind).length ≤ 2000000 := by
  have hweight := weight_sampleArtifact kind
  have hwrite := Json.length_write_le (sampleArtifact kind)
  have hbytes := Json.length_utf8_le (sampleArtifact kind).write
  rw [sampleBytes]
  omega

theorem raw_str (s : String) : (Json.str s).raw = .str (py s) := rfl

theorem raw_obj (fields : List (String × Json)) :
    (Json.obj fields).raw = .obj (Json.rawFields fields) := rfl

theorem rawFields_nil : Json.rawFields [] = [] := rfl

theorem rawFields_cons (k : String) (x : Json) (fields : List (String × Json)) :
    Json.rawFields ((k, x) :: fields) = (py k, x.raw) :: Json.rawFields fields := rfl

theorem raw_bool (b : Bool) : (Json.bool b).raw = .bool b := rfl

theorem raw_int (n : ℤ) : (Json.int n).raw = .int n := rfl

theorem raw_texts (s : String) : (Json.arr [.str s]).raw = .arr [.str (py s)] := rfl

theorem py_eq_nil {s : String} : py s = [] ↔ s = "" := by
  rw [← py_inj]
  rfl

theorem parseTime_notBefore :
    parseTime sampleLibrary (.str (py "2026-07-01T00:00:00Z")) =
      some ⟨1782864000000000, some 0⟩ := by
  have hzulu : replaceZulu (py "2026-07-01T00:00:00Z") = py "2026-07-01T00:00:00+00:00" := by
    decide
  simp only [parseTime, sampleLibrary, hzulu, if_true]
  rfl

theorem parseTime_notAfter :
    parseTime sampleLibrary (.str (py "2027-07-01T00:00:00Z")) =
      some ⟨1814400000000000, some 0⟩ := by
  have hzulu : replaceZulu (py "2027-07-01T00:00:00Z") = py "2027-07-01T00:00:00+00:00" := by
    decide
  simp only [parseTime, sampleLibrary, hzulu, py_inj, String.reduceEq, if_false, if_true]
  rfl

theorem isGlobal_sample : sampleLibrary.isGlobal (py "8.8.8.8") = some true := by
  simp only [sampleLibrary, if_true]

theorem payloadMatches_sample (kind : EvidenceKind) :
    payloadMatches sampleLibrary (sampleItem kind)
      (.obj (Json.rawFields (("schema_version", .str "1.0.0") :: samplePayload kind))) =
        .ok true := by
  have hlengths : ∀ s ∈ ["8.8.8.8", "totp", "requests"], (py s).length ≤ 256 := by decide
  simp only [List.forall_mem_cons] at hlengths
  cases kind with
  | tlsCertificate =>
    simp [payloadMatches, samplePayload, sampleItem, certificateMatches, payloadKeys, hasExactly,
      equals, text, truth, digest, item_cons_ne, py_inj, py_eq_nil, isDigest_hexText, sampleFile,
      parseTime_notBefore, parseTime_notAfter, instantOf, sampleTime, unhashable, raw_str,
      raw_bool, rawFields_cons, rawFields_nil]
  | publicHost =>
    simp [payloadMatches, samplePayload, sampleItem, payloadHolds, payloadKeys, hasExactly, equals,
      text, truth, publicAddresses, nonemptyTextList, item_cons_ne, py_inj, py_eq_nil, hlengths,
      isGlobal_sample, raw_str, raw_bool, raw_texts, rawFields_cons, rawFields_nil]
  | _ =>
    simp [payloadMatches, samplePayload, sampleItem, payloadHolds, payloadKeys, hasExactly, equals,
      text, truth, digest, distinct, integerAtLeast, nonemptyTextList, item_cons_ne, py_inj,
      py_eq_nil, isDigest_hexText, sampleFile, hlengths, raw_str, raw_bool, raw_int, raw_texts,
      rawFields_cons, rawFields_nil]

theorem bindingMatches_sample (kind : EvidenceKind) (payload : RawJson) :
    bindingMatches sampleLibrary (sampleItem kind)
      [(py "kind", .str (py kind.value)), (py "deployment_id", .str (py "pilot-1")),
        (py "tenant_id", .str (py "tenant-a")), (py "commit_sha", .str (py sampleCommit)),
        (py "verified", .bool true), (py "observed_at", .str (py "2026-08-01T00:00:00Z")),
        (py "source", .str (py "MEASURED")), (py "payload", payload)] = true := by
  have hzulu : zuluTime sampleLibrary sampleTime = py "2026-08-01T00:00:00Z" := by
    decide
  simp [bindingMatches, equals, sampleItem, item_cons_ne, hzulu, EvidenceSource.value]

theorem artifactMatches_sample (kind : EvidenceKind) :
    artifactMatches sampleLibrary (sampleItem kind) (sampleBytes kind) = .ok true := by
  have hdigest : py ("sha256:" ++ sampleLibrary.sha256 (sampleBytes kind)) =
      (sampleItem kind).digest := by
    rw [sha256_sampleBytes]
    rfl
  have hpayload := payloadMatches_sample kind
  have hbinding := bindingMatches_sample kind
    (.obj (Json.rawFields (("schema_version", .str "1.0.0") :: samplePayload kind)))
  rw [artifactMatches, if_pos ⟨length_sampleBytes kind, hdigest⟩, loads_sampleBytes]
  simp only [sampleArtifact, raw_obj, rawFields_cons, rawFields_nil, raw_str, raw_bool]
  simp only [rawFields_cons, raw_str] at hbinding hpayload
  simp [hbinding, hpayload, hasExactly, artifactKeys, py_inj, item_cons_ne]

/-- A deployment with some evidence. -/
def sampleBundle (deploymentId : String) (hid : py deploymentId ≠ []) (evidence : List EvidenceItem)
    (hevidence : (evidence.map EvidenceItem.kind).Nodup) : DeploymentBundle where
  schemaVersion := py "1.0.0"
  deploymentId := py deploymentId
  tenantId := py "tenant-a"
  profile := py "controlled-pilot"
  commitSha := py sampleCommit
  imageDigests := [(py "api", py sampleFile)]
  sbomChecksums := [(py "api", py sampleFile)]
  configChecksums := [(py "api", py sampleFile)]
  evidence := evidence
  providerResidencyStatus := py "ACCESS_BLOCKED"
  openRisks := [py "one region"]
  creator := py "operator-1"
  createdAt := sampleTime
  headValid := ⟨rfl, hid, by decide, rfl, sampleCommit_valid, by decide, rfl⟩
  digestsValid := by
    have hfile : isDigest (py sampleFile) = true := isDigest_hexText _
    simp [hfile]
  distinctKinds := hevidence
  residencyValid := .inr rfl
  risksValid := ⟨by decide, by decide⟩

/-- A deployment with all its evidence. -/
def evidencedBundle : DeploymentBundle :=
  sampleBundle "pilot-1" (by decide) (requiredEvidence.map sampleItem) (by decide)

/-- A deployment of the same tenant without any evidence. -/
def bareBundle : DeploymentBundle := sampleBundle "pilot-2" (by decide) [] List.nodup_nil

def sampleGate : PilotAcceptanceGate where
  maxAge := 604800000000
  resolve digest := .ok ((requiredEvidence.find? fun kind => sampleDigest kind = digest).map
    sampleBytes)

theorem supported_sample : Supported sampleLibrary sampleGate evidencedBundle sampleTime := by
  have hitems : ∀ e ∈ evidencedBundle.evidence, ∃ kind, e = sampleItem kind := by
    intro e he
    obtain ⟨kind, -, rfl⟩ := List.mem_map.mp he
    exact ⟨kind, rfl⟩
  have htimely : Timely sampleLibrary sampleGate 1785542400000000 sampleTime :=
    ⟨1785542400000000, rfl, le_rfl, by decide⟩
  refine ⟨?_, ?_, ?_, ?_, 1785542400000000, rfl, ?_, htimely⟩
  · intro kind
    exact ⟨sampleItem kind, List.mem_map_of_mem (mem_requiredEvidence kind), rfl⟩
  · intro e he
    obtain ⟨kind, rfl⟩ := hitems e he
    refine ⟨rfl, ?_⟩
    intro hdeclared
    cases hdeclared
  · intro e he
    obtain ⟨kind, rfl⟩ := hitems e he
    exact ⟨rfl, rfl, rfl⟩
  · intro e he
    obtain ⟨kind, rfl⟩ := hitems e he
    refine ⟨sampleBytes kind, ?_, artifactMatches_sample kind⟩
    have hfind := find_kind sampleDigest_injective kind
    simp only [sampleGate, sampleItem, hfind, Option.map_some]
  · intro e he
    obtain ⟨kind, rfl⟩ := hitems e he
    exact htimely

def sampleReviewer : Identity where
  actorId := "reviewer-1"
  tenant := tenantA
  role := .reviewer
  kind := .human
  roles := [.reviewer]
  named := by decide
  primary := List.mem_singleton_self _

def acceptanceTime : DateTime where
  year := 2026
  month := 8
  day := 1
  hour := 0
  minute := 0
  second := 0
  microsecond := 0
  offset := some 0
  yearValid := by decide
  dateValid := by decide
  timeValid := by decide
  offsetValid := by
    intro o ho
    rw [← Option.some.inj ho]
    decide

/-- A reviewer accepts a bundle upon the result of a gate. -/
def acceptanceOf (bundle : DeploymentBundle) : Acceptance where
  bundle := bundle
  technicalResult := ⟨.pilotReviewRequired, []⟩
  reviewer := sampleReviewer
  correlationId := py "accept-1"
  clock := .ok acceptanceTime
  append _ := .ok ()

theorem acceptanceOf_returns {bundle : DeploymentBundle}
    (h : bundle = evidencedBundle ∨ bundle = bareBundle) :
    ∃ record, (acceptanceOf bundle).accept sampleLibrary = .ok record := by
  have hseed : ∃ seed, bundle.deploymentId ++ py ":" ++ py sampleReviewer.actorId ++ py ":" ++
      py "accept-1" = py seed := by
    rcases h with rfl | rfl
    · exact ⟨"pilot-1:reviewer-1:accept-1", by decide⟩
    · exact ⟨"pilot-2:reviewer-1:accept-1", by decide⟩
  obtain ⟨seed, hseed⟩ := hseed
  have hid : (acceptanceOf bundle).eventId sampleLibrary =
      .ok (py "pilot-accepted-" ++ (py (sampleLibrary.sha256 (utf8 seed.toList))).take 24) := by
    have hencoded : encodeText (py seed) = some seed := encodeText_chars seed
    rw [← hseed] at hencoded
    simp only [Acceptance.eventId, acceptanceOf, hencoded]
  have hadmitted : Admitted (acceptanceOf bundle) := by
    rcases h with rfl | rfl
    all_goals exact ⟨rfl, rfl, by decide, rfl, by decide, by decide⟩
  have hcompare : compareDigest bundle.creator (py sampleReviewer.actorId) = .ok false := by
    rcases h with rfl | rfl <;> decide
  exact ⟨_, accept_of_admitted hadmitted hcompare rfl hid rfl⟩

/-! ## Runs -/

/-- What callers do with the gates and the transition of a service, one call after another. -/
inductive PilotCall
  | evaluate (gate : PilotAcceptanceGate) (bundle : DeploymentBundle) (now : WallTime)
  | accept (a : Acceptance)

section Runs

variable (lib : Library)

/-- Each record that a run returned is for a bundle that a gate had assessed for review, with
evidence that supported it then. -/
def RestsOnEvidence (calls : List PilotCall) : Prop :=
  ∀ before after a record, calls = before ++ .accept a :: after → a.accept lib = .ok record →
    ∃ gate now, .evaluate gate a.bundle now ∈ before ∧
      gate.evaluate lib a.bundle now = .ok ⟨.pilotReviewRequired, []⟩ ∧
      Supported lib gate a.bundle now ∧ record.deploymentId = a.bundle.deploymentId

/-- Each call of `accept` with a result for review was given a result that a gate had returned for
its bundle. -/
def ResultsPaired (calls : List PilotCall) : Prop :=
  ∀ before after a, calls = before ++ .accept a :: after →
    a.technicalResult.status = .pilotReviewRequired →
      ∃ gate now, .evaluate gate a.bundle now ∈ before ∧
        gate.evaluate lib a.bundle now = .ok a.technicalResult

variable {lib}

/-- Where callers pair results with the bundles they were returned for, acceptances rest on the
evidence of their bundles. -/
theorem restsOnEvidence_of_paired {calls : List PilotCall} (h : ResultsPaired lib calls) :
    RestsOnEvidence lib calls := by
  intro before after a record hcalls haccepted
  obtain ⟨hadmitted, occurredAt, eventId, -, -, -, rfl⟩ := accept_cases haccepted
  obtain ⟨gate, now, hbefore, hresult⟩ := h before after a hcalls hadmitted.review
  have hsupported := (evaluate_review hresult).mp hadmitted.review
  exact ⟨gate, now, hbefore, evaluate_of_supported hsupported, hsupported, rfl⟩

end Runs

/-- The gate assesses a bundle, and the reviewer accepts one. -/
def acceptingRun (bundle : DeploymentBundle) : List PilotCall :=
  [.evaluate sampleGate evidencedBundle sampleTime, .accept (acceptanceOf bundle)]

theorem restsOnEvidence_of_paired_pilot :
    ResultsPaired sampleLibrary (acceptingRun evidencedBundle) ∧
      (∃ record, (acceptanceOf evidencedBundle).accept sampleLibrary = .ok record) ∧
        RestsOnEvidence sampleLibrary (acceptingRun evidencedBundle) := by
  have hpaired : ResultsPaired sampleLibrary (acceptingRun evidencedBundle) := by
    intro before after a hcalls _
    cases before with
    | nil => cases hcalls
    | cons call before =>
      obtain ⟨rfl, hrest⟩ := List.cons.inj hcalls
      cases before with
      | nil =>
        cases hrest
        exact ⟨sampleGate, sampleTime, List.mem_cons_self, evaluate_of_supported supported_sample⟩
      | cons call before => simp at hrest
  exact ⟨hpaired, acceptanceOf_returns (.inl rfl), restsOnEvidence_of_paired hpaired⟩

/-- The gate's result for one bundle has another accepted, which has no evidence at all. -/
theorem restsOnEvidence_fails :
    sampleGate.evaluate sampleLibrary evidencedBundle sampleTime =
        .ok (acceptanceOf bareBundle).technicalResult ∧ bareBundle.evidence = [] ∧
      (∃ record, (acceptanceOf bareBundle).accept sampleLibrary = .ok record) ∧
        ¬ RestsOnEvidence sampleLibrary (acceptingRun bareBundle) := by
  refine ⟨evaluate_of_supported supported_sample, rfl, acceptanceOf_returns (.inr rfl), ?_⟩
  intro h
  obtain ⟨record, haccepted⟩ := acceptanceOf_returns (.inr rfl)
  obtain ⟨gate, now, hbefore, -⟩ := h [_] [] (acceptanceOf bareBundle) record rfl haccepted
  have hevaluated := PilotCall.evaluate.inj (List.mem_singleton.mp hbefore)
  have hsame : bareBundle = evidencedBundle := hevaluated.2.1
  have hid : py "pilot-2" = py "pilot-1" := congrArg DeploymentBundle.deploymentId hsame
  exact absurd (py_inj.mp hid) (by decide)

end DecisionAssurance.Deployment
