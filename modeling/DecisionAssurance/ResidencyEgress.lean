import DecisionAssurance.EvidencePolicies
import DecisionAssurance.RuntimeConfiguration

/-!
# The residency guard of outgoing requests

`ResidencyEgressGuard.authorize` decides each request to a provider anew and has its decision
recorded. The decision is a list of checks over the configuration, the URL, the declared egress
and its attestation; the first that fails names the reason.
-/

namespace DecisionAssurance.Production

open Research (UrlParts WallTime zuluOffset minTime maxTime endsWith netlocOf)
open Jobs (Instant JobPolicy)

/-- The library with the reading and the writing of ISO 8601. -/
structure EgressLibrary extends ConfigLibrary where
  fromisoformat : String → Option WallTime
  isoformat : Instant → String

inductive EgressFailure where
  | egressRejected (reasonCode : String)
  | overflowError
  deriving DecidableEq

structure EgressDecision where
  decision : String
  occurredAt : String
  tenantId : String
  actorId : String
  correlationId : String
  operatingProfile : String
  policyVersion : String
  provider : String
  connector : String
  targetHost : String
  requestedProcessingLocation : Option String
  evidenceId : Option String
  evidenceStatus : Option String
  reasonCode : String
  deriving DecidableEq

/-- The context of a request; `recordDecision` tells whether the recorder takes a decision. -/
structure EgressRequestContext where
  tenantId : String
  actorId : String
  correlationId : String
  recordDecision : EgressDecision → Bool

/-! ## Hosts -/

def isLowerAlnum (c : Char) : Bool := c.isLower || c.isDigit

/-- `[a-z0-9](?:[a-z0-9-]{0,61}[a-z0-9])?` -/
def isHostLabel (label : List Char) : Bool :=
  1 ≤ label.length && label.length ≤ 63 && label.head?.any isLowerAlnum &&
    label.getLast?.any isLowerAlnum && label.all fun c => isLowerAlnum c || c = '-'

/-- `_HOST`, matched in full. -/
def isHostName (host : List Char) : Bool :=
  let labels := host.splitOn '.'
  host.length ≤ 253 && 2 ≤ labels.length && labels.dropLast.all isHostLabel &&
    labels.getLast?.any fun top => 2 ≤ top.length && top.length ≤ 63 && top.all Char.isLower

section Guard

variable (lib : EgressLibrary)

/-- `_valid_public_hostname` -/
def validPublicHostname (host : String) : Bool :=
  (lib.ipAddress host).isNone && isHostName host.toList && host ≠ "localhost" &&
    !endsWith ".local" host

/-- `(parsed.hostname or "").casefold().rstrip(".")` -/
def hostOf (parsed : UrlParts) : String := lib.normalHost (parsed.hostname.getD "")

/-- `_host` -/
def targetHost (url : String) : String :=
  match lib.urlsplit url with
  | .ok parsed => hostOf lib parsed
  | .error _ => ""

structure HttpsEgressAllowlist where
  hosts : List String

/-- `HttpsEgressAllowlist(hosts)` -/
def HttpsEgressAllowlist.build (hosts : List String) : Except ConfigError HttpsEgressAllowlist :=
  let normalized := hosts.map lib.normalHost
  if normalized = [] ∨ ∃ item ∈ normalized, ¬ validPublicHostname lib item then
    .error (.valueError "INVALID_EGRESS_ALLOWLIST")
  else .ok ⟨normalized⟩

/-- `urlunsplit(("https", netloc, path, query, ""))` -/
def urlunsplit (netloc path query : String) : String :=
  let path := if path.toList.head? = some '/' then path else "/" ++ path
  "https://" ++ netloc ++ path ++ if query = "" then "" else "?" ++ query

/-- `validate`; nothing is returned where it raises `EgressRejected`. -/
def HttpsEgressAllowlist.validate (allowlist : HttpsEgressAllowlist) (url : String) :
    Option String :=
  match lib.urlsplit url with
  | .error _ => none
  | .ok parsed =>
    match parsed.port with
    | none => none
    | some port =>
      let host := hostOf lib parsed
      if parsed.scheme ≠ "https" ∨ host = "" ∨ host ∉ allowlist.hosts ∨ parsed.username ≠ none ∨
          parsed.password ≠ none ∨ (port ≠ none ∧ port ≠ some 443) ∨
          ¬ validPublicHostname lib host then none
      else
        some (urlunsplit (lib.casefold (String.ofList (netlocOf url)))
          (if parsed.path = "" then "/" else parsed.path) parsed.query)

/-! ## The checks -/

/-- A check that fails blocks the request, unless a time cannot be converted. -/
inductive Refusal where
  | blocked (reasonCode : String)
  | overflow
  deriving DecidableEq

def block (reasonCode : String) (p : Prop) [Decidable p] : Except Refusal Unit :=
  if p then .error (.blocked reasonCode) else .ok ()

/-- `_parse_time`; `none` where it raises `ValueError`. -/
def parseTime (value : String) : Except Refusal (Option Instant) :=
  match lib.fromisoformat (zuluOffset value) with
  | none | some ⟨_, none⟩ => .ok none
  | some ⟨wall, some offset⟩ =>
    if minTime ≤ wall - offset ∧ wall - offset ≤ maxTime then .ok (some (wall - offset))
    else .error .overflow

/-- The configuration is there, has the expected profile and a residency policy for its mode. -/
def checkConfig (expectedProfile : Option EnvironmentProfile) (config : Option RuntimeConfig) :
    Except Refusal (RuntimeConfig × OperatingMode × DataResidencyPolicy) := do
  let config ← orRaise (.blocked "EGRESS_CONFIGURATION_CHANGED") config
  block "EGRESS_CONFIGURATION_CHANGED"
    (expectedProfile ≠ none ∧ expectedProfile ≠ some config.profile)
  let mode ← orRaise (.blocked "EGRESS_RESIDENCY_POLICY_MISSING") config.operatingMode
  let residency ← orRaise (.blocked "EGRESS_RESIDENCY_POLICY_MISSING") config.dataResidency
  (residency.validateFor mode).mapError fun _ => .blocked "EGRESS_CONFIGURATION_CHANGED"
  return (config, mode, residency)

/-- The URL is allowed and an egress to its host is declared for the provider and connector. -/
def findEgress (config : RuntimeConfig) (tenantId provider connector url : String) :
    Except Refusal (String × ProviderEgress) := do
  let allowlist ← (HttpsEgressAllowlist.build lib config.egressAllowedHosts).mapError
    fun _ => .blocked "EGRESS_HOST_MISMATCH"
  block "EGRESS_HOST_MISMATCH" (isTenantId tenantId = false)
  let normalized ← orRaise (.blocked "EGRESS_HOST_MISMATCH") (allowlist.validate lib url)
  let egress ← orRaise (.blocked "EGRESS_HOST_MISMATCH")
    (config.providerEgress.find? fun item =>
      item.host = targetHost lib url && item.provider = provider)
  block "EGRESS_HOST_MISMATCH" (egress.service ≠ connector)
  return (normalized, egress)

/-- The attestation of an egress that is no development exception. -/
def checkAttestation (egress : ProviderEgress) (now : Instant) : Except Refusal Unit := do
  let attestation := egress.attestation
  block "EGRESS_EVIDENCE_UNVERIFIED" (attestation.evidenceType = "OPERATOR_SELF_DECLARATION")
  block (if attestation.verificationStatus = "EXPIRED" then "EGRESS_EVIDENCE_EXPIRED"
    else "EGRESS_EVIDENCE_UNVERIFIED") (attestation.verificationStatus ≠ "VERIFIED")
  block "EGRESS_EVIDENCE_UNVERIFIED"
    (¬ isText attestation.verifiedAt ∨ ¬ isText attestation.verifiedBy)
  let unverified : Refusal := .blocked "EGRESS_EVIDENCE_UNVERIFIED"
  let issuedAt ← orRaise unverified (← parseTime lib attestation.issuedAt)
  let validFrom ← orRaise unverified (← parseTime lib attestation.validFrom)
  let expiresAt ← orRaise unverified (← parseTime lib attestation.expiresAt)
  let verifiedAt ← orRaise unverified (← parseTime lib (attestation.verifiedAt.getD ""))
  block "EGRESS_EVIDENCE_EXPIRED" (expiresAt ≤ now)
  block "EGRESS_EVIDENCE_UNVERIFIED"
    (now < issuedAt ∨ now < validFrom ∨ now < verifiedAt ∨ expiresAt ≤ validFrom)
  block "EGRESS_EVIDENCE_UNVERIFIED" (attestation.evidenceType ∉
    ["DPA", "SIGNED_PROVIDER_ATTESTATION", "TECHNICAL_PROVIDER_CONFIGURATION"])
  block "EGRESS_EVIDENCE_MISSING" (egress.confirmedProcessingLocations = [])
  block "EGRESS_LOCATION_NOT_ALLOWED"
    (egress.processingLocation ∉ egress.confirmedProcessingLocations)
  block "EGRESS_EVIDENCE_UNVERIFIED"
    (¬ "https://".toList.isPrefixOf attestation.evidenceRef.toList ∨ attestation.issuer = "")

/-- The checks once the egress is known; returns the reason it is allowed for. -/
def judgeEgress (config : RuntimeConfig) (mode : OperatingMode) (residency : DataResidencyPolicy)
    (egress : ProviderEgress) (tenantId : String) (now : Instant) : Except Refusal String := do
  block "EGRESS_TENANT_MISMATCH" ("*" ∉ egress.tenantIds ∧ tenantId ∉ egress.tenantIds)
  block "EGRESS_LOCATION_NOT_ALLOWED"
    (egress.processingLocation ∉ residency.externalProcessingLocations)
  if config.profile = .development ∧ mode = .developmentProviderIntegration then
    block "EGRESS_CONFIGURATION_CHANGED" (egress.processingLocation ≠ "external-unspecified" ∨
      egress.attestation.evidenceType ≠ "OPERATOR_SELF_DECLARATION" ∨
      egress.attestation.verificationStatus ≠ "UNVERIFIED")
    return "EGRESS_ALLOWED_DEVELOPMENT"
  checkAttestation lib egress now
  return "EGRESS_ALLOWED"

/-! ## The guard -/

structure ResidencyEgressGuard where
  expectedProfile : Option EnvironmentProfile

/-- The decisions handed to the recorder, and what the call returns or raises. -/
structure Authorization where
  decisions : List EgressDecision
  outcome : Except EgressFailure String

/-- The end of `decide`: the decision is recorded, and a URL returned if it allows one. -/
def settle (context : EgressRequestContext) (decision : EgressDecision) (allowedUrl : String) :
    Authorization where
  decisions := [decision]
  outcome :=
    if context.recordDecision decision = false then .error (.egressRejected "EGRESS_AUDIT_FAILED")
    else if decision.decision ≠ "ALLOWED" then .error (.egressRejected decision.reasonCode)
    else .ok allowedUrl

/-- The decision that `decide` builds, with what is known of the egress. -/
def decisionFor (context : EgressRequestContext) (config : Option RuntimeConfig) (now : Instant)
    (provider connector url verdict reasonCode : String) (egress : Option ProviderEgress) :
    EgressDecision where
  decision := verdict
  occurredAt := lib.isoformat now
  tenantId := context.tenantId
  actorId := context.actorId
  correlationId := context.correlationId
  operatingProfile := (config.map fun c => c.profile.value).getD "unknown"
  policyVersion := "residency-policy-v1"
  provider := provider
  connector := connector
  targetHost := targetHost lib url
  requestedProcessingLocation := egress.map ProviderEgress.processingLocation
  evidenceId := egress.map fun item => item.attestation.evidenceId
  evidenceStatus := egress.map fun item => item.attestation.verificationStatus
  reasonCode := reasonCode

/-- `authorize`, with the reading of the clock, absent where it has no value in UTC, and what the
supplier of the configuration returns; one that raises counts as none. -/
def ResidencyEgressGuard.authorize (guard : ResidencyEgressGuard) (clock : Option Instant)
    (config : Option RuntimeConfig) (context : EgressRequestContext)
    (provider connector url : String) : Authorization :=
  match clock with
  | none => ⟨[], .error .overflowError⟩
  | some now =>
    let decide := decisionFor lib context config now provider connector url
    let refused (egress : Option ProviderEgress) : Refusal → Authorization
      | .blocked reasonCode => settle context (decide "BLOCKED" reasonCode egress) ""
      | .overflow => ⟨[], .error .overflowError⟩
    match checkConfig guard.expectedProfile config with
    | .error refusal => refused none refusal
    | .ok (config, mode, residency) =>
      match findEgress lib config context.tenantId provider connector url with
      | .error refusal => refused none refusal
      | .ok (normalized, egress) =>
        match judgeEgress lib config mode residency egress context.tenantId now with
        | .error refusal => refused (some egress) refusal
        | .ok reasonCode => settle context (decide "ALLOWED" reasonCode (some egress)) normalized

/-! ## What the checks establish -/

theorem block_ok {reasonCode : String} {p : Prop} [Decidable p] {u : Unit}
    (h : block reasonCode p = .ok u) : ¬ p := by
  unfold block at h
  split_ifs at h with hp
  exact hp

/-- The configuration and its residency policy fit the expected profile and the mode. -/
structure Configured (expectedProfile : Option EnvironmentProfile) (config : RuntimeConfig)
    (mode : OperatingMode) (residency : DataResidencyPolicy) : Prop where
  profile : ∀ profile, expectedProfile = some profile → config.profile = profile
  operatingMode : config.operatingMode = some mode
  dataResidency : config.dataResidency = some residency
  valid : residency.validateFor mode = .ok ()

theorem checkConfig_ok {expectedProfile : Option EnvironmentProfile}
    {supplied : Option RuntimeConfig} {config : RuntimeConfig} {mode : OperatingMode}
    {residency : DataResidencyPolicy}
    (h : checkConfig expectedProfile supplied = .ok (config, mode, residency)) :
    supplied = some config ∧ Configured expectedProfile config mode residency := by
  obtain ⟨c, hc, h⟩ := bind_ok_cases h
  obtain ⟨_, hprofile, h⟩ := bind_ok_cases h
  obtain ⟨m, hm, h⟩ := bind_ok_cases h
  obtain ⟨r, hr, h⟩ := bind_ok_cases h
  obtain ⟨_, hvalid, h⟩ := bind_ok_cases h
  cases h
  refine ⟨orRaise_ok.mp hc, ?_, orRaise_ok.mp hm, orRaise_ok.mp hr, mapError_ok hvalid⟩
  intro profile hexpected
  by_contra hne
  apply block_ok hprofile
  rw [hexpected]
  exact ⟨by simp, fun heq => hne (Option.some.inj heq).symm⟩

/-- A URL with `https` on the default port, without credentials, to a host of the allowlist. -/
structure AllowedUrl (hosts : List String) (url host normalized : String) : Prop where
  split : ∃ parsed, lib.urlsplit url = .ok parsed ∧ parsed.scheme = "https" ∧
    (parsed.port = some none ∨ parsed.port = some (some 443)) ∧
    parsed.username = none ∧ parsed.password = none ∧ host = hostOf lib parsed ∧
    normalized = urlunsplit (lib.casefold (String.ofList (netlocOf url)))
      (if parsed.path = "" then "/" else parsed.path) parsed.query
  listed : ∃ item ∈ hosts, lib.normalHost item = host
  isPublic : validPublicHostname lib host = true

variable {lib}

theorem build_hosts {hosts : List String} {allowlist : HttpsEgressAllowlist}
    (h : HttpsEgressAllowlist.build lib hosts = .ok allowlist) :
    allowlist.hosts = hosts.map lib.normalHost := by
  unfold HttpsEgressAllowlist.build at h
  dsimp only at h
  split_ifs at h
  cases h
  rfl

theorem validate_some {hosts : List String} {allowlist : HttpsEgressAllowlist}
    {url normalized : String} (hbuild : HttpsEgressAllowlist.build lib hosts = .ok allowlist)
    (h : allowlist.validate lib url = some normalized) :
    AllowedUrl lib hosts url (targetHost lib url) normalized := by
  unfold HttpsEgressAllowlist.validate at h
  cases hsplit : lib.urlsplit url with
  | error e => simp [hsplit] at h
  | ok parsed =>
    rw [hsplit] at h
    dsimp only at h
    cases hport : parsed.port with
    | none => simp [hport] at h
    | some port =>
      rw [hport] at h
      dsimp only at h
      obtain ⟨hfail, hnormalized⟩ := Option.ite_none_left_eq_some.mp h
      simp only [not_or, not_and, not_not, ne_eq] at hfail
      obtain ⟨hscheme, _, hlisted, huser, hpassword, hdefault, hpublic⟩ := hfail
      rw [build_hosts hbuild, List.mem_map] at hlisted
      have hhost : targetHost lib url = hostOf lib parsed := by simp [targetHost, hsplit]
      refine ⟨⟨parsed, hsplit, hscheme, ?_, huser, hpassword, hhost, ?_⟩, ?_, ?_⟩
      · by_cases hnone : port = none
        · exact .inl (hport.trans (congrArg some hnone))
        · exact .inr (hport.trans (congrArg some (hdefault hnone)))
      · exact (Option.some.inj hnormalized).symm
      · rwa [hhost]
      · rwa [hhost]

theorem findEgress_ok {config : RuntimeConfig} {tenantId provider connector url normalized : String}
    {egress : ProviderEgress}
    (h : findEgress lib config tenantId provider connector url = .ok (normalized, egress)) :
    AllowedUrl lib config.egressAllowedHosts url (targetHost lib url) normalized ∧
      config.providerEgress.find? (fun item =>
        item.host = targetHost lib url && item.provider = provider) = some egress ∧
      egress.service = connector := by
  obtain ⟨allowlist, hbuild, h⟩ := bind_ok_cases h
  obtain ⟨_, -, h⟩ := bind_ok_cases h
  obtain ⟨u, hurl, h⟩ := bind_ok_cases h
  obtain ⟨item, hitem, h⟩ := bind_ok_cases h
  obtain ⟨_, hservice, h⟩ := bind_ok_cases h
  cases h
  exact ⟨validate_some (mapError_ok hbuild) (orRaise_ok.mp hurl), orRaise_ok.mp hitem,
    not_not.mp (block_ok hservice)⟩

/-- The attestation is verified by a named verifier, of an accepted type, valid at the time, and
confirms the location. -/
structure Attested (lib : EgressLibrary) (egress : ProviderEgress) (now : Instant) : Prop where
  verified : egress.attestation.verificationStatus = "VERIFIED"
  verifier : isText egress.attestation.verifiedBy = true
  accepted : egress.attestation.evidenceType ∈
    ["DPA", "SIGNED_PROVIDER_ATTESTATION", "TECHNICAL_PROVIDER_CONFIGURATION"]
  issued : ∃ issuedAt, parseTime lib egress.attestation.issuedAt = .ok (some issuedAt) ∧
    issuedAt ≤ now
  valid : ∃ validFrom expiresAt,
    parseTime lib egress.attestation.validFrom = .ok (some validFrom) ∧
    parseTime lib egress.attestation.expiresAt = .ok (some expiresAt) ∧
    validFrom ≤ now ∧ now < expiresAt
  verifiedBefore : ∃ text verifiedAt, egress.attestation.verifiedAt = some text ∧
    parseTime lib text = .ok (some verifiedAt) ∧ verifiedAt ≤ now
  confirmed : egress.processingLocation ∈ egress.confirmedProcessingLocations
  reference : "https://".toList.isPrefixOf egress.attestation.evidenceRef.toList = true
  issuer : egress.attestation.issuer ≠ ""

theorem isText_some {value : Option String} (h : isText value = true) :
    ∃ text, value = some text := by
  cases value with
  | none => cases h
  | some text => exact ⟨text, rfl⟩

theorem checkAttestation_ok {egress : ProviderEgress} {now : Instant} {u : Unit}
    (h : checkAttestation lib egress now = .ok u) : Attested lib egress now := by
  unfold checkAttestation at h
  obtain ⟨_, -, h⟩ := bind_ok_cases h
  obtain ⟨_, hstatus, h⟩ := bind_ok_cases h
  obtain ⟨_, hnamed, h⟩ := bind_ok_cases h
  obtain ⟨issued?, hissued?, h⟩ := bind_ok_cases h
  obtain ⟨issuedAt, hissued, h⟩ := bind_ok_cases h
  obtain ⟨from?, hfrom?, h⟩ := bind_ok_cases h
  obtain ⟨validFrom, hfrom, h⟩ := bind_ok_cases h
  obtain ⟨expires?, hexpires?, h⟩ := bind_ok_cases h
  obtain ⟨expiresAt, hexpires, h⟩ := bind_ok_cases h
  obtain ⟨verified?, hverified?, h⟩ := bind_ok_cases h
  obtain ⟨verifiedAt, hverified, h⟩ := bind_ok_cases h
  obtain ⟨_, hlive, h⟩ := bind_ok_cases h
  obtain ⟨_, htimes, h⟩ := bind_ok_cases h
  obtain ⟨_, htype, h⟩ := bind_ok_cases h
  obtain ⟨_, -, h⟩ := bind_ok_cases h
  obtain ⟨_, hconfirmed, h⟩ := bind_ok_cases h
  rw [orRaise_ok.mp hissued] at hissued?
  rw [orRaise_ok.mp hfrom] at hfrom?
  rw [orRaise_ok.mp hexpires] at hexpires?
  rw [orRaise_ok.mp hverified] at hverified?
  have hnames := not_or.mp (block_ok hnamed)
  obtain ⟨text, htext⟩ := isText_some (not_not.mp hnames.1)
  have hbefore := block_ok htimes
  simp only [not_or, not_lt] at hbefore
  have hreference := not_or.mp (block_ok h)
  exact
    { verified := not_not.mp (block_ok hstatus)
      verifier := not_not.mp hnames.2
      accepted := not_not.mp (block_ok htype)
      issued := ⟨issuedAt, hissued?, hbefore.1⟩
      valid := ⟨validFrom, expiresAt, hfrom?, hexpires?, hbefore.2.1, not_le.mp (block_ok hlive)⟩
      verifiedBefore := ⟨text, verifiedAt, htext, by simpa [htext] using hverified?, hbefore.2.2.1⟩
      confirmed := not_not.mp (block_ok hconfirmed)
      reference := not_not.mp hreference.1
      issuer := hreference.2 }

/-- A development deployment declares an unverified egress to an unspecified location. -/
structure DevelopmentException (config : RuntimeConfig) (mode : OperatingMode)
    (egress : ProviderEgress) : Prop where
  profile : config.profile = .development
  mode : mode = .developmentProviderIntegration
  location : egress.processingLocation = "external-unspecified"
  declaration : egress.attestation.evidenceType = "OPERATOR_SELF_DECLARATION"
  unverified : egress.attestation.verificationStatus = "UNVERIFIED"

theorem judgeEgress_ok {config : RuntimeConfig} {mode : OperatingMode}
    {residency : DataResidencyPolicy} {egress : ProviderEgress} {tenantId reasonCode : String}
    {now : Instant}
    (h : judgeEgress lib config mode residency egress tenantId now = .ok reasonCode) :
    ("*" ∈ egress.tenantIds ∨ tenantId ∈ egress.tenantIds) ∧
      egress.processingLocation ∈ residency.externalProcessingLocations ∧
      (DevelopmentException config mode egress ∨
        ¬ (config.profile = .development ∧ mode = .developmentProviderIntegration) ∧
          Attested lib egress now) := by
  unfold judgeEgress at h
  obtain ⟨_, htenant, h⟩ := bind_ok_cases h
  obtain ⟨_, hlocation, h⟩ := bind_ok_cases h
  refine ⟨?_, not_not.mp (block_ok hlocation), ?_⟩
  · by_contra hnone
    exact block_ok htenant (not_or.mp hnone)
  · by_cases hdevelopment : config.profile = .development ∧ mode = .developmentProviderIntegration
    · left
      rw [if_pos hdevelopment] at h
      obtain ⟨_, hexact, -⟩ := bind_ok_cases h
      have hsame := block_ok hexact
      simp only [not_or, not_not, ne_eq] at hsame
      exact ⟨hdevelopment.1, hdevelopment.2, hsame.1, hsame.2.1, hsame.2.2⟩
    · right
      rw [if_neg hdevelopment] at h
      obtain ⟨_, hattested, -⟩ := bind_ok_cases h
      exact ⟨hdevelopment, checkAttestation_ok hattested⟩

/-- What a request fulfils that is allowed at the time. -/
structure Admitted (lib : EgressLibrary) (guard : ResidencyEgressGuard) (config : RuntimeConfig)
    (tenantId provider connector url normalized : String) (now : Instant) (mode : OperatingMode)
    (residency : DataResidencyPolicy) (egress : ProviderEgress) : Prop where
  configured : Configured guard.expectedProfile config mode residency
  allowed : AllowedUrl lib config.egressAllowedHosts url (targetHost lib url) normalized
  declared : config.providerEgress.find? (fun item =>
    item.host = targetHost lib url && item.provider = provider) = some egress
  service : egress.service = connector
  tenant : "*" ∈ egress.tenantIds ∨ tenantId ∈ egress.tenantIds
  location : egress.processingLocation ∈ residency.externalProcessingLocations
  evidence : DevelopmentException config mode egress ∨
    ¬ (config.profile = .development ∧ mode = .developmentProviderIntegration) ∧
      Attested lib egress now

/-- A call raises for want of a time, or settles one decision: it blocks, or allows a request that
fulfils all the conditions. -/
theorem authorize_cases (lib : EgressLibrary) (guard : ResidencyEgressGuard)
    (clock : Option Instant) (config : Option RuntimeConfig) (context : EgressRequestContext)
    (provider connector url : String) :
    guard.authorize lib clock config context provider connector url =
        ⟨[], .error .overflowError⟩ ∨
      (∃ d, d.decision = "BLOCKED" ∧
        guard.authorize lib clock config context provider connector url = settle context d "") ∨
      ∃ now c mode residency egress normalized d, clock = some now ∧ config = some c ∧
        Admitted lib guard c context.tenantId provider connector url normalized now mode residency
          egress ∧ d.decision = "ALLOWED" ∧
        guard.authorize lib clock config context provider connector url =
          settle context d normalized := by
  unfold ResidencyEgressGuard.authorize
  cases clock with
  | none => exact .inl rfl
  | some now =>
    dsimp only
    cases hconfig : checkConfig guard.expectedProfile config with
    | error refusal =>
      cases refusal with
      | blocked reasonCode => exact .inr (.inl ⟨_, rfl, rfl⟩)
      | overflow => exact .inl rfl
    | ok checked =>
      obtain ⟨c, mode, residency⟩ := checked
      dsimp only
      cases hegress : findEgress lib c context.tenantId provider connector url with
      | error refusal =>
        cases refusal with
        | blocked reasonCode => exact .inr (.inl ⟨_, rfl, rfl⟩)
        | overflow => exact .inl rfl
      | ok found =>
        obtain ⟨normalized, egress⟩ := found
        dsimp only
        cases hjudged : judgeEgress lib c mode residency egress context.tenantId now with
        | error refusal =>
          cases refusal with
          | blocked reasonCode => exact .inr (.inl ⟨_, rfl, rfl⟩)
          | overflow => exact .inl rfl
        | ok reasonCode =>
          obtain ⟨hsupplied, hconfigured⟩ := checkConfig_ok hconfig
          obtain ⟨hurl, hdeclared, hservice⟩ := findEgress_ok hegress
          obtain ⟨htenant, hlocation, hevidence⟩ := judgeEgress_ok hjudged
          have hadmitted : Admitted lib guard c context.tenantId provider connector url normalized
              now mode residency egress :=
            ⟨hconfigured, hurl, hdeclared, hservice, htenant, hlocation, hevidence⟩
          exact .inr (.inr
            ⟨now, c, mode, residency, egress, normalized, _, rfl, hsupplied, hadmitted, rfl, rfl⟩)

theorem settle_ok {context : EgressRequestContext} {d : EgressDecision} {allowed url : String}
    (h : (settle context d allowed).outcome = .ok url) :
    context.recordDecision d = true ∧ d.decision = "ALLOWED" ∧ url = allowed := by
  unfold settle at h
  dsimp only at h
  split_ifs at h with hrecord hdecision
  exact ⟨Bool.not_eq_false _ ▸ hrecord, not_not.mp hdecision, (Except.ok.inj h).symm⟩

theorem settle_rejected {context : EgressRequestContext} {d : EgressDecision}
    {allowed reasonCode : String}
    (h : (settle context d allowed).outcome = .error (.egressRejected reasonCode)) :
    (context.recordDecision d = false ∧ reasonCode = "EGRESS_AUDIT_FAILED") ∨
      (context.recordDecision d = true ∧ d.decision ≠ "ALLOWED" ∧ reasonCode = d.reasonCode) := by
  unfold settle at h
  dsimp only at h
  split_ifs at h with hrecord hdecision
  · cases h
    exact .inl ⟨hrecord, rfl⟩
  · cases h
    exact .inr ⟨Bool.not_eq_false _ ▸ hrecord, hdecision, rfl⟩

/-- The guard is fail-closed: a URL is returned for a request that fulfils all the conditions,
after one ALLOWED decision was recorded; a rejection for another reason than a failing recorder
comes after one BLOCKED decision; and no URL is returned when the recorder fails. -/
theorem authorize_fail_closed (lib : EgressLibrary) (guard : ResidencyEgressGuard)
    (clock : Option Instant) (config : Option RuntimeConfig) (context : EgressRequestContext)
    (provider connector url : String) :
    let result := guard.authorize lib clock config context provider connector url
    (∀ normalized, result.outcome = .ok normalized →
      (∃ now c mode residency egress, clock = some now ∧ config = some c ∧
        Admitted lib guard c context.tenantId provider connector url normalized now mode residency
          egress) ∧
      ∃ d, result.decisions = [d] ∧ d.decision = "ALLOWED" ∧ context.recordDecision d = true) ∧
    (∀ reasonCode, result.outcome = .error (.egressRejected reasonCode) →
      (reasonCode = "EGRESS_AUDIT_FAILED" ∧
        ∃ d ∈ result.decisions, context.recordDecision d = false) ∨
      ∃ d, result.decisions = [d] ∧ d.decision = "BLOCKED" ∧ d.reasonCode = reasonCode ∧
        context.recordDecision d = true) ∧
    ∀ d ∈ result.decisions, context.recordDecision d = false →
      ∀ normalized, result.outcome ≠ .ok normalized := by
  dsimp only
  obtain h | ⟨d, hd, h⟩ |
      ⟨now, c, mode, residency, egress, allowed, d, hclock, hconfig, hadmitted, hd, h⟩ :=
    authorize_cases lib guard clock config context provider connector url
  · rw [h]
    simp
  · rw [h]
    have hblocked : d.decision ≠ "ALLOWED" := by simp [hd]
    refine ⟨fun _ hok => absurd (settle_ok hok).2.1 hblocked, fun reasonCode hrejected => ?_,
      fun _ _ _ _ hok => hblocked (settle_ok hok).2.1⟩
    rcases settle_rejected hrejected with ⟨hfailed, hreason⟩ | ⟨hrecorded, -, hreason⟩
    · exact .inl ⟨hreason, d, List.mem_singleton_self d, hfailed⟩
    · exact .inr ⟨d, rfl, hd, hreason.symm, hrecorded⟩
  · rw [h]
    refine ⟨fun normalized hok => ?_, fun reasonCode hrejected => ?_,
      fun d' hmem hfailed _ hok => ?_⟩
    · obtain ⟨hrecorded, -, rfl⟩ := settle_ok hok
      exact ⟨⟨now, c, mode, residency, egress, hclock, hconfig, hadmitted⟩, d, rfl, hd, hrecorded⟩
    · rcases settle_rejected hrejected with ⟨hfailed, hreason⟩ | ⟨-, hblocked, -⟩
      · exact .inl ⟨hreason, d, List.mem_singleton_self d, hfailed⟩
      · exact absurd hd hblocked
    · obtain rfl := List.mem_singleton.mp hmem
      rw [(settle_ok hok).1] at hfailed
      cases hfailed

end Guard

/-! ## A development deployment and a managed one -/

/-- ISO 8601 for two texts. -/
def plainEgressLibrary : EgressLibrary where
  toConfigLibrary := plainConfigLibrary
  fromisoformat := Research.plainLibrary.fromisoformat
  isoformat := Research.plainLibrary.isoformat

def developmentResidency : DataResidencyPolicy where
  storageLocations := ["local-development"]
  processingLocations := ["local-development"]
  backupLocations := ["local-development"]
  supportAccessLocations := ["local-development"]
  externalProcessingLocations := ["external-unspecified"]
  evidenceRefs := []

/-- A search service that its operator declares. -/
def declaredSearch : ProviderEgress where
  provider := "search"
  service := "web-search"
  host := "api.example.org"
  processingLocation := "external-unspecified"
  confirmedProcessingLocations := []
  tenantIds := ["*"]
  attestation :=
    { evidenceId := "declaration-1"
      evidenceType := "OPERATOR_SELF_DECLARATION"
      evidenceRef := "https://example.org/declaration"
      issuer := "operator"
      issuedAt := "2026-01-01T00:00:00Z"
      validFrom := "2026-01-01T00:00:00Z"
      expiresAt := "2027-01-01T00:00:00Z"
      verificationStatus := "UNVERIFIED"
      verifiedAt := none
      verifiedBy := none
      documentHash := none }

def developmentConfig : RuntimeConfig where
  profile := .development
  operatingMode := some .developmentProviderIntegration
  dataResidency := some developmentResidency
  databaseBackend := .sqlite
  authenticationMode := .static
  secretProvider := .environment
  databaseDsnSecret := ⟨"app-dsn", true, by decide⟩
  workerDatabaseDsnSecret := ⟨"worker-dsn", true, by decide⟩
  oidc := none
  egressAllowedHosts := ["API.example.org."]
  providerEgress := [declaredSearch]
  controlledPilot := none
  workerPolicy := JobPolicy.standard

/-- A recorder that takes every decision. -/
def plainContext : EgressRequestContext := ⟨"tenant-a", "actor-1", "correlation-1", fun _ => true⟩

/-- ISO 8601 for two more texts. -/
def datedEgressLibrary : EgressLibrary :=
  { plainEgressLibrary with
    fromisoformat := fun s =>
      if s = "2027-01-01T00:00:00+00:00" then some ⟨1798761600000000, some 0⟩
      else plainEgressLibrary.fromisoformat s }

def managedResidency : DataResidencyPolicy where
  storageLocations := ["DE"]
  processingLocations := ["DE", "FR"]
  backupLocations := ["DE"]
  supportAccessLocations := ["DE"]
  externalProcessingLocations := ["IE"]
  evidenceRefs := ["https://example.org/residency"]

/-- A search service whose location is attested. -/
def attestedSearch : ProviderEgress :=
  { declaredSearch with
    processingLocation := "IE"
    confirmedProcessingLocations := ["DE", "IE"]
    tenantIds := ["tenant-b", "tenant-a"]
    attestation := { declaredSearch.attestation with
      evidenceType := "DPA"
      issuer := "provider"
      verificationStatus := "VERIFIED"
      verifiedAt := some "2026-01-01T00:00:00Z"
      verifiedBy := some "auditor" } }

def managedOidc : OidcRuntimeConfig where
  policy :=
    { issuer := "https://login.example.org"
      audience := "decision-assurance"
      algorithms := ["RS256"]
      tenantClaim := "tenant"
      actorIdClaim := "sub"
      roleClaim := "role"
      actorKindClaim := "kind"
      organizationClaim := none
      groupsClaim := none
      clockSkewSeconds := 30
      authorizedParties := ["client"]
      requiredScopes := ["openid"]
      allowInsecureLoopback := false }
  jwksUri := "https://login.example.org/keys"

def managedConfig : RuntimeConfig where
  profile := .production
  operatingMode := some .euManaged
  dataResidency := some managedResidency
  databaseBackend := .postgresql
  authenticationMode := .oidc
  secretProvider := .external
  databaseDsnSecret := ⟨"app-dsn", true, by decide⟩
  workerDatabaseDsnSecret := ⟨"worker-dsn", true, by decide⟩
  oidc := some managedOidc
  egressAllowedHosts := ["API.example.org."]
  providerEgress := [attestedSearch]
  controlledPilot := none
  workerPolicy := JobPolicy.standard

/-- The call of a search on a deployment. -/
def searchOn (config : RuntimeConfig) : Authorization :=
  ResidencyEgressGuard.authorize datedEgressLibrary ⟨some config.profile⟩ (some 1767225600000000)
    (some config) plainContext "search" "web-search" "https://API.example.org:443/v1?q=1"

/-- Either deployment lets the search through, the managed one for its attestation. -/
theorem authorize_development_managed :
    (∀ config ∈ [developmentConfig, managedConfig], config.check plainConfigLibrary = .ok () ∧
      (searchOn config).outcome = .ok "https://api.example.org:443/v1?q=1" ∧
      ∃ d, (searchOn config).decisions = [d] ∧ d.decision = "ALLOWED" ∧
        plainContext.recordDecision d = true) ∧
    Attested datedEgressLibrary attestedSearch 1767225600000000 := by
  have hchecked : ∀ config ∈ [developmentConfig, managedConfig],
      config.check plainConfigLibrary = .ok () := by
    decide +kernel
  have hallowed : ∀ config ∈ [developmentConfig, managedConfig],
      (searchOn config).outcome = .ok "https://api.example.org:443/v1?q=1" := by
    decide +kernel
  have hclosed := fun config => (authorize_fail_closed datedEgressLibrary
    ⟨some (RuntimeConfig.profile config)⟩ (some 1767225600000000) (some config) plainContext
    "search" "web-search" "https://API.example.org:443/v1?q=1").1
    "https://api.example.org:443/v1?q=1"
  refine ⟨fun config hconfig => ⟨hchecked config hconfig, hallowed config hconfig,
    (hclosed config (hallowed config hconfig)).2⟩, ?_⟩
  obtain ⟨⟨now, c, mode, residency, egress, hnow, hc, hadmitted⟩, -⟩ :=
    hclosed managedConfig (hallowed managedConfig (by simp))
  cases hnow
  cases hc
  obtain rfl : attestedSearch = egress := Option.some.inj (hadmitted.declared.symm.trans rfl).symm
  rcases hadmitted.evidence with hexception | ⟨-, hattested⟩
  · exact absurd hexception.profile nofun
  · exact hattested

end DecisionAssurance.Production
