import DecisionAssurance.JobContracts
import DecisionAssurance.UrlSplitting

/-!
# The contracts of a deployment

The records of a runtime configuration, each with the checks its constructor makes.
-/

namespace DecisionAssurance.Production

open Research (UnicodeText IpAddress UrlParts rstripDots)
open Jobs (JobPolicy)

/-- What a configuration is refused with: a `ValueError` of the contracts, one that the standard
library raises, or another exception. -/
inductive ConfigError where
  | valueError (code : String)
  | libraryValueError
  | typeError
  | attributeError
  | overflowError
  deriving DecidableEq

/-- The functions of the standard library that a configuration is read with. -/
structure ConfigLibrary where
  text : UnicodeText
  casefold : String → String
  upper : String → String
  ipAddress : String → Option IpAddress
  /-- `ipaddress.ip_network(value, strict=True)` does not raise. -/
  isNetwork : String → Bool
  /-- `int(value)` of a text and of a floating point number. -/
  parseInt : String → Option Int
  truncate : String → Except ConfigError Int
  /-- `str(value)` of a value that is no text. -/
  represent : Json → String
  /-- `is_absolute()` and `parts` of a `PurePosixPath` and of a `PureWindowsPath`. -/
  posixPath : String → Bool × List String
  windowsPath : String → Bool × List String

def refuse (code : String) (p : Prop) [Decidable p] : Except ConfigError Unit :=
  if p then .error (.valueError code) else .ok ()

inductive EnvironmentProfile where
  | development
  | test
  | staging
  | production
  deriving DecidableEq

def EnvironmentProfile.value : EnvironmentProfile → String
  | .development => "development"
  | .test => "test"
  | .staging => "staging"
  | .production => "production"

inductive OperatingMode where
  | developmentProviderIntegration
  | local_
  | euManaged
  | controlledPilot
  deriving DecidableEq

def OperatingMode.value : OperatingMode → String
  | .developmentProviderIntegration => "development-provider-integration"
  | .local_ => "local"
  | .euManaged => "eu-managed"
  | .controlledPilot => "controlled-pilot"

inductive DatabaseBackend where
  | sqlite
  | postgresql
  deriving DecidableEq

def DatabaseBackend.value : DatabaseBackend → String
  | .sqlite => "sqlite"
  | .postgresql => "postgresql"

inductive AuthenticationMode where
  | static
  | oidc
  deriving DecidableEq

def AuthenticationMode.value : AuthenticationMode → String
  | .static => "static"
  | .oidc => "oidc"

inductive SecretProviderMode where
  | environment
  | external
  deriving DecidableEq

def SecretProviderMode.value : SecretProviderMode → String
  | .environment => "environment"
  | .external => "external"

inductive SigningMode where
  | development
  | controlledPilot
  | productionAdapter
  deriving DecidableEq

def SigningMode.value : SigningMode → String
  | .development => "development"
  | .controlledPilot => "controlled-pilot"
  | .productionAdapter => "production-adapter"

/-- The name of a secret; building one checks `_ID`. -/
structure SecretReference where
  name : String
  required : Bool
  valid : isContractId name = true
  deriving DecidableEq

/-- `SecretReference(name)` -/
def SecretReference.build (name : String) : Except ConfigError SecretReference :=
  if h : isContractId name = true then .ok ⟨name, true, h⟩
  else .error (.valueError "INVALID_SECRET_REFERENCE")

/-- `JobPolicy(...)` -/
def buildJobPolicy (maxAttempts leaseSeconds baseBackoffSeconds maximumBackoffSeconds : Int) :
    Except ConfigError JobPolicy :=
  if hattempts : 1 ≤ maxAttempts ∧ maxAttempts ≤ 20 then
    if hlease : 5 ≤ leaseSeconds ∧ leaseSeconds ≤ 3600 then
      if hbackoff : 1 ≤ baseBackoffSeconds ∧ baseBackoffSeconds ≤ maximumBackoffSeconds ∧
          maximumBackoffSeconds ≤ 86400 then
        .ok
          { maxAttempts := maxAttempts.toNat
            leaseSeconds := leaseSeconds.toNat
            baseBackoffSeconds := baseBackoffSeconds.toNat
            maximumBackoffSeconds := maximumBackoffSeconds.toNat
            attempts_ok := by omega
            lease_ok := by omega
            backoff_ok := by omega }
      else .error (.valueError "INVALID_JOB_BACKOFF")
    else .error (.valueError "INVALID_JOB_LEASE")
  else .error (.valueError "INVALID_JOB_ATTEMPT_LIMIT")

structure OidcPolicy where
  issuer : String
  audience : String
  algorithms : List String
  tenantClaim : String
  actorIdClaim : String
  roleClaim : String
  actorKindClaim : String
  organizationClaim : Option String
  groupsClaim : Option String
  clockSkewSeconds : Int
  authorizedParties : List String
  requiredScopes : List String
  allowInsecureLoopback : Bool
  deriving DecidableEq

structure OidcRuntimeConfig where
  policy : OidcPolicy
  jwksUri : String
  deriving DecidableEq

structure SigningSettings where
  mode : SigningMode
  keyId : String
  keyReference : String
  deriving DecidableEq

structure ControlledPilotConfig where
  publicBaseUrl : String
  oidcRedirectUri : String
  postLogoutRedirectUri : String
  allowedHosts : List String
  trustedProxyCidrs : List String
  auditPersistence : Bool
  backupConfigurationRef : String
  lifecyclePseudonymizationSecret : SecretReference
  sessionPepperSecret : SecretReference
  sessionEnvelopeKeySecret : SecretReference
  exportSigning : SigningSettings
  retentionDays : Int
  pilotTenant : String
  healthPath : String
  readinessPath : String
  deriving DecidableEq

structure DataResidencyPolicy where
  storageLocations : List String
  processingLocations : List String
  backupLocations : List String
  supportAccessLocations : List String
  externalProcessingLocations : List String
  evidenceRefs : List String
  deriving DecidableEq

structure ProviderAttestation where
  evidenceId : String
  evidenceType : String
  evidenceRef : String
  issuer : String
  issuedAt : String
  validFrom : String
  expiresAt : String
  verificationStatus : String
  verifiedAt : Option String
  verifiedBy : Option String
  documentHash : Option String
  deriving DecidableEq

structure ProviderEgress where
  provider : String
  service : String
  host : String
  processingLocation : String
  confirmedProcessingLocations : List String
  tenantIds : List String
  attestation : ProviderAttestation
  deriving DecidableEq

structure RuntimeConfig where
  profile : EnvironmentProfile
  operatingMode : Option OperatingMode
  dataResidency : Option DataResidencyPolicy
  databaseBackend : DatabaseBackend
  authenticationMode : AuthenticationMode
  secretProvider : SecretProviderMode
  databaseDsnSecret : SecretReference
  workerDatabaseDsnSecret : SecretReference
  oidc : Option OidcRuntimeConfig
  egressAllowedHosts : List String
  providerEgress : List ProviderEgress
  controlledPilot : Option ControlledPilotConfig
  workerPolicy : JobPolicy

/-- `_EU_COUNTRY_CODES` -/
def euCountryCodes : List String :=
  ["AT", "BE", "BG", "CY", "CZ", "DE", "DK", "EE", "ES", "FI", "FR", "GR", "HR", "HU", "IE", "IT",
    "LT", "LU", "LV", "MT", "NL", "PL", "PT", "RO", "SE", "SI", "SK"]

/-- `value.strip()` -/
def stripped (value : String) : String := String.ofList (strip value.toList)

/-- The items of two lists are the same set. -/
def SameItems (xs ys : List String) : Prop := (∀ x ∈ xs, x ∈ ys) ∧ ∀ y ∈ ys, y ∈ xs

instance (xs ys : List String) : Decidable (SameItems xs ys) :=
  inferInstanceAs (Decidable ((∀ x ∈ xs, x ∈ ys) ∧ ∀ y ∈ ys, y ∈ xs))

/-! ## The checks of the constructors -/

/-- `validate_for` -/
def DataResidencyPolicy.validateFor (p : DataResidencyPolicy) (mode : OperatingMode) :
    Except ConfigError Unit := do
  let required := [p.storageLocations, p.processingLocations, p.backupLocations,
    p.supportAccessLocations]
  refuse "DATA_LOCATION_REQUIRED" (∃ locations ∈ required, locations = [])
  match mode with
  | .developmentProviderIntegration =>
    refuse "DEVELOPMENT_DATA_BOUNDARY_REQUIRED"
      (∃ locations ∈ required, locations ≠ ["local-development"])
    refuse "DEVELOPMENT_EXTERNAL_LOCATION_REQUIRED"
      (p.externalProcessingLocations ≠ ["external-unspecified"])
  | .local_ =>
    refuse "LOCAL_DATA_BOUNDARY_REQUIRED" (∃ locations ∈ required, locations ≠ ["local"])
    refuse "LOCAL_PROVIDER_PROCESSING_REQUIRED"
      (∃ location ∈ p.externalProcessingLocations, location ≠ "local")
  | .euManaged | .controlledPilot =>
    refuse "EU_DATA_LOCATION_REQUIRED"
      (∃ location ∈ required.flatten ++ p.externalProcessingLocations, location ∉ euCountryCodes)
    refuse "EU_RESIDENCY_EVIDENCE_REQUIRED" (p.evidenceRefs = [])
    refuse "INVALID_RESIDENCY_EVIDENCE_REFERENCE"
      (∃ reference ∈ p.evidenceRefs, ¬ "https://".toList.isPrefixOf reference.toList)

section Constructors

variable (lib : ConfigLibrary)

/-- `urlsplit(value)` -/
def ConfigLibrary.urlsplit (value : String) : Except ConfigError UrlParts :=
  orRaise .libraryValueError (Research.urlsplit lib.text lib.ipAddress value)

/-- The fragment of `urlsplit(value)`. -/
def fragmentOf (value : String) : List Char :=
  Research.afterFirst '#'
    (Research.splitNetloc (Research.splitScheme (Research.cleaned value.toList)).2).2

/-- `value.casefold().rstrip(".")` -/
def ConfigLibrary.normalHost (value : String) : String :=
  String.ofList (rstripDots (lib.casefold value).toList)

def isLoopback (hostname : Option String) : Bool :=
  hostname = some "127.0.0.1" || hostname = some "::1" || hostname = some "localhost"

/-- A text is there and not empty. -/
def isText (value : Option String) : Bool := value.any fun s => s ≠ ""

/-- `OidcPolicy.__post_init__` -/
def OidcPolicy.check (p : OidcPolicy) : Except ConfigError Unit := do
  let issuer ← lib.urlsplit p.issuer
  let loopback := issuer.scheme = "http" && isLoopback issuer.hostname
  refuse "INVALID_OIDC_TRUST_CONFIGURATION"
    ((issuer.scheme ≠ "https" ∧ ¬ (p.allowInsecureLoopback && loopback)) ∨
      ¬ isText issuer.hostname ∨ issuer.username ≠ none ∨ issuer.password ≠ none ∨
      issuer.query ≠ "" ∨ fragmentOf p.issuer ≠ [] ∨ isBlank p.audience)
  refuse "INVALID_OIDC_ALGORITHM_ALLOWLIST"
    (p.algorithms = [] ∨ ∃ item ∈ p.algorithms, item ≠ "RS256" ∧ item ≠ "ES256")
  refuse "INVALID_OIDC_CLAIM_MAPPING"
    (∃ item ∈ [p.tenantClaim, p.actorIdClaim, p.roleClaim, p.actorKindClaim], isBlank item)
  refuse "INVALID_OIDC_CLOCK_SKEW" (¬ (0 ≤ p.clockSkewSeconds ∧ p.clockSkewSeconds ≤ 120))
  refuse "INVALID_OIDC_AUTHORIZED_PARTY"
    (∃ item ∈ p.authorizedParties, isBlank item ∨ 256 < item.toList.length)
  refuse "INVALID_OIDC_REQUIRED_SCOPE"
    (∃ item ∈ p.requiredScopes, isBlank item ∨ 128 < item.toList.length)

/-- `OidcRuntimeConfig.__post_init__`. The ports are read last, and reading one may raise. -/
def OidcRuntimeConfig.check (c : OidcRuntimeConfig) : Except ConfigError Unit := do
  let parsed ← lib.urlsplit c.jwksUri
  let loopback := parsed.scheme = "http" && isLoopback parsed.hostname
  let issuer ← lib.urlsplit c.policy.issuer
  refuse "INVALID_OIDC_JWKS_URI"
    ((parsed.scheme ≠ "https" ∧ ¬ (c.policy.allowInsecureLoopback && loopback)) ∨
      ¬ isText parsed.hostname ∨ parsed.username ≠ none ∨ parsed.password ≠ none ∨
      parsed.query ≠ "" ∨ fragmentOf c.jwksUri ≠ [])
  let port ← orRaise .libraryValueError parsed.port
  let issuerPort ← orRaise .libraryValueError issuer.port
  refuse "INVALID_OIDC_JWKS_URI"
    ((parsed.scheme, parsed.hostname, port) ≠ (issuer.scheme, issuer.hostname, issuerPort))

/-- Texts that stand for a value nobody has filled in. -/
def placeholders : List String := ["example", "default", "placeholder", "changeme"]

/-- `ControlledPilotConfig.__post_init__`, which stores the allowed hosts in normal form. -/
def ControlledPilotConfig.build (c : ControlledPilotConfig) :
    Except ConfigError ControlledPilotConfig := do
  let urls := [c.publicBaseUrl, c.oidcRedirectUri, c.postLogoutRedirectUri]
  let parsed ← urls.mapM lib.urlsplit
  refuse "PILOT_HTTPS_REQUIRED" (∃ item ∈ parsed, item.scheme ≠ "https" ∨ ¬ isText item.hostname)
  refuse "PILOT_LOOPBACK_FORBIDDEN" (∃ item ∈ parsed, isLoopback item.hostname)
  refuse "INVALID_PILOT_PUBLIC_URL"
    ((∃ item ∈ parsed, isText item.username ∨ isText item.password) ∨
      ∃ url ∈ urls, fragmentOf url ≠ [])
  let hosts := c.allowedHosts.map lib.normalHost
  refuse "PILOT_ALLOWED_HOSTS_REQUIRED" (hosts = [] ∨ "" ∈ hosts)
  let publicHost := parsed.head?.bind UrlParts.hostname
  refuse "PILOT_PUBLIC_HOST_NOT_ALLOWED" (¬ publicHost.any fun host => lib.normalHost host ∈ hosts)
  refuse "PILOT_REDIRECT_HOST_MISMATCH" (∃ item ∈ parsed.tail, item.hostname ≠ publicHost)
  refuse "PILOT_TRUSTED_PROXY_REQUIRED" (c.trustedProxyCidrs = [])
  refuse "INVALID_PILOT_TRUSTED_PROXY" (∃ network ∈ c.trustedProxyCidrs, ¬ lib.isNetwork network)
  refuse "PILOT_AUDIT_PERSISTENCE_REQUIRED" (c.auditPersistence = false)
  let backup := lib.casefold (stripped c.backupConfigurationRef)
  refuse "PILOT_BACKUP_CONFIGURATION_REQUIRED" (backup = "" ∨ backup ∈ placeholders)
  refuse "PILOT_RETENTION_REQUIRED" (¬ (1 ≤ c.retentionDays ∧ c.retentionDays ≤ 3650))
  refuse "PILOT_TENANT_REQUIRED" (isBlank c.pilotTenant)
  refuse "PILOT_HEALTH_PROBES_REQUIRED"
    (c.healthPath ≠ "/health/live" ∨ c.readinessPath ≠ "/health/ready")
  return { c with allowedHosts := hosts }

/-- The checks of a provider in `RuntimeConfig.__post_init__` of a managed deployment. -/
def ProviderEgress.check (provider : ProviderEgress) (mode : OperatingMode)
    (residency : DataResidencyPolicy) : Except ConfigError Unit := do
  refuse "LOCAL_PROVIDER_PROCESSING_REQUIRED"
    (mode = .local_ ∧ provider.processingLocation ≠ "local")
  refuse "EU_PROVIDER_PROCESSING_REQUIRED"
    (mode = .euManaged ∧ provider.processingLocation ∉ euCountryCodes)
  refuse "PROVIDER_PROCESSING_LOCATION_UNDECLARED"
    (provider.processingLocation ∉ residency.externalProcessingLocations)

/-- The declared hosts are those of the allowlist. -/
def RuntimeConfig.checkHosts (c : RuntimeConfig) : Except ConfigError Unit :=
  refuse "PROVIDER_EGRESS_ALLOWLIST_MISMATCH"
    (¬ SameItems (c.providerEgress.map ProviderEgress.host)
      (c.egressAllowedHosts.map lib.normalHost))

/-- `__post_init__` for staging and production. -/
def RuntimeConfig.checkManaged (c : RuntimeConfig) : Except ConfigError Unit := do
  let mode ← orRaise (.valueError "OPERATING_MODE_REQUIRED") c.operatingMode
  let residency ← orRaise (.valueError "DATA_RESIDENCY_POLICY_REQUIRED") c.dataResidency
  refuse "DEVELOPMENT_PROVIDER_PROFILE_FORBIDDEN" (mode = .developmentProviderIntegration)
  residency.validateFor mode
  refuse "PRODUCTION_REQUIRES_POSTGRESQL" (c.databaseBackend ≠ .postgresql)
  refuse "PRODUCTION_REQUIRES_OIDC" (c.authenticationMode ≠ .oidc)
  let oidc ← orRaise (.valueError "PRODUCTION_REQUIRES_OIDC") c.oidc
  refuse "PRODUCTION_OIDC_HTTPS_REQUIRED" (oidc.policy.allowInsecureLoopback = true)
  refuse "OIDC_AUTHORIZED_PARTIES_REQUIRED" (oidc.policy.authorizedParties = [])
  refuse "OIDC_REQUIRED_SCOPES_REQUIRED" (oidc.policy.requiredScopes = [])
  refuse "EXTERNAL_SECRET_PROVIDER_REQUIRED" (c.secretProvider ≠ .external)
  refuse "EGRESS_ALLOWLIST_REQUIRED" (c.egressAllowedHosts = [])
  refuse "PROVIDER_EGRESS_REQUIRED" (c.providerEgress = [])
  refuse "DUPLICATE_PROVIDER_EGRESS_HOST" (¬ (c.providerEgress.map ProviderEgress.host).Nodup)
  c.checkHosts lib
  c.providerEgress.forM fun provider => provider.check mode residency

/-- `__post_init__` for a development deployment with a mode or a residency policy. -/
def RuntimeConfig.checkDevelopment (c : RuntimeConfig) : Except ConfigError Unit := do
  refuse "DEVELOPMENT_PROVIDER_PROFILE_REQUIRED"
    (c.operatingMode ≠ some .developmentProviderIntegration)
  let residency ← orRaise (.valueError "DATA_RESIDENCY_POLICY_REQUIRED") c.dataResidency
  residency.validateFor .developmentProviderIntegration
  c.checkHosts lib
  refuse "DEVELOPMENT_EXTERNAL_LOCATION_REQUIRED"
    (∃ item ∈ c.providerEgress, item.processingLocation ≠ "external-unspecified")

/-- `RuntimeConfig.__post_init__` -/
def RuntimeConfig.check (c : RuntimeConfig) : Except ConfigError Unit := do
  if c.operatingMode = some .controlledPilot then
    refuse "CONTROLLED_PILOT_CONFIGURATION_REQUIRED" (c.controlledPilot = none)
  else refuse "CONTROLLED_PILOT_PROFILE_REQUIRED" (c.controlledPilot ≠ none)
  if c.profile = .staging ∨ c.profile = .production then c.checkManaged lib
  else if c.operatingMode ≠ none ∨ c.dataResidency ≠ none then c.checkDevelopment lib
  else .ok ()

end Constructors

end DecisionAssurance.Production
