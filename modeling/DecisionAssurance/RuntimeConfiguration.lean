import DecisionAssurance.JsonReaders
import DecisionAssurance.ProductionContracts

/-!
# Reading a runtime configuration

`RuntimeConfig.from_mapping` on a JSON value. It first refuses a key that names a literal secret;
that scan follows the objects in objects and does not enter lists.
-/

namespace DecisionAssurance.Production

open Json (field?)

abbrev Mapping := List (String × Json)

/-- The names `_reject_literal_secrets` forbids. -/
def forbiddenKeys : List String := ["password", "api_key", "token", "secret_value", "database_dsn"]

section Readers

variable (lib : ConfigLibrary)

mutual

/-- `_reject_literal_secrets` finds nothing in the fields. -/
def scanFields : Mapping → Bool
  | [] => true
  | (key, value) :: fields =>
    !forbiddenKeys.contains (lib.casefold key) && scanValue value && scanFields fields

/-- The scan of a value, which goes on where that is an object. -/
def scanValue : Json → Bool
  | .obj fields => scanFields fields
  | .null | .bool _ | .int _ | .float _ | .str _ | .arr _ => true

end

/-- `raw.get(key)` -/
def value (raw : Mapping) (key : String) : Json := (field? raw key).getD .null

/-- `_required` -/
def required (raw : Mapping) (key : String) : Except ConfigError String :=
  orRaise (.valueError ("CONFIG_VALUE_REQUIRED:" ++ key)) (value raw key).asString

def invalidValue (key : String) : ConfigError := .valueError ("INVALID_CONFIG_VALUE:" ++ key)

/-- `_required_nonempty` -/
def requiredNonempty (raw : Mapping) (key : String) : Except ConfigError String := do
  let text := stripped (← required raw key)
  if text = "" then .error (invalidValue key) else .ok text

/-- `_optional` -/
def optional (raw : Mapping) (key : String) : Except ConfigError (Option String) :=
  match value raw key with
  | .null => .ok none
  | .str s => .ok (some s)
  | _ => .error (invalidValue key)

/-- `_optional_string` -/
def optionalString (raw : Mapping) (key : String) : Except ConfigError (Option String) :=
  match value raw key with
  | .null => .ok none
  | .str s => if isBlank s then .error (invalidValue key) else .ok (some (stripped s))
  | _ => .error (invalidValue key)

/-- `_boolean` -/
def boolean (raw : Mapping) (key : String) (default : Bool) : Except ConfigError Bool :=
  match field? raw key with
  | none => .ok default
  | some (.bool b) => .ok b
  | some _ => .error (invalidValue key)

/-- The texts of a list, which has nothing else. -/
def texts : Json → Option (List String)
  | .arr items => items.mapM Json.asString
  | _ => none

/-- `_string_tuple` -/
def stringTuple (raw : Mapping) (key : String) : Except ConfigError (List String) := do
  let items ← orRaise (invalidValue key) (texts (value raw key))
  let normalized := items.map stripped
  if "" ∈ normalized ∨ ¬ normalized.Nodup then .error (invalidValue key) else .ok normalized

/-- The object of a value. -/
def mappingOr (e : ConfigError) (j : Json) : Except ConfigError Mapping := orRaise e j.asObject

/-- `int(value)` -/
def toInt : Json → Except ConfigError Int
  | .bool b => .ok (if b then 1 else 0)
  | .int n => .ok n
  | .float text => lib.truncate text
  | .str s => orRaise .libraryValueError (lib.parseInt s)
  | .null | .arr _ | .obj _ => .error .typeError

/-- `int(raw.get(key, default))` -/
def intOr (raw : Mapping) (key : String) (default : Int) : Except ConfigError Int :=
  toInt lib ((field? raw key).getD (.int default))

/-- `str(value)` -/
def toText : Json → String
  | .str s => s
  | j => lib.represent j

/-- `str(raw.get(key, default))` -/
def textOr (raw : Mapping) (key default : String) : String :=
  toText lib ((field? raw key).getD (.str default))

/-- A member of an enumeration by its value. -/
def member {α : Type} (value : α → String) (members : List α) (s : String) :
    Except ConfigError α :=
  orRaise .libraryValueError (members.find? fun a => value a = s)

/-- A key the record does not have. -/
def Unknown (raw : Mapping) (fields : List String) : Prop := ∃ f ∈ raw, f.1 ∉ fields

instance (raw : Mapping) (fields : List String) : Decidable (Unknown raw fields) :=
  inferInstanceAs (Decidable (∃ f ∈ raw, f.1 ∉ fields))

/-- `_locations` -/
def locations (raw : Mapping) (key : String) : Except ConfigError (List String) := do
  let values ← stringTuple raw key
  return values.map fun value =>
    if value ∈ ["local", "local-development", "external-unspecified"] then value
    else lib.upper value

/-- `_residency_policy` -/
def residencyPolicy (j : Json) : Except ConfigError DataResidencyPolicy := do
  let raw ← mappingOr (.valueError "INVALID_DATA_RESIDENCY_POLICY") j
  refuse "UNKNOWN_DATA_RESIDENCY_FIELD" (Unknown raw
    ["storage_locations", "processing_locations", "backup_locations", "support_access_locations",
      "external_processing_locations", "evidence_refs"])
  return {
    storageLocations := ← locations lib raw "storage_locations"
    processingLocations := ← locations lib raw "processing_locations"
    backupLocations := ← locations lib raw "backup_locations"
    supportAccessLocations := ← locations lib raw "support_access_locations"
    externalProcessingLocations := ← locations lib raw "external_processing_locations"
    evidenceRefs := ← stringTuple raw "evidence_refs" }

/-- `_pilot_secret_reference` -/
def pilotSecretReference (raw : Mapping) (key : String) : Except ConfigError SecretReference := do
  let name ← requiredNonempty raw key
  refuse "PILOT_SECRET_REFERENCE_REQUIRED" (lib.casefold name ∈ placeholders)
  (SecretReference.build name).mapError fun _ => .valueError "PILOT_SECRET_REFERENCE_REQUIRED"

/-- The reference of a signing key fits its mode. -/
def checkKeyReference (mode : SigningMode) (reference : String) : Except ConfigError Unit :=
  let startsWith (start : String) := start.toList.isPrefixOf reference.toList
  match mode with
  | .development =>
    refuse "DEVELOPMENT_SIGNING_REFERENCE_REQUIRED" (¬ startsWith ".secrets/")
  | .controlledPilot =>
    let posix := lib.posixPath reference
    let windows := lib.windowsPath reference
    refuse "PILOT_SECRET_REFERENCE_REQUIRED"
      (¬ (posix.1 || windows.1) ∨ ".secrets" ∈ posix.2 ++ windows.2)
  | .productionAdapter =>
    refuse "EXTERNAL_SIGNING_REFERENCE_REQUIRED"
      (¬ (startsWith "kms-ref://" || startsWith "hsm-ref://" || startsWith "vault-ref://"))

/-- `SigningSettings.from_mapping` -/
def signingSettings (raw : Mapping) : Except ConfigError SigningSettings := do
  refuse "INVALID_SIGNING_CONFIGURATION"
    (¬ SameItems (raw.map Prod.fst) ["mode", "key_id", "key_reference"])
  let mode ← (member SigningMode.value [.development, .controlledPilot, .productionAdapter]
    (toText lib (value raw "mode"))).mapError fun _ => .valueError "INVALID_SIGNING_MODE"
  let keyId ← orRaise (.valueError "INVALID_SIGNING_CONFIGURATION") (value raw "key_id").asString
  let reference ←
    orRaise (.valueError "INVALID_SIGNING_CONFIGURATION") (value raw "key_reference").asString
  refuse "INVALID_SIGNING_CONFIGURATION" (¬ (1 ≤ keyId.toList.length ∧ keyId.toList.length ≤ 128) ∨
    ¬ (1 ≤ reference.toList.length ∧ reference.toList.length ≤ 512))
  checkKeyReference lib mode reference
  return ⟨mode, keyId, reference⟩

/-- `_controlled_pilot_config` -/
def controlledPilotConfig (j : Json) : Except ConfigError ControlledPilotConfig := do
  let raw ← mappingOr (.valueError "INVALID_CONTROLLED_PILOT_CONFIGURATION") j
  refuse "UNKNOWN_CONTROLLED_PILOT_FIELD" (Unknown raw
    ["public_base_url", "oidc_redirect_uri", "post_logout_redirect_uri", "allowed_hosts",
      "trusted_proxy_cidrs", "audit_persistence", "backup_configuration_ref",
      "lifecycle_pseudonymization_secret", "session_pepper_secret", "session_envelope_key_secret",
      "export_signing", "retention_days", "pilot_tenant", "health_path", "readiness_path"])
  let auditPersistence ←
    orRaise (.valueError "PILOT_AUDIT_PERSISTENCE_REQUIRED") (value raw "audit_persistence").asBool
  let config : ControlledPilotConfig := {
    publicBaseUrl := ← requiredNonempty raw "public_base_url"
    oidcRedirectUri := ← requiredNonempty raw "oidc_redirect_uri"
    postLogoutRedirectUri := ← requiredNonempty raw "post_logout_redirect_uri"
    allowedHosts := ← stringTuple raw "allowed_hosts"
    trustedProxyCidrs := ← stringTuple raw "trusted_proxy_cidrs"
    auditPersistence := auditPersistence
    backupConfigurationRef := ← requiredNonempty raw "backup_configuration_ref"
    lifecyclePseudonymizationSecret :=
      ← pilotSecretReference lib raw "lifecycle_pseudonymization_secret"
    sessionPepperSecret := ← pilotSecretReference lib raw "session_pepper_secret"
    sessionEnvelopeKeySecret := ← pilotSecretReference lib raw "session_envelope_key_secret"
    exportSigning := ← signingSettings lib
      (← mappingOr (invalidValue "export_signing") (value raw "export_signing"))
    retentionDays := ← intOr lib raw "retention_days" 0
    pilotTenant := ← required raw "pilot_tenant"
    healthPath := ← required raw "health_path"
    readinessPath := ← required raw "readiness_path" }
  config.build lib

/-- A named text that is one of a few. -/
def oneOfTexts (raw : Mapping) (key code : String) (accepted : List String) :
    Except ConfigError String := do
  let text ← requiredNonempty raw key
  refuse code (text ∉ accepted)
  return text

/-- The attestation of an item of `provider_egress`. -/
def providerAttestation (raw : Mapping) : Except ConfigError ProviderAttestation := do
  let evidenceType ← oneOfTexts raw "evidence_type" "INVALID_PROVIDER_EVIDENCE_TYPE"
    ["DPA", "SIGNED_PROVIDER_ATTESTATION", "TECHNICAL_PROVIDER_CONFIGURATION",
      "OPERATOR_SELF_DECLARATION"]
  let verificationStatus ←
    oneOfTexts raw "verification_status" "INVALID_PROVIDER_VERIFICATION_STATUS"
      ["VERIFIED", "UNVERIFIED", "EXPIRED", "REVOKED"]
  let evidenceRef ← requiredNonempty raw "evidence_ref"
  let issuer ← requiredNonempty raw "issuer"
  let issuedAt ← requiredNonempty raw "issued_at"
  let validFrom ← requiredNonempty raw "valid_from"
  let expiresAt ← requiredNonempty raw "expires_at"
  let evidenceId ← requiredNonempty raw "evidence_id"
  return {
    evidenceId := evidenceId
    evidenceType := evidenceType
    evidenceRef := evidenceRef
    issuer := issuer
    issuedAt := issuedAt
    validFrom := validFrom
    expiresAt := expiresAt
    verificationStatus := verificationStatus
    verifiedAt := ← optionalString raw "verified_at"
    verifiedBy := ← optionalString raw "verified_by"
    documentHash := ← optionalString raw "document_hash" }

/-- An item of `provider_egress`. -/
def providerEgressItem (j : Json) : Except ConfigError ProviderEgress := do
  let item ← mappingOr (.valueError "INVALID_PROVIDER_EGRESS") j
  refuse "UNKNOWN_PROVIDER_EGRESS_FIELD" (Unknown item
    ["provider", "service", "host", "processing_location", "confirmed_processing_locations",
      "tenant_ids", "attestation"])
  let attestation ←
    mappingOr (.valueError "PROVIDER_ATTESTATION_REQUIRED") (value item "attestation")
  refuse "UNKNOWN_PROVIDER_ATTESTATION_FIELD" (Unknown attestation
    ["evidence_id", "evidence_type", "evidence_ref", "issuer", "issued_at", "valid_from",
      "expires_at", "verification_status", "verified_at", "verified_by", "document_hash"])
  let host := lib.normalHost (← requiredNonempty item "host")
  let location ← requiredNonempty item "processing_location"
  let confirmed ← locations lib item "confirmed_processing_locations"
  let provider ← requiredNonempty item "provider"
  let service ← requiredNonempty item "service"
  let tenantIds ← stringTuple item "tenant_ids"
  refuse "PROVIDER_TENANT_SCOPE_REQUIRED" (tenantIds = [])
  return {
    provider := provider
    service := service
    host := host
    processingLocation :=
      if location ∈ ["local", "external-unspecified"] then location else lib.upper location
    confirmedProcessingLocations := confirmed
    tenantIds := tenantIds
    attestation := ← providerAttestation attestation }

/-- `_provider_egress` -/
def providerEgress : Json → Except ConfigError (List ProviderEgress)
  | .arr items => items.mapM (providerEgressItem lib)
  | _ => .error (.valueError "INVALID_PROVIDER_EGRESS")

/-- The section `oidc`. -/
def oidcConfig (j : Json) : Except ConfigError OidcRuntimeConfig := do
  let raw ← mappingOr (.valueError "INVALID_OIDC_CONFIGURATION") j
  let algorithms ←
    orRaise (.valueError "INVALID_OIDC_ALGORITHM_ALLOWLIST") (texts (value raw "algorithms"))
  let policy : OidcPolicy := {
    issuer := ← required raw "issuer"
    audience := ← required raw "audience"
    algorithms := algorithms
    tenantClaim := textOr lib raw "tenant_claim" "tenant_id"
    actorIdClaim := textOr lib raw "actor_id_claim" "sub"
    roleClaim := textOr lib raw "role_claim" "role"
    actorKindClaim := textOr lib raw "actor_kind_claim" "actor_kind"
    organizationClaim := ← optional raw "organization_claim"
    groupsClaim := ← optional raw "groups_claim"
    clockSkewSeconds := ← intOr lib raw "clock_skew_seconds" 30
    authorizedParties := ← stringTuple raw "authorized_parties"
    requiredScopes := ← stringTuple raw "required_scopes"
    allowInsecureLoopback := ← boolean raw "allow_insecure_loopback" false }
  policy.check lib
  let config : OidcRuntimeConfig := ⟨policy, ← required raw "jwks_uri"⟩
  config.check lib
  return config

/-- A section that may be missing or `null`. -/
def section? {α : Type} (read : Json → Except ConfigError α) (raw : Mapping) (key : String) :
    Except ConfigError (Option α) :=
  match value raw key with
  | .null => .ok none
  | j => some <$> read j

/-- The operating mode; a value that is no text counts as none. -/
def operatingMode (raw : Mapping) : Except ConfigError (Option OperatingMode) :=
  match value raw "operating_mode" with
  | .str s => some <$> member OperatingMode.value
      [.developmentProviderIntegration, .local_, .euManaged, .controlledPilot] s
  | _ => .ok none

/-- What `from_mapping` reads after its scan for secrets. -/
def readConfig (raw : Mapping) : Except ConfigError RuntimeConfig := do
  let profile ← member EnvironmentProfile.value [.development, .test, .staging, .production]
    (← required raw "profile")
  let mode ← operatingMode raw
  let residency ← section? (residencyPolicy lib) raw "data_residency"
  let backend ← member DatabaseBackend.value [.sqlite, .postgresql]
    (← required raw "database_backend")
  let auth ← member AuthenticationMode.value [.static, .oidc] (← required raw "authentication_mode")
  let oidc ← section? (oidcConfig lib) raw "oidc"
  let worker ← mappingOr (.valueError "INVALID_WORKER_CONFIGURATION")
    ((field? raw "worker").getD (.obj []))
  let hosts ← orRaise (.valueError "INVALID_EGRESS_ALLOWLIST")
    (texts ((field? raw "egress_allowed_hosts").getD (.arr [])))
  let pilot ← section? (controlledPilotConfig lib) raw "controlled_pilot"
  let config : RuntimeConfig := {
    profile := profile
    operatingMode := mode
    dataResidency := residency
    databaseBackend := backend
    authenticationMode := auth
    secretProvider :=
      ← member SecretProviderMode.value [.environment, .external] (← required raw "secret_provider")
    databaseDsnSecret := ← SecretReference.build (← required raw "database_dsn_secret")
    workerDatabaseDsnSecret := ← SecretReference.build (← required raw "worker_database_dsn_secret")
    oidc := oidc
    egressAllowedHosts := hosts
    providerEgress := ← providerEgress lib ((field? raw "provider_egress").getD (.arr []))
    controlledPilot := pilot
    workerPolicy := ← buildJobPolicy
      (← intOr lib worker "max_attempts" 5)
      (← intOr lib worker "lease_seconds" 60)
      (← intOr lib worker "base_backoff_seconds" 5)
      (← intOr lib worker "maximum_backoff_seconds" 300) }
  config.check lib
  return config

/-- `RuntimeConfig.from_mapping` of a JSON value; one that is no object has no `items()`. -/
def fromMapping (j : Json) : Except ConfigError RuntimeConfig := do
  let raw ← mappingOr .attributeError j
  refuse "LITERAL_SECRET_FORBIDDEN" (scanFields lib raw = false)
  readConfig lib raw

end Readers

/-! ## What the scan reaches -/

/-- `part` occurs in a value, at any depth. -/
inductive Within (part : Json) : Json → Prop where
  | here : Within part part
  | field {key : String} {value : Json} {fields : Mapping} (hmem : (key, value) ∈ fields)
      (h : Within part value) : Within part (.obj fields)
  | item {value : Json} {items : List Json} (hmem : value ∈ items) (h : Within part value) :
      Within part (.arr items)

theorem within_obj {part : Json} {fields : Mapping} :
    Within part (.obj fields) ↔ part = .obj fields ∨ ∃ f ∈ fields, Within part f.2 := by
  constructor
  · rintro (_ | ⟨hmem, h⟩)
    · exact .inl rfl
    · exact .inr ⟨_, hmem, h⟩
  · rintro (rfl | ⟨f, hmem, h⟩)
    · exact .here
    · exact .field hmem h

theorem within_arr {part : Json} {items : List Json} :
    Within part (.arr items) ↔ part = .arr items ∨ ∃ item ∈ items, Within part item := by
  constructor
  · rintro (_ | _ | ⟨hmem, h⟩)
    · exact .inl rfl
    · exact .inr ⟨_, hmem, h⟩
  · rintro (rfl | ⟨item, hmem, h⟩)
    · exact .here
    · exact .item hmem h

theorem within_str {part : Json} {text : String} : Within part (.str text) ↔ part = .str text := by
  constructor
  · rintro ⟨⟩
    rfl
  · rintro rfl
    exact .here

theorem Within.trans {a b c : Json} (hab : Within a b) (hbc : Within b c) : Within a c := by
  induction hbc with
  | here => exact hab
  | field hmem _ ih => exact .field hmem ih
  | item hmem _ ih => exact .item hmem ih

variable (lib : ConfigLibrary)

/-- An object in the value, or the value itself, has a key that folds to a forbidden name. -/
def HasLiteralSecret (j : Json) : Prop :=
  ∃ fields, Within (.obj fields) j ∧ ∃ f ∈ fields, lib.casefold f.1 ∈ forbiddenKeys

/-- One of the lists in the value holds such an object. -/
def HasListedSecret (j : Json) : Prop :=
  ∃ items, Within (.arr items) j ∧ ∃ item ∈ items, HasLiteralSecret lib item

variable {lib}

theorem HasListedSecret.literal {j : Json} (h : HasListedSecret lib j) :
    HasLiteralSecret lib j := by
  obtain ⟨items, hitems, item, hitem, fields, hfields, hkey⟩ := h
  exact ⟨fields, (Within.item hitem hfields).trans hitems, hkey⟩

theorem HasListedSecret.within {j part : Json} (h : HasListedSecret lib part)
    (hpart : Within part j) : HasListedSecret lib j := by
  obtain ⟨items, hitems, hitem⟩ := h
  exact ⟨items, hitems.trans hpart, hitem⟩

theorem scanFields_iff (fields : Mapping) : scanFields lib fields = true ↔
    ∀ f ∈ fields, lib.casefold f.1 ∉ forbiddenKeys ∧ scanValue lib f.2 = true := by
  induction fields with
  | nil => simp [scanFields]
  | cons f fields ih => simp [scanFields, ih]

/-- What the scan passes over lies in a list. -/
theorem listed_of_scanned {j : Json} (hscan : scanValue lib j = true)
    (h : HasLiteralSecret lib j) : HasListedSecret lib j := by
  obtain ⟨found, hfound, hkey⟩ := h
  induction hfound with
  | here =>
    obtain ⟨f, hf, hforbidden⟩ := hkey
    exact absurd hforbidden ((scanFields_iff found).mp hscan f hf).1
  | field hmem hwithin ih =>
    have hvalue := ((scanFields_iff _).mp hscan _ hmem).2
    exact (ih hvalue).within (.field hmem .here)
  | item hmem hwithin _ => exact ⟨_, .here, _, hmem, found, hwithin, hkey⟩

theorem fromMapping_scanned {j : Json} {config : RuntimeConfig}
    (h : fromMapping lib j = .ok config) : scanValue lib j = true := by
  obtain ⟨raw, hraw, h⟩ := bind_ok_cases h
  obtain ⟨_, hrefuse, -⟩ := bind_ok_cases h
  cases j with
  | obj fields =>
    cases hraw
    unfold refuse at hrefuse
    split_ifs at hrefuse with hscan
    simpa [scanValue] using hscan
  | _ => cases hraw

/-- An accepted configuration is free of literal secrets exactly when its lists are. -/
theorem accepted_free_of_secrets (lib : ConfigLibrary) (j : Json) (config : RuntimeConfig)
    (h : fromMapping lib j = .ok config) :
    ¬ HasLiteralSecret lib j ↔ ¬ HasListedSecret lib j := by
  constructor
  · intro hfree hlisted
    exact hfree hlisted.literal
  · intro hfree hliteral
    exact hfree (listed_of_scanned (fromMapping_scanned h) hliteral)

/-! ## A development configuration -/

/-- Texts in ASCII. -/
def plainConfigLibrary : ConfigLibrary where
  text := Research.plainText
  casefold s := String.ofList (s.toList.map Char.toLower)
  upper s := String.ofList (s.toList.map Char.toUpper)
  ipAddress := Research.plainLibrary.ipAddress
  isNetwork _ := false
  parseInt _ := none
  truncate _ := .error .overflowError
  represent _ := ""
  posixPath path := (path.toList.head? = some '/', [path])
  windowsPath path := (false, [path])

def developmentFields : Mapping :=
  [("profile", .str "development"), ("database_backend", .str "sqlite"),
    ("authentication_mode", .str "static"), ("secret_provider", .str "environment"),
    ("database_dsn_secret", .str "app-dsn"), ("worker_database_dsn_secret", .str "worker-dsn")]

/-- A configuration with a section of its own that lists a password. -/
def listedPassword : Json :=
  .obj (developmentFields ++ [("notes", .arr [.obj [("password", .str "letmein")]])])

/-- A configuration with a section of its own that has objects in a list. -/
def listedOwners : Json :=
  .obj (developmentFields ++ [("notes", .obj
    [("owners", .arr [.obj [("name", .str "operations")], .obj [("contact", .obj
      [("mail", .str "ops@example.org")])]])])])

theorem accepted_development : ∃ config,
    fromMapping plainConfigLibrary listedOwners = .ok config ∧
      ¬ HasLiteralSecret plainConfigLibrary listedOwners := by
  have hkeys : ∀ key ∈ ["name", "contact", "mail"],
      plainConfigLibrary.casefold key ∉ forbiddenKeys := by
    decide
  have hlisted : ¬ HasListedSecret plainConfigLibrary listedOwners := by
    simp [HasListedSecret, HasLiteralSecret, listedOwners, developmentFields, within_obj,
      within_arr, within_str, hkeys]
  exact ⟨_, rfl, (accepted_free_of_secrets _ _ _ rfl).mpr hlisted⟩

theorem accepted_password : ∃ config,
    fromMapping plainConfigLibrary listedPassword = .ok config ∧
      HasLiteralSecret plainConfigLibrary listedPassword := by
  have hnotes : ("notes", Json.arr [.obj [("password", .str "letmein")]]) ∈
      developmentFields ++ [("notes", Json.arr [.obj [("password", .str "letmein")]])] := by simp
  refine ⟨_, rfl, [("password", .str "letmein")], ?_, ("password", .str "letmein"), ?_, ?_⟩
  · exact .field hnotes (.item (List.mem_singleton_self _) .here)
  · exact List.mem_singleton_self _
  · decide

end DecisionAssurance.Production
