import DecisionAssurance.ExportValidator

/-!
# Exports that are reported as signed

A report says `SIGNED_VALID` only of an archive with a signature under a key of the resolver that
was usable when it signed and is not revoked. A manifest of version `0.8.0` has no signature, and
its report names no tenant, whatever resolver and tenant the validator is given.
-/

namespace DecisionAssurance.Export

open Research (WallTime)

section Reports

variable {lib : ExportLibrary} {content : Bytes} {archive : Archive} {version : ManifestVersion}
  {resolver : Option (PyString → Option VerificationKey)} {expectedTenant : Option PyString}
  {verificationTime : WallTime} {report : ValidationReport} {manifestBytes raw : Bytes}
  {manifest : Manifest} {keyId : PyString}

/-! ## Signatures -/

/-- A signature that a key of the resolver verifies: usable at the time of signing, and not
revoked at the time of verification. -/
structure Signed (lib : ExportLibrary) (resolver : Option (PyString → Option VerificationKey))
    (verificationTime : WallTime) (raw manifestBytes : Bytes) (keyId : PyString)
    (key : VerificationKey) (signedAt signature : PyString) : Prop where
  envelope : ∃ fields, lib.loads raw = .ok (.obj fields) ∧ hasExactly fields envelopeKeys = true ∧
    isText (item fields "format_version") "1.0.0" = true ∧
    isText (item fields "algorithm") "EdDSA" = true ∧ item fields "key_id" = .str keyId ∧
    pyStr (item fields "signed_at") = some signedAt ∧ item fields "signature" = .str signature
  resolved : ∃ resolve, resolver = some resolve ∧ resolve keyId = some key
  usable : ∃ time, lib.fromisoformat (replaceZulu signedAt) = some time ∧
    key.usableAt time = .ok true
  unrevoked : key.revokedBy verificationTime = .ok false
  verified : verifyEd25519 lib.toSignatureLibrary key.publicKeyPem manifestBytes signature
    ⟨py "1.0.0", py "EdDSA", keyId, signedAt, signature⟩ = true

theorem parseJson_ok {code : String} {value : RawJson} (h : parseJson lib raw code = .ok value) :
    lib.loads raw = .ok value := mapError_ok h

theorem readEntry_ok {name code : String} (h : readEntry archive name code = .ok raw) :
    archive.read name = .ok raw := mapError_ok h

theorem readEnvelope_ok {value : RawJson} {fields : List (PyString × RawJson)}
    (h : readEnvelope value = .ok fields) :
    value = .obj fields ∧ hasExactly fields envelopeKeys = true := by
  cases value with
  | obj fields' =>
    simp only [readEnvelope] at h
    split_ifs at h with hkeys
    · cases h
      exact ⟨rfl, hkeys⟩
    · exact absurd h reject_ne_ok
  | arr items =>
    simp only [readEnvelope] at h
    split_ifs at h
    exact absurd h reject_ne_ok
  | _ => cases h

theorem signingTime_ok {value : RawJson} {text : PyString} (h : signingTime lib value = .ok text) :
    pyStr value = some text := by
  unfold signingTime at h
  split_ifs at h
  exact orRaise_ok.mp h

/-- What a key has to be for its signature to be looked at. -/
theorem usableKey_ok {signedAt : RawJson} {key : VerificationKey} {text : PyString}
    (h : usableKey lib resolver keyId signedAt verificationTime = .ok (key, text)) :
    (∃ resolve, resolver = some resolve ∧ resolve keyId = some key) ∧
      pyStr signedAt = some text ∧
      (∃ time, lib.fromisoformat (replaceZulu text) = some time ∧ key.usableAt time = .ok true) ∧
      key.revokedBy verificationTime = .ok false := by
  obtain ⟨resolve, hresolve, h⟩ := bind_ok_cases h
  obtain ⟨key', hkey, h⟩ := bind_ok_cases h
  obtain ⟨text', htext, h⟩ := bind_ok_cases h
  obtain ⟨time, htime, h⟩ := bind_ok_cases h
  obtain ⟨⟨⟩, -, h⟩ := bind_ok_cases h
  obtain ⟨usable, husable, h⟩ := bind_ok_cases h
  obtain ⟨⟨⟩, hallowed, h⟩ := bind_ok_cases h
  obtain ⟨revoked, hrevoked, h⟩ := bind_ok_cases h
  obtain ⟨⟨⟩, hkept, h⟩ := bind_ok_cases h
  cases h
  obtain rfl : usable = true := by simpa using rejectIf_ok hallowed
  obtain rfl : revoked = false := rejectIf_ok hkept
  exact ⟨⟨resolve, orRaise_ok.mp hresolve, orRaise_ok.mp hkey⟩, signingTime_ok htext,
    ⟨time, orRaise_ok.mp htime, husable⟩, hrevoked⟩

theorem validateSignature_ok
    (h : validateSignature lib raw manifestBytes resolver verificationTime = .ok keyId) :
    ∃ key signedAt signature,
      Signed lib resolver verificationTime raw manifestBytes keyId key signedAt signature := by
  obtain ⟨value, hvalue, h⟩ := bind_ok_cases h
  obtain ⟨fields, hfields, h⟩ := bind_ok_cases h
  obtain ⟨⟨⟩, hformat, h⟩ := bind_ok_cases h
  obtain ⟨⟨⟩, halgorithm, h⟩ := bind_ok_cases h
  obtain ⟨hobj, hkeys⟩ := readEnvelope_ok hfields
  rw [hobj] at hvalue
  have hformat := rejectIf_ok hformat
  have halgorithm := rejectIf_ok halgorithm
  rw [Bool.not_eq_false'] at hformat halgorithm
  cases hkeyId : item fields "key_id" with
  | str keyId' =>
    cases hsignature : item fields "signature" with
    | str signature =>
      simp only [hkeyId, hsignature] at h
      obtain ⟨⟨key, signedAt⟩, hkey, h⟩ := bind_ok_cases h
      obtain ⟨⟨⟩, hverified, h⟩ := bind_ok_cases h
      cases h
      obtain ⟨hresolved, htext, husable, hunrevoked⟩ := usableKey_ok hkey
      have hverified := rejectIf_ok hverified
      rw [Bool.not_eq_false'] at hverified
      exact ⟨key, signedAt, signature, ⟨fields, parseJson_ok hvalue, hkeys, hformat, halgorithm,
        hkeyId, htext, hsignature⟩, hresolved, husable, hunrevoked, hverified⟩
    | _ =>
      simp only [hkeyId, hsignature] at h
      cases h
  | _ =>
    simp only [hkeyId] at h
    cases h

theorem checkTenant_ok {tenantId tenant : PyString}
    (h : checkTenant tenantId (some tenant) = .ok ()) : tenantId = tenant := by
  obtain ⟨same, hsame, h⟩ := bind_ok_cases h
  have htrue := rejectIf_ok h
  unfold constantEqual at hsame
  split_ifs at hsame
  cases hsame
  simpa using htrue

/-! ## Reports -/

/-- What an accepted archive has gone through before its version is looked at again. -/
structure Accepted (lib : ExportLibrary) (content : Bytes) (archive : Archive)
    (manifestBytes : Bytes) (fields : List (PyString × RawJson)) (version : ManifestVersion)
    (manifest : Manifest) : Prop where
  opened : lib.openArchive content = .ok archive
  manifestRead : archive.read "manifest.json" = .ok manifestBytes
  parsed : lib.loads manifestBytes = .ok (.obj fields)
  versioned : isText (item fields "schema_version") version.value = true
  valid : readManifest lib version fields = some manifest
  named : ∀ d ∈ manifest.members, d.path ∈ exportMembers
  distinct : (manifest.members.map Declaration.path).Nodup
  checked : ∀ name ∈ exportMembers, ∃ payload, archive.read name = .ok payload ∧
    ∃ d ∈ manifest.members, d.path = name ∧ d.bytes = payload.length ∧
      d.sha256 = lib.sha256 payload

theorem readVersion_ok {value : RawJson} {fields : List (PyString × RawJson)}
    (h : readVersion value = .ok (fields, version)) :
    value = .obj fields ∧ isText (item fields "schema_version") version.value = true := by
  cases value with
  | obj fields' =>
    simp only [readVersion] at h
    split_ifs at h with hunhashable hv08 hv09
    · cases h
      exact ⟨rfl, hv08⟩
    · cases h
      exact ⟨rfl, hv09⟩
    · exact absurd h reject_ne_ok
  | _ => cases h

theorem readMember_ok {members : List Declaration} {name : String} {parsed : String × RawJson}
    (h : readMember lib archive members name = .ok parsed) :
    ∃ payload, archive.read name = .ok payload ∧ ∃ d ∈ members, d.path = name ∧
      d.bytes = payload.length ∧ d.sha256 = lib.sha256 payload := by
  obtain ⟨payload, hpayload, h⟩ := bind_ok_cases h
  obtain ⟨⟨⟩, hdeclared, -⟩ := bind_ok_cases h
  have hdeclared := rejectIf_ok hdeclared
  simp only [Bool.not_eq_false', List.any_eq_true, Bool.and_eq_true, decide_eq_true_eq,
    and_assoc] at hdeclared
  exact ⟨payload, readEntry_ok hpayload, hdeclared⟩

theorem readMembers_ok {members : List Declaration} {names : List String}
    {parsed : List (String × RawJson)}
    (h : names.mapM (readMember lib archive members) = .ok parsed) :
    ∀ name ∈ names, ∃ payload, archive.read name = .ok payload ∧ ∃ d ∈ members, d.path = name ∧
      d.bytes = payload.length ∧ d.sha256 = lib.sha256 payload := by
  induction names generalizing parsed with
  | nil =>
    rintro _ ⟨⟩
  | cons n names ih =>
    rw [List.mapM_cons] at h
    obtain ⟨p, hp, h⟩ := bind_ok_cases h
    obtain ⟨ps, hps, -⟩ := bind_ok_cases h
    intro name hname
    rcases List.mem_cons.mp hname with rfl | hname
    · exact readMember_ok hp
    · exact ih hps name hname

theorem checkDeclared_ok {members : List Declaration} (h : checkDeclared members = .ok ()) :
    (∀ d ∈ members, d.path ∈ exportMembers) ∧ (members.map Declaration.path).Nodup := by
  have hdeclared := rejectIf_ok h
  simp only [Bool.not_eq_false', Bool.and_eq_true, decide_eq_true_eq, sameSet, List.all_eq_true,
    List.forall_mem_map] at hdeclared
  exact ⟨hdeclared.1.1, hdeclared.2⟩

theorem validateManifest_ok {fields : List (PyString × RawJson)}
    (h : validateManifest lib version fields = .ok manifest) :
    readManifest lib version fields = some manifest := by
  unfold validateManifest at h
  split_ifs at h
  exact orRaise_ok.mp h

/-- What a report says of an archive of each version. -/
inductive Reports (lib : ExportLibrary) (resolver : Option (PyString → Option VerificationKey))
    (expectedTenant : Option PyString) (verificationTime : WallTime) (archive : Archive)
    (manifestBytes : Bytes) (manifest : Manifest) : ManifestVersion → ValidationReport → Prop
  | legacy : Reports lib resolver expectedTenant verificationTime archive manifestBytes manifest
      .v08 { valid := true
             caseRef := manifest.caseRef
             memberCount := manifest.members.length
             exportId := manifest.exportId
             provenanceStatus := .legacyUnsigned
             tenantId := none
             keyId := none }
  | signed (raw : Bytes) (keyId : PyString) (key : VerificationKey) (signedAt signature : PyString)
      (hread : archive.read "signature.json" = .ok raw)
      (htenant : ∀ tenant, expectedTenant = some tenant → manifest.tenantId = tenant)
      (hsigned : Signed lib resolver verificationTime raw manifestBytes keyId key signedAt
        signature) :
      Reports lib resolver expectedTenant verificationTime archive manifestBytes manifest .v09
        { valid := true
          caseRef := manifest.caseRef
          memberCount := manifest.members.length
          exportId := manifest.exportId
          provenanceStatus := .signedValid
          tenantId := some manifest.tenantId
          keyId := some keyId }

theorem validateExport_ok
    (h : validateExport lib content resolver expectedTenant verificationTime = .ok report) :
    ∃ archive manifestBytes fields version manifest,
      Accepted lib content archive manifestBytes fields version manifest ∧
      Reports lib resolver expectedTenant verificationTime archive manifestBytes manifest version
        report := by
  obtain ⟨archive, hopen, h⟩ := bind_ok_cases h
  obtain ⟨⟨⟩, -, h⟩ := bind_ok_cases h
  obtain ⟨manifestBytes, hmanifest, h⟩ := bind_ok_cases h
  obtain ⟨value, hvalue, h⟩ := bind_ok_cases h
  obtain ⟨⟨fields, version⟩, hversion, h⟩ := bind_ok_cases h
  obtain ⟨⟨⟩, -, h⟩ := bind_ok_cases h
  obtain ⟨⟨⟩, -, h⟩ := bind_ok_cases h
  obtain ⟨manifest, hvalid, h⟩ := bind_ok_cases h
  obtain ⟨⟨⟩, hdeclared, h⟩ := bind_ok_cases h
  obtain ⟨parsed, hparsed, h⟩ := bind_ok_cases h
  obtain ⟨⟨⟩, -, h⟩ := bind_ok_cases h
  obtain ⟨hobj, hversioned⟩ := readVersion_ok hversion
  obtain ⟨hnamed, hdistinct⟩ := checkDeclared_ok hdeclared
  have hloads := parseJson_ok hvalue
  rw [hobj] at hloads
  have hopened : lib.openArchive content = .ok archive := by
    unfold openExport at hopen
    split_ifs at hopen
    · exact absurd hopen reject_ne_ok
    · exact mapError_ok hopen
  refine ⟨archive, manifestBytes, fields, version, manifest, ⟨hopened, readEntry_ok hmanifest,
    hloads, hversioned, validateManifest_ok hvalid, hnamed, hdistinct, readMembers_ok hparsed⟩, ?_⟩
  cases version with
  | v08 =>
    cases h
    exact .legacy
  | v09 =>
    obtain ⟨⟨⟩, -, h⟩ := bind_ok_cases h
    obtain ⟨keyId, hkeyId, h⟩ := bind_ok_cases h
    cases h
    obtain ⟨⟨⟩, htenant, hkeyId⟩ := bind_ok_cases hkeyId
    obtain ⟨raw, hraw, hkeyId⟩ := bind_ok_cases hkeyId
    obtain ⟨key, signedAt, signature, hsigned⟩ := validateSignature_ok hkeyId
    refine .signed raw keyId key signedAt signature (readEntry_ok hraw) ?_ hsigned
    rintro tenant rfl
    exact checkTenant_ok htenant

/-- A report names the expected tenant and says `SIGNED_VALID` where a key of the resolver has
signed the manifest; the only other report is of an unsigned manifest of version `0.8.0`. -/
theorem report_signed_or_legacy (lib : ExportLibrary) (content : Bytes)
    (resolve : PyString → Option VerificationKey) (tenant : PyString) (verificationTime : WallTime)
    (report : ValidationReport)
    (h : validateExport lib content (some resolve) (some tenant) verificationTime = .ok report) :
    ∃ archive manifestBytes fields, lib.openArchive content = .ok archive ∧
      archive.read "manifest.json" = .ok manifestBytes ∧
      lib.loads manifestBytes = .ok (.obj fields) ∧
      ((report.provenanceStatus = .signedValid ∧ report.tenantId = some tenant ∧
          ∃ raw keyId key signedAt signature, archive.read "signature.json" = .ok raw ∧
            report.keyId = some keyId ∧
            Signed lib (some resolve) verificationTime raw manifestBytes keyId key signedAt
              signature) ∨
        (report.provenanceStatus = .legacyUnsigned ∧ report.tenantId = none ∧
          report.keyId = none ∧ isText (item fields "schema_version") "0.8.0" = true)) := by
  obtain ⟨archive, manifestBytes, fields, version, manifest, haccepted, hreports⟩ :=
    validateExport_ok h
  refine ⟨archive, manifestBytes, fields, haccepted.opened, haccepted.manifestRead,
    haccepted.parsed, ?_⟩
  have hversioned := haccepted.versioned
  cases hreports with
  | legacy => exact .inr ⟨rfl, rfl, rfl, hversioned⟩
  | signed raw keyId key signedAt signature hread htenant hsigned =>
    refine .inl ⟨rfl, ?_, raw, keyId, key, signedAt, signature, hread, rfl, hsigned⟩
    exact congrArg some (htenant tenant rfl)

/-! ## An unsigned archive and a signed one -/

def text (s : String) : Bytes := utf8 s.toList

def samplePayload (name : String) : Bytes :=
  if name = "decision/decision-file.json" ∨ name = "decision/assurance-report.json" then text "\x7b\x7d"
  else text "[]"

/-- The SHA-256 of the two payloads. -/
def sampleSha256 (content : Bytes) : String :=
  if content = text "[]" then "4f53cda18c2baa0c0354bb5f9a3ecbe5ed12ab4d8e11ba873c2f11161202b945"
  else "44136fa355b3678a1146ad16f7e8649e94fb4fc21fe77e8310c060f61caaff8a"

def sampleMembers : Json :=
  .arr (exportMembers.map fun name => .obj [("bytes", .int 2), ("path", .str name),
    ("sha256", .str (sampleSha256 (samplePayload name)))])

def legacyManifest : Json :=
  .obj [("case_ref", .str "case-1"), ("export_id", .str "export-1"),
    ("generated_at", .str "2026-08-01T12:00:00Z"), ("members", sampleMembers),
    ("policy_versions", .obj []), ("schema_version", .str "0.8.0"),
    ("software", .obj [("commit_sha", .str "aaaaaaaaaaaaaaaaaaaaaaaaaaaaaaaaaaaaaaaa"),
      ("version", .str "0.8.0")])]

def legacyArchive : Archive where
  infos := (expectedNames .v08).map fun name => ⟨name, 2⟩
  read name :=
    if name = "manifest.json" then .ok (utf8 legacyManifest.dumps)
    else if name ∈ exportMembers then .ok (samplePayload name)
    else .error .missing

def signedManifest : Json :=
  .obj [("case_ref", .str "case-1"), ("decision_id", .str "case-1"),
    ("event_schema_version", .str "1.0.0"), ("export_id", .str "export-1"),
    ("generated_at", .str "2026-08-01T12:00:00Z"), ("members", sampleMembers),
    ("policy_versions", .obj []), ("schema_version", .str "0.9.0"),
    ("software", .obj [("commit_sha", .str "aaaaaaaaaaaaaaaaaaaaaaaaaaaaaaaaaaaaaaaa"),
      ("version", .str "0.8.0")]), ("tenant_id", .str "tenant-a")]

/-- The signature of `sampleEnvelope` is the Base64 of the first four bytes of what it signs. -/
def sampleEnvelope : Json :=
  .obj [("algorithm", .str "EdDSA"), ("format_version", .str "1.0.0"), ("key_id", .str "key-1"),
    ("signature", .str "eyJhbA"), ("signed_at", .str "2026-08-01T12:00:00Z")]

def signedArchive : Archive where
  infos := (expectedNames .v09).map fun name => ⟨name, 2⟩
  read name :=
    if name = "signature.json" then .ok (utf8 sampleEnvelope.dumps)
    else if name = "manifest.json" then .ok (utf8 signedManifest.dumps)
    else if name ∈ exportMembers then .ok (samplePayload name)
    else .error .missing

def sampleKey : VerificationKey where
  keyId := py "key-1"
  publicKeyPem := text "pem"
  notBefore := ⟨1767225600000000, some 0⟩
  notAfter := ⟨1798761600000000, some 0⟩
  revokedAt := none

def sampleKeys (keyId : PyString) : Option VerificationKey :=
  if keyId = py "key-1" then some sampleKey else none

/-- The day after the exports. -/
def nextDay : WallTime := ⟨1785628800000000, some 0⟩

/-- Libraries that know one archive with its manifest, and a key that signs with the first four
bytes. -/
def libraryOf (archive : Archive) (manifest : Json) : ExportLibrary where
  urlsafeB64decode cs := if cs = "eyJhbA==".toList then some (text "\x7b\"al") else none
  verify publicKeyPem signature message :=
    decide (publicKeyPem = text "pem" ∧ signature = message.take 4)
  descent := .unlimited
  openArchive content := if content = text "PK" then .ok archive else .error .badZipFile
  loads content :=
    if content = text "[]" then .ok (.arr [])
    else if content = text "\x7b\x7d" then .ok (.obj [])
    else if content = utf8 sampleEnvelope.dumps then .ok sampleEnvelope.raw
    else if content = utf8 manifest.dumps then .ok manifest.raw
    else .error .decodeError
  sha256 := sampleSha256
  fromisoformat value :=
    if value = py "2026-08-01T12:00:00+00:00" then some ⟨1785585600000000, some 0⟩ else none
  dateTime _ := true

def sampleLibrary : ExportLibrary := libraryOf legacyArchive legacyManifest

def signingLibrary : ExportLibrary := libraryOf signedArchive signedManifest

def sampleReport : ValidationReport where
  valid := true
  caseRef := py "case-1"
  memberCount := 10
  exportId := py "export-1"
  provenanceStatus := .legacyUnsigned
  tenantId := none
  keyId := none

def signedReport : ValidationReport :=
  { sampleReport with
    provenanceStatus := .signedValid
    tenantId := some (py "tenant-a")
    keyId := some (py "key-1") }

/-- A manifest that begins with its case is not taken for another document. -/
theorem loads_manifest {archive : Archive} {manifest : Json}
    (h : (utf8 manifest.dumps)[2]? = some 99) :
    (libraryOf archive manifest).loads (utf8 manifest.dumps) = .ok manifest.raw := by
  have hdistinct : ∀ content : Bytes, content[2]? ≠ some 99 → utf8 manifest.dumps ≠ content := by
    rintro _ hne rfl
    exact hne h
  unfold libraryOf
  dsimp only
  rw [if_neg (hdistinct _ (by decide)), if_neg (hdistinct _ (by decide)),
    if_neg (hdistinct _ (by decide)), if_pos rfl]

theorem readPattern_py {p : List Char → Bool} {s : String} (h : searches p s = true) :
    readPattern p (.str (py s)) = some s := by
  rw [readPattern, py, encodeText_chars, Option.filter_some, if_pos h]

theorem searches_ofList {p : List Char → Bool} {cs : List Char} (h : p cs = true) :
    searches p (String.ofList cs) = true := by
  rw [searches, String.toList_ofList, h, Bool.true_or]

theorem searches_sampleSha256 (content : Bytes) :
    searches (isHex 64 64) (sampleSha256 content) = true := by
  unfold sampleSha256
  split_ifs
  · exact searches_ofList rfl
  · exact searches_ofList rfl

theorem readDeclaration_sample {name sha256 : String} (hname : searches isMemberPath name = true)
    (hsha256 : searches (isHex 64 64) sha256 = true) :
    readDeclaration (Json.raw (.obj [("bytes", .int 2), ("path", .str name),
      ("sha256", .str sha256)])) = some ⟨name, sha256, 2⟩ := by
  have hpath := readPattern_py hname
  have hhash := readPattern_py hsha256
  change (readPattern isMemberPath (item [(py "bytes", .int 2), (py "path", .str (py name)),
    (py "sha256", .str (py sha256))] "path") >>= _) = _
  rw [item_cons_ne (by decide), item_cons_self, hpath]
  change (readPattern (isHex 64 64) (item [(py "bytes", .int 2), (py "path", .str (py name)),
    (py "sha256", .str (py sha256))] "sha256") >>= _) = _
  rw [item_cons_ne (by decide), item_cons_ne (by decide), item_cons_self, hhash]
  rfl

def sampleDeclaration (name : String) : Declaration :=
  ⟨name, sampleSha256 (samplePayload name), 2⟩

theorem mapM_readDeclaration {names : List String}
    (h : ∀ name ∈ names, searches isMemberPath name = true) :
    (Json.rawItems (names.map fun name => .obj [("bytes", .int 2), ("path", .str name),
      ("sha256", .str (sampleSha256 (samplePayload name)))])).mapM readDeclaration =
      some (names.map sampleDeclaration) := by
  induction names with
  | nil => rfl
  | cons name names ih =>
    rw [List.forall_mem_cons] at h
    have hname := readDeclaration_sample h.1 (searches_sampleSha256 (samplePayload name))
    rw [List.map_cons, Json.rawItems, List.mapM_cons, hname, ih h.2]
    rfl

theorem readMembers_sample :
    readMembers sampleMembers.raw = some (exportMembers.map sampleDeclaration) := by
  have hnames : ∀ name ∈ exportMembers, searches isMemberPath name = true := 
    List.all_eq_true.mp rfl
  change (List.mapM readDeclaration _ >>= _) = _
  rw [mapM_readDeclaration hnames]
  rfl

def legacyFields : List (PyString × RawJson) :=
  [(py "case_ref", .str (py "case-1")), (py "export_id", .str (py "export-1")),
    (py "generated_at", .str (py "2026-08-01T12:00:00Z")), (py "members", sampleMembers.raw),
    (py "policy_versions", .obj []), (py "schema_version", .str (py "0.8.0")),
    (py "software", .obj [(py "commit_sha", .str (py "aaaaaaaaaaaaaaaaaaaaaaaaaaaaaaaaaaaaaaaa")),
      (py "version", .str (py "0.8.0"))])]

def signedFields : List (PyString × RawJson) :=
  [(py "case_ref", .str (py "case-1")), (py "decision_id", .str (py "case-1")),
    (py "event_schema_version", .str (py "1.0.0")), (py "export_id", .str (py "export-1")),
    (py "generated_at", .str (py "2026-08-01T12:00:00Z")), (py "members", sampleMembers.raw),
    (py "policy_versions", .obj []), (py "schema_version", .str (py "0.9.0")),
    (py "software", .obj [(py "commit_sha", .str (py "aaaaaaaaaaaaaaaaaaaaaaaaaaaaaaaaaaaaaaaa")),
      (py "version", .str (py "0.8.0"))]), (py "tenant_id", .str (py "tenant-a"))]

theorem softwareValid_sample : softwareValid (.obj
    [(py "commit_sha", .str (py "aaaaaaaaaaaaaaaaaaaaaaaaaaaaaaaaaaaaaaaa")),
      (py "version", .str (py "0.8.0"))]) = true := by
  have hcommit : readPattern (isHex 40 64) (.str (py "aaaaaaaaaaaaaaaaaaaaaaaaaaaaaaaaaaaaaaaa")) =
      some _ := readPattern_py (searches_ofList rfl)
  rw [softwareValid, item_cons_self, hcommit]
  rfl

/-- The value in a sample member. -/
def sampleValue (name : String) : RawJson :=
  if name = "decision/decision-file.json" ∨ name = "decision/assurance-report.json" then .obj []
  else .arr []

theorem readMember_sample {archive : Archive} {manifest : Json}
    (hread : ∀ name ∈ exportMembers, archive.read name = .ok (samplePayload name)) {name : String}
    (h : name ∈ exportMembers) :
    readMember (libraryOf archive manifest) archive (exportMembers.map sampleDeclaration) name =
      .ok (name, sampleValue name) := by
  have hlength : (samplePayload name).length = 2 := by
    unfold samplePayload
    split_ifs <;> rfl
  have hloads : (libraryOf archive manifest).loads (samplePayload name) =
      .ok (sampleValue name) := by
    unfold samplePayload sampleValue
    split_ifs <;> rfl
  have hdeclared : ((exportMembers.map sampleDeclaration).any fun d => d.path = name &&
      d.bytes = (samplePayload name).length &&
      d.sha256 = (libraryOf archive manifest).sha256 (samplePayload name)) = true := by
    have hsha256 : (libraryOf archive manifest).sha256 = sampleSha256 := rfl
    refine List.any_eq_true.mpr ⟨sampleDeclaration name, List.mem_map_of_mem h, ?_⟩
    simp [sampleDeclaration, hlength, hsha256]
  unfold readMember readEntry parseJson
  rw [hread name h]
  change (rejectIf (!_) _ >>= _) = _
  rw [hdeclared]
  change (((libraryOf archive manifest).loads (samplePayload name)).mapError _ >>= _) = _
  rw [hloads]
  rfl

theorem readMembers_archive {archive : Archive} {manifest : Json}
    (hread : ∀ name ∈ exportMembers, archive.read name = .ok (samplePayload name)) :
    exportMembers.mapM (readMember (libraryOf archive manifest) archive
      (exportMembers.map sampleDeclaration)) =
      .ok (exportMembers.map fun name => (name, sampleValue name)) := by
  rw [mapM_ok_iff, List.map_map]
  exact List.map_congr_left fun name hname => readMember_sample hread hname

theorem read_legacyArchive : ∀ name ∈ exportMembers,
    legacyArchive.read name = .ok (samplePayload name) := by
  intro name h
  have hmanifest : name ≠ "manifest.json" := by
    rintro rfl
    revert h
    decide
  unfold legacyArchive
  dsimp only
  rw [if_neg hmanifest, if_pos h]

theorem read_signedArchive : ∀ name ∈ exportMembers,
    signedArchive.read name = .ok (samplePayload name) := by
  intro name h
  have hsignature : name ≠ "signature.json" := by
    rintro rfl
    revert h
    decide
  have hmanifest : name ≠ "manifest.json" := by
    rintro rfl
    revert h
    decide
  unfold signedArchive
  dsimp only
  rw [if_neg hsignature, if_neg hmanifest, if_pos h]

theorem readManifest_legacy : readManifest sampleLibrary .v08 legacyFields =
    some ⟨py "export-1", py "case-1", [], exportMembers.map sampleDeclaration⟩ := by
  have hexport : readText 1 256 (item legacyFields "export_id") = some (py "export-1") := rfl
  have hcase : readText 1 256 (item legacyFields "case_ref") = some (py "case-1") := rfl
  have hmembers : readMembers (item legacyFields "members") =
      some (exportMembers.map sampleDeclaration) := readMembers_sample
  have hclosed : closedOver (manifestKeys .v08) legacyFields = true := rfl
  have hpolicies : policiesValid (item legacyFields "policy_versions") = true := rfl
  have hdated : item legacyFields "generated_at" = .str (py "2026-08-01T12:00:00Z") := rfl
  have hsoftware : softwareValid (item legacyFields "software") = true := softwareValid_sample
  unfold readManifest
  rw [hexport, hcase, hmembers, hclosed, hpolicies, hdated, hsoftware]
  rfl

theorem readManifest_signed : readManifest signingLibrary .v09 signedFields =
    some ⟨py "export-1", py "case-1", py "tenant-a", exportMembers.map sampleDeclaration⟩ := by
  have hexport : readText 1 256 (item signedFields "export_id") = some (py "export-1") := rfl
  have hcase : readText 1 256 (item signedFields "case_ref") = some (py "case-1") := rfl
  have hsigned : readSigned signedFields .v09 = some (py "tenant-a") := rfl
  have hmembers : readMembers (item signedFields "members") =
      some (exportMembers.map sampleDeclaration) := readMembers_sample
  have hclosed : closedOver (manifestKeys .v09) signedFields = true := rfl
  have hpolicies : policiesValid (item signedFields "policy_versions") = true := rfl
  have hdated : item signedFields "generated_at" = .str (py "2026-08-01T12:00:00Z") := rfl
  have hsoftware : softwareValid (item signedFields "software") = true := softwareValid_sample
  unfold readManifest
  rw [hexport, hcase, hsigned, hmembers, hclosed, hpolicies, hdated, hsoftware]
  rfl

theorem validateManifest_sample {archive : Archive} {manifest : Json} {version : ManifestVersion}
    {fields : List (PyString × RawJson)} {m : Manifest}
    (h : readManifest (libraryOf archive manifest) version fields = some m) :
    validateManifest (libraryOf archive manifest) version fields = .ok m := by
  have hchecks : (libraryOf archive manifest).descent.checks fields = true := rfl
  rw [validateManifest, hchecks, if_pos rfl, h]
  rfl

/-- A validator with a resolver and a tenant accepts an unsigned archive. -/
theorem sampleReport_returned : validateExport sampleLibrary (text "PK") (some sampleKeys)
    (some (py "tenant-a")) nextDay = .ok sampleReport := by
  have hopened : openExport sampleLibrary (text "PK") = .ok legacyArchive := rfl
  have hnames : checkNames legacyArchive = .ok () := rfl
  have hmanifest : readEntry legacyArchive "manifest.json" "INVALID_EXPORT_MANIFEST" =
      .ok (utf8 legacyManifest.dumps) := rfl
  have hvalue : parseJson sampleLibrary (utf8 legacyManifest.dumps) "INVALID_EXPORT_MANIFEST" =
      .ok (.obj legacyFields) := by
    rw [parseJson, sampleLibrary, loads_manifest rfl]
    rfl
  have hversion : readVersion (.obj legacyFields) = .ok (legacyFields, .v08) := rfl
  have hset : checkMemberSet .v08 legacyArchive = .ok () := rfl
  have hsizes : checkSizes legacyArchive = .ok () := rfl
  have hdeclared : checkDeclared (exportMembers.map sampleDeclaration) = .ok () := rfl
  have hvalid : validateManifest sampleLibrary .v08 legacyFields = .ok _ :=
    validateManifest_sample readManifest_legacy
  have hparsed : exportMembers.mapM (readMember sampleLibrary legacyArchive
      (exportMembers.map sampleDeclaration)) = .ok _ := readMembers_archive read_legacyArchive
  have haudit : validateAuditChains sampleLibrary
      (exportMembers.map fun name => (name, sampleValue name)) = .ok () := rfl
  unfold validateExport
  rw [hopened, ok_bind, hnames, ok_bind, hmanifest, ok_bind, hvalue, ok_bind, hversion, ok_bind]
  dsimp only
  rw [hset, ok_bind, hsizes, ok_bind, hvalid, ok_bind, hdeclared, ok_bind, hparsed, ok_bind,
    haudit, ok_bind]
  rfl

def envelopeFields : List (PyString × RawJson) :=
  [(py "algorithm", .str (py "EdDSA")), (py "format_version", .str (py "1.0.0")),
    (py "key_id", .str (py "key-1")), (py "signature", .str (py "eyJhbA")),
    (py "signed_at", .str (py "2026-08-01T12:00:00Z"))]

theorem loads_envelope {archive : Archive} {manifest : Json} :
    (libraryOf archive manifest).loads (utf8 sampleEnvelope.dumps) = .ok (.obj envelopeFields) := by
  have hlength : (utf8 sampleEnvelope.dumps)[2]? = some 97 := rfl
  have hdistinct : ∀ content : Bytes, content[2]? ≠ some 97 → utf8 sampleEnvelope.dumps ≠ content := by
    rintro _ hne rfl
    exact hne hlength
  unfold libraryOf
  dsimp only
  rw [if_neg (hdistinct _ (by decide)), if_neg (hdistinct _ (by decide)), if_pos rfl]
  rfl

theorem usableKey_sample : usableKey signingLibrary (some sampleKeys) (py "key-1")
    (.str (py "2026-08-01T12:00:00Z")) nextDay = .ok (sampleKey, py "2026-08-01T12:00:00Z") := by
  have htime : signingLibrary.fromisoformat (replaceZulu (py "2026-08-01T12:00:00Z")) =
      some ⟨1785585600000000, some 0⟩ := by rfl
  have husable : sampleKey.usableAt ⟨1785585600000000, some 0⟩ = .ok true := by decide
  have hkey : orRaise (.rejected "EXPORT_SIGNING_KEY_UNKNOWN") (sampleKeys (py "key-1")) =
      (.ok sampleKey : Checks VerificationKey) := rfl
  have hsigned : signingTime signingLibrary (.str (py "2026-08-01T12:00:00Z")) =
      .ok (py "2026-08-01T12:00:00Z") := rfl
  unfold usableKey
  have haware : rejectIf (WallTime.offset ⟨1785585600000000, some 0⟩).isNone
      "EXPORT_SIGNING_KEY_UNUSABLE" = .ok () := rfl
  rw [orRaise, ok_bind, hkey, ok_bind, hsigned, ok_bind, htime, orRaise, ok_bind, haware, ok_bind,
    husable]
  rfl

/-- What the sample envelope signs. -/
def sampleMessage : Bytes :=
  utf8 (protectedFields "EdDSA" "1.0.0" "key-1" "2026-08-01T12:00:00Z").dumps ++ utf8 ['.'] ++
    utf8 signedManifest.dumps

theorem verifyEd25519_sample : verifyEd25519 signingLibrary.toSignatureLibrary
    sampleKey.publicKeyPem (utf8 signedManifest.dumps) (py "eyJhbA")
    ⟨py "1.0.0", py "EdDSA", py "key-1", py "2026-08-01T12:00:00Z", py "eyJhbA"⟩ = true := by
  have hpadded : encodeAscii (padded (py "eyJhbA")) = some "eyJhbA==".toList := rfl
  have hdecoded : signingLibrary.urlsafeB64decode "eyJhbA==".toList = some (text "\x7b\"al") := rfl
  have hinput : signingInput ⟨py "1.0.0", py "EdDSA", py "key-1", py "2026-08-01T12:00:00Z",
      py "eyJhbA"⟩ (utf8 signedManifest.dumps) = some sampleMessage := by
    simp only [signingInput, py, encodeText_chars]
    rfl
  have hverify : signingLibrary.verify sampleKey.publicKeyPem (text "\x7b\"al") sampleMessage =
      true := by
    have htake : sampleMessage.take 4 = text "\x7b\"al" := rfl
    have hsame : sampleKey.publicKeyPem = text "pem" ∧
      text "\x7b\"al" = sampleMessage.take 4 := ⟨rfl, htake.symm⟩
    exact decide_eq_true hsame
  unfold verifyEd25519
  rw [hpadded, Option.bind_some, hdecoded, hinput, Option.any_some, Option.any_some]
  exact hverify

theorem read_signedManifest :
    signedArchive.read "manifest.json" = .ok (utf8 signedManifest.dumps) := by
  unfold signedArchive
  dsimp only
  rw [if_neg (by decide), if_pos rfl]

theorem validateSigned_sample : validateSigned signingLibrary signedArchive
    (utf8 signedManifest.dumps)
    ⟨py "export-1", py "case-1", py "tenant-a", exportMembers.map sampleDeclaration⟩
    (some sampleKeys) (some (py "tenant-a")) nextDay = .ok (py "key-1") := by
  have htenant : checkTenant (py "tenant-a") (some (py "tenant-a")) = .ok () := rfl
  have hread : readEntry signedArchive "signature.json" "EXPORT_SIGNATURE_MISSING" =
      .ok (utf8 sampleEnvelope.dumps) := rfl
  have hvalue : parseJson signingLibrary (utf8 sampleEnvelope.dumps) "EXPORT_SIGNATURE_INVALID" =
      .ok (.obj envelopeFields) := by
    rw [parseJson, signingLibrary, loads_envelope]
    rfl
  have henvelope : readEnvelope (.obj envelopeFields) = .ok envelopeFields := rfl
  have hkeyId : item envelopeFields "key_id" = .str (py "key-1") := rfl
  have hsignature : item envelopeFields "signature" = .str (py "eyJhbA") := rfl
  have hsignedAt : item envelopeFields "signed_at" = .str (py "2026-08-01T12:00:00Z") := rfl
  have hformat : isText (item envelopeFields "format_version") "1.0.0" = true := rfl
  have halgorithm : isText (item envelopeFields "algorithm") "EdDSA" = true := rfl
  have hpass (code : String) : rejectIf (!true) code = .ok () := rfl
  have hverified := verifyEd25519_sample
  unfold validateSigned validateSignature
  rw [htenant, ok_bind, hread, ok_bind, hvalue, ok_bind, henvelope, ok_bind, hformat, hpass, ok_bind,
    halgorithm, hpass, ok_bind, hkeyId, hsignature, hsignedAt]
  dsimp only
  rw [usableKey_sample, ok_bind]
  dsimp only
  rw [hverified, hpass]
  rfl

/-- A signed archive is accepted under the key of its signature. -/
theorem signedReport_returned : validateExport signingLibrary (text "PK") (some sampleKeys)
    (some (py "tenant-a")) nextDay = .ok signedReport := by
  have hopened : openExport signingLibrary (text "PK") = .ok signedArchive := rfl
  have hnames : checkNames signedArchive = .ok () := rfl
  have hmanifest : readEntry signedArchive "manifest.json" "INVALID_EXPORT_MANIFEST" =
      .ok (utf8 signedManifest.dumps) := by
    rw [readEntry, read_signedManifest]
    rfl
  have hvalue : parseJson signingLibrary (utf8 signedManifest.dumps) "INVALID_EXPORT_MANIFEST" =
      .ok (.obj signedFields) := by
    rw [parseJson, signingLibrary, loads_manifest rfl]
    rfl
  have hversion : readVersion (.obj signedFields) = .ok (signedFields, .v09) := rfl
  have hset : checkMemberSet .v09 signedArchive = .ok () := rfl
  have hsizes : checkSizes signedArchive = .ok () := rfl
  have hdeclared : checkDeclared (exportMembers.map sampleDeclaration) = .ok () := rfl
  have hvalid : validateManifest signingLibrary .v09 signedFields = .ok _ :=
    validateManifest_sample readManifest_signed
  have hparsed : exportMembers.mapM (readMember signingLibrary signedArchive
      (exportMembers.map sampleDeclaration)) = .ok _ := readMembers_archive read_signedArchive
  have haudit : validateAuditChains signingLibrary
      (exportMembers.map fun name => (name, sampleValue name)) = .ok () := rfl
  have hevents : validateEventVersions signingLibrary
      (exportMembers.map fun name => (name, sampleValue name)) = .ok () := rfl
  unfold validateExport
  rw [hopened, ok_bind, hnames, ok_bind, hmanifest, ok_bind, hvalue, ok_bind, hversion, ok_bind]
  dsimp only
  rw [hset, ok_bind, hsizes, ok_bind, hvalid, ok_bind, hdeclared, ok_bind, hparsed, ok_bind,
    haudit, ok_bind, hevents, ok_bind, validateSigned_sample]
  rfl

theorem report_signed_or_legacy_sample : ∃ archive manifestBytes fields,
    signingLibrary.openArchive (text "PK") = .ok archive ∧
    archive.read "manifest.json" = .ok manifestBytes ∧
    signingLibrary.loads manifestBytes = .ok (.obj fields) ∧
    ((signedReport.provenanceStatus = .signedValid ∧
        signedReport.tenantId = some (py "tenant-a") ∧
        ∃ raw keyId key signedAt signature, archive.read "signature.json" = .ok raw ∧
          signedReport.keyId = some keyId ∧
          Signed signingLibrary (some sampleKeys) nextDay raw manifestBytes keyId key signedAt
            signature) ∨
      (signedReport.provenanceStatus = .legacyUnsigned ∧ signedReport.tenantId = none ∧
        signedReport.keyId = none ∧ isText (item fields "schema_version") "0.8.0" = true)) :=
  report_signed_or_legacy signingLibrary (text "PK") sampleKeys (py "tenant-a") nextDay
    signedReport signedReport_returned

theorem signature_downgraded : ¬∀ (lib : ExportLibrary) (content : Bytes)
    (resolve : PyString → Option VerificationKey) (tenant : PyString) (verificationTime : WallTime)
    (report : ValidationReport),
    validateExport lib content (some resolve) (some tenant) verificationTime = .ok report →
      report.tenantId = some tenant ∧ ∃ archive manifestBytes raw keyId key signedAt signature,
        lib.openArchive content = .ok archive ∧
        archive.read "manifest.json" = .ok manifestBytes ∧
        archive.read "signature.json" = .ok raw ∧ report.keyId = some keyId ∧
        Signed lib (some resolve) verificationTime raw manifestBytes keyId key signedAt
          signature := by
  intro h
  have htenant := (h sampleLibrary (text "PK") sampleKeys (py "tenant-a") nextDay sampleReport
    sampleReport_returned).1
  cases htenant

end Reports

end DecisionAssurance.Export
