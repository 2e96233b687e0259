import DecisionAssurance.Failures
import DecisionAssurance.SignedExports

/-!
# The exceptions of the validator of exports

`validate_export` reports or refuses most content. What it does not expect are archives that
cannot be opened for another reason than a bad format, a manifest or a signature of another shape,
texts that cannot be encoded or compared, JSON that the parser gives up on or that is too deep to be
walked over again, versions that no set can hold, and times of signing that are no times in UTC.
-/

namespace DecisionAssurance.Export

open Research (WallTime)

/-- An exception that is neither the validator's own nor one of reading the archive. -/
def Uncaught : ExportError → Prop
  | .rejected _ => False
  | .raised e => e ≠ .archiveError

@[simp] theorem not_uncaught_rejected (code : String) : ¬Uncaught (.rejected code) := id

@[simp] theorem uncaught_raised (e : PythonError) : Uncaught (.raised e) ↔ e ≠ .archiveError :=
  Iff.rfl

/-- The text can be compared in constant time. -/
def Comparable (text : PyString) : Prop := (encodeAscii text).isSome = true

/-- A time of day whose instant no `datetime` in UTC can have. -/
def OutOfRange (t : WallTime) : Prop := utcOf t = .error (.raised .overflowError)

/-- The times of a key have offsets. -/
structure WellFormed (key : VerificationKey) : Prop where
  notBefore : key.notBefore.offset.isSome = true
  notAfter : key.notAfter.offset.isSome = true
  revokedAt : ∀ t, key.revokedAt = some t → t.offset.isSome = true

section Shapes

variable (lib : ExportLibrary)

/-! ## Unexpected content -/

/-- A manifest that the parser gives up on, that is no dictionary, whose version is a list or a
dictionary, or that is too deep for its schema's errors. -/
inductive ManifestTrap (archive : Archive) : Prop
  | unread {content : Bytes} : archive.read "manifest.json" = .ok content →
      lib.loads content = .error .other → ManifestTrap archive
  | shape {content : Bytes} {value : RawJson} : archive.read "manifest.json" = .ok content →
      lib.loads content = .ok value → (∀ fields, value ≠ .obj fields) → ManifestTrap archive
  | version {content : Bytes} {fields : List (PyString × RawJson)} :
      archive.read "manifest.json" = .ok content → lib.loads content = .ok (.obj fields) →
      unhashable (item fields "schema_version") = true → ManifestTrap archive
  | deep {content : Bytes} {fields : List (PyString × RawJson)} {version : ManifestVersion} :
      archive.read "manifest.json" = .ok content → lib.loads content = .ok (.obj fields) →
      readVersion (.obj fields) = .ok (fields, version) → checkMemberSet version archive = .ok () →
      checkSizes archive = .ok () → lib.descent.checks fields = false → ManifestTrap archive

/-- A member under its checksum that the parser gives up on. -/
def UnreadMember (archive : Archive) (members : List Declaration) (name : String) : Prop :=
  ∃ payload, archive.read name = .ok payload ∧
    (members.any fun d =>
      d.path = name && d.bytes = payload.length && d.sha256 = lib.sha256 payload) = true ∧
    lib.loads payload = .error .other

def MemberTrap (archive : Archive) (members : List Declaration) : Prop :=
  ∃ before name after, exportMembers = before ++ name :: after ∧
    (∀ n ∈ before, ∃ p, readMember lib archive members n = .ok p) ∧
    UnreadMember lib archive members name

/-- A value that is too deep, or has a surrogate that stands alone. -/
def Unprintable (value : RawJson) : Prop :=
  lib.descent.dumps value = false ∨ value.encoded = none

/-- An event that cannot be printed, after events that are linked. -/
inductive CoreTrap (name : String) :
    List (List (PyString × RawJson)) → List (PyString × PyString) → Prop
  | here {event : List (PyString × RawJson)} {events : List (List (PyString × RawJson))}
      {streams : List (PyString × PyString)} {stream : PyString} :
      auditStream name event = .ok stream →
      linksTo (item event "previous_event_hash") (lastHash streams stream) = true →
      Unprintable lib (.obj event) → CoreTrap name (event :: events) streams
  | later {event : List (PyString × RawJson)} {events : List (List (PyString × RawJson))}
      {streams : List (PyString × PyString)} {stream hash : PyString} :
      auditStream name event = .ok stream →
      linksTo (item event "previous_event_hash") (lastHash streams stream) = true →
      prefixedHash lib (.obj event) = .ok hash →
      CoreTrap name events ((stream, hash) :: streams) → CoreTrap name (event :: events) streams

/-- What the hash of a lifecycle event covers. -/
def sealedFields (event : List (PyString × RawJson)) : List (PyString × RawJson) :=
  event.filter fun f => f.1 ≠ py "schema_version" && f.1 ≠ py "event_hash"

/-- An event that cannot be printed, or with a hash that is not ASCII, after events that are linked
and sealed. -/
inductive LifecycleTrap :
    List (List (PyString × RawJson)) → List (PyString × PyString) → Prop
  | here {event : List (PyString × RawJson)} {events : List (List (PyString × RawJson))}
      {streams : List (PyString × PyString)} {requestId eventHash : PyString} :
      item event "request_id" = .str requestId → item event "event_hash" = .str eventHash →
      linksTo (item event "previous_event_hash") (lastHash streams requestId) = true →
      (Unprintable lib (.obj (sealedFields event)) ∨ ¬Comparable eventHash) →
      LifecycleTrap (event :: events) streams
  | later {event : List (PyString × RawJson)} {events : List (List (PyString × RawJson))}
      {streams : List (PyString × PyString)} {requestId eventHash : PyString} :
      item event "request_id" = .str requestId → item event "event_hash" = .str eventHash →
      linksTo (item event "previous_event_hash") (lastHash streams requestId) = true →
      prefixedHash lib (.obj (sealedFields event)) = .ok eventHash → Comparable eventHash →
      LifecycleTrap events ((requestId, eventHash) :: streams) →
      LifecycleTrap (event :: events) streams

def CoreMemberTrap (parsed : List (String × RawJson)) (name : String) : Prop :=
  ∃ events, dictionaries (parsedMember parsed name) = some events ∧ CoreTrap lib name events []

inductive ChainTrap (parsed : List (String × RawJson)) : Prop
  | decision : CoreMemberTrap lib parsed "audit/decision-events.json" → ChainTrap parsed
  | intake : validateCoreChain lib parsed "audit/decision-events.json" = .ok () →
      CoreMemberTrap lib parsed "audit/intake-events.json" → ChainTrap parsed
  | research : validateCoreChain lib parsed "audit/decision-events.json" = .ok () →
      validateCoreChain lib parsed "audit/intake-events.json" = .ok () →
      CoreMemberTrap lib parsed "audit/research-events.json" → ChainTrap parsed
  | lifecycle {events : List (List (PyString × RawJson))} :
      validateCoreChain lib parsed "audit/decision-events.json" = .ok () →
      validateCoreChain lib parsed "audit/intake-events.json" = .ok () →
      validateCoreChain lib parsed "audit/research-events.json" = .ok () →
      dictionaries (parsedMember parsed "audit/lifecycle-events.json") = some events →
      LifecycleTrap lib events [] → ChainTrap parsed

/-- An event whose version is a list or a dictionary, after events that are accepted. -/
def EventTrap (parsed : List (String × RawJson)) (name : String) : Prop :=
  ∃ before event after, dictionaries (parsedMember parsed name) =
      some (before ++ event :: after) ∧
    checkEvents lib name before = .ok () ∧ unhashable (item event "schema_version") = true

inductive VersionTrap (parsed : List (String × RawJson)) : Prop
  | decision : EventTrap lib parsed "audit/decision-events.json" → VersionTrap parsed
  | intake : validateMemberEvents lib parsed "audit/decision-events.json" = .ok () →
      EventTrap lib parsed "audit/intake-events.json" → VersionTrap parsed
  | research : validateMemberEvents lib parsed "audit/decision-events.json" = .ok () →
      validateMemberEvents lib parsed "audit/intake-events.json" = .ok () →
      EventTrap lib parsed "audit/research-events.json" → VersionTrap parsed
  | lifecycle : validateMemberEvents lib parsed "audit/decision-events.json" = .ok () →
      validateMemberEvents lib parsed "audit/intake-events.json" = .ok () →
      validateMemberEvents lib parsed "audit/research-events.json" = .ok () →
      EventTrap lib parsed "audit/lifecycle-events.json" → VersionTrap parsed

/-- A value that cannot be iterated, and a list with elements that cannot be hashed or with the
keys of an envelope for its elements. -/
def EnvelopeTrap : RawJson → Prop
  | .obj _ | .str _ => False
  | .arr items => items.any unhashable = true ∨
    (items.all fun v => envelopeKeys.any fun k => isText v k) = true ∧
      (envelopeKeys.all fun k => items.any fun v => isText v k) = true
  | .null | .bool _ | .int _ | .float _ => True

/-- One of the times that are compared has no instant in UTC. -/
def KeyTrap (key : VerificationKey) (time : WallTime) : Prop :=
  OutOfRange time ∨ ∃ instant, utcOf time = .ok instant ∧
    (OutOfRange key.notBefore ∨ ∃ first, utcOf key.notBefore = .ok first ∧ first ≤ instant ∧
      (OutOfRange key.notAfter ∨ ∃ last, utcOf key.notAfter = .ok last ∧ instant ≤ last ∧
        ∃ revoked, key.revokedAt = some revoked ∧ OutOfRange revoked))

/-- A time of signing that is too deep for `str`, or one for which the key cannot be looked at. -/
inductive TimeTrap (key : VerificationKey) (signedAt : RawJson) : Prop
  | deep : unhashable signedAt = true → lib.descent.prints signedAt = false → TimeTrap key signedAt
  | instant {text : PyString} {time : WallTime} : pyStr signedAt = some text →
      lib.fromisoformat (replaceZulu text) = some time → time.offset.isSome = true →
      KeyTrap key time → TimeTrap key signedAt

inductive SignatureTrap (raw : Bytes) (resolver : Option (PyString → Option VerificationKey)) :
    Prop
  | unread : lib.loads raw = .error .other → SignatureTrap raw resolver
  | shape {value : RawJson} : lib.loads raw = .ok value → EnvelopeTrap value →
      SignatureTrap raw resolver
  | time {fields : List (PyString × RawJson)} {keyId signature : PyString}
      {resolve : PyString → Option VerificationKey} {key : VerificationKey} :
      lib.loads raw = .ok (.obj fields) → hasExactly fields envelopeKeys = true →
      isText (item fields "format_version") "1.0.0" = true →
      isText (item fields "algorithm") "EdDSA" = true → item fields "key_id" = .str keyId →
      item fields "signature" = .str signature → resolver = some resolve →
      resolve keyId = some key → TimeTrap lib key (item fields "signed_at") →
      SignatureTrap raw resolver

/-! ## Exports that raise -/

/-- An archive whose manifest is admitted. -/
structure Admitted (content : Bytes) (archive : Archive) (manifestBytes : Bytes)
    (version : ManifestVersion) (manifest : Manifest) : Prop where
  opened : openExport lib content = .ok archive
  names : checkNames archive = .ok ()
  read : archive.read "manifest.json" = .ok manifestBytes
  fields : ∃ fields, lib.loads manifestBytes = .ok (.obj fields) ∧
    readVersion (.obj fields) = .ok (fields, version) ∧
    validateManifest lib version fields = .ok manifest
  members : checkMemberSet version archive = .ok ()
  sizes : checkSizes archive = .ok ()
  declared : checkDeclared manifest.members = .ok ()

/-- Content that the validator does not expect, reached by checks that pass. -/
inductive Trap (content : Bytes) (resolver : Option (PyString → Option VerificationKey))
    (expectedTenant : Option PyString) : Prop
  | unopened : content ≠ [] → content.length ≤ maxArchiveBytes →
      lib.openArchive content = .error .other → Trap content resolver expectedTenant
  | manifest {archive : Archive} : openExport lib content = .ok archive →
      checkNames archive = .ok () → ManifestTrap lib archive → Trap content resolver expectedTenant
  | member {archive : Archive} {manifestBytes : Bytes} {version : ManifestVersion}
      {manifest : Manifest} : Admitted lib content archive manifestBytes version manifest →
      MemberTrap lib archive manifest.members → Trap content resolver expectedTenant
  | chain {archive : Archive} {manifestBytes : Bytes} {version : ManifestVersion}
      {manifest : Manifest} {parsed : List (String × RawJson)} :
      Admitted lib content archive manifestBytes version manifest →
      exportMembers.mapM (readMember lib archive manifest.members) = .ok parsed →
      ChainTrap lib parsed → Trap content resolver expectedTenant
  | version {archive : Archive} {manifestBytes : Bytes} {manifest : Manifest}
      {parsed : List (String × RawJson)} :
      Admitted lib content archive manifestBytes .v09 manifest →
      exportMembers.mapM (readMember lib archive manifest.members) = .ok parsed →
      validateAuditChains lib parsed = .ok () → VersionTrap lib parsed →
      Trap content resolver expectedTenant
  | tenant {archive : Archive} {manifestBytes : Bytes} {manifest : Manifest}
      {parsed : List (String × RawJson)} {tenant : PyString} :
      Admitted lib content archive manifestBytes .v09 manifest →
      exportMembers.mapM (readMember lib archive manifest.members) = .ok parsed →
      validateAuditChains lib parsed = .ok () → validateEventVersions lib parsed = .ok () →
      expectedTenant = some tenant → ¬(Comparable manifest.tenantId ∧ Comparable tenant) →
      Trap content resolver expectedTenant
  | signature {archive : Archive} {manifestBytes raw : Bytes} {manifest : Manifest}
      {parsed : List (String × RawJson)} :
      Admitted lib content archive manifestBytes .v09 manifest →
      exportMembers.mapM (readMember lib archive manifest.members) = .ok parsed →
      validateAuditChains lib parsed = .ok () → validateEventVersions lib parsed = .ok () →
      checkTenant manifest.tenantId expectedTenant = .ok () →
      archive.read "signature.json" = .ok raw → SignatureTrap lib raw resolver →
      Trap content resolver expectedTenant

end Shapes

/-! ## What raises -/

section Raising

variable {lib : ExportLibrary} {archive : Archive}

theorem not_fails_reject {α : Type} (code : String) :
    ¬Fails Uncaught (reject code : Checks α) := by
  simp [reject]

theorem not_fails_rejectIf (condition : Bool) (code : String) :
    ¬Fails Uncaught (rejectIf condition code) := by
  unfold rejectIf
  split_ifs
  · exact not_fails_reject code
  · exact not_fails_ok ()

theorem not_fails_orRaise {α : Type} (x : Option α) (code : String) :
    ¬Fails Uncaught (orRaise (.rejected code) x) := by
  simp [fails_orRaise]

theorem not_fails_readEntry (name code : String) :
    ¬Fails Uncaught (readEntry archive name code) := by
  unfold readEntry
  rw [fails_mapError]
  rintro ⟨e, -, he⟩
  cases e <;> simp at he

theorem fails_parseJson {content : Bytes} {code : String} :
    Fails Uncaught (parseJson lib content code) ↔ lib.loads content = .error .other := by
  unfold parseJson
  rw [fails_mapError]
  constructor
  · rintro ⟨e, he, hraised⟩
    cases e with
    | decodeError => simp at hraised
    | other => exact he
  · intro h
    exact ⟨.other, h, by simp⟩

theorem readEntry_ok_iff {name code : String} {content : Bytes} :
    readEntry archive name code = .ok content ↔ archive.read name = .ok content := by
  constructor
  · exact readEntry_ok
  · intro h
    rw [readEntry, h]
    rfl

theorem parseJson_ok_iff {content : Bytes} {code : String} {value : RawJson} :
    parseJson lib content code = .ok value ↔ lib.loads content = .ok value := by
  constructor
  · exact parseJson_ok
  · intro h
    rw [parseJson, h]
    rfl

theorem fails_readVersion {value : RawJson} : Fails Uncaught (readVersion value) ↔
    (∀ fields, value ≠ .obj fields) ∨
      ∃ fields, value = .obj fields ∧ unhashable (item fields "schema_version") = true := by
  cases value with
  | obj fields =>
    simp only [readVersion]
    split_ifs with hversion <;> simp [not_fails_reject, hversion]
  | null | bool b | int n | float text | str text | arr items => simp [readVersion]

theorem fails_readMember {members : List Declaration} {name : String} :
    Fails Uncaught (readMember lib archive members name) ↔
      UnreadMember lib archive members name := by
  unfold readMember UnreadMember
  simp only [fails_bind, not_fails_readEntry, not_fails_rejectIf, fails_parseJson, false_or,
    readEntry_ok_iff, not_fails_pure, and_false, exists_false, or_false]
  constructor
  · rintro ⟨payload, hread, ⟨⟩, hdeclared, hloads⟩
    exact ⟨payload, hread, by simpa using rejectIf_ok hdeclared, hloads⟩
  · rintro ⟨payload, hread, hdeclared, hloads⟩
    refine ⟨payload, hread, (), ?_, hloads⟩
    rw [hdeclared]
    rfl

theorem fails_members {members : List Declaration} :
    Fails Uncaught (exportMembers.mapM (readMember lib archive members)) ↔
      MemberTrap lib archive members := by
  rw [fails_mapM]
  simp only [fails_readMember, MemberTrap]

/-! ## Chains that raise -/

theorem fails_prefixedHash {value : RawJson} :
    Fails Uncaught (prefixedHash lib value) ↔ Unprintable lib value := by
  unfold prefixedHash Unprintable
  cases lib.descent.dumps value <;> cases value.encoded <;> simp

/-- Hashing raises nothing of the validator's own. -/
theorem fails_of_prefixedHash {value : RawJson} {e : ExportError}
    (h : prefixedHash lib value = .error e) : Fails Uncaught (prefixedHash lib value) := by
  rw [fails_prefixedHash]
  unfold prefixedHash at h
  split_ifs at h with hdumps
  · cases hencoded : value.encoded with
    | none => exact .inr hencoded
    | some j =>
      rw [hencoded] at h
      cases h
  · exact .inl (Bool.eq_false_iff.mpr hdumps)

theorem not_fails_auditStream (name : String) (event : List (PyString × RawJson)) :
    ¬Fails Uncaught (auditStream name event) := by
  unfold auditStream
  split_ifs
  · exact not_fails_ok _
  · cases item event "event_id" with
    | str eventId => exact not_fails_orRaise _ _
    | null | bool b | int n | float text | arr items | obj fields => exact not_fails_reject _

theorem fails_checkCoreChain {name : String} {events : List (List (PyString × RawJson))}
    {streams : List (PyString × PyString)} :
    Fails Uncaught (checkCoreChain lib name events streams) ↔
      CoreTrap lib name events streams := by
  induction events generalizing streams with
  | nil =>
    constructor
    · intro h
      exact absurd h (not_fails_ok ())
    · rintro ⟨⟩
  | cons event events ih =>
    simp only [checkCoreChain, fails_bind, not_fails_auditStream, false_or]
    constructor
    · rintro ⟨stream, hstream, h⟩
      split_ifs at h with hlinks
      · rcases fails_bind.mp h with h | ⟨hash, hhash, h⟩
        · exact .here hstream hlinks (fails_prefixedHash.mp h)
        · exact .later hstream hlinks hhash (ih.mp h)
      · exact absurd h (not_fails_reject _)
    · intro h
      cases h with
      | here hstream hlinks hencoded =>
        refine ⟨_, hstream, ?_⟩
        rw [if_pos hlinks, fails_bind]
        exact .inl (fails_prefixedHash.mpr hencoded)
      | later hstream hlinks hhash h =>
        refine ⟨_, hstream, ?_⟩
        rw [if_pos hlinks, fails_bind]
        exact .inr ⟨_, hhash, ih.mpr h⟩

theorem encodeAscii_py {s : String} (h : s.toList.all (fun c => c.toNat < 128) = true) :
    Comparable (py s) := by
  rw [Comparable, encodeAscii, py, encodeText_chars, Option.bind_some, if_pos h]
  rfl

theorem fails_constantEqual {left right : PyString} :
    Fails Uncaught (constantEqual left right) ↔ ¬(Comparable left ∧ Comparable right) := by
  unfold constantEqual Comparable
  split_ifs with h <;> simp [h]

theorem constantEqual_ok {left right : PyString} :
    constantEqual left right = .ok true ↔
      (Comparable left ∧ Comparable right) ∧ left = right := by
  unfold constantEqual Comparable
  split_ifs with h <;> simp [h]

/-- The digits of hashes are ASCII. -/
def HexDigests (lib : ExportLibrary) : Prop :=
  ∀ content, (lib.sha256 content).toList.all (fun c => c.toNat < 128) = true

theorem comparable_prefixedHash (hsha : HexDigests lib) {value : RawJson} {hash : PyString}
    (h : prefixedHash lib value = .ok hash) : Comparable hash := by
  unfold prefixedHash at h
  split_ifs at h
  cases hencoded : value.encoded with
  | none => simp [hencoded] at h
  | some j =>
    simp only [hencoded, Except.ok.injEq] at h
    rw [← h]
    apply encodeAscii_py
    rw [String.toList_append, List.all_append, hsha]
    decide

theorem fails_checkLifecycleChain (hsha : HexDigests lib)
    {events : List (List (PyString × RawJson))} {streams : List (PyString × PyString)} :
    Fails Uncaught (checkLifecycleChain lib events streams) ↔
      LifecycleTrap lib events streams := by
  induction events generalizing streams with
  | nil =>
    constructor
    · intro h
      exact absurd h (not_fails_ok ())
    · rintro ⟨⟩
  | cons event events ih =>
    constructor
    · intro h
      unfold checkLifecycleChain at h
      split at h
      · next requestId eventHash hrequest hhash =>
        split_ifs at h with hlinks
        · rcases fails_bind.mp h with h | ⟨hash, hsealed, h⟩
          · exact .here hrequest hhash hlinks (.inl (fails_prefixedHash.mp h))
          · have hcomparable := comparable_prefixedHash hsha hsealed
            rcases fails_bind.mp h with hforeign | ⟨same, hsame, hrest⟩
            · refine .here hrequest hhash hlinks (.inr fun heventHash => ?_)
              exact fails_constantEqual.mp hforeign ⟨heventHash, hcomparable⟩
            · split_ifs at hrest with hequal
              · rw [hequal] at hsame
                obtain ⟨⟨heventHash, -⟩, rfl⟩ := constantEqual_ok.mp hsame
                exact .later hrequest hhash hlinks hsealed heventHash (ih.mp hrest)
              · exact absurd hrest (not_fails_reject _)
        · exact absurd h (not_fails_reject _)
      · exact absurd h (not_fails_reject _)
    · intro h
      cases h with
      | here hrequest hhash hlinks hcause =>
        simp only [checkLifecycleChain, hrequest, hhash, hlinks, if_true, fails_bind]
        rcases hcause with hunprintable | hforeign
        · exact .inl (fails_prefixedHash.mpr hunprintable)
        · cases hsealed : prefixedHash lib (.obj (sealedFields event)) with
          | error e => exact .inl (fails_of_prefixedHash hsealed)
          | ok hash =>
            refine .inr ⟨hash, hsealed, .inl (fails_constantEqual.mpr ?_)⟩
            exact fun hboth => hforeign hboth.1
      | later hrequest hhash hlinks hsealed hcomparable h =>
        simp only [checkLifecycleChain, hrequest, hhash, hlinks, if_true, fails_bind]
        refine .inr ⟨_, hsealed, .inr ⟨true, ?_, ?_⟩⟩
        · exact constantEqual_ok.mpr ⟨⟨hcomparable, hcomparable⟩, rfl⟩
        · rw [if_pos rfl]
          exact ih.mpr h

theorem fails_eventsOf {α : Type} {parsed : List (String × RawJson)} {name code : String}
    {f : List (List (PyString × RawJson)) → Checks α} :
    Fails Uncaught (eventsOf parsed name code >>= f) ↔
      ∃ events, dictionaries (parsedMember parsed name) = some events ∧
        Fails Uncaught (f events) := by
  unfold eventsOf
  simp only [fails_bind, not_fails_orRaise, false_or, orRaise_ok]

theorem fails_validateCoreChain {parsed : List (String × RawJson)} {name : String} :
    Fails Uncaught (validateCoreChain lib parsed name) ↔ CoreMemberTrap lib parsed name := by
  unfold validateCoreChain CoreMemberTrap
  simp only [fails_eventsOf, fails_checkCoreChain]

theorem fails_then {α : Type} {x : Checks Unit} {y : Checks α} :
    Fails Uncaught (x >>= fun _ => y) ↔ Fails Uncaught x ∨ x = .ok () ∧ Fails Uncaught y := by
  rw [fails_bind]
  exact or_congr_right ⟨fun ⟨⟨⟩, hx, hy⟩ => ⟨hx, hy⟩, fun ⟨hx, hy⟩ => ⟨(), hx, hy⟩⟩

theorem fails_validateAuditChains (hsha : HexDigests lib) {parsed : List (String × RawJson)} :
    Fails Uncaught (validateAuditChains lib parsed) ↔ ChainTrap lib parsed := by
  unfold validateAuditChains
  simp only [fails_then, fails_eventsOf, fails_validateCoreChain, fails_checkLifecycleChain hsha]
  constructor
  · rintro (h | ⟨h1, h | ⟨h2, h | ⟨h3, events, hevents, h⟩⟩⟩)
    · exact .decision h
    · exact .intake h1 h
    · exact .research h1 h2 h
    · exact .lifecycle h1 h2 h3 hevents h
  · intro h
    cases h with
    | decision h => exact .inl h
    | intake h1 h => exact .inr ⟨h1, .inl h⟩
    | research h1 h2 h => exact .inr ⟨h1, .inr ⟨h2, .inl h⟩⟩
    | lifecycle h1 h2 h3 hevents h => exact .inr ⟨h1, .inr ⟨h2, .inr ⟨h3, _, hevents, h⟩⟩⟩

/-! ## Versions that raise -/

theorem fails_validateExportEvent {name : String} {event : List (PyString × RawJson)} :
    Fails Uncaught (validateExportEvent lib.fromisoformat name event) ↔
      unhashable (item event "schema_version") = true := by
  unfold validateExportEvent
  dsimp only
  cases item event "schema_version" with
  | str s => split_ifs <;> simp_all [unhashable]
  | null | bool b | int n | float text => simp [isText, unhashable]
  | arr items | obj fields => simp [isText, unhashable]

theorem fails_checkEvents {name : String} {events : List (List (PyString × RawJson))} :
    Fails Uncaught (checkEvents lib name events) ↔ ∃ before event after,
      events = before ++ event :: after ∧ checkEvents lib name before = .ok () ∧
        unhashable (item event "schema_version") = true := by
  induction events with
  | nil => simp [checkEvents]
  | cons event events ih =>
    constructor
    · intro h
      rcases fails_bind.mp h with h | ⟨accepted, haccepted, h⟩
      · exact ⟨[], event, events, rfl, rfl, fails_validateExportEvent.mp h⟩
      · rcases fails_then.mp h with h | ⟨hrejected, h⟩
        · exact absurd h (not_fails_rejectIf _ _)
        · obtain ⟨before, last, after, rfl, hbefore, hlast⟩ := ih.mp h
          refine ⟨event :: before, last, after, rfl, ?_, hlast⟩
          rw [checkEvents, haccepted, ok_bind, hrejected, ok_bind, hbefore]
    · rintro ⟨before, last, after, hevents, hbefore, hlast⟩
      cases before with
      | nil =>
        obtain ⟨rfl, rfl⟩ := List.cons.inj hevents
        exact fails_bind.mpr (.inl (fails_validateExportEvent.mpr hlast))
      | cons first before =>
        obtain ⟨rfl, rfl⟩ := List.cons.inj hevents
        obtain ⟨accepted, haccepted, hbefore⟩ := bind_ok_cases hbefore
        obtain ⟨⟨⟩, hrejected, hbefore⟩ := bind_ok_cases hbefore
        refine fails_bind.mpr (.inr ⟨accepted, haccepted, fails_then.mpr (.inr ⟨hrejected, ?_⟩)⟩)
        exact ih.mpr ⟨before, last, after, rfl, hbefore, hlast⟩

theorem fails_validateMemberEvents {parsed : List (String × RawJson)} {name : String} :
    Fails Uncaught (validateMemberEvents lib parsed name) ↔ EventTrap lib parsed name := by
  unfold validateMemberEvents EventTrap
  simp only [fails_eventsOf, fails_checkEvents]
  constructor
  · rintro ⟨events, hevents, before, event, after, rfl, hbefore, hversion⟩
    exact ⟨before, event, after, hevents, hbefore, hversion⟩
  · rintro ⟨before, event, after, hevents, hbefore, hversion⟩
    exact ⟨_, hevents, before, event, after, rfl, hbefore, hversion⟩

theorem fails_validateEventVersions {parsed : List (String × RawJson)} :
    Fails Uncaught (validateEventVersions lib parsed) ↔ VersionTrap lib parsed := by
  unfold validateEventVersions
  simp only [fails_then, fails_validateMemberEvents]
  constructor
  · rintro (h | ⟨h1, h | ⟨h2, h | ⟨h3, h⟩⟩⟩)
    · exact .decision h
    · exact .intake h1 h
    · exact .research h1 h2 h
    · exact .lifecycle h1 h2 h3 h
  · intro h
    cases h with
    | decision h => exact .inl h
    | intake h1 h => exact .inr ⟨h1, .inl h⟩
    | research h1 h2 h => exact .inr ⟨h1, .inr ⟨h2, .inl h⟩⟩
    | lifecycle h1 h2 h3 h => exact .inr ⟨h1, .inr ⟨h2, .inr ⟨h3, h⟩⟩⟩

/-! ## Signatures that raise -/

theorem fails_readEnvelope {value : RawJson} :
    Fails Uncaught (readEnvelope value) ↔ EnvelopeTrap value := by
  cases value with
  | obj fields =>
    simp only [readEnvelope, EnvelopeTrap, iff_false]
    split_ifs
    · exact not_fails_ok fields
    · exact not_fails_reject _
  | arr items =>
    simp only [readEnvelope, EnvelopeTrap, Bool.and_eq_true]
    split_ifs with hitems hkeys
    · simp [hitems]
    · simp [hkeys]
    · apply iff_of_false (not_fails_reject _)
      rintro (h | h)
      · exact hitems h
      · exact hkeys h
  | str text => simpa [readEnvelope, EnvelopeTrap] using not_fails_reject _
  | null | bool b | int n | float text => simp [readEnvelope, EnvelopeTrap]

theorem fails_utcOf {t : WallTime} (h : t.offset.isSome = true) :
    Fails Uncaught (utcOf t) ↔ OutOfRange t := by
  obtain ⟨offset, hoffset⟩ := Option.isSome_iff_exists.mp h
  unfold OutOfRange utcOf
  simp only [hoffset]
  split_ifs <;> simp

theorem fails_usableAt {key : VerificationKey} {time : WallTime} (hkey : WellFormed key)
    (htime : time.offset.isSome = true) :
    Fails Uncaught (key.usableAt time) ↔ KeyTrap key time := by
  unfold VerificationKey.usableAt KeyTrap
  rw [fails_bind, fails_utcOf htime]
  refine or_congr_right (exists_congr fun instant => and_congr_right fun _ => ?_)
  rw [fails_bind, fails_utcOf hkey.notBefore]
  refine or_congr_right (exists_congr fun first => and_congr_right fun _ => ?_)
  by_cases hfirst : instant < first
  · simp [hfirst, not_le.mpr hfirst]
  · rw [if_neg hfirst, fails_bind, fails_utcOf hkey.notAfter, and_iff_right (not_lt.mp hfirst)]
    refine or_congr_right (exists_congr fun last => and_congr_right fun _ => ?_)
    by_cases hlast : last < instant
    · simp [hlast, not_le.mpr hlast]
    · rw [if_neg hlast, and_iff_right (not_lt.mp hlast)]
      cases hrevoked : key.revokedAt with
      | none => simp
      | some revoked =>
        dsimp only
        rw [fails_bind, fails_utcOf (hkey.revokedAt revoked hrevoked)]
        simp

theorem not_fails_revokedBy {key : VerificationKey} {time : WallTime} (hkey : WellFormed key)
    (htime : time.offset.isSome = true) : ¬Fails Uncaught (key.revokedBy time) := by
  unfold VerificationKey.revokedBy
  cases hrevoked : key.revokedAt with
  | none => exact not_fails_ok false
  | some revoked =>
    obtain ⟨o, ho⟩ := Option.isSome_iff_exists.mp htime
    obtain ⟨o', ho'⟩ := Option.isSome_iff_exists.mp (hkey.revokedAt revoked hrevoked)
    simp [atOrBefore, ho, ho']

theorem fails_signingTime {value : RawJson} : Fails Uncaught (signingTime lib value) ↔
    unhashable value = true ∧ lib.descent.prints value = false := by
  unfold signingTime
  split_ifs with h
  · simpa using h
  · rw [Bool.and_eq_true, Bool.not_eq_true'] at h
    exact iff_of_false (not_fails_orRaise _ _) h

theorem signingTime_ok_iff {value : RawJson} {text : PyString} :
    signingTime lib value = .ok text ↔ pyStr value = some text := by
  refine ⟨signingTime_ok, fun h => ?_⟩
  have hscalar : unhashable value = false := by
    cases value with
    | arr items => cases h
    | obj fields => cases h
    | null | bool b | int n | float text | str text => rfl
  unfold signingTime
  rw [hscalar, h]
  rfl

theorem fails_usableKey {resolver : Option (PyString → Option VerificationKey)}
    {keyId : PyString} {signedAt : RawJson} {verificationTime : WallTime}
    (hresolver : ∀ resolve key, resolver = some resolve → resolve keyId = some key →
      WellFormed key) (htime : verificationTime.offset.isSome = true) :
    Fails Uncaught (usableKey lib resolver keyId signedAt verificationTime) ↔
      ∃ resolve key, resolver = some resolve ∧ resolve keyId = some key ∧
        TimeTrap lib key signedAt := by
  unfold usableKey
  simp only [fails_bind, not_fails_orRaise, not_fails_rejectIf, orRaise_ok, false_or,
    not_fails_pure, and_false, exists_false, or_false, fails_signingTime, signingTime_ok_iff]
  constructor
  · rintro ⟨resolve, hresolve, key, hkey, ⟨hdeep, hprints⟩ |
      ⟨text, htext, time, hread, ⟨⟩, haware, h⟩⟩
    · exact ⟨resolve, key, hresolve, hkey, .deep hdeep hprints⟩
    have haware' : time.offset.isSome = true := by
      have := rejectIf_ok haware
      cases hoffset : time.offset <;> simp_all
    have hwell := hresolver resolve key hresolve hkey
    rcases h with h | ⟨usable, -, ⟨⟩, -, h⟩
    · exact ⟨resolve, key, hresolve, hkey, .instant htext hread haware'
        ((fails_usableAt hwell haware').mp h)⟩
    · exact absurd h (not_fails_revokedBy hwell htime)
  · rintro ⟨resolve, key, hresolve, hkey, h⟩
    refine ⟨resolve, hresolve, key, hkey, ?_⟩
    cases h with
    | deep hdeep hprints => exact .inl ⟨hdeep, hprints⟩
    | @instant text time htext hread haware h =>
      refine .inr ⟨text, htext, time, hread, (), ?_, .inl ?_⟩
      · obtain ⟨offset, hoffset⟩ := Option.isSome_iff_exists.mp haware
        rw [hoffset]
        rfl
      · exact (fails_usableAt (hresolver resolve key hresolve hkey) haware).mpr h

theorem fails_validateSignature {raw manifestBytes : Bytes}
    {resolver : Option (PyString → Option VerificationKey)} {verificationTime : WallTime}
    (hresolver : ∀ resolve keyId key, resolver = some resolve → resolve keyId = some key →
      WellFormed key) (htime : verificationTime.offset.isSome = true) :
    Fails Uncaught (validateSignature lib raw manifestBytes resolver verificationTime) ↔
      SignatureTrap lib raw resolver := by
  constructor
  · intro h
    rcases fails_bind.mp h with h | ⟨value, hvalue, h⟩
    · exact .unread (fails_parseJson.mp h)
    · rcases fails_bind.mp h with hshape | ⟨fields, hfields, hrest⟩
      · exact .shape (parseJson_ok hvalue) (fails_readEnvelope.mp hshape)
      · obtain ⟨rfl, hkeys⟩ := readEnvelope_ok hfields
        rcases fails_then.mp hrest with h | ⟨hformat, h⟩
        · exact absurd h (not_fails_rejectIf _ _)
        · rcases fails_then.mp h with h | ⟨halgorithm, h⟩
          · exact absurd h (not_fails_rejectIf _ _)
          · split at h
            · next keyId signature hkeyId hsignature =>
              rcases fails_bind.mp h with h | ⟨_, -, h⟩
              · obtain ⟨resolve, key, hresolve, hkey, h⟩ :=
                  (fails_usableKey (fun resolve key => hresolver resolve keyId key) htime).mp h
                exact .time (parseJson_ok hvalue) hkeys (by simpa using rejectIf_ok hformat)
                  (by simpa using rejectIf_ok halgorithm) hkeyId hsignature hresolve hkey h
              · rcases fails_then.mp h with h | ⟨-, h⟩
                · exact absurd h (not_fails_rejectIf _ _)
                · exact absurd h (not_fails_pure _)
            · exact absurd h (not_fails_reject _)
  · intro h
    unfold validateSignature
    cases h with
    | unread h => exact fails_bind.mpr (.inl (fails_parseJson.mpr h))
    | shape hloads h =>
      refine fails_bind.mpr (.inr ⟨_, parseJson_ok_iff.mpr hloads, ?_⟩)
      exact fails_bind.mpr (.inl (fails_readEnvelope.mpr h))
    | @time fields keyId signature _ _ hloads hkeys hformat halgorithm hkeyId hsignature hresolve
        hkey h =>
      have henvelope : readEnvelope (.obj fields) = .ok fields := by
        rw [readEnvelope, if_pos hkeys]
      have hpass (code : String) : rejectIf (!true) code = .ok () := rfl
      rw [parseJson_ok_iff.mpr hloads, ok_bind, henvelope, ok_bind, hformat, halgorithm, hkeyId,
        hsignature, hpass, ok_bind, hpass, ok_bind]
      apply fails_bind.mpr
      exact .inl ((fails_usableKey (fun resolve key => hresolver resolve keyId key) htime).mpr
        ⟨_, _, hresolve, hkey, h⟩)

/-! ## The validator -/

theorem fails_openExport {content : Bytes} : Fails Uncaught (openExport lib content) ↔
    content ≠ [] ∧ content.length ≤ maxArchiveBytes ∧ lib.openArchive content = .error .other := by
  unfold openExport
  split_ifs with hsize
  · refine iff_of_false (not_fails_reject _) ?_
    rintro ⟨hsome, hlength, -⟩
    rcases hsize with hempty | hlarge
    · exact hsome (List.isEmpty_iff.mp hempty)
    · exact absurd hlarge hlength.not_gt
  · rw [not_or, List.isEmpty_iff, not_lt] at hsize
    rw [fails_mapError]
    constructor
    · rintro ⟨e, he, hraised⟩
      cases e with
      | badZipFile => simp at hraised
      | other => exact ⟨hsize.1, hsize.2, he⟩
    · rintro ⟨-, -, he⟩
      exact ⟨.other, he, by simp⟩

theorem fails_validateManifest {version : ManifestVersion} {fields : List (PyString × RawJson)} :
    Fails Uncaught (validateManifest lib version fields) ↔ lib.descent.checks fields = false := by
  unfold validateManifest
  split_ifs with hchecks
  · exact iff_of_false (not_fails_orRaise _ _) (by simp [hchecks])
  · simp [hchecks]

theorem not_fails_checkNames (archive : Archive) : ¬Fails Uncaught (checkNames archive) := by
  unfold checkNames
  simp [fails_then, not_fails_rejectIf]

theorem not_fails_checkMemberSet (version : ManifestVersion) (archive : Archive) :
    ¬Fails Uncaught (checkMemberSet version archive) := by
  unfold checkMemberSet
  split_ifs
  · exact not_fails_ok ()
  · exact not_fails_reject _
  · exact not_fails_reject _

theorem fails_checkTenant {tenantId : PyString} {expectedTenant : Option PyString} :
    Fails Uncaught (checkTenant tenantId expectedTenant) ↔
      ∃ tenant, expectedTenant = some tenant ∧ ¬(Comparable tenantId ∧ Comparable tenant) := by
  cases expectedTenant with
  | none => simp [checkTenant]
  | some tenant => simp [checkTenant, fails_bind, fails_constantEqual, not_fails_rejectIf]

variable {content manifestBytes : Bytes} {version : ManifestVersion} {manifest : Manifest}
  {resolver : Option (PyString → Option VerificationKey)} {expectedTenant : Option PyString}
  {verificationTime : WallTime}

/-- A failure is one of the archive or the manifest, or comes after the manifest is admitted. -/
theorem fails_cases
    (h : Fails Uncaught (validateExport lib content resolver expectedTenant verificationTime)) :
    Fails Uncaught (openExport lib content) ∨
    (∃ archive, openExport lib content = .ok archive ∧ checkNames archive = .ok () ∧
      ManifestTrap lib archive) ∨
    ∃ archive manifestBytes version manifest,
      Admitted lib content archive manifestBytes version manifest := by
  rcases fails_bind.mp h with h | ⟨archive, hopened, h⟩
  · exact .inl h
  refine .inr ?_
  rcases fails_then.mp h with h | ⟨hnames, h⟩
  · exact absurd h (not_fails_checkNames archive)
  rcases fails_bind.mp h with h | ⟨manifestBytes, hread, h⟩
  · exact absurd h (not_fails_readEntry _ _)
  have hread := readEntry_ok hread
  rcases fails_bind.mp h with h | ⟨value, hvalue, h⟩
  · exact .inl ⟨archive, hopened, hnames, .unread hread (fails_parseJson.mp h)⟩
  have hvalue := parseJson_ok hvalue
  rcases fails_bind.mp h with h | ⟨⟨fields, version⟩, hversion, h⟩
  · refine .inl ⟨archive, hopened, hnames, ?_⟩
    rcases fails_readVersion.mp h with h | ⟨fields, hfields, h⟩
    · exact .shape hread hvalue h
    · rw [hfields] at hvalue
      exact .version hread hvalue h
  rcases fails_then.mp h with h | ⟨hmembers, h⟩
  · exact absurd h (not_fails_checkMemberSet version archive)
  rcases fails_then.mp h with h | ⟨hsizes, h⟩
  · exact absurd h (not_fails_rejectIf _ _)
  rw [(readVersion_ok hversion).1] at hvalue hversion
  rcases fails_bind.mp h with h | ⟨manifest, hmanifest, h⟩
  · exact .inl ⟨archive, hopened, hnames, .deep hread hvalue hversion hmembers hsizes
      (fails_validateManifest.mp h)⟩
  rcases fails_then.mp h with h | ⟨hdeclared, h⟩
  · exact absurd h (not_fails_rejectIf _ _)
  exact .inr ⟨archive, manifestBytes, version, manifest, hopened, hnames, hread,
    ⟨fields, hvalue, hversion, hmanifest⟩, hmembers, hsizes, hdeclared⟩

theorem Admitted.fails_iff (hsha : HexDigests lib)
    (hresolver : ∀ resolve keyId key, resolver = some resolve → resolve keyId = some key →
      WellFormed key) (htime : verificationTime.offset.isSome = true)
    (h : Admitted lib content archive manifestBytes version manifest) :
    Fails Uncaught (validateExport lib content resolver expectedTenant verificationTime) ↔
      MemberTrap lib archive manifest.members ∨ ∃ parsed,
        exportMembers.mapM (readMember lib archive manifest.members) = .ok parsed ∧
        (ChainTrap lib parsed ∨ validateAuditChains lib parsed = .ok () ∧ version = .v09 ∧
          (VersionTrap lib parsed ∨ validateEventVersions lib parsed = .ok () ∧
            ((∃ tenant, expectedTenant = some tenant ∧
              ¬(Comparable manifest.tenantId ∧ Comparable tenant)) ∨
            checkTenant manifest.tenantId expectedTenant = .ok () ∧ ∃ raw,
              archive.read "signature.json" = .ok raw ∧ SignatureTrap lib raw resolver))) := by
  obtain ⟨fields, hloads, hversion, hmanifest⟩ := h.fields
  unfold validateExport
  rw [h.opened, ok_bind, h.names, ok_bind, readEntry_ok_iff.mpr h.read, ok_bind,
    parseJson_ok_iff.mpr hloads, ok_bind, hversion, ok_bind]
  dsimp only
  rw [h.members, ok_bind, h.sizes, ok_bind, hmanifest, ok_bind, h.declared, ok_bind, fails_bind,
    fails_members]
  refine or_congr_right (exists_congr fun parsed => and_congr_right fun _ => ?_)
  rw [fails_then, fails_validateAuditChains hsha]
  refine or_congr_right (and_congr_right fun _ => ?_)
  cases version with
  | v08 => simp
  | v09 =>
    rw [fails_then, fails_validateEventVersions, and_iff_right rfl]
    refine or_congr_right (and_congr_right fun _ => ?_)
    unfold validateSigned
    simp only [fails_bind, fails_checkTenant, fails_validateSignature hresolver htime,
      not_fails_readEntry, readEntry_ok_iff, not_fails_pure, and_false, exists_false, or_false,
      false_or]
    refine or_congr_right ⟨?_, fun h => ⟨(), h⟩⟩
    rintro ⟨⟨⟩, h⟩
    exact h

/-- Validation reports or refuses content, or reading the archive raises, exactly if the content
is no trap. -/
theorem validateExport_total (lib : ExportLibrary) (hsha : HexDigests lib) (content : Bytes)
    (resolver : Option (PyString → Option VerificationKey))
    (hresolver : ∀ resolve keyId key, resolver = some resolve → resolve keyId = some key →
      WellFormed key) (expectedTenant : Option PyString) (verificationTime : WallTime)
    (htime : verificationTime.offset.isSome = true) :
    (∀ e, validateExport lib content resolver expectedTenant verificationTime =
      .error (.raised e) → e = .archiveError) ↔ ¬Trap lib content resolver expectedTenant := by
  have hfails : (∀ e, validateExport lib content resolver expectedTenant verificationTime =
      .error (.raised e) → e = .archiveError) ↔
        ¬Fails Uncaught
          (validateExport lib content resolver expectedTenant verificationTime) := by
    constructor
    · rintro h ⟨e, he, hraised⟩
      cases e with
      | rejected code => exact hraised
      | raised e => exact hraised (h e he)
    · intro h e he
      by_contra hraised
      exact h ⟨_, he, hraised⟩
  rw [hfails, not_iff_not]
  constructor
  · intro h
    rcases fails_cases h with h | ⟨archive, hopened, hnames, htrap⟩ |
      ⟨archive, manifestBytes, version, manifest, hadmitted⟩
    · obtain ⟨hsome, hlength, h⟩ := fails_openExport.mp h
      exact .unopened hsome hlength h
    · exact .manifest hopened hnames htrap
    · rcases (hadmitted.fails_iff hsha hresolver htime).mp h with h | ⟨parsed, hparsed,
        h | ⟨hchains, rfl, h | ⟨hversions, ⟨tenant, htenant, h⟩ | ⟨htenant, raw, hraw, h⟩⟩⟩⟩
      · exact .member hadmitted h
      · exact .chain hadmitted hparsed h
      · exact .version hadmitted hparsed hchains h
      · exact .tenant hadmitted hparsed hchains hversions htenant h
      · exact .signature hadmitted hparsed hchains hversions htenant hraw h
  · intro h
    cases h with
    | unopened hsome hlength h =>
      exact fails_bind.mpr (.inl (fails_openExport.mpr ⟨hsome, hlength, h⟩))
    | manifest hopened hnames h =>
      unfold validateExport
      rw [hopened, ok_bind, hnames, ok_bind]
      cases h with
      | unread hread hloads =>
        rw [readEntry_ok_iff.mpr hread, ok_bind]
        exact fails_bind.mpr (.inl (fails_parseJson.mpr hloads))
      | shape hread hloads hshape =>
        rw [readEntry_ok_iff.mpr hread, ok_bind, parseJson_ok_iff.mpr hloads, ok_bind]
        exact fails_bind.mpr (.inl (fails_readVersion.mpr (.inl hshape)))
      | version hread hloads hversion =>
        rw [readEntry_ok_iff.mpr hread, ok_bind, parseJson_ok_iff.mpr hloads, ok_bind]
        exact fails_bind.mpr (.inl (fails_readVersion.mpr (.inr ⟨_, rfl, hversion⟩)))
      | deep hread hloads hversion hmembers hsizes hchecks =>
        rw [readEntry_ok_iff.mpr hread, ok_bind, parseJson_ok_iff.mpr hloads, ok_bind, hversion,
          ok_bind]
        dsimp only
        rw [hmembers, ok_bind, hsizes, ok_bind]
        exact fails_bind.mpr (.inl (fails_validateManifest.mpr hchecks))
    | member hadmitted h => exact (hadmitted.fails_iff hsha hresolver htime).mpr (.inl h)
    | chain hadmitted hparsed h =>
      exact (hadmitted.fails_iff hsha hresolver htime).mpr (.inr ⟨_, hparsed, .inl h⟩)
    | version hadmitted hparsed hchains h =>
      exact (hadmitted.fails_iff hsha hresolver htime).mpr
        (.inr ⟨_, hparsed, .inr ⟨hchains, rfl, .inl h⟩⟩)
    | tenant hadmitted hparsed hchains hversions htenant h =>
      exact (hadmitted.fails_iff hsha hresolver htime).mpr
        (.inr ⟨_, hparsed, .inr ⟨hchains, rfl, .inr ⟨hversions, .inl ⟨_, htenant, h⟩⟩⟩⟩)
    | signature hadmitted hparsed hchains hversions htenant hraw h =>
      exact (hadmitted.fails_iff hsha hresolver htime).mpr
        (.inr ⟨_, hparsed, .inr ⟨hchains, rfl, .inr ⟨hversions, .inr ⟨htenant, _, hraw, h⟩⟩⟩⟩)

theorem libraryOf_hexDigests {archive : Archive} {manifest : Json} :
    HexDigests (libraryOf archive manifest) := by
  intro content
  change (sampleSha256 content).toList.all _ = true
  unfold sampleSha256
  split_ifs <;> rfl

theorem sampleKeys_wellFormed : ∀ resolve keyId key, some sampleKeys = some resolve →
    resolve keyId = some key → WellFormed key := by
  intro resolve keyId key hresolve hkey
  cases hresolve
  unfold sampleKeys at hkey
  split_ifs at hkey
  cases hkey
  exact ⟨rfl, rfl, fun t ht => nomatch ht⟩

theorem validateExport_total_sample :
    ¬Trap sampleLibrary (text "PK") (some sampleKeys) (some (py "tenant-a")) ∧
      ¬Trap signingLibrary (text "PK") (some sampleKeys) (some (py "tenant-a")) := by
  constructor
  · apply (validateExport_total sampleLibrary libraryOf_hexDigests (text "PK") (some sampleKeys)
      sampleKeys_wellFormed (some (py "tenant-a")) nextDay rfl).mp
    intro e he
    rw [sampleReport_returned] at he
    cases he
  · apply (validateExport_total signingLibrary libraryOf_hexDigests (text "PK") (some sampleKeys)
      sampleKeys_wellFormed (some (py "tenant-a")) nextDay rfl).mp
    intro e he
    rw [signedReport_returned] at he
    cases he

/-- An archive with a list for its manifest. -/
def listedArchive : Archive where
  infos := [⟨"manifest.json", 2⟩]
  read name := if name = "manifest.json" then .ok (text "[]") else .error .missing

theorem manifest_list_raises : ¬∀ (lib : ExportLibrary) (content : Bytes)
    (resolver : Option (PyString → Option VerificationKey)) (expectedTenant : Option PyString)
    (verificationTime : WallTime), HexDigests lib →
      (∀ resolve keyId key, resolver = some resolve → resolve keyId = some key →
        WellFormed key) →
      verificationTime.offset.isSome = true →
      ∀ e, validateExport lib content resolver expectedTenant verificationTime =
        .error (.raised e) → e = .archiveError := by
  intro h
  have hraised : validateExport (libraryOf listedArchive legacyManifest) (text "PK") none none
      ⟨0, some 0⟩ = .error (.raised .attributeError) := by rfl
  have hcaught := h (libraryOf listedArchive legacyManifest) (text "PK") none none ⟨0, some 0⟩
    libraryOf_hexDigests (fun _ _ _ hresolve => nomatch hresolve) rfl .attributeError hraised
  cases hcaught

end Raising

end DecisionAssurance.Export
