import DecisionAssurance.DecisionDatabase
import DecisionAssurance.DecisionValidity
import DecisionAssurance.Jsonb

/-!
# Decision Files read back

SQLite keeps a document as canonical text, PostgreSQL as `jsonb`. Only the parameters of the
canonical action may hold floating point numbers, so only they can come back changed.
-/

namespace DecisionAssurance

variable (ff : FloatFormat) (o : KeyOrder)

/-- `sort_keys=True` -/
def sortedKeys : KeyOrder where
  arrange fields := fields.insertionSort fun a b => a.1 ≤ b.1
  perm := perm_sortByName

namespace Backend

/-- The order of the fields, which is the server's own in `jsonb`. -/
def keyOrder : Backend → KeyOrder
  | .sqlite => sortedKeys
  | .postgresql => o

def number : Backend → String → Json
  | .sqlite => loadsFloat ff
  | .postgresql => jsonbNumber ff

end Backend

def CanonicalAction.readBack (b : Backend) (a : CanonicalAction) : CanonicalAction :=
  { a with
    parameters := (b.keyOrder o).arrange (Json.rereadFields (b.keyOrder o) (b.number ff) a.parameters) }

def DecisionFile.readBack (b : Backend) (d : DecisionFile) : DecisionFile :=
  { d with canonicalAction := d.canonicalAction.map (CanonicalAction.readBack ff o b) }

/-- `get_decision`, with the document as it comes out of its JSON column. -/
def DecisionTables.fetchDecision (b : Backend) (tenant : TenantContext) (decisionId : String)
    (t : DecisionTables) : Option DecisionFile :=
  (t.getDecision tenant decisionId).map (DecisionFile.readBack ff o b)

/-! ## The JSON of a document read back -/

section Reading

variable {ff o} {b : Backend} {d : DecisionFile} {a : CanonicalAction}

theorem dumps_reread_payload (number : String → Json) (a : CanonicalAction) :
    ((Json.obj a.payload).reread o number).dumps = (Json.obj
      { a with parameters := o.arrange (Json.rereadFields o number a.parameters) }.payload).dumps := by
  have htarget : (Json.obj [("type", .str a.targetType), ("id", .str a.targetId)]).Plain := by
    refine Json.plain_obj (by simp) ?_
    simp [Json.plain_str]
  refine Json.dumps_reread_obj (by simp [CanonicalAction.payload]) ?_
  simp only [CanonicalAction.payload, Json.rereadFields, Json.dumpsFields_cons,
    htarget.dumps_reread]
  rfl

theorem dumps_reread_action (number : String → Json) (a : CanonicalAction) :
    (a.toJson.reread o number).dumps =
      { a with parameters := o.arrange (Json.rereadFields o number a.parameters) }.toJson.dumps := by
  have htarget : (Json.obj [("type", .str a.targetType), ("id", .str a.targetId)]).Plain := by
    refine Json.plain_obj (by simp) ?_
    simp [Json.plain_str]
  refine Json.dumps_reread_obj (by simp [CanonicalAction.payload]) ?_
  simp only [CanonicalAction.payload, List.cons_append, List.nil_append, Json.rereadFields,
    Json.dumpsFields_cons, htarget.dumps_reread]
  rfl

/-! ## What reading back preserves -/

/-- The parameters of an action as a Python object. -/
structure PythonParameters (ff : FloatFormat) (a : CanonicalAction) : Prop where
  distinct : (Json.obj a.parameters).DistinctKeys
  floats : (Json.obj a.parameters).Floats (PythonFloat ff)

/-- Floating point numbers that every store keeps. -/
def CanonicalAction.Kept (a : CanonicalAction) : Prop :=
  (Json.obj a.parameters).Floats KeptFloat

/-- A document with the digests of another one, and valid where that is. -/
structure Intact (pf : Platform) (d r : DecisionFile) : Prop where
  actionDigest : r.canonicalAction.map (canonicalActionDigest pf) =
    d.canonicalAction.map (canonicalActionDigest pf)
  payloadHash : payloadHash pf r.toJson = payloadHash pf d.toJson
  semantic : validateSemantics pf d = .ok () → validateSemantics pf r = .ok ()

theorem distinctKeys_payload (h : (Json.obj a.parameters).DistinctKeys) :
    (Json.obj a.payload).DistinctKeys := by
  refine ⟨by simp [CanonicalAction.payload], ?_⟩
  simp only [CanonicalAction.payload, Json.DistinctKeysFields, Json.DistinctKeys, h.1, h.2,
    and_true, true_and]
  simp

theorem floats_payload {P : String → Prop} :
    (Json.obj a.payload).Floats P ↔ (Json.obj a.parameters).Floats P := by
  simp only [CanonicalAction.payload, Json.Floats, Json.FloatsFields, and_true, true_and]

theorem dumps_jsonbNumber (t : String) (h : PythonFloat ff t ∧ KeptFloat t) :
    (jsonbNumber ff t).dumps = t.toList := by
  rw [jsonbNumber_of_kept h.1 h.2]
  rfl

theorem dumps_loadsFloat (t : String) (h : PythonFloat ff t) :
    (loadsFloat ff t).dumps = t.toList := by
  rw [loadsFloat_of_pythonFloat h]
  rfl

/-- The canonical text of an action is the one written unless PostgreSQL read a number that it
does not keep. -/
theorem dumps_readBack_iff (h : PythonParameters ff a) :
    (Json.obj (a.readBack ff o b).payload).dumps = (Json.obj a.payload).dumps ↔
      (b = .postgresql → a.Kept) := by
  have hkeys := distinctKeys_payload h.distinct
  have hfloats := floats_payload.mpr h.floats
  rw [CanonicalAction.readBack, ← dumps_reread_payload]
  cases b with
  | sqlite =>
    have hsame := Json.dumps_reread_of_floats (o := sortedKeys) dumps_loadsFloat _ hkeys hfloats
    exact ⟨fun _ hb => (nomatch hb), fun _ => hsame⟩
  | postgresql =>
    have hiff := Json.dumps_reread_iff (o := o) losesMarks_jsonbNumber dumps_jsonbNumber hkeys
      hfloats
    rw [floats_payload] at hiff
    exact hiff.trans ⟨fun hkept _ => hkept, fun hkept => hkept rfl⟩

theorem dumps_action_readBack (h : PythonParameters ff a) (hkept : b = .postgresql → a.Kept) :
    (a.readBack ff o b).toJson.dumps = a.toJson.dumps := by
  have hpayload := distinctKeys_payload h.distinct
  have hkeys : a.toJson.DistinctKeys := by
    refine ⟨by simp [CanonicalAction.payload], ?_⟩
    simp only [CanonicalAction.payload, List.cons_append, List.nil_append,
      Json.DistinctKeysFields, Json.DistinctKeys, h.distinct.1, h.distinct.2, and_true, true_and]
    simp
  have hfloats : ∀ {P : String → Prop}, (Json.obj a.parameters).Floats P → a.toJson.Floats P := by
    intro P hp
    simp only [CanonicalAction.toJson, CanonicalAction.payload, List.cons_append, List.nil_append,
      Json.Floats, Json.FloatsFields, and_true, true_and]
    exact hp
  rw [CanonicalAction.readBack, ← dumps_reread_action]
  cases b with
  | sqlite => exact Json.dumps_reread_of_floats dumps_loadsFloat _ hkeys (hfloats h.floats)
  | postgresql =>
    exact Json.dumps_reread_of_floats dumps_jsonbNumber _ hkeys
      (hfloats (h.floats.and (hkept rfl)))

theorem dumps_toJson_readBack (h : ∀ a ∈ d.canonicalAction, PythonParameters ff a)
    (hkept : b = .postgresql → ∀ a ∈ d.canonicalAction, a.Kept) :
    (d.readBack ff o b).toJson.dumps = d.toJson.dumps := by
  have haction : (((d.readBack ff o b).canonicalAction.map CanonicalAction.toJson).getD
      .null).dumps = ((d.canonicalAction.map CanonicalAction.toJson).getD .null).dumps := by
    simp only [DecisionFile.readBack]
    cases ha : d.canonicalAction with
    | none => rfl
    | some a => exact dumps_action_readBack (h a ha) fun hb => hkept hb a ha
  have hfields : ∀ fields fields' : List (String × Json),
      Json.dumpsFields Json.escape fields = Json.dumpsFields Json.escape fields' →
        (Json.obj fields).dumps = (Json.obj fields').dumps := by
    intro fields fields' heq
    simp only [Json.dumps, Json.dumpsWith, heq]
  refine hfields _ _ ?_
  simp only [Json.dumpsFields_cons, haction]
  rfl

theorem semanticErrors_readBack {pf : Platform}
    (h : ∀ a ∈ d.canonicalAction, canonicalActionDigest pf (a.readBack ff o b) =
      canonicalActionDigest pf a) : (d.readBack ff o b).semanticErrors pf = d.semanticErrors pf := by
  have haction : (d.readBack ff o b).actionErrors pf = d.actionErrors pf := by
    simp only [DecisionFile.actionErrors, DecisionFile.readBack]
    cases ha : d.canonicalAction with
    | none => rfl
    | some a =>
      simp only [Option.map_some, h a ha]
      rfl
  have hexpected : (d.readBack ff o b).expectedActionDigest = d.expectedActionDigest := by
    simp only [DecisionFile.expectedActionDigest, DecisionFile.readBack, Option.map_map]
    rfl
  have happrovals : (d.readBack ff o b).approvalErrors pf = d.approvalErrors pf := by
    funext approval
    simp only [DecisionFile.approvalErrors, hexpected]
    rfl
  simp only [DecisionFile.semanticErrors, haction, happrovals]
  rfl

theorem validateSemantics_readBack {pf : Platform}
    (h : ∀ a ∈ d.canonicalAction, canonicalActionDigest pf (a.readBack ff o b) =
      canonicalActionDigest pf a) (hvalid : validateSemantics pf d = .ok ()) :
    validateSemantics pf (d.readBack ff o b) = .ok () := by
  obtain ⟨hclock, herrors⟩ := validateSemantics_iff.mp hvalid
  exact validateSemantics_iff.mpr ⟨hclock, (semanticErrors_readBack h).trans herrors⟩

/-- Where SHA-256 tells the texts of the action apart, a document read back is intact if and only
if PostgreSQL did not have to keep a number from `1e16` on or a negative zero. -/
theorem readBack_intact_iff {pf : Platform}
    (h : ∀ a ∈ d.canonicalAction, PythonParameters ff a)
    (hsha : ∀ a ∈ d.canonicalAction,
      pf.sha256 (Json.obj (a.readBack ff o b).payload).dumps = pf.sha256 (Json.obj a.payload).dumps →
        (Json.obj (a.readBack ff o b).payload).dumps = (Json.obj a.payload).dumps) :
    Intact pf d (d.readBack ff o b) ↔ (b = .postgresql → ∀ a ∈ d.canonicalAction, a.Kept) := by
  constructor
  · intro hintact hb a ha
    have hdigest := hintact.actionDigest
    simp only [DecisionFile.readBack, Option.mem_def.mp ha, Option.map_some, Option.some.injEq,
      canonicalActionDigest, payloadHash, String.append_right_inj] at hdigest
    exact (dumps_readBack_iff (h a ha)).mp (hsha a ha hdigest) hb
  · intro hkept
    have htext : ∀ a ∈ d.canonicalAction, canonicalActionDigest pf (a.readBack ff o b) =
        canonicalActionDigest pf a := by
      intro a ha
      have hdumps := (dumps_readBack_iff (o := o) (h a ha)).mpr fun hb => hkept hb a ha
      simp only [canonicalActionDigest, payloadHash, hdumps]
    refine ⟨?_, ?_, validateSemantics_readBack htext⟩
    · simp only [DecisionFile.readBack, Option.map_map]
      exact Option.map_congr htext
    · simp only [payloadHash, dumps_toJson_readBack h hkept]

namespace DecisionTables

variable {tenant : TenantContext} {events : List AuditEvent} {write : Option IdempotencyWrite}
  {t t' : DecisionTables}

theorem getDecision_of_created (h : createDecision b tenant d events write t = .ok t') :
    t'.getDecision tenant d.decisionId = some d := by
  obtain ⟨hfresh, hrows, -⟩ := createDecision_cases h
  have hnone : Tables.lookup DecisionRow.key (tenant.tenantId, d.decisionId) t.decisions = none :=
    Tables.lookup_eq_none.mpr hfresh
  have hself := Tables.lookup_append_self
    (r := (⟨tenant.tenantId, d.decisionId, d⟩ : DecisionRow)) hnone
  rw [getDecision, hrows]
  exact congrArg (Option.map DecisionRow.document) hself

end DecisionTables

/-- The document read back from a store that accepted it is intact if and only if the store is
SQLite or none of its parameters is a number from `1e16` on or a negative zero. -/
theorem fetched_intact_iff (pf : Platform) {tenant : TenantContext} {events : List AuditEvent}
    {write : Option IdempotencyWrite} {t t' : DecisionTables}
    (hcreated : t.createDecision b tenant d events write = .ok t')
    (h : ∀ a ∈ d.canonicalAction, PythonParameters ff a)
    (hsha : ∀ a ∈ d.canonicalAction,
      pf.sha256 (Json.obj (a.readBack ff o b).payload).dumps = pf.sha256 (Json.obj a.payload).dumps →
        (Json.obj (a.readBack ff o b).payload).dumps = (Json.obj a.payload).dumps) :
    ∃ r, t'.fetchDecision ff o b tenant d.decisionId = some r ∧
      (Intact pf d r ↔ (b = .postgresql → ∀ a ∈ d.canonicalAction, a.Kept)) := by
  refine ⟨d.readBack ff o b, ?_, readBack_intact_iff h hsha⟩
  rw [DecisionTables.fetchDecision, DecisionTables.getDecision_of_created hcreated]
  rfl

end Reading

/-! ## Payments -/

/-- A polynomial in the characters, in 64 hex digits. -/
def polynomialDigest (text : List Char) : String :=
  let value := text.foldl (fun n c => (n * 257 + c.toNat) % 2 ^ 256) 0
  String.ofList <| (List.range 64).map fun i => Nat.digitChar (value / 16 ^ i % 16)

def polynomialPlatform : Platform where
  sha256 := polynomialDigest
  earlier _ _ := .ok false
  dateTime _ := true

/-- The texts of three magnitudes. -/
def sampleFloats : FloatFormat where
  repr negative q :=
    (if negative then ['-'] else []) ++
      if q = 0 then ['0', '.', '0'] else if q = 1 / 2 then ['0', '.', '5'] else "1e+16".toList
  repr_zero := rfl

/-- A payment of an amount, with the digest bound to it. -/
def payment (amount : String) : CanonicalAction :=
  let action : CanonicalAction :=
    { actionId := "pay", actionType := "payment", effect := "pay", targetType := "account"
      targetId := "account", parameters := [("amount", .float amount)]
      reversibilityClass := .irreversible, tenantId := "tenant"
      executionContextHash := "sha256:" ++ String.ofList (List.replicate 64 '0')
      canonicalDigest := "" }
  { action with canonicalDigest := canonicalActionDigest polynomialPlatform action }

def paymentCase (amount : String) : DecisionFile :=
  { draftCase with canonicalAction := some (payment amount) }

theorem pythonFloat_half : PythonFloat sampleFloats "0.5" := by
  refine ⟨⟨false, [0], [5], none⟩, rfl, ⟨by simp, by simp, by simp, ?_⟩, by decide +kernel⟩
  intro h
  exact absurd h (by decide)

theorem pythonFloat_large : PythonFloat sampleFloats "1e+16" := by
  refine ⟨⟨false, [1], [], some (false, [1, 6])⟩, rfl, ⟨by simp, by simp, by simp, ?_⟩,
    by decide +kernel⟩
  intro h
  exact absurd h (by decide)

theorem pythonParameters_payment {amount : String} (h : PythonFloat sampleFloats amount) :
    ∀ a ∈ (paymentCase amount).canonicalAction, PythonParameters sampleFloats a := by
  intro a ha
  obtain rfl : payment amount = a := Option.some.inj ha
  refine ⟨⟨by simp [payment], ?_⟩, ?_⟩
  · exact ⟨trivial, trivial⟩
  · exact ⟨h, trivial⟩

theorem kept_half : (payment "0.5").Kept := by
  have hexp : (NumberLiteral.parse "0.5".toList).exponent = none := by rfl
  refine ⟨⟨fun ds hds => ?_, by decide⟩, trivial⟩
  rw [hexp] at hds
  cases hds

def paymentTenant : TenantContext := ⟨"tenant", by decide⟩

theorem fetched_intact_iff_half : ∃ t' r, DecisionTables.empty.createDecision .postgresql
    paymentTenant (paymentCase "0.5") [] none = .ok t' ∧
      t'.fetchDecision sampleFloats sortedKeys .postgresql paymentTenant "case-1" = some r ∧
      Intact polynomialPlatform (paymentCase "0.5") r := by
  have hparameters := pythonParameters_payment pythonFloat_half
  have hkept : ∀ a ∈ (paymentCase "0.5").canonicalAction, a.Kept := by
    intro a ha
    obtain rfl : payment "0.5" = a := Option.some.inj ha
    exact kept_half
  have hcreated : DecisionTables.empty.createDecision .postgresql paymentTenant
      (paymentCase "0.5") [] none = .ok ⟨[⟨"tenant", "case-1", paymentCase "0.5"⟩], [], [], [], []⟩ :=
    rfl
  obtain ⟨r, hr, hiff⟩ := fetched_intact_iff (o := sortedKeys) polynomialPlatform hcreated
    hparameters fun a ha _ => (dumps_readBack_iff (hparameters a ha)).mpr fun _ => hkept a ha
  exact ⟨_, r, hcreated, hr, hiff.mpr fun _ => hkept⟩

/-- The valid case of a payment of `1e16` comes back from PostgreSQL with another digest. -/
theorem largePayment_altered : ¬ ∀ (d : DecisionFile) (t' : DecisionTables),
    Valid polynomialPlatform d → (∀ a ∈ d.canonicalAction, PythonParameters sampleFloats a) →
    DecisionTables.empty.createDecision .postgresql paymentTenant d [] none = .ok t' →
      ∃ r, t'.fetchDecision sampleFloats sortedKeys .postgresql paymentTenant d.decisionId = some r ∧
        Intact polynomialPlatform d r := by
  intro h
  have hvalid : Valid polynomialPlatform (paymentCase "1e+16") :=
    ⟨by decide +kernel, by decide +kernel⟩
  obtain ⟨r, hr, hintact⟩ := h (paymentCase "1e+16")
    ⟨[⟨"tenant", "case-1", paymentCase "1e+16"⟩], [], [], [], []⟩ hvalid
    (pythonParameters_payment pythonFloat_large) rfl
  have hread : r = (paymentCase "1e+16").readBack sampleFloats sortedKeys .postgresql :=
    (Option.some.inj hr).symm
  have hdigest := hintact.actionDigest
  rw [hread] at hdigest
  exact absurd (Option.some.inj hdigest) (by decide +kernel)

end DecisionAssurance
