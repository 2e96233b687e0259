import DecisionAssurance.DecisionReading
import DecisionAssurance.ParsedJson
import DecisionAssurance.ReachedDecisions
import DecisionAssurance.TransitionRefusals

/-!
# Request bodies

`json.loads` accepts more than the route of a creation can work with: unpaired surrogates, which
have no UTF-8 text to hash, values nested too deep to be hashed, checked or copied, and NUL, NaN and
the infinities, which a `jsonb` column does not take.
-/

namespace DecisionAssurance

open Tables Intake Json

/-- What `request.json()` returns. -/
structure ParsedBody where
  value : RawJson
  distinct : value.DistinctNames

/-! ## `create_decision` -/

/-- What a creation raises; all but an `ApiError` is answered with status 500. -/
inductive CreationError
  | recursionError
  | unicodeEncodeError
  | dataError
  | route (e : RouteError)
  deriving DecidableEq

namespace Json

mutual

/-- The values that a `jsonb` column takes: no NUL in a string, no NaN and no infinity. -/
def jsonbAccepts : Json → Bool
  | .null | .bool _ | .int _ => true
  | .float text => !(["NaN", "Infinity", "-Infinity"].contains text)
  | .str s => !s.toList.contains (Char.ofNat 0)
  | .arr items => jsonbAcceptsItems items
  | .obj fields => jsonbAcceptsFields fields

def jsonbAcceptsItems : List Json → Bool
  | [] => true
  | x :: xs => jsonbAccepts x && jsonbAcceptsItems xs

def jsonbAcceptsFields : List (String × Json) → Bool
  | [] => true
  | (k, x) :: xs => !k.toList.contains (Char.ofNat 0) && jsonbAccepts x && jsonbAcceptsFields xs

end

end Json

/-- The values that the interpreter's limit of recursion lets a creation descend into: to hash a
body, to check and to copy it, and to write a document as the parameter of a statement. -/
structure Recursion where
  hashes : RawJson → Bool
  checks : Json → Bool
  copies : Json → Bool
  writes : Json → Bool

def Recursion.unlimited : Recursion :=
  ⟨fun _ => true, fun _ => true, fun _ => true, fun _ => true⟩

/-- A call that raises where it would descend too deep. -/
def descend (within : Bool) : Except CreationError Unit :=
  if within then .ok () else .error .recursionError

/-- The parameters of a statement; psycopg and PostgreSQL refuse some. -/
def bindParameters (b : Backend) (accepted : Bool) : Except CreationError Unit :=
  if b = .postgresql ∧ accepted = false then .error .dataError else .ok ()

/-- The texts that the query of an idempotency key binds. -/
def idempotencyTexts (c : Caller) (key : String) : List String :=
  [c.identity.tenant.tenantId, c.identity.actorId, "decision:create", key]

/-- A creation that is not replayed. -/
def storeBody (b : Backend) (rec : Recursion) (pf : Platform) (c : Caller) (key : String) (j : Json)
    (t : DecisionTables) : Except CreationError (Reply × DecisionTables) := do
  descend (rec.checks j)
  match DecisionFile.ofJson j with
  | none => .error (.route (bodyError .contract))
  | some d => do
    (checkBody pf c d).mapError .route
    descend (rec.copies j)
    descend (rec.writes (d.withCreation pf c).toJson)
    bindParameters b (d.withCreation pf c).toJson.jsonbAccepts
    (storeCreated b pf c key d t).mapError .route

/-- `POST /v1/decisions` on a parsed body. -/
def createBody (b : Backend) (rec : Recursion) (pf : Platform) (c : Caller) (body : ParsedBody)
    (t : DecisionTables) : Except CreationError (Reply × DecisionTables) := do
  (require c.identity .decisionCreate).mapError .route
  let key ← (requireIdempotencyKey c.idempotencyKey).mapError .route
  descend (rec.hashes body.value)
  let j ← orRaise .unicodeEncodeError body.value.encoded
  bindParameters b ((idempotencyTexts c key).all fun s => !s.toList.contains (Char.ofNat 0))
  let replay ← (replayOf c.identity key "decision:create" (payloadHash pf j) t).mapError .route
  match replay with
  | some (statusCode, response) => .ok (.replayed statusCode response, t)
  | none => storeBody b rec pf c key j t

section Route

variable {b : Backend} {rec : Recursion} {pf : Platform} {c : Caller} {body : ParsedBody}
  {t t' : DecisionTables} {key : String} {j : Json} {d : DecisionFile} {reply : Reply}

/-! ## Answered creations -/

/-- A creation that stores the document and returns it, replays the reply of an earlier one, or
raises an `ApiError` of the client. -/
def AnswersCreation (pf : Platform) (c : Caller) (body : ParsedBody) (t : DecisionTables) :
    Except CreationError (Reply × DecisionTables) → Prop
  | .ok (.created document, t') => t'.getDecision c.identity.tenant document.decisionId =
      some document ∧ ∃ j d, body.value.encoded = some j ∧ DecisionFile.ofJson j = some d ∧
        document = d.withCreation pf c
  | .ok (.replayed _ _, t') => t' = t
  | .ok _ => False
  | .error (.route e) => e.isClient = true
  | .error _ => False

/-- The bodies that the route has an answer for: they are not nested too deep, their strings can be
encoded, their timestamps be compared, and PostgreSQL takes what the statements bind and has no case
of the id. -/
structure HandlesBody (b : Backend) (rec : Recursion) (pf : Platform) (c : Caller)
    (body : ParsedBody) (t : DecisionTables) (key : String) : Prop where
  hashed : rec.hashes body.value = true
  bound : b = .postgresql → ∀ s ∈ idempotencyTexts c key, Char.ofNat 0 ∉ s.toList
  encoded : ∃ j, body.value.encoded = some j ∧
    (replayOf c.identity key "decision:create" (payloadHash pf j) t = .ok none →
      rec.checks j = true ∧
      ∀ d, DecisionFile.ofJson j = some d → validateContract pf d = .ok () →
        pf.earlier d.updatedAt d.createdAt ≠ .error .naive ∧
        (checkBody pf c d = .ok () →
          (rec.copies j = true ∧ rec.writes (d.withCreation pf c).toJson = true) ∧
          (b = .postgresql → (d.withCreation pf c).toJson.jsonbAccepts = true ∧
            t.getDecision c.identity.tenant d.decisionId = none)))

/-- Only a comparison of a naive and an aware time escapes the checks of a body. -/
theorem checkBody_error {e : RouteError} (h : checkBody pf c d = .error e) :
    e.isClient = true ∨
      (validateContract pf d = .ok () ∧ pf.earlier d.updatedAt d.createdAt = .error .naive) := by
  rcases bind_error_cases h with hcontract | ⟨⟨⟩, hcontract, h⟩
  · unfold validateContract at hcontract
    split_ifs at hcontract
    · cases hcontract
    · cases hcontract
      exact .inl rfl
  rcases bind_error_cases h with hsemantic | ⟨⟨⟩, -, h⟩
  · unfold validateSemantics at hsemantic
    cases htime : pf.earlier d.updatedAt d.createdAt with
    | error e' =>
      rw [htime] at hsemantic
      cases e' with
      | invalid =>
        cases hsemantic
        exact .inl rfl
      | naive => exact .inr ⟨mapError_ok hcontract, rfl⟩
    | ok early =>
      rw [htime] at hsemantic
      dsimp only at hsemantic
      split_ifs at hsemantic
      · cases hsemantic
      · cases hsemantic
        exact .inl rfl
  · split_ifs at h
    · cases h
      exact .inl rfl
    · cases h
      exact .inl rfl

theorem checkBody_naive (hcontract : validateContract pf d = .ok ())
    (htime : pf.earlier d.updatedAt d.createdAt = .error .naive) :
    checkBody pf c d = .error (.decision (.time .naive)) := by
  have hsemantic : validateSemantics pf d = .error (.time .naive) := by
    simp only [validateSemantics, htime]
  simp only [checkBody, hcontract, hsemantic]
  rfl

theorem getDecision_none {decisionId : String}
    (h : t.getDecision c.identity.tenant decisionId = none) :
    ∀ r ∈ t.decisions, r.key ≠ (c.identity.tenant.tenantId, decisionId) :=
  lookup_eq_none.mp (Option.map_eq_none_iff.mp h)

theorem createDecision_of_fresh {tenant : TenantContext} {e : AuditEvent} {w : IdempotencyWrite}
    (hdecisions : ∀ r ∈ t.decisions, r.key ≠ (tenant.tenantId, d.decisionId))
    (haudit : ∀ r ∈ t.auditEvents, r.key ≠ (e.row tenant d.decisionId).key)
    (hidempotency : ∀ r ∈ t.idempotency, r.key ≠ IdempotencyRow.key ⟨w, tenant.tenantId⟩) :
    t.createDecision b tenant d [e] (some w) = .ok { t with
      decisions := t.decisions ++ [⟨tenant.tenantId, d.decisionId, d⟩]
      auditEvents := t.auditEvents ++ [e.row tenant d.decisionId]
      idempotency := t.idempotency ++ [⟨w, tenant.tenantId⟩] } := by
  have hdecision : insertRow DecisionRow.key ⟨tenant.tenantId, d.decisionId, d⟩ t.decisions =
      some (t.decisions ++ [⟨tenant.tenantId, d.decisionId, d⟩]) := insertRow_of_fresh hdecisions
  have hevent := insertRow_of_fresh haudit
  have hwrite := insertRow_of_fresh hidempotency
  simp only [DecisionTables.createDecision, hdecision, orRaise, ok_bind, List.foldlM_cons,
    List.foldlM_nil, DecisionTables.insertAudit, hevent, Option.map_some, pure_bind,
    DecisionTables.insertIdempotency, hwrite]

/-- A checked body of a new id is stored and returned. -/
theorem storeCreated_fresh (hs : t.Sound) (hcheck : checkBody pf c d = .ok ())
    {digest : String} (hreplay : replayOf c.identity key "decision:create" digest t = .ok none)
    (hfresh : t.getDecision c.identity.tenant d.decisionId = none) :
    ∃ t', storeCreated b pf c key d t = .ok (.created (d.withCreation pf c), t') ∧
      t'.getDecision c.identity.tenant d.decisionId = some (d.withCreation pf c) := by
  have hrows := getDecision_none hfresh
  have haudit : ∀ r ∈ t.auditEvents,
      r.key ≠ ((createdEvent pf c d).row c.identity.tenant d.decisionId).key := by
    intro r hr hkey
    obtain ⟨row, hrow, hcase⟩ := List.mem_map.mp (hs.owned r hr)
    exact hrows row hrow (hcase.trans (congrArg Prod.fst hkey))
  have hidempotency := lookup_eq_none.mp (replayOf_none hreplay)
  obtain ⟨t', hcreate, hdecisions⟩ : ∃ t', t.createDecision b c.identity.tenant
      (d.withCreation pf c) [createdEvent pf c d] (some ⟨c.identity.actorId, "decision:create", key,
        payloadHash pf d.toJson, 201, (d.withCreation pf c).toJson⟩) = .ok t' ∧ t'.decisions =
      t.decisions ++ [⟨c.identity.tenant.tenantId, d.decisionId, d.withCreation pf c⟩] :=
    ⟨_, createDecision_of_fresh (d := d.withCreation pf c) hrows haudit hidempotency, rfl⟩
  refine ⟨t', ?_, ?_⟩
  · simp only [storeCreated, hcheck, ok_bind, hcreate]
    rfl
  · let row : DecisionRow := ⟨c.identity.tenant.tenantId, d.decisionId, d.withCreation pf c⟩
    have hlookup : lookup DecisionRow.key row.key (t.decisions ++ [row]) = some row :=
      lookup_append_self (lookup_eq_none.mpr hrows)
    rw [DecisionTables.getDecision, hdecisions]
    exact congrArg (Option.map DecisionRow.document) hlookup

/-- A checked body of a stored id violates the primary key. -/
theorem storeCreated_taken (hcheck : checkBody pf c d = .ok ())
    (htaken : t.getDecision c.identity.tenant d.decisionId ≠ none) :
    storeCreated b pf c key d t = .error (createError b.violation) := by
  have hsome : (lookup DecisionRow.key (c.identity.tenant.tenantId, d.decisionId)
      t.decisions).isSome = true := by
    rw [Option.isSome_iff_ne_none]
    intro hnone
    exact htaken (congrArg (Option.map DecisionRow.document) hnone)
  have hinsert : insertRow DecisionRow.key ⟨c.identity.tenant.tenantId, d.decisionId,
      d.withCreation pf c⟩ t.decisions = none := if_pos hsome
  have hcreate : ∀ write, t.createDecision b c.identity.tenant (d.withCreation pf c)
      [createdEvent pf c d] write = .error b.violation := by
    intro write
    have hid : (d.withCreation pf c).decisionId = d.decisionId := rfl
    simp only [DecisionTables.createDecision, hid, hinsert, orRaise, error_bind]
  simp only [storeCreated, hcheck, ok_bind, hcreate]
  rfl

theorem answered_created (hj : body.value.encoded = some j) (hd : DecisionFile.ofJson j = some d)
    (hstored : t'.getDecision c.identity.tenant d.decisionId = some (d.withCreation pf c)) :
    AnswersCreation pf c body t (.ok (.created (d.withCreation pf c), t')) :=
  ⟨hstored, j, d, hj, hd, rfl⟩

/-- What a checked body has to be for an answer. -/
theorem storeChecked_answered_iff (b : Backend) (rec : Recursion) (hs : t.Sound)
    (hj : body.value.encoded = some j)
    (hreplay : replayOf c.identity key "decision:create" (payloadHash pf j) t = .ok none)
    (hd : DecisionFile.ofJson j = some d) (hcheck : checkBody pf c d = .ok ()) :
    AnswersCreation pf c body t (do
      descend (rec.copies j)
      descend (rec.writes (d.withCreation pf c).toJson)
      bindParameters b (d.withCreation pf c).toJson.jsonbAccepts
      (storeCreated b pf c key d t).mapError .route) ↔
      (rec.copies j = true ∧ rec.writes (d.withCreation pf c).toJson = true) ∧
      (b = .postgresql → (d.withCreation pf c).toJson.jsonbAccepts = true ∧
        t.getDecision c.identity.tenant d.decisionId = none) := by
  cases hcopies : rec.copies j with
  | false => simp [descend, AnswersCreation]
  | true =>
    cases hwrites : rec.writes (d.withCreation pf c).toJson with
    | false => simp [descend, AnswersCreation]
    | true =>
      simp only [descend, if_true, ok_bind, true_and]
      by_cases hfresh : t.getDecision c.identity.tenant d.decisionId = none
      · obtain ⟨t', hstore, hstored⟩ := storeCreated_fresh (b := b) hs hcheck hreplay hfresh
        have hanswered := answered_created (t := t) hj hd hstored
        rw [hstore]
        cases b with
        | sqlite => simpa [bindParameters, Except.mapError] using hanswered
        | postgresql =>
          cases haccepts : (d.withCreation pf c).toJson.jsonbAccepts with
          | true => simpa [bindParameters, Except.mapError, hfresh] using hanswered
          | false => simp [bindParameters, AnswersCreation]
      · have hstore : storeCreated b pf c key d t = .error (createError b.violation) :=
          storeCreated_taken hcheck hfresh
        rw [hstore]
        cases b with
        | sqlite =>
          have hclient : (createError Backend.sqlite.violation).isClient = true := by decide
          simpa [bindParameters, Except.mapError, AnswersCreation] using hclient
        | postgresql =>
          have hserver : (createError Backend.postgresql.violation).isClient = false := by decide
          cases haccepts : (d.withCreation pf c).toJson.jsonbAccepts with
          | true => simp [bindParameters, Except.mapError, AnswersCreation, hfresh, hserver]
          | false => simp [bindParameters, AnswersCreation]

/-- What a body that is not replayed has to be for an answer. -/
theorem storeBody_answered_iff (b : Backend) (rec : Recursion) (hs : t.Sound)
    (hj : body.value.encoded = some j)
    (hreplay : replayOf c.identity key "decision:create" (payloadHash pf j) t = .ok none) :
    AnswersCreation pf c body t (storeBody b rec pf c key j t) ↔
      rec.checks j = true ∧
      ∀ d, DecisionFile.ofJson j = some d → validateContract pf d = .ok () →
        pf.earlier d.updatedAt d.createdAt ≠ .error .naive ∧
        (checkBody pf c d = .ok () →
          (rec.copies j = true ∧ rec.writes (d.withCreation pf c).toJson = true) ∧
          (b = .postgresql → (d.withCreation pf c).toJson.jsonbAccepts = true ∧
            t.getDecision c.identity.tenant d.decisionId = none)) := by
  unfold storeBody
  cases hchecks : rec.checks j with
  | false => simp [descend, AnswersCreation]
  | true =>
    simp only [show descend true = .ok () from rfl, ok_bind, true_and]
    cases hd : DecisionFile.ofJson j with
    | none =>
      refine ⟨fun _ d' hd' => absurd hd' (by simp), fun _ => ?_⟩
      exact (rfl : (bodyError .contract).isClient = true)
    | some d =>
      simp only [Option.some.injEq, forall_eq']
      cases hcheck : checkBody pf c d with
      | error e =>
        simp only [error_bind, Except.mapError, reduceCtorEq, false_implies, and_true]
        change e.isClient = true ↔ _
        constructor
        · intro hclient hcontract hnaive
          rw [checkBody_naive hcontract hnaive] at hcheck
          cases hcheck
          cases hclient
        · intro hhandled
          rcases checkBody_error hcheck with hclient | ⟨hcontract, hnaive⟩
          · exact hclient
          · exact absurd hnaive (hhandled hcontract)
      | ok u =>
        obtain ⟨⟨⟩, hcontract, -⟩ := bind_ok_cases hcheck
        have haware : pf.earlier d.updatedAt d.createdAt ≠ .error .naive := by
          intro hnaive
          rw [checkBody_naive (mapError_ok hcontract) hnaive] at hcheck
          cases hcheck
        have hchecked := storeChecked_answered_iff b rec hs hj hreplay hd hcheck
        simp only [mapError_ok hcontract, true_implies, haware, ne_eq, not_false_eq_true, true_and]
        exact hchecked

/-- A request that is answered: refused before its body is hashed, or one of a handled body. -/
def HandlesCreation (b : Backend) (rec : Recursion) (pf : Platform) (c : Caller)
    (body : ParsedBody) (t : DecisionTables) : Prop :=
  require c.identity .decisionCreate = .ok () →
    ∀ key, requireIdempotencyKey c.idempotencyKey = .ok key → HandlesBody b rec pf c body t key

theorem createBody_answered_iff (hs : t.Sound) :
    AnswersCreation pf c body t (createBody b rec pf c body t) ↔
      HandlesCreation b rec pf c body t := by
  unfold createBody HandlesCreation
  cases hrequire : require c.identity .decisionCreate with
  | error e =>
    simp only [reduceCtorEq, false_implies, iff_true]
    exact require_isClient hrequire
  | ok u =>
    simp only [Except.mapError, ok_bind, true_implies]
    cases hkey : requireIdempotencyKey c.idempotencyKey with
    | error e =>
      simp only [reduceCtorEq, false_implies, implies_true, iff_true]
      exact requireIdempotencyKey_isClient hkey
    | ok key =>
      simp only [Except.ok.injEq, forall_eq', ok_bind]
      by_cases hhashed : rec.hashes body.value = true
      swap
      · rw [descend, if_neg hhashed]
        exact ⟨fun h => h.elim, fun h => absurd h.hashed hhashed⟩
      rw [descend, if_pos hhashed, ok_bind]
      cases hj : body.value.encoded with
      | none =>
        refine ⟨fun h => absurd h (by simp [orRaise, AnswersCreation]), fun h => ?_⟩
        obtain ⟨j, hsome, -⟩ := h.encoded
        rw [hj] at hsome
        cases hsome
      | some j =>
        have hraise : (orRaise .unicodeEncodeError (some j) : Except CreationError Json) = .ok j :=
          rfl
        rw [hraise, ok_bind]
        by_cases hbound : b = .postgresql → ∀ s ∈ idempotencyTexts c key,
            Char.ofNat 0 ∉ s.toList
        · have hbind : bindParameters b ((idempotencyTexts c key).all fun s =>
              !s.toList.contains (Char.ofNat 0)) = .ok () := by
            apply if_neg
            rintro ⟨hb, hfalse⟩
            have hall : ((idempotencyTexts c key).all fun s =>
                !s.toList.contains (Char.ofNat 0)) = true := by simpa using hbound hb
            rw [hfalse] at hall
            cases hall
          rw [hbind, ok_bind]
          cases hreplay : replayOf c.identity key "decision:create" (payloadHash pf j) t with
          | error e =>
            have hclient : e.isClient = true := replayOf_isClient hreplay
            refine ⟨fun _ => ⟨hhashed, hbound, j, hj, fun h => absurd h (by simp [hreplay])⟩,
              fun _ => ?_⟩
            exact hclient
          | ok replay =>
            cases replay with
            | some answer =>
              refine ⟨fun _ => ⟨hhashed, hbound, j, hj, fun h => absurd h (by simp [hreplay])⟩,
                fun _ => ?_⟩
              exact (rfl : t = t)
            | none =>
              have hstore := storeBody_answered_iff b rec hs hj hreplay
              refine ⟨fun h => ⟨hhashed, hbound, j, hj, fun _ => hstore.mp h⟩, fun h => ?_⟩
              obtain ⟨j', hj', hhandled⟩ := h.encoded
              obtain rfl : j = j' := Option.some.inj (hj.symm.trans hj')
              exact hstore.mpr (hhandled hreplay)
        · have hbind : bindParameters b ((idempotencyTexts c key).all fun s =>
              !s.toList.contains (Char.ofNat 0)) = .error .dataError := by
            obtain ⟨hb, hnul⟩ := Classical.not_imp.mp hbound
            refine if_pos ⟨hb, ?_⟩
            rw [← Bool.not_eq_true]
            intro hall
            exact hnul (by simpa using hall)
          rw [hbind]
          exact ⟨fun h => h.elim, fun h => absurd h.bound hbound⟩

/-! ## A body that is not answered -/

/-- A parsed body `"\ud800"`. -/
def surrogateBody : ParsedBody := ⟨.str [.surrogate 0], trivial⟩

/-- In every reachable store, a creation is answered exactly if its request is handled. -/
theorem creation_answered_iff (b : Backend) (rec : Recursion) (py : Interpreter) (acts : List Act)
    (c : Caller) (body : ParsedBody) :
    AnswersCreation py.toPlatform c body (decisionsAfter b py acts)
        (createBody b rec py.toPlatform c body (decisionsAfter b py acts)) ↔
      HandlesCreation b rec py.toPlatform c body (decisionsAfter b py acts) :=
  createBody_answered_iff (sound_decisionsAfter acts)

/-- However deep the interpreter descends, an unpaired surrogate is not answered. -/
theorem surrogate_unanswered : ¬∀ (b : Backend) (py : Interpreter) (acts : List Act) (c : Caller)
    (body : ParsedBody), AnswersCreation py.toPlatform c body (decisionsAfter b py acts)
      (createBody b .unlimited py.toPlatform c body (decisionsAfter b py acts)) := by
  intro h
  have hraises : createBody .sqlite .unlimited asciiInterpreter.toPlatform authorCaller
      surrogateBody (decisionsAfter .sqlite asciiInterpreter []) = .error .unicodeEncodeError := by
    rfl
  have hanswered := h .sqlite asciiInterpreter [] authorCaller surrogateBody
  rw [hraises] at hanswered
  exact hanswered

end Route

end DecisionAssurance
