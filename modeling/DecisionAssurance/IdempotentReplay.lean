import DecisionAssurance.DecisionLedger

/-!
# Requests sent again

The reply of a successful request is stored under its idempotency key. Sent again, a request
is answered from that row unless a check before the lookup turns it away: a transition to
BLOCKED is checked against the status the decision has by then.
-/

namespace DecisionAssurance

open Tables Runs

def Reply.statusCode : Reply → ℕ
  | .replayed statusCode _ => statusCode
  | .created _ => 201
  | _ => 200

def Reply.body : Reply → Json
  | .replayed _ body => body
  | .created document => document.toJson
  | .evaluated report => report.toJson
  | .transitioned document => document.toJson
  | .attached document => document.toJson

/-- The same caller with the same key, at another time. -/
def Caller.Again (c c' : Caller) : Prop :=
  c'.identity = c.identity ∧ c'.idempotencyKey = c.idempotencyKey

/-- The same request, sent again. -/
inductive Again : DecisionRequest → DecisionRequest → Prop
  | create {c c' : Caller} (h : c.Again c') (body : DecisionFile) :
      Again (.create c body) (.create c' body)
  | evaluate {c c' : Caller} (h : c.Again c') (decisionId : String) :
      Again (.evaluate c decisionId) (.evaluate c' decisionId)
  | transition {c c' : Caller} (h : c.Again c') (decisionId : String) (target : Target)
      (decidedAt decidedAt' : String) (tokens tokens' : ℕ → String) :
      Again (.transition c decisionId target decidedAt tokens)
        (.transition c' decisionId target decidedAt' tokens')

/-- The caller of a transition to BLOCKED may also block out of DRAFT and VALIDATION. -/
def MayBlockAgain : DecisionRequest → Prop
  | .transition c _ .blocked _ _ => c.identity.authorized .decisionValidate = true
  | _ => True

/-! ## The row of an answered request -/

/-- A row of the table answers an operation of a caller with a reply. -/
def Answered (t : DecisionTables) (c : Caller) (operation digest : String) (reply : Reply) :
    Prop :=
  ∃ key row, requireIdempotencyKey c.idempotencyKey = .ok key ∧ row ∈ t.idempotency ∧
    row.key = (c.identity.tenant.tenantId, c.identity.actorId, operation, key) ∧
    row.requestHash = digest ∧ row.statusCode = reply.statusCode ∧ row.response = reply.body

/-- A request wrote the row that answers it. -/
def Wrote (t t' : DecisionTables) (c : Caller) (operation digest : String) (reply : Reply) :
    Prop :=
  ∃ key, requireIdempotencyKey c.idempotencyKey = .ok key ∧
    DecisionTables.Records c.identity.tenant
      ⟨c.identity.actorId, operation, key, digest, reply.statusCode, reply.body⟩ t t'

section Answers

variable {b : Backend} {pf : Platform} {c c' : Caller} {t t' : DecisionTables} {reply : Reply}
  {key operation digest decisionId : String}

theorem replayOf_some {statusCode : ℕ} {body : Json}
    (h : replayOf c.identity key operation digest t = .ok (some (statusCode, body))) :
    ∃ row ∈ t.idempotency,
      row.key = (c.identity.tenant.tenantId, c.identity.actorId, operation, key) ∧
      row.requestHash = digest ∧ row.statusCode = statusCode ∧ row.response = body := by
  have hget := mapError_ok h
  unfold DecisionTables.getIdempotency at hget
  split at hget
  · cases hget
  · rename_i row hrow
    split_ifs at hget with hhash
    cases hget
    exact ⟨row, mem_of_lookup hrow, key_of_lookup hrow, not_not.mp hhash, rfl, rfl⟩

/-- The lookup of a request that was answered. -/
theorem replayOf_of_row (hkeyed : Keyed IdempotencyRow.key t.idempotency) {row : IdempotencyRow}
    (hrow : row ∈ t.idempotency)
    (hkey : row.key = (c.identity.tenant.tenantId, c.identity.actorId, operation, key))
    (hhash : row.requestHash = digest) :
    replayOf c.identity key operation digest t = .ok (some (row.statusCode, row.response)) := by
  have hlookup := hkeyed.lookup_eq_some.mpr ⟨hrow, hkey⟩
  unfold replayOf DecisionTables.getIdempotency
  simp only [hlookup, hhash, ne_eq, not_true_eq_false, if_false]
  rfl

/-- A reply is one that was stored already, or it is stored with what else was written. -/
theorem unlessReplayed_recorded (hkey : requireIdempotencyKey c.idempotencyKey = .ok key)
    {replay : Option (ℕ × Json)} {work : Answers (Reply × DecisionTables)}
    (hreplay : replayOf c.identity key operation digest t = .ok replay)
    (h : unlessReplayed replay t work = .ok (reply, t'))
    (hwork : work = .ok (reply, t') → DecisionTables.Records c.identity.tenant
      ⟨c.identity.actorId, operation, key, digest, reply.statusCode, reply.body⟩ t t') :
    (t' = t ∧ Answered t c operation digest reply) ∨ Wrote t t' c operation digest reply := by
  cases replay with
  | none => exact .inr ⟨key, hkey, hwork h⟩
  | some answer =>
    obtain ⟨statusCode, body⟩ := answer
    cases h
    obtain ⟨row, hrow⟩ := replayOf_some hreplay
    exact .inl ⟨rfl, key, row, hkey, hrow⟩

theorem answered_of_recorded (h : (t' = t ∧ Answered t c operation digest reply) ∨
    Wrote t t' c operation digest reply) : Answered t' c operation digest reply := by
  rcases h with ⟨rfl, h⟩ | ⟨key, hkey, hrecords⟩
  · exact h
  · refine ⟨key, ⟨⟨c.identity.actorId, operation, key, digest, reply.statusCode, reply.body⟩,
      c.identity.tenant.tenantId⟩, hkey, ?_, rfl, rfl, rfl, rfl⟩
    rw [hrecords.appended]
    exact List.mem_append_right _ (List.mem_singleton_self _)

theorem create_recorded {body : DecisionFile}
    (h : createDecision b pf c body t = .ok (reply, t')) :
    (t' = t ∧ Answered t c "decision:create" (payloadHash pf body.toJson) reply) ∨
      Wrote t t' c "decision:create" (payloadHash pf body.toJson) reply := by
  obtain ⟨u, hrequire, h⟩ := bind_ok_cases h
  obtain ⟨key, hkey, h⟩ := bind_ok_cases h
  obtain ⟨replay, hreplay, h⟩ := bind_ok_cases h
  refine unlessReplayed_recorded hkey hreplay h fun hwork => ?_
  obtain ⟨u', hcheck, hwork⟩ := bind_ok_cases hwork
  obtain ⟨t₁, hcreate, hwork⟩ := bind_ok_cases hwork
  cases hwork
  exact DecisionTables.createDecision_records (mapError_ok hcreate)

theorem evaluate_recorded (h : evaluate b pf c decisionId t = .ok (reply, t')) :
    (t' = t ∧ Answered t c (evaluateOperation decisionId) (payloadHash pf (.obj [])) reply) ∨
      Wrote t t' c (evaluateOperation decisionId) (payloadHash pf (.obj [])) reply := by
  obtain ⟨u, hrequire, h⟩ := bind_ok_cases h
  obtain ⟨key, hkey, h⟩ := bind_ok_cases h
  obtain ⟨replay, hreplay, h⟩ := bind_ok_cases h
  refine unlessReplayed_recorded hkey hreplay h fun hwork => ?_
  obtain ⟨d, hload, hwork⟩ := bind_ok_cases hwork
  obtain ⟨⟨report, r⟩, hresult, hwork⟩ := bind_ok_cases hwork
  obtain ⟨t₁, hsave, hwork⟩ := bind_ok_cases hwork
  cases hwork
  have hrecords := DecisionTables.saveResult_records (mapError_ok hsave)
  obtain ⟨⟨updated, report'⟩, heval, hresult⟩ := bind_ok_cases hresult
  cases hresult
  exact hrecords

theorem transition_recorded {target : Target} {decidedAt : String} {tokens : ℕ → String}
    (h : transition b pf c decisionId target decidedAt tokens t = .ok (reply, t')) :
    (t' = t ∧ Answered t c (transitionOperation decisionId target)
      (payloadHash pf (targetJson target)) reply) ∨
      Wrote t t' c (transitionOperation decisionId target) (payloadHash pf (targetJson target))
        reply := by
  obtain ⟨key, hkey, h⟩ := bind_ok_cases h
  obtain ⟨u, hrequire, h⟩ := bind_ok_cases h
  obtain ⟨d, hload, h⟩ := bind_ok_cases h
  obtain ⟨u', hblocked, h⟩ := bind_ok_cases h
  obtain ⟨replay, hreplay, h⟩ := bind_ok_cases h
  refine unlessReplayed_recorded hkey hreplay h fun hwork => ?_
  obtain ⟨r, hresult, hwork⟩ := bind_ok_cases hwork
  obtain ⟨t₁, hsave, hwork⟩ := bind_ok_cases hwork
  cases hwork
  have hrecords := DecisionTables.saveResult_records (mapError_ok hsave)
  obtain ⟨updated, htransition, hresult⟩ := bind_ok_cases hresult
  cases hresult
  exact hrecords

end Answers

/-! ## Operations are told apart -/

theorem toList_transitionOperation (decisionId : String) (target : Target) :
    (transitionOperation decisionId target).toList = "decision:transition:".toList ++
      (decisionId.toList ++ ':' :: target.status.value.toList) := by
  have hcolon : (":" : String).toList = [':'] := by decide
  unfold transitionOperation
  simp only [toString, String.toList_append, hcolon, List.append_assoc, List.cons_append,
    List.nil_append]

theorem toList_evaluateOperation (decisionId : String) :
    (evaluateOperation decisionId).toList = "decision:evaluate:".toList ++ decisionId.toList := by
  unfold evaluateOperation
  simp only [toString, String.toList_append]

theorem transitionOperation_inj {decisionId decisionId' : String} {target target' : Target}
    (h : transitionOperation decisionId target = transitionOperation decisionId' target') :
    decisionId = decisionId' ∧ target = target' := by
  have hlist := congrArg String.toList h
  rw [toList_transitionOperation, toList_transitionOperation] at hlist
  have htail := List.append_cancel_left hlist
  have htarget : target = target' := by
    have hreverse := congrArg List.reverse htail
    rw [List.reverse_append, List.reverse_append, List.reverse_cons, List.reverse_cons] at hreverse
    cases target with
    | validation => cases target' <;> simp [Target.status, CaseStatus.value] at hreverse ⊢
    | review => cases target' <;> simp [Target.status, CaseStatus.value] at hreverse ⊢
    | approved => cases target' <;> simp [Target.status, CaseStatus.value] at hreverse ⊢
    | blocked => cases target' <;> simp [Target.status, CaseStatus.value] at hreverse ⊢
  subst htarget
  exact ⟨String.toList_inj.mp (List.append_cancel_right htail), rfl⟩

theorem transitionOperation_ne_create (decisionId : String) (target : Target) :
    "decision:create" ≠ transitionOperation decisionId target := by
  intro h
  have hlist := congrArg (fun s : String => s.toList.take 10) h
  rw [toList_transitionOperation] at hlist
  simp at hlist

theorem transitionOperation_ne_evaluate (decisionId decisionId' : String) (target : Target) :
    evaluateOperation decisionId' ≠ transitionOperation decisionId target := by
  intro h
  have hlist := congrArg (fun s : String => s.toList.take 10) h
  rw [toList_transitionOperation, toList_evaluateOperation] at hlist
  simp at hlist

/-! ## The cases of answered transitions -/

/-- The rows of a case stay, and a blocked case stays blocked. -/
def Persists (t t' : DecisionTables) : Prop :=
  ∀ r ∈ t.decisions, ∃ r' ∈ t'.decisions, r'.key = r.key ∧
    (r.document.status = .blocked → r'.document.status = .blocked)

/-- A row that answers a transition is about a stored case, blocked if it was to be. -/
def AboutCase (t : DecisionTables) (row : IdempotencyRow) : Prop :=
  ∀ decisionId target, row.operation = transitionOperation decisionId target →
    ∃ r ∈ t.decisions, r.key = (row.tenantId, decisionId) ∧
      (target = .blocked → r.document.status = .blocked)

structure Recorded (t : DecisionTables) : Prop where
  keyed : Keyed IdempotencyRow.key t.idempotency
  about : ∀ row ∈ t.idempotency, AboutCase t row

theorem recorded_empty : Recorded .empty :=
  ⟨List.nodup_nil, fun _ h => absurd h List.not_mem_nil⟩

theorem Persists.refl (t : DecisionTables) : Persists t t :=
  fun r hr => ⟨r, hr, rfl, fun h => h⟩

theorem AboutCase.persists {t t' : DecisionTables} {row : IdempotencyRow} (h : AboutCase t row)
    (hp : Persists t t') : AboutCase t' row := by
  intro decisionId target hoperation
  obtain ⟨r, hr, hkey, hblocked⟩ := h decisionId target hoperation
  obtain ⟨r', hr', hkey', hkept⟩ := hp r hr
  exact ⟨r', hr', hkey'.trans hkey, fun ht => hkept (hblocked ht)⟩

theorem Recorded.same {t t' : DecisionTables} (h : Recorded t) (hp : Persists t t')
    (hrows : t'.idempotency = t.idempotency) : Recorded t' := by
  refine ⟨?_, fun row hrow => ?_⟩
  · rw [hrows]
    exact h.keyed
  · rw [hrows] at hrow
    exact (h.about row hrow).persists hp

theorem Recorded.wrote {t t' : DecisionTables} {c : Caller} {operation digest : String}
    {reply : Reply} (h : Recorded t) (hp : Persists t t') (hw : Wrote t t' c operation digest reply)
    (hnew : ∀ decisionId target, operation = transitionOperation decisionId target →
      ∃ r ∈ t'.decisions, r.key = (c.identity.tenant.tenantId, decisionId) ∧
        (target = .blocked → r.document.status = .blocked)) : Recorded t' := by
  obtain ⟨key, -, hrecords⟩ := hw
  refine ⟨?_, fun row hrow => ?_⟩
  · rw [hrecords.appended]
    exact keyed_append_singleton h.keyed hrecords.fresh
  · rw [hrecords.appended] at hrow
    rcases List.mem_append.mp hrow with hrow | hrow
    · exact (h.about row hrow).persists hp
    · rw [List.mem_singleton.mp hrow]
      exact hnew

section Steps

variable {b : Backend} {pf : Platform} {t t' : DecisionTables} {reply : Reply}

theorem Replaces.persists (hs : t.Sound) {tenant : TenantContext} {decisionId : String}
    {d d' : DecisionFile} {e : AuditEvent} (h : Replaces pf t t' tenant decisionId d d' e)
    (hblocked : d.status = .blocked → d'.status = .blocked) : Persists t t' := by
  intro r hr
  by_cases hkey : r.key = (tenant.tenantId, decisionId)
  · refine ⟨r.write d', ?_, r.key_write d', fun hr' => hblocked ?_⟩
    · rw [h.decisions]
      refine mem_updateWhere.mpr ⟨r, hr, ?_⟩
      rw [if_pos (decide_eq_true hkey)]
    · have hget := h.loaded
      rw [DecisionTables.getDecision, hs.decisions.lookup_eq_some.mpr ⟨hr, hkey⟩] at hget
      rw [← Option.some.inj hget]
      exact hr'
  · refine ⟨r, ?_, rfl, fun hr' => hr'⟩
    rw [h.decisions]
    refine mem_updateWhere.mpr ⟨r, hr, ?_⟩
    rw [if_neg (fun hd => hkey (of_decide_eq_true hd))]

/-- No transition leaves BLOCKED. -/
theorem Transitioned.not_blocked {c : Caller} {target : Target} {d bound : DecisionFile}
    {r : SavedResult} {actor : Actor} (h : Transitioned pf c target d r bound actor) :
    bound.status ≠ .blocked := by
  intro hstatus
  obtain ⟨hallowed, -⟩ := rejectionReasons_nil h.reasons
  rw [hstatus] at hallowed
  cases target with
  | validation => cases hallowed
  | review => cases hallowed
  | approved => cases hallowed
  | blocked => cases hallowed

theorem Effect.persists {request : DecisionRequest} (hs : t.Sound) (h : Effect b pf t t' request) :
    Persists t t' := by
  cases h with
  | unchanged _ same =>
    rw [same]
    exact .refl t
  | created c body creates =>
    intro r hr
    refine ⟨r, ?_, rfl, fun hr' => hr'⟩
    rw [creates.decisions]
    exact List.mem_append_left _ hr
  | evaluated _ _ _ _ _ _ _ _ status _ replaces _ =>
    refine replaces.persists hs fun hd => ?_
    rw [status]
    exact hd
  | transitioned _ _ _ _ _ _ _ _ _ result replaces _ =>
    refine replaces.persists hs fun hd => absurd ?_ result.not_blocked
    rw [boundDocument_status]
    exact hd
  | attached _ _ _ _ _ draft _ _ replaces _ =>
    refine replaces.persists hs fun hd => ?_
    rw [hd] at draft
    cases draft

theorem handoff_idempotency {tenant : TenantContext} {run : Research.ResearchRun}
    (h : handoff b pf tenant run t = .ok (reply, t')) : t'.idempotency = t.idempotency := by
  obtain ⟨evidence, hcompile, h⟩ := bind_ok_cases h
  obtain ⟨⟨t₁, document⟩, hattach, h⟩ := bind_ok_cases h
  cases h
  obtain ⟨v, hdeliver, hattach⟩ := bind_ok_cases (mapError_ok hattach)
  obtain ⟨d, hload, hattach⟩ := bind_ok_cases hattach
  split_ifs at hattach with hreplay
  · cases hattach
    rfl
  · obtain ⟨updated, hupdated, hattach⟩ := bind_ok_cases hattach
    obtain ⟨t₂, hinsert, hattach⟩ := bind_ok_cases hattach
    obtain ⟨handoffs, hhandoffs, hattach⟩ := bind_ok_cases hattach
    cases hattach
    obtain ⟨audit, haudit, rfl⟩ :=
      Option.map_eq_some_iff.mp (orRaise_ok.mp (mapError_ok hinsert))
    rfl

theorem Recorded.replied {request : DecisionRequest} (h : Recorded t) (hs : t.Sound)
    (hreply : respond b pf t request = .ok (reply, t')) : Recorded t' := by
  have heffect := @effect_served b pf t hs request
  rw [served_of_reply hreply] at heffect
  have hp := heffect.persists hs
  cases request with
  | create c body =>
    rcases create_recorded hreply with ⟨rfl, -⟩ | hwrote
    · exact h
    · exact h.wrote hp hwrote fun decisionId target ho =>
        absurd ho (transitionOperation_ne_create decisionId target)
  | evaluate c decisionId =>
    rcases evaluate_recorded hreply with ⟨rfl, -⟩ | hwrote
    · exact h
    · exact h.wrote hp hwrote fun decisionId' target ho =>
        absurd ho (transitionOperation_ne_evaluate decisionId' decisionId target)
  | transition c decisionId target decidedAt tokens =>
    rcases transitionRoute_cases hs hreply with ⟨_, _, -, rfl⟩ | ⟨d, r, e, -, hresult, hreplaces, -⟩
    · exact h
    · rcases transition_recorded hreply with ⟨rfl, -⟩ | hwrote
      · exact h
      · refine h.wrote hp hwrote fun decisionId' target' ho => ?_
        obtain ⟨rfl, rfl⟩ := transitionOperation_inj ho
        obtain ⟨r₀, hr₀, hkey, hmem⟩ := hreplaces.exists_row
        refine ⟨r₀.write r.document, hmem, hkey, fun ht => ?_⟩
        have hstatus : r.document.status = target.status := hresult.status
        rw [ht] at hstatus
        exact hstatus
  | handoff tenant run => exact h.same hp (handoff_idempotency hreply)

theorem Recorded.served (h : Recorded t) (hs : t.Sound) (request : DecisionRequest) :
    Recorded (served b pf t request) := by
  cases hreply : respond b pf t request with
  | error e =>
    rw [DecisionAssurance.served, hreply]
    exact h
  | ok r =>
    rw [served_of_reply hreply]
    exact h.replied hs hreply

/-- Rows of the idempotency table are never removed. -/
theorem idempotency_served (hs : t.Sound) (request : DecisionRequest) {row : IdempotencyRow}
    (hrow : row ∈ t.idempotency) : row ∈ (served b pf t request).idempotency := by
  cases hreply : respond b pf t request with
  | error e =>
    rw [DecisionAssurance.served, hreply]
    exact hrow
  | ok r =>
    obtain ⟨reply, t'⟩ := r
    have hwrote {c : Caller} {operation digest : String} (h : (t' = t ∧
        Answered t c operation digest reply) ∨ Wrote t t' c operation digest reply) :
        row ∈ t'.idempotency := by
      rcases h with ⟨rfl, -⟩ | ⟨key, -, hrecords⟩
      · exact hrow
      · rw [hrecords.appended]
        exact List.mem_append_left _ hrow
    rw [served_of_reply hreply]
    cases request with
    | create c body => exact hwrote (create_recorded hreply)
    | evaluate c decisionId => exact hwrote (evaluate_recorded hreply)
    | transition c decisionId target decidedAt tokens => exact hwrote (transition_recorded hreply)
    | handoff tenant run =>
      rw [handoff_idempotency hreply]
      exact hrow

/-- What the tables of a run keep up, with the rows they started from. -/
structure Keeps (t₀ t : DecisionTables) : Prop where
  sound : t.Sound
  recorded : Recorded t
  rows : ∀ row ∈ t₀.idempotency, row ∈ t.idempotency

theorem keeps_foldl (hs : t.Sound) (hr : Recorded t) (requests : List DecisionRequest) :
    Keeps t (requests.foldl (served b pf) t) := by
  induction requests using List.reverseRecOn with
  | nil => exact ⟨hs, hr, fun row h => h⟩
  | append_singleton requests request ih =>
    rw [List.foldl_append]
    exact ⟨sound_served ih.sound request, ih.recorded.served ih.sound request,
      fun row h => idempotency_served ih.sound request (ih.rows row h)⟩

end Steps

/-! ## The same request again -/

section Again

variable {b : Backend} {pf : Platform} {t : DecisionTables} {reply : Reply}
  {c c' : Caller} {key operation digest decisionId : String}

/-- A request is answered as before, and nothing is written. -/
def AnsweredAlike (b : Backend) (pf : Platform) (t : DecisionTables) (request : DecisionRequest)
    (reply : Reply) : Prop :=
  ∃ reply', respond b pf t request = .ok (reply', t) ∧ reply'.statusCode = reply.statusCode ∧
    reply'.body = reply.body

theorem Answered.replayOf (hkeyed : Keyed IdempotencyRow.key t.idempotency)
    (h : Answered t c operation digest reply)
    (hkey : requireIdempotencyKey c.idempotencyKey = .ok key) :
    DecisionAssurance.replayOf c.identity key operation digest t =
      .ok (some (reply.statusCode, reply.body)) := by
  obtain ⟨key', row, hkey', hrow, hrowKey, hhash, hstatus, hbody⟩ := h
  rw [hkey] at hkey'
  cases hkey'
  rw [← hstatus, ← hbody]
  exact replayOf_of_row hkeyed hrow hrowKey hhash

theorem Answered.key_ok (h : Answered t c operation digest reply) :
    ∃ key, requireIdempotencyKey c.idempotencyKey = .ok key := by
  obtain ⟨key, -, hkey, -⟩ := h
  exact ⟨key, hkey⟩

theorem create_again {body : DecisionFile} (hkeyed : Keyed IdempotencyRow.key t.idempotency)
    (hrequire : require c.identity .decisionCreate = .ok ())
    (h : Answered t c "decision:create" (payloadHash pf body.toJson) reply) :
    AnsweredAlike b pf t (.create c body) reply := by
  obtain ⟨key, hkey⟩ := h.key_ok
  refine ⟨.replayed reply.statusCode reply.body, ?_, rfl, rfl⟩
  unfold respond createDecision
  simp only [hrequire, hkey, h.replayOf hkeyed hkey, ok_bind, unlessReplayed]

theorem evaluate_again (hkeyed : Keyed IdempotencyRow.key t.idempotency)
    (hrequire : require c.identity .decisionEvaluate = .ok ())
    (h : Answered t c (evaluateOperation decisionId) (payloadHash pf (.obj [])) reply) :
    AnsweredAlike b pf t (.evaluate c decisionId) reply := by
  obtain ⟨key, hkey⟩ := h.key_ok
  refine ⟨.replayed reply.statusCode reply.body, ?_, rfl, rfl⟩
  unfold respond evaluate
  simp only [hrequire, hkey, h.replayOf hkeyed hkey, ok_bind, unlessReplayed]

/-- An answered transition of a loaded document is turned away by the check of BLOCKED only. -/
theorem transition_again {target : Target} {decidedAt : String} {tokens : ℕ → String}
    {d : DecisionFile} (hkeyed : Keyed IdempotencyRow.key t.idempotency)
    (hrequire : requireTarget c.identity target = .ok ()) (hload : load c decisionId t = .ok d)
    (h : Answered t c (transitionOperation decisionId target) (payloadHash pf (targetJson target))
      reply) :
    AnsweredAlike b pf t (.transition c decisionId target decidedAt tokens) reply ↔
      requireBlocked c.identity target d = .ok () := by
  obtain ⟨key, hkey⟩ := h.key_ok
  constructor
  · rintro ⟨reply', hreply, -, -⟩
    obtain ⟨key', hkey', hreply⟩ := bind_ok_cases hreply
    obtain ⟨u, hrequire', hreply⟩ := bind_ok_cases hreply
    obtain ⟨d', hload', hreply⟩ := bind_ok_cases hreply
    obtain ⟨u', hblocked, -⟩ := bind_ok_cases hreply
    rw [hload] at hload'
    cases hload'
    exact hblocked
  · intro hblocked
    refine ⟨.replayed reply.statusCode reply.body, ?_, rfl, rfl⟩
    unfold respond transition
    simp only [hrequire, hkey, hload, hblocked, h.replayOf hkeyed hkey, ok_bind, unlessReplayed]

theorem require_iff {identity : Identity} {p : Permission} :
    require identity p = .ok () ↔ identity.authorized p = true := by
  unfold require
  split_ifs with h
  · exact ⟨fun _ => h, fun _ => rfl⟩
  · exact ⟨fun h' => (nomatch h'), fun h' => absurd h' h⟩

/-- Out of BLOCKED a transition to BLOCKED is checked as one of a validator. -/
theorem requireBlocked_iff {identity : Identity} {target : Target} {d : DecisionFile}
    (h : target = .blocked → d.status = .blocked) :
    requireBlocked identity target d = .ok () ↔
      (target = .blocked → identity.authorized .decisionValidate = true) := by
  unfold requireBlocked
  split_ifs with htarget
  · have hpermission : transitionPermission target d = .decisionValidate := by
      unfold transitionPermission
      rw [if_neg]
      rintro (ht | ⟨-, hstatus⟩)
      · rw [htarget] at ht
        cases ht
      · rw [h htarget] at hstatus
        cases hstatus
    rw [hpermission, require_iff]
    exact ⟨fun h' _ => h', fun h' => h' htarget⟩
  · exact ⟨fun _ h' => absurd h' htarget, fun _ => rfl⟩

theorem Answered.persists {t' : DecisionTables} (h : Answered t c operation digest reply)
    (hrows : ∀ row ∈ t.idempotency, row ∈ t'.idempotency) (hagain : c.Again c') :
    Answered t' c' operation digest reply := by
  obtain ⟨key, row, hkey, hrow, hrest⟩ := h
  rw [← hagain.2] at hkey
  rw [← hagain.1] at hrest
  exact ⟨key, row, hkey, hrows row hrow, hrest⟩

theorem load_of_aboutCase (hs : t.Sound) (hr : Recorded t) {target : Target}
    (h : Answered t c (transitionOperation decisionId target) digest reply) :
    ∃ d, load c decisionId t = .ok d ∧ (target = .blocked → d.status = .blocked) := by
  obtain ⟨key, row, -, hrow, hkey, -⟩ := h
  have hoperation : row.operation = transitionOperation decisionId target :=
    congrArg (fun k => k.2.2.1) hkey
  have htenant : row.tenantId = c.identity.tenant.tenantId := congrArg Prod.fst hkey
  obtain ⟨r, hr, hrkey, hblocked⟩ := hr.about row hrow decisionId target hoperation
  rw [htenant] at hrkey
  refine ⟨r.document, orRaise_ok.mpr ?_, hblocked⟩
  rw [DecisionTables.getDecision, hs.decisions.lookup_eq_some.mpr ⟨hr, hrkey⟩]
  rfl

end Again

/-! ## A case that its approver blocks -/

def validatorCaller : Caller where
  identity := { authorIdentity with
    actorId := "validator", role := .validator, roles := [.validator], named := by decide,
    primary := List.mem_singleton_self _ }
  idempotencyKey := some "key"
  correlationId := "corr"
  now := "2026-01-01"

def approverCaller : Caller where
  identity := { authorIdentity with
    actorId := "approver", role := .approver, roles := [.approver], named := by decide,
    primary := List.mem_singleton_self _ }
  idempotencyKey := some "key"
  correlationId := "corr"
  now := "2026-01-01"

def violatedCase : DecisionFile :=
  { draftCase with constraints := [⟨"limit", .mandatory, false, "LIMIT"⟩] }

/-- The case is moved to REVIEW and evaluated to BLOCK. -/
def blockedOutcome : List DecisionRequest :=
  [.create authorCaller violatedCase,
    .transition validatorCaller "case-1" .validation "2026-01-01" fun _ => "nonce",
    .transition validatorCaller "case-1" .review "2026-01-01" fun _ => "nonce",
    .evaluate validatorCaller "case-1"]

def blockingRequest : DecisionRequest :=
  .transition approverCaller "case-1" .blocked "2026-01-01" fun _ => "nonce"

theorem again_blockingRequest : Again blockingRequest blockingRequest :=
  .transition ⟨rfl, rfl⟩ "case-1" .blocked _ _ _ _

theorem blockingRequest_replied : ∃ reply t, respond .sqlite plainPlatform
    (blockedOutcome.foldl (served .sqlite plainPlatform) .empty) blockingRequest =
      .ok (reply, t) := by
  have hsome : (toOption (respond .sqlite plainPlatform
      (blockedOutcome.foldl (served .sqlite plainPlatform) .empty) blockingRequest)).isSome =
        true := by
    rfl
  obtain ⟨⟨reply, t⟩, hreply⟩ := Option.isSome_iff_exists.mp hsome
  exact ⟨reply, t, toOption_eq_some.mp hreply⟩

end DecisionAssurance
