import DecisionAssurance.CanonicalText
import DecisionAssurance.DecisionValidity

/-!
# What the digests of approvals and actions bind

A digest is of a canonical text, and a canonical text is one of a single payload. Approvals of
accepted documents with one digest are one approval of one case by one requester, and actions with
one digest have one content. A case without approvals binds no requester.
-/

namespace DecisionAssurance

open Json

/-! ## Payloads -/

namespace Json

theorem mem_rereadFields {o : KeyOrder} {number : String → Json} {k : String} {x : Json}
    {fields : List (String × Json)} (h : (k, x) ∈ fields) :
    (k, x.reread o number) ∈ rereadFields o number fields := by
  induction fields with
  | nil => cases h
  | cons f fields ih =>
    obtain ⟨l, y⟩ := f
    rcases List.mem_cons.mp h with hsame | hrest
    · cases hsame
      exact List.mem_cons_self
    · exact List.mem_cons_of_mem _ (ih hrest)

/-- Objects that are one value have one value under each name. -/
theorem normal_field {fields fields' : List (String × Json)} {k : String} {x y : Json}
    (h : (obj fields).normal = (obj fields').normal) (hkeys : (fields'.map Prod.fst).Nodup)
    (hx : (k, x) ∈ fields) (hy : (k, y) ∈ fields') : x.normal = y.normal := by
  have harranged : byName.arrange (rereadFields byName .float fields) =
      byName.arrange (rereadFields byName .float fields') := Json.obj.inj h
  have hmem : (k, x.normal) ∈ rereadFields byName .float fields' := by
    rw [← (byName.perm _).mem_iff, ← harranged, (byName.perm _).mem_iff]
    exact mem_rereadFields hx
  have hnodup : ((rereadFields byName .float fields').map Prod.fst).Nodup := by
    rwa [map_fst_rereadFields]
  have hsame := List.inj_on_of_nodup_map hnodup hmem (mem_rereadFields hy) rfl
  exact (Prod.mk.inj hsame).2

theorem str_of_normal {s s' : String} (h : (Json.str s).normal = (Json.str s').normal) :
    s = s' := Json.str.inj h

theorem ofOption_of_normal {s s' : Option String}
    (h : (ofOption s).normal = (ofOption s').normal) : s = s' := by
  cases s <;> cases s' <;> simp_all [ofOption, normal, reread]

end Json

theorem Role.value_injective : Function.Injective Role.value := by
  intro r r' h
  cases r <;> cases r' <;> simp_all [Role.value]

theorem ActorKind.value_injective : Function.Injective ActorKind.value := by
  intro k k' h
  cases k <;> cases k' <;> simp_all [ActorKind.value]

theorem Verdict.value_injective : Function.Injective Verdict.value := by
  intro v v' h
  cases v <;> cases v' <;> simp_all [Verdict.value]

theorem Reversibility.value_injective : Function.Injective Reversibility.value := by
  intro r r' h
  cases r <;> cases r' <;> simp_all [Reversibility.value]

theorem Actor.eq_of_normal {a a' : Actor} (h : a.toJson.normal = a'.toJson.normal) : a = a' := by
  have hkeys : (["id", "role", "kind"] : List String).Nodup := by decide
  have hid := normal_field (k := "id") (x := .str a.id) (y := .str a'.id) h hkeys
    (by simp) (by simp)
  have hrole := normal_field (k := "role") (x := .str a.role.value) (y := .str a'.role.value) h
    hkeys (by simp) (by simp)
  have hkind := normal_field (k := "kind") (x := .str a.kind.value) (y := .str a'.kind.value) h
    hkeys (by simp) (by simp)
  obtain ⟨id, role, kind⟩ := a
  obtain ⟨id', role', kind'⟩ := a'
  have hsame : role = role' := Role.value_injective (str_of_normal hrole)
  have hsame' : kind = kind' := ActorKind.value_injective (str_of_normal hkind)
  have hsame'' : id = id' := str_of_normal hid
  rw [hsame, hsame', hsame'']

section Digests

variable {pf : Platform} {d d' : DecisionFile} {a a' : Approval} {c c' : CanonicalAction}

theorem dumps_of_payloadHash (hhash : Function.Injective pf.sha256) {v w : Json}
    (h : payloadHash pf v = payloadHash pf w) : v.dumps = w.dumps := by
  have hdigits : pf.sha256 v.dumps = pf.sha256 w.dumps := by
    rwa [payloadHash, payloadHash, String.append_right_inj] at h
  exact hhash hdigits

/-! ## Approvals -/

/-- Approvals that say the same of one case. -/
structure SameApproval (d : DecisionFile) (a : Approval) (d' : DecisionFile) (a' : Approval) :
    Prop where
  decisionId : d.decisionId = d'.decisionId
  requestedBy : d.requestedBy = d'.requestedBy
  requirementRef : a.requirementRef = a'.requirementRef
  approver : a.approver = a'.approver
  decision : a.decision = a'.decision
  decidedAt : a.decidedAt = a'.decidedAt
  actionDigest : a.actionDigest = a'.actionDigest
  nonce : a.nonce = a'.nonce

theorem floats_actor (actor : Actor) : actor.toJson.Floats FloatText := by
  simp [Actor.toJson, Floats, FloatsFields]

theorem sameApproval_of_digest (hhash : Function.Injective pf.sha256)
    (h : approvalDigest pf d a = approvalDigest pf d' a') : SameApproval d a d' a' := by
  have hfloats : ∀ (d : DecisionFile) (a : Approval), (Json.obj
      [("decision_id", .str d.decisionId), ("requested_by", d.requestedBy.toJson),
        ("requirement_ref", .str a.requirementRef), ("approver", a.approver.toJson),
        ("decision", .str a.decision.value), ("decided_at", .str a.decidedAt),
        ("action_digest", Json.ofOption a.actionDigest),
        ("nonce", .str a.nonce)]).Floats FloatText := by
    intro d a
    cases haction : a.actionDigest <;>
      simp [Floats, FloatsFields, floats_actor, Json.ofOption]
  have hnormal := normal_eq_of_dumps (hfloats d a) (hfloats d' a') (dumps_of_payloadHash hhash h)
  have hkeys : (["decision_id", "requested_by", "requirement_ref", "approver", "decision",
      "decided_at", "action_digest", "nonce"] : List String).Nodup := by decide
  constructor
  · exact str_of_normal (normal_field (k := "decision_id") hnormal hkeys (by simp) (by simp))
  · exact Actor.eq_of_normal (normal_field (k := "requested_by") hnormal hkeys (by simp) (by simp))
  · exact str_of_normal (normal_field (k := "requirement_ref") hnormal hkeys (by simp) (by simp))
  · exact Actor.eq_of_normal (normal_field (k := "approver") hnormal hkeys (by simp) (by simp))
  · apply Verdict.value_injective
    exact str_of_normal (normal_field (k := "decision") hnormal hkeys (by simp) (by simp))
  · exact str_of_normal (normal_field (k := "decided_at") hnormal hkeys (by simp) (by simp))
  · exact ofOption_of_normal (normal_field (k := "action_digest") hnormal hkeys (by simp)
      (by simp))
  · exact str_of_normal (normal_field (k := "nonce") hnormal hkeys (by simp) (by simp))

/-! ## Actions -/

/-- The numbers of an action are written as Python writes them. -/
def CanonicalAction.Written (c : CanonicalAction) : Prop :=
  (Json.obj c.parameters).Floats FloatText

/-- Actions with one content besides their digests, where fields of parameters have no order. -/
structure SameContent (c c' : CanonicalAction) : Prop where
  actionId : c.actionId = c'.actionId
  actionType : c.actionType = c'.actionType
  effect : c.effect = c'.effect
  targetType : c.targetType = c'.targetType
  targetId : c.targetId = c'.targetId
  parameters : (Json.obj c.parameters).normal = (Json.obj c'.parameters).normal
  reversibilityClass : c.reversibilityClass = c'.reversibilityClass
  tenantId : c.tenantId = c'.tenantId
  executionContextHash : c.executionContextHash = c'.executionContextHash

theorem sameContent_of_digest (hhash : Function.Injective pf.sha256) (hc : c.Written)
    (hc' : c'.Written) (h : canonicalActionDigest pf c = canonicalActionDigest pf c') :
    SameContent c c' := by
  have hfloats : ∀ c : CanonicalAction, c.Written → (Json.obj c.payload).Floats FloatText := by
    intro c hc
    simp only [CanonicalAction.payload, FloatsFields, Floats, true_and, and_true]
    exact hc
  have hnormal := normal_eq_of_dumps (hfloats c hc) (hfloats c' hc')
    (dumps_of_payloadHash hhash h)
  have hkeys : (["action_id", "action_type", "effect", "target", "parameters",
      "reversibility_class", "tenant_id", "execution_context_hash"] : List String).Nodup := by
    decide
  have htarget : (Json.obj [("type", .str c.targetType), ("id", .str c.targetId)]).normal =
      (Json.obj [("type", .str c'.targetType), ("id", .str c'.targetId)]).normal :=
    normal_field (k := "target") hnormal hkeys (by simp [CanonicalAction.payload])
      (by simp [CanonicalAction.payload])
  have htargetKeys : (["type", "id"] : List String).Nodup := by decide
  have htext : ∀ {k s s' : String}, (k, Json.str s) ∈ c.payload → (k, Json.str s') ∈ c'.payload →
      s = s' := by
    intro k s s' hs hs'
    exact str_of_normal (normal_field hnormal hkeys hs hs')
  constructor
  · exact htext (k := "action_id") (by simp [CanonicalAction.payload])
      (by simp [CanonicalAction.payload])
  · exact htext (k := "action_type") (by simp [CanonicalAction.payload])
      (by simp [CanonicalAction.payload])
  · exact htext (k := "effect") (by simp [CanonicalAction.payload])
      (by simp [CanonicalAction.payload])
  · exact str_of_normal (normal_field (k := "type") htarget htargetKeys (by simp) (by simp))
  · exact str_of_normal (normal_field (k := "id") htarget htargetKeys (by simp) (by simp))
  · exact normal_field (k := "parameters") hnormal hkeys (by simp [CanonicalAction.payload])
      (by simp [CanonicalAction.payload])
  · apply Reversibility.value_injective
    exact htext (k := "reversibility_class") (by simp [CanonicalAction.payload])
      (by simp [CanonicalAction.payload])
  · exact htext (k := "tenant_id") (by simp [CanonicalAction.payload])
      (by simp [CanonicalAction.payload])
  · exact htext (k := "execution_context_hash") (by simp [CanonicalAction.payload])
      (by simp [CanonicalAction.payload])

/-! ## Accepted documents -/

theorem approvals_bound (hhash : Function.Injective pf.sha256)
    (hd : validateSemantics pf d = .ok ()) (hd' : validateSemantics pf d' = .ok ())
    (ha : a ∈ d.approvals) (ha' : a' ∈ d'.approvals) (h : a.approvalDigest = a'.approvalDigest) :
    SameApproval d a d' a' := by
  have hdigest := ((validateSemantics_ok hd).approvals a ha).digest
  have hdigest' := ((validateSemantics_ok hd').approvals a' ha').digest
  apply sameApproval_of_digest hhash
  rw [← hdigest, ← hdigest', h]

theorem digest_of_action (hd : validateSemantics pf d = .ok ()) (hc : d.canonicalAction = some c) :
    c.canonicalDigest = canonicalActionDigest pf c := by
  have herrors := (validateSemantics_iff.mp hd).2
  simp only [DecisionFile.semanticErrors, List.append_eq_nil_iff, DecisionFile.actionErrors, hc,
    errorUnless_eq_nil, decide_eq_true_eq] at herrors
  exact herrors.1.1.1.2.1

theorem actions_bound (hhash : Function.Injective pf.sha256)
    (hd : validateSemantics pf d = .ok ()) (hd' : validateSemantics pf d' = .ok ())
    (hc : d.canonicalAction = some c) (hc' : d'.canonicalAction = some c') (hwritten : c.Written)
    (hwritten' : c'.Written) (h : c.canonicalDigest = c'.canonicalDigest) : SameContent c c' := by
  apply sameContent_of_digest hhash hwritten hwritten'
  rw [← digest_of_action hd hc, ← digest_of_action hd' hc', h]

/-- The semantic rules find errors. -/
def Rejected (pf : Platform) (d : DecisionFile) : Prop :=
  ∃ errors, validateSemantics pf d = .error (.semantic errors)

/-- With the timestamps of an accepted document, only semantic errors are raised. -/
theorem rejected_of_not_ok (hd : validateSemantics pf d = .ok ())
    (hupdated : d'.updatedAt = d.updatedAt) (hcreated : d'.createdAt = d.createdAt)
    (h : validateSemantics pf d' ≠ .ok ()) : Rejected pf d' := by
  have htime := (validateSemantics_ok hd).time
  unfold validateSemantics at h
  unfold Rejected validateSemantics
  rw [hupdated, hcreated, htime] at h ⊢
  dsimp only at h ⊢
  split_ifs at h ⊢ with hnil
  · exact absurd rfl h
  · exact ⟨_, rfl⟩

/-! ## Changed documents -/

theorem changed_case_rejected (hhash : Function.Injective pf.sha256)
    (hd : validateSemantics pf d = .ok ()) (happrovals : d.approvals ≠ [])
    (hsame : d'.approvals = d.approvals) (hupdated : d'.updatedAt = d.updatedAt)
    (hcreated : d'.createdAt = d.createdAt)
    (hchanged : d'.decisionId ≠ d.decisionId ∨ d'.requestedBy ≠ d.requestedBy) :
    Rejected pf d' := by
  apply rejected_of_not_ok hd hupdated hcreated
  intro hd'
  obtain ⟨a, as, hcons⟩ := List.exists_cons_of_ne_nil happrovals
  have ha : a ∈ d.approvals := by
    rw [hcons]
    exact List.mem_cons_self
  have hbound := approvals_bound hhash hd' hd (hsame ▸ ha) ha rfl
  rcases hchanged with hid | hrequester
  · exact hid hbound.decisionId
  · exact hrequester hbound.requestedBy

theorem changed_approval_rejected (hhash : Function.Injective pf.sha256)
    (hd : validateSemantics pf d = .ok ()) {as bs : List Approval}
    (happrovals : d.approvals = as ++ a :: bs) (hdigest : a'.approvalDigest = a.approvalDigest)
    (hchanged : a' ≠ a) : Rejected pf { d with approvals := as ++ a' :: bs } := by
  refine rejected_of_not_ok hd rfl rfl fun hd' => ?_
  have ha : a ∈ d.approvals := by simp [happrovals]
  have hbound := approvals_bound hhash hd' hd (by simp) ha hdigest
  apply hchanged
  obtain ⟨ref, approver, decision, decidedAt, actionDigest, nonce, digest⟩ := a
  obtain ⟨ref', approver', decision', decidedAt', actionDigest', nonce', digest'⟩ := a'
  obtain ⟨-, -, hfields⟩ := hbound
  simp_all only

theorem changed_action_rejected (hhash : Function.Injective pf.sha256)
    (hd : validateSemantics pf d = .ok ()) (hc : d.canonicalAction = some c) (hwritten : c.Written)
    (hwritten' : c'.Written) (hdigest : c'.canonicalDigest = c.canonicalDigest)
    (hchanged : ¬SameContent c' c) : Rejected pf { d with canonicalAction := some c' } := by
  refine rejected_of_not_ok hd rfl rfl fun hd' => ?_
  exact hchanged (actions_bound hhash hd' hd rfl hc hwritten' hwritten hdigest)

/-- Where SHA-256 is injective, digests bind approvals and actions, and an accepted document that is
changed under its digests is rejected; a change of the case or of its requester is if there is an
approval. -/
theorem digests_bind (pf : Platform) (hhash : Function.Injective pf.sha256) :
    (∀ d d' a a', validateSemantics pf d = .ok () → validateSemantics pf d' = .ok () →
      a ∈ d.approvals → a' ∈ d'.approvals → a.approvalDigest = a'.approvalDigest →
        SameApproval d a d' a') ∧
    (∀ d d' c c', validateSemantics pf d = .ok () → validateSemantics pf d' = .ok () →
      d.canonicalAction = some c → d'.canonicalAction = some c' → c.Written → c'.Written →
        c.canonicalDigest = c'.canonicalDigest → SameContent c c') ∧
    (∀ d as a bs a', validateSemantics pf d = .ok () → d.approvals = as ++ a :: bs →
      a'.approvalDigest = a.approvalDigest → a' ≠ a →
        Rejected pf { d with approvals := as ++ a' :: bs }) ∧
    (∀ d c c', validateSemantics pf d = .ok () → d.canonicalAction = some c → c.Written →
      c'.Written → c'.canonicalDigest = c.canonicalDigest → ¬SameContent c' c →
        Rejected pf { d with canonicalAction := some c' }) ∧
    (∀ d r, validateSemantics pf d = .ok () → d.approvals ≠ [] → r ≠ d.requestedBy →
      Rejected pf { d with requestedBy := r }) ∧
    ∀ d i, validateSemantics pf d = .ok () → d.approvals ≠ [] → i ≠ d.decisionId →
      Rejected pf { d with decisionId := i } := by
  refine ⟨?_, ?_, ?_, ?_, ?_, ?_⟩
  · intro d d' a a' hd hd' ha ha' h
    exact approvals_bound hhash hd hd' ha ha' h
  · intro d d' c c' hd hd' hc hc' hwritten hwritten' h
    exact actions_bound hhash hd hd' hc hc' hwritten hwritten' h
  · intro d as a bs a' hd happrovals hdigest hchanged
    exact changed_approval_rejected hhash hd happrovals hdigest hchanged
  · intro d c c' hd hc hwritten hwritten' hdigest hchanged
    exact changed_action_rejected hhash hd hc hwritten hwritten' hdigest hchanged
  · intro d r hd happrovals hchanged
    exact changed_case_rejected hhash hd happrovals rfl rfl rfl (.inr hchanged)
  · intro d i hd happrovals hchanged
    exact changed_case_rejected hhash hd happrovals rfl rfl rfl (.inl hchanged)

/-! ## A bound case -/

/-- A platform whose digests are the texts. -/
def textPlatform : Platform := { plainPlatform with sha256 := String.ofList }

theorem textPlatform_injective : Function.Injective textPlatform.sha256 := by
  intro cs cs' h
  exact String.ofList_injective h

def reviewApproval : Approval where
  requirementRef := "review"
  approver := caseApprover
  decision := .approve
  decidedAt := "2026-01-01"
  actionDigest := none
  nonce := "nonce"
  approvalDigest := ""

/-- A case in review with an approval. -/
def boundCase : DecisionFile :=
  let d := { draftCase with status := .review }
  { d with approvals := [bindApproval textPlatform d reviewApproval] }

theorem boundCase_accepted : validateSemantics textPlatform boundCase = .ok () := by
  decide +kernel

theorem digests_bind_boundCase :
    Rejected textPlatform { boundCase with requestedBy := caseValidator } :=
  (digests_bind textPlatform textPlatform_injective).2.2.2.2.1 boundCase caseValidator
    boundCase_accepted (List.cons_ne_nil _ _) (by decide)

/-- The requester of a case without approvals can be changed. -/
theorem requester_unbound : ¬∀ pf : Platform, Function.Injective pf.sha256 →
    ∀ d r, validateSemantics pf d = .ok () → r ≠ d.requestedBy →
      validateSemantics pf { d with requestedBy := r } ≠ .ok () := by
  intro h
  have hdraft : validateSemantics textPlatform draftCase = .ok () := by rfl
  apply h textPlatform textPlatform_injective draftCase caseValidator hdraft (by decide)
  rfl

end Digests

end DecisionAssurance
