import DecisionAssurance.ApproverIndependence
import DecisionAssurance.DecisionValidity
import DecisionAssurance.IntakeTrust
import DecisionAssurance.TransitionNumbers

/-!
# Refused transitions

The route of a transition binds the approvals of a human approver before the policy looks at the
document. Where one of them cannot stand in the document, the policy finds the document invalid:
what it raises then is no rejection, and the route does not answer for it.
-/

namespace DecisionAssurance

open Tables Intake

/-! ## Bound approvals -/

section Binding

variable {pf : Platform} {d : DecisionFile} {approver : Actor} {decidedAt : String}
  {tokens : ℕ → String} {rs : List ReviewRequirement} {approvals : List Approval}

/-- The approval that the loop appends for a requirement. -/
def boundApproval (pf : Platform) (d : DecisionFile) (approver : Actor) (decidedAt ref : String)
    (nonce : String) : Approval :=
  bindApproval pf d
    { requirementRef := ref
      approver := approver
      decision := .approve
      decidedAt := decidedAt
      actionDigest := d.expectedActionDigest
      nonce := nonce
      approvalDigest := "" }

theorem boundApproval_covers {r r' : ReviewRequirement} {nonce : String} :
    (boundApproval pf d approver decidedAt r'.id nonce).covers r approver d.expectedActionDigest =
      true ↔ r'.id = r.id := by
  simp only [Approval.covers, Bool.and_eq_true, decide_eq_true_eq]
  simp [boundApproval, bindApproval]

/-- A requirement for which the route binds an approval. -/
structure Unbound (d : DecisionFile) (approver : Actor) (r : ReviewRequirement) : Prop where
  asked : r ∈ d.reviewRequirements
  bindable : r.bindable = true
  uncovered : ∀ a ∈ d.approvals, a.covers r approver d.expectedActionDigest = false

/-- What the loop appends. -/
structure Binds (pf : Platform) (d : DecisionFile) (approver : Actor) (decidedAt : String)
    (tokens : ℕ → String) (rs : List ReviewRequirement) (approvals bound : List Approval) :
    Prop where
  loop : bindLoop pf d approver decidedAt tokens rs approvals = approvals ++ bound
  made : ∀ a ∈ bound, ∃ r ∈ rs, ∃ n < approvals.length + rs.length, r.bindable = true ∧
    (∀ a' ∈ approvals, a'.covers r approver d.expectedActionDigest = false) ∧
    a = boundApproval pf d approver decidedAt r.id (tokens n)
  covered : ∀ r ∈ rs, r.bindable = true →
    ∃ a ∈ approvals ++ bound, a.covers r approver d.expectedActionDigest = true

theorem exists_binds (pf : Platform) (d : DecisionFile) (approver : Actor) (decidedAt : String)
    (tokens : ℕ → String) (rs : List ReviewRequirement) (approvals : List Approval) :
    ∃ bound, Binds pf d approver decidedAt tokens rs approvals bound := by
  induction rs generalizing approvals with
  | nil =>
    refine ⟨[], ?_, ?_, ?_⟩
    · simp [bindLoop]
    · rintro _ ⟨⟩
    · rintro _ ⟨⟩
  | cons r rs ih =>
    by_cases hbind : r.bindable = true ∧
        ∀ a ∈ approvals, a.covers r approver d.expectedActionDigest = false
    · obtain ⟨hbindable, huncovered⟩ := hbind
      obtain ⟨bound, hloop, hmade, hcovered⟩ := ih (approvals ++
        [boundApproval pf d approver decidedAt r.id (tokens approvals.length)])
      refine ⟨boundApproval pf d approver decidedAt r.id (tokens approvals.length) :: bound,
        ?_, ?_, ?_⟩
      · have hany : (approvals.any fun a => a.covers r approver d.expectedActionDigest) =
            false := by simpa using huncovered
        rw [bindLoop, hany, hbindable]
        simpa [boundApproval] using hloop
      · intro a ha
        rcases List.mem_cons.mp ha with rfl | ha
        · refine ⟨r, List.mem_cons_self, approvals.length, ?_, hbindable, huncovered, rfl⟩
          rw [List.length_cons]
          omega
        · obtain ⟨r', hr', n, hn, hbindable', huncovered', hmade'⟩ := hmade a ha
          rw [List.length_append, List.length_singleton] at hn
          have hbelow : n < approvals.length + (r :: rs).length := by
            rw [List.length_cons]
            omega
          refine ⟨r', List.mem_cons_of_mem r hr', n, hbelow, hbindable', ?_, hmade'⟩
          intro a' ha'
          exact huncovered' a' (List.mem_append_left _ ha')
      · intro r' hr' hbindable'
        rcases List.mem_cons.mp hr' with rfl | hr'
        · refine ⟨_, List.mem_append_right _ List.mem_cons_self, ?_⟩
          exact boundApproval_covers.mpr rfl
        · simpa using hcovered r' hr' hbindable'
    · obtain ⟨bound, hloop, hmade, hcovered⟩ := ih approvals
      refine ⟨bound, ?_, ?_, ?_⟩
      · have hskip : (r.bindable && !(approvals.any fun a =>
            a.covers r approver d.expectedActionDigest)) = false := by
          simpa using hbind
        rw [bindLoop, hskip]
        exact hloop
      · intro a ha
        obtain ⟨r', hr', n, hn, h⟩ := hmade a ha
        refine ⟨r', List.mem_cons_of_mem r hr', n, ?_, h⟩
        rw [List.length_cons]
        omega
      · intro r' hr' hbindable
        rcases List.mem_cons.mp hr' with rfl | hr'
        · by_contra hnone
          apply hbind
          refine ⟨hbindable, ?_⟩
          intro a ha
          by_contra hcovers
          apply hnone
          exact ⟨a, List.mem_append_left _ ha, by simpa using hcovers⟩
        · exact hcovered r' hr' hbindable

/-- As many nonces as a document can need: well formed, distinct and new to it. -/
structure Drawn (tokens : ℕ → String) (d : DecisionFile) : Prop where
  nonce : ∀ n < d.approvals.length + d.reviewRequirements.length, isNonce (tokens n) = true
  distinct : ∀ m < d.approvals.length + d.reviewRequirements.length,
    ∀ n < d.approvals.length + d.reviewRequirements.length, tokens m = tokens n → m = n
  fresh : ∀ n < d.approvals.length + d.reviewRequirements.length,
    ∀ a ∈ d.approvals, a.nonce ≠ tokens n

theorem nodup_bindLoop {limit : ℕ} (hlimit : approvals.length + rs.length ≤ limit)
    (hdistinct : ∀ m < limit, ∀ n < limit, tokens m = tokens n → m = n)
    (hnodup : (approvals.map Approval.nonce).Nodup)
    (hfresh : ∀ n < limit, approvals.length ≤ n → ∀ a ∈ approvals, a.nonce ≠ tokens n) :
    ((bindLoop pf d approver decidedAt tokens rs approvals).map Approval.nonce).Nodup := by
  induction rs generalizing approvals with
  | nil => exact hnodup
  | cons r rs ih =>
    rw [List.length_cons] at hlimit
    unfold bindLoop
    split_ifs
    · apply ih
      · rw [List.length_append, List.length_singleton]
        omega
      · rw [List.map_append, List.map_singleton]
        apply hnodup.append (List.nodup_singleton _)
        rw [List.disjoint_singleton]
        intro hmem
        obtain ⟨a, ha, hsame⟩ := List.mem_map.mp hmem
        exact hfresh approvals.length (by omega) (le_refl _) a ha hsame
      · intro n hn hlength a ha
        rw [List.length_append, List.length_singleton] at hlength
        rcases List.mem_append.mp ha with ha | ha
        · exact hfresh n hn (by omega) a ha
        · rw [List.mem_singleton.mp ha]
          intro hsame
          have hindex : approvals.length = n := hdistinct _ (by omega) n hn hsame
          omega
    · apply ih _ hnodup hfresh
      omega

/-! ## The document with its bound approvals -/

/-- An approver whose approval of a requirement can stand in a document. -/
structure ApproverFits (d : DecisionFile) (approver : Actor) (r : ReviewRequirement) : Prop where
  named : nonEmpty r.id = true
  role : ∀ r', d.requirement r.id = some r' → approver.role = r'.requiredRole.role
  creator : approver.id ≠ d.createdBy.id
  requester : approver.id ≠ d.requestedBy.id

theorem requirement_bindApprovals (ref : String) :
    (bindApprovals pf d approver decidedAt tokens).requirement ref =
      (d.requirement ref).map fun r => { r with satisfied := r.satisfied || r.bindable } := by
  unfold DecisionFile.requirement bindApprovals
  rw [← List.map_reverse, List.find?_map]
  rfl

/-- Binding changes nothing that the approvals of a document are checked against. -/
theorem approvalErrors_bindApprovals (a : Approval) :
    (bindApprovals pf d approver decidedAt tokens).approvalErrors pf a = d.approvalErrors pf a := by
  unfold DecisionFile.approvalErrors
  rw [requirement_bindApprovals]
  cases d.requirement a.requirementRef with
  | none => rfl
  | some r => rfl

theorem contractValid_bindApprovals (h : d.contractValid pf = true) :
    (bindApprovals pf d approver decidedAt tokens).contractValid pf = true ↔
      ∀ a ∈ bindLoop pf d approver decidedAt tokens d.reviewRequirements d.approvals,
        a.contractValid pf = true := by
  simp only [DecisionFile.contractValid, Bool.and_eq_true, List.all_eq_true] at h ⊢
  simp only [bindApprovals]
  tauto

theorem approvalErrors_boundApproval {ref nonce : String} :
    d.approvalErrors pf (boundApproval pf d approver decidedAt ref nonce) = [] ↔
      (∀ r, d.requirement ref = some r → approver.role = r.requiredRole.role) ∧
        approver.kind = .human ∧ approver.id ≠ d.createdBy.id ∧ approver.id ≠ d.requestedBy.id := by
  have hdigest : (boundApproval pf d approver decidedAt ref nonce).approvalDigest =
      approvalDigest pf d (boundApproval pf d approver decidedAt ref nonce) := rfl
  simp only [DecisionFile.approvalErrors, List.append_eq_nil_iff, errorUnless_eq_nil,
    Bool.and_eq_true, decide_eq_true_eq, Option.all_eq_true, hdigest, and_true]
  simp only [boundApproval, bindApproval, and_true, and_assoc]

theorem semanticErrors_bindApprovals (h : d.semanticErrors pf = []) (hreview : d.status = .review) :
    (bindApprovals pf d approver decidedAt tokens).semanticErrors pf = [] ↔
      (∀ a ∈ bindLoop pf d approver decidedAt tokens d.reviewRequirements d.approvals,
        a.requirementRef ∈ d.reviewRequirements.map ReviewRequirement.id) ∧
      ((bindLoop pf d approver decidedAt tokens d.reviewRequirements d.approvals).map
        Approval.nonce).Nodup ∧
      ∀ a ∈ bindLoop pf d approver decidedAt tokens d.reviewRequirements d.approvals,
        d.approvalErrors pf a = [] := by
  have hids : (bindApprovals pf d approver decidedAt tokens).reviewRequirements.map
      ReviewRequirement.id = d.reviewRequirements.map ReviewRequirement.id := by
    simp [bindApprovals, Function.comp_def]
  have haction : (bindApprovals pf d approver decidedAt tokens).actionErrors pf =
      d.actionErrors pf := by
    simp [DecisionFile.actionErrors, bindApprovals, List.any_map, Function.comp_def]
  have hstatus : (bindApprovals pf d approver decidedAt tokens).status = .review := hreview
  have happrovals : (bindApprovals pf d approver decidedAt tokens).approvals =
      bindLoop pf d approver decidedAt tokens d.reviewRequirements d.approvals := rfl
  simp only [DecisionFile.semanticErrors, List.append_eq_nil_iff] at h ⊢
  obtain ⟨⟨⟨⟨⟨⟨⟨hclaims, hevidence⟩, hunknown⟩, -⟩, haction'⟩, -⟩, -⟩, -⟩ := h
  have hrefs : (bindApprovals pf d approver decidedAt tokens).unknownRequirements = [] ↔
      ∀ a ∈ bindLoop pf d approver decidedAt tokens d.reviewRequirements d.approvals,
        a.requirementRef ∈ d.reviewRequirements.map ReviewRequirement.id := by
    simp only [DecisionFile.unknownRequirements, List.filter_eq_nil_iff, hids, happrovals,
      decide_eq_true_eq, not_not, List.forall_mem_map]
  rw [haction, haction', hstatus, happrovals]
  simp only [errorUnless_eq_nil, List.isEmpty_iff, hrefs, decide_eq_true_eq, decide_true,
    Bool.or_true, Bool.true_or, List.flatMap_eq_nil_iff, approvalErrors_bindApprovals, and_true]
    at hclaims hevidence hunknown ⊢
  constructor
  · rintro ⟨⟨⟨-, hknown⟩, hnonces⟩, herrors⟩
    exact ⟨hknown, hnonces, herrors⟩
  · rintro ⟨hknown, hnonces, herrors⟩
    exact ⟨⟨⟨⟨⟨hclaims, hevidence⟩, hunknown⟩, hknown⟩, hnonces⟩, herrors⟩

theorem boundApproval_contractValid
    (hdigest : ∀ text, isSha256 ("sha256:" ++ pf.sha256 text) = true)
    (hcontract : d.contractValid pf = true) (hdecided : pf.dateTime decidedAt = true)
    {ref nonce : String} (hnonce : isNonce nonce = true) :
    (boundApproval pf d approver decidedAt ref nonce).contractValid pf = true ↔
      nonEmpty ref = true ∧ approver.contractValid = true := by
  have haction : d.expectedActionDigest.all isSha256 = true := by
    simp only [DecisionFile.contractValid, Bool.and_eq_true] at hcontract
    have hvalid : d.canonicalAction.all CanonicalAction.contractValid = true := by tauto
    unfold DecisionFile.expectedActionDigest
    cases haction : d.canonicalAction with
    | none => rfl
    | some action =>
      rw [haction] at hvalid
      simp only [Option.all_some, CanonicalAction.contractValid, Bool.and_eq_true] at hvalid
      exact hvalid.2
  have hbound : isSha256 (approvalDigest pf d
      (boundApproval pf d approver decidedAt ref nonce)) = true := hdigest _
  have hstored : (boundApproval pf d approver decidedAt ref nonce).approvalDigest =
      approvalDigest pf d (boundApproval pf d approver decidedAt ref nonce) := rfl
  simp only [Approval.contractValid, hstored, hbound, Bool.and_eq_true, and_true]
  simp only [boundApproval, bindApproval, hdecided, haction, hnonce, and_true]

/-- The role a fitting approver acts in is one that requirements ask for. -/
theorem ApproverFits.contractValid {r : ReviewRequirement} (h : ApproverFits d approver r)
    (hr : r ∈ d.reviewRequirements) (hnamed : nonEmpty approver.id = true) :
    approver.contractValid = true := by
  have hfound : (d.requirement r.id).isSome := by
    unfold DecisionFile.requirement
    rw [List.find?_isSome]
    exact ⟨r, List.mem_reverse.mpr hr, by simp⟩
  obtain ⟨r', hr'⟩ := Option.isSome_iff_exists.mp hfound
  have hrole := h.role r' hr'
  rw [Actor.contractValid, hnamed, hrole]
  cases r'.requiredRole with
  | reviewer => rfl
  | approver => rfl

/-- The document with its bound approvals is valid exactly if the approver fits every requirement
for which the route binds one. -/
theorem valid_bindApprovals_iff (hdigest : ∀ text, isSha256 ("sha256:" ++ pf.sha256 text) = true)
    (hdecided : pf.dateTime decidedAt = true) (htokens : Drawn tokens d) (hvalid : Valid pf d)
    (hreview : d.status = .review) (hhuman : approver.kind = .human)
    (hnamed : nonEmpty approver.id = true) :
    Valid pf (bindApprovals pf d approver decidedAt tokens) ↔
      ∀ r, Unbound d approver r → ApproverFits d approver r := by
  have hcontract := validateContract_ok hvalid.contract
  obtain ⟨htime, herrors⟩ := validateSemantics_iff.mp hvalid.semantic
  have hsemantic := validateSemantics_ok hvalid.semantic
  obtain ⟨bound, hbinds⟩ := exists_binds pf d approver decidedAt tokens d.reviewRequirements
    d.approvals
  constructor
  · intro hbound r hr
    obtain ⟨a, ha, hcovers⟩ := hbinds.covered r hr.asked hr.bindable
    rcases List.mem_append.mp ha with hstored | hnew
    · rw [hr.uncovered a hstored] at hcovers
      cases hcovers
    · obtain ⟨r', -, n, hn, -, -, rfl⟩ := hbinds.made a hnew
      have hid : r'.id = r.id := boundApproval_covers.mp hcovers
      have hmem : boundApproval pf d approver decidedAt r'.id (tokens n) ∈
          bindLoop pf d approver decidedAt tokens d.reviewRequirements d.approvals := by
        rw [hbinds.loop]
        exact ha
      have happroval := (contractValid_bindApprovals hcontract).mp
        (validateContract_ok hbound.contract) _ hmem
      obtain ⟨href, -⟩ := (boundApproval_contractValid hdigest hcontract hdecided
        (htokens.nonce n hn)).mp happroval
      have hall := (semanticErrors_bindApprovals herrors hreview).mp
        (validateSemantics_iff.mp hbound.semantic).2
      obtain ⟨hrole, -, hcreator, hrequester⟩ := approvalErrors_boundApproval.mp
        (hall.2.2 _ hmem)
      rw [hid] at href hrole
      exact ⟨href, hrole, hcreator, hrequester⟩
  · intro hfits
    have hnew : ∀ a ∈ bound, ∃ r n, r ∈ d.reviewRequirements ∧ ApproverFits d approver r ∧
        isNonce (tokens n) = true ∧
          a = boundApproval pf d approver decidedAt r.id (tokens n) := by
      intro a ha
      obtain ⟨r, hr, n, hn, hbindable, huncovered, hmade⟩ := hbinds.made a ha
      exact ⟨r, n, hr, hfits r ⟨hr, hbindable, huncovered⟩, htokens.nonce n hn, hmade⟩
    constructor
    · apply if_pos
      rw [contractValid_bindApprovals hcontract, hbinds.loop]
      intro a ha
      rcases List.mem_append.mp ha with ha | ha
      · simp only [DecisionFile.contractValid, Bool.and_eq_true, List.all_eq_true] at hcontract
        have hstored : ∀ a ∈ d.approvals, a.contractValid pf = true := by tauto
        exact hstored a ha
      · obtain ⟨r, n, hr, hfit, hnonce, rfl⟩ := hnew a ha
        rw [boundApproval_contractValid hdigest hcontract hdecided hnonce]
        exact ⟨hfit.named, hfit.contractValid hr hnamed⟩
    · rw [validateSemantics_iff, semanticErrors_bindApprovals herrors hreview]
      refine ⟨htime, ?_, ?_, ?_⟩
      · rw [hbinds.loop]
        intro a ha
        rcases List.mem_append.mp ha with ha | ha
        · exact hsemantic.requirements a ha
        · obtain ⟨r, n, hr, -, -, rfl⟩ := hnew a ha
          exact List.mem_map_of_mem hr
      · apply nodup_bindLoop (le_refl _) htokens.distinct hsemantic.nonces
        intro n hn _ a ha
        exact htokens.fresh n hn a ha
      · rw [hbinds.loop]
        intro a ha
        rcases List.mem_append.mp ha with ha | ha
        · simp only [DecisionFile.semanticErrors, List.append_eq_nil_iff,
            List.flatMap_eq_nil_iff] at herrors
          exact herrors.2 a ha
        · obtain ⟨r, n, -, hfit, -, rfl⟩ := hnew a ha
          exact approvalErrors_boundApproval.mpr
            ⟨hfit.role, hhuman, hfit.creator, hfit.requester⟩

end Binding

/-! ## What the policy raises -/

section Policy

variable {pf : Platform} {now : String} {d : DecisionFile} {target : CaseStatus} {actor : Actor}

theorem contractValid_of_reasons (hnamed : nonEmpty actor.id = true)
    (h : d.rejectionReasons d.status target actor = []) : actor.contractValid = true := by
  obtain ⟨hallowed, -⟩ := rejectionReasons_nil h
  rw [Actor.contractValid, hnamed]
  generalize d.status = source at hallowed
  generalize actor.role = role at hallowed ⊢
  cases source <;> cases target <;> cases hallowed <;> rfl

/-- On a valid document the policy raises rejections only. -/
theorem policy_rejects (hvalid : Valid pf d) (hnow : pf.dateTime now = true)
    (hnamed : nonEmpty actor.id = true) {e : DecisionError}
    (h : TransitionPolicy.transition pf now d target actor = .error e) :
    ∃ codes, e = .transitionRejected codes := by
  unfold TransitionPolicy.transition at h
  rw [hvalid.contract, hvalid.semantic, ok_bind, ok_bind] at h
  split_ifs at h with hreasons
  · cases h
    exact ⟨_, rfl⟩
  · have hactor := contractValid_of_reasons hnamed (not_not.mp hreasons)
    have hupdated : validateContract pf (d.withTransition pf now target actor) = .ok () :=
      if_pos (contractValid_withTransition (validateContract_ok hvalid.contract) hactor hnow)
    dsimp only at h
    rw [hupdated] at h
    cases h

/-- On an invalid document the policy raises what is no rejection. -/
theorem policy_raises (hinvalid : ¬Valid pf d) :
    ∃ e, TransitionPolicy.transition pf now d target actor = .error e ∧
      ∀ codes, e ≠ .transitionRejected codes := by
  unfold TransitionPolicy.transition
  cases hcontract : validateContract pf d with
  | error e =>
    refine ⟨e, rfl, ?_⟩
    rintro codes rfl
    unfold validateContract at hcontract
    split_ifs at hcontract
    cases hcontract
  | ok u =>
    cases hsemantic : validateSemantics pf d with
    | error e =>
      refine ⟨e, rfl, ?_⟩
      rintro codes rfl
      unfold validateSemantics at hsemantic
      cases htime : pf.earlier d.updatedAt d.createdAt with
      | error e =>
        rw [htime] at hsemantic
        cases hsemantic
      | ok early =>
        simp only [htime] at hsemantic
        split_ifs at hsemantic
        cases hsemantic
    | ok u => exact absurd ⟨hcontract, hsemantic⟩ hinvalid

end Policy

/-! ## What the route answers -/

/-- An `ApiError` with a 4xx status. -/
def RouteError.isClient : RouteError → Bool
  | .api statusCode _ _ => 400 ≤ statusCode && statusCode < 500
  | _ => false

section Route

variable {b : Backend} {pf : Platform} {c : Caller} {decisionId decidedAt key : String}
  {target : Target} {tokens : ℕ → String} {t : DecisionTables} {d : DecisionFile}

theorem require_isClient {p : Permission} {e : RouteError}
    (h : require c.identity p = .error e) : e.isClient = true := by
  unfold require at h
  split_ifs at h
  cases h
  rfl

theorem requireTarget_isClient {e : RouteError}
    (h : requireTarget c.identity target = .error e) : e.isClient = true := by
  cases target with
  | blocked =>
    simp only [requireTarget, requireOneOf] at h
    split_ifs at h
    cases h
    rfl
  | validation => exact require_isClient h
  | review => exact require_isClient h
  | approved => exact require_isClient h

theorem requireIdempotencyKey_isClient {sent : Option String} {e : RouteError}
    (h : requireIdempotencyKey sent = .error e) : e.isClient = true := by
  unfold requireIdempotencyKey at h
  split at h
  · split_ifs at h
    cases h
    rfl
  · cases h
    rfl

theorem replayOf_isClient {operation digest : String} {e : RouteError}
    (h : replayOf c.identity key operation digest t = .error e) : e.isClient = true := by
  unfold replayOf at h
  cases hget : t.getIdempotency c.identity.tenant c.identity.actorId operation key digest with
  | error e' =>
    rw [hget] at h
    cases h
    rfl
  | ok replay =>
    rw [hget] at h
    cases h

theorem replayOf_none {operation digest : String}
    (h : replayOf c.identity key operation digest t = .ok none) :
    lookup IdempotencyRow.key
      (c.identity.tenant.tenantId, c.identity.actorId, operation, key) t.idempotency = none := by
  have hget := mapError_ok h
  unfold DecisionTables.getIdempotency at hget
  split at hget
  · assumption
  · split_ifs at hget
    cases hget

/-- A transition the policy accepts is stored. -/
theorem save_transition (hs : t.Sound) (hn : t.Numbered)
    (hload : t.getDecision c.identity.tenant decisionId = some d)
    (hreplay : replayOf c.identity key (transitionOperation decisionId target)
      (payloadHash pf (targetJson target)) t = .ok none) {r : SavedResult}
    (hresult : transitionResult pf c key decisionId target decidedAt tokens d = .ok r) :
    ∃ t', save b c r t = .ok t' := by
  have htransitioned := transitionResult_cases hresult
  obtain ⟨hid, hevents⟩ := boundDocument_frame pf c decidedAt tokens target d
  have hnamed : d.decisionId = decisionId := hs.getDecision_named hload
  obtain ⟨row, hrow, hdocument⟩ := Option.map_eq_some_iff.mp hload
  have hname : r.document.decisionId = decisionId := by
    rw [htransitioned.document]
    exact hid.trans hnamed
  have hwrite : (IdempotencyRow.key ⟨r.idempotency, c.identity.tenant.tenantId⟩) =
      (c.identity.tenant.tenantId, c.identity.actorId, transitionOperation decisionId target,
        key) := by
    obtain ⟨updated, -, hrest⟩ := bind_ok_cases hresult
    cases hrest
    rfl
  -- the number of the new event is beyond those of the rows of the case
  have hfresh : ∀ a ∈ t.auditEvents, a.key ≠ AuditRow.key (((transitionEvent pf c.now
      (boundDocument pf c decidedAt tokens target d) target.status
      (c.identity.actor (transitionPermission target d))).stamp c).row c.identity.tenant
        decisionId) := by
    intro a ha hkey
    have hcase : a.case = row.key := (congrArg Prod.fst hkey).trans (key_of_lookup hrow).symm
    have hlabel : a.eventId = transitionId row.decisionId (d.auditEvents.length + 1) := by
      rw [show a.eventId = _ from congrArg Prod.snd hkey,
        show row.decisionId = decisionId from congrArg Prod.snd (key_of_lookup hrow), ← hnamed,
        ← hid, ← hevents]
      rfl
    have hbound := hn row (mem_of_lookup hrow) a ha hcase _ hlabel
    rw [hdocument] at hbound
    omega
  have hlookup : (lookup DecisionRow.key (c.identity.tenant.tenantId, decisionId)
      t.decisions).isNone = false := by
    rw [hrow]
    rfl
  have hidempotency : ∀ row ∈ t.idempotency,
      row.key ≠ IdempotencyRow.key ⟨r.idempotency, c.identity.tenant.tenantId⟩ := by
    rw [hwrite]
    exact lookup_eq_none.mp (replayOf_none hreplay)
  unfold save DecisionTables.saveResult
  rw [htransitioned.events, hname, hlookup]
  simp only [Bool.false_eq_true, if_false, List.foldlM_cons, List.foldlM_nil,
    DecisionTables.insertAudit, insertRow_of_fresh hfresh, Option.map_some, orRaise]
  simp only [DecisionTables.insertIdempotency, ok_bind, pure_bind,
    insertRow_of_fresh hidempotency, Option.map_some, orRaise]
  exact ⟨_, rfl⟩

/-- Where the policy only rejects what comes to it, every error of the route is the client's. -/
theorem transition_isClient (hs : t.Sound) (hn : t.Numbered)
    (hload : t.getDecision c.identity.tenant decisionId = some d)
    (hpolicy : ∀ key, requireIdempotencyKey c.idempotencyKey = .ok key →
      requireTarget c.identity target = .ok () →
      replayOf c.identity key (transitionOperation decisionId target)
        (payloadHash pf (targetJson target)) t = .ok none →
      ∀ e, TransitionPolicy.transition pf c.now (boundDocument pf c decidedAt tokens target d)
        target.status (c.identity.actor (transitionPermission target d)) = .error e →
          ∃ codes, e = .transitionRejected codes) {e : RouteError}
    (h : transition b pf c decisionId target decidedAt tokens t = .error e) :
    e.isClient = true := by
  rcases bind_error_cases h with hmissing | ⟨key, hkey, h⟩
  · exact requireIdempotencyKey_isClient hmissing
  rcases bind_error_cases h with hforbidden | ⟨⟨⟩, htarget, h⟩
  · exact requireTarget_isClient hforbidden
  rcases bind_error_cases h with hmissing | ⟨d', hfound, h⟩
  · rw [load, hload] at hmissing
    cases hmissing
  obtain rfl : d' = d := Option.some.inj ((orRaise_ok.mp hfound).symm.trans hload)
  rcases bind_error_cases h with hblocked | ⟨⟨⟩, -, h⟩
  · unfold requireBlocked at hblocked
    split_ifs at hblocked
    exact require_isClient hblocked
  rcases bind_error_cases h with hreplayed | ⟨replay, hreplay, h⟩
  · exact replayOf_isClient hreplayed
  cases replay with
  | some answer => cases h
  | none =>
    rcases bind_error_cases h with hresult | ⟨r, hresult, h⟩
    · rcases bind_error_cases hresult with hrejected | ⟨updated, -, hrest⟩
      · cases hraised : TransitionPolicy.transition pf c.now
          (boundDocument pf c decidedAt tokens target d') target.status
          (c.identity.actor (transitionPermission target d')) with
        | ok updated =>
          rw [hraised] at hrejected
          cases hrejected
        | error e' =>
          obtain ⟨codes, rfl⟩ := hpolicy key hkey htarget hreplay e' hraised
          rw [hraised] at hrejected
          cases hrejected
          rfl
      · cases hrest
    · obtain ⟨t', hsave⟩ := save_transition (b := b) hs hn hload hreplay hresult
      rw [hsave] at h
      cases h

/-- A request that would approve a document under review by approvals that its human approver
cannot give: it is permitted and answered by no stored reply, and he does not fit a requirement. -/
structure BindsUnfit (pf : Platform) (t : DecisionTables) (c : Caller) (decisionId : String)
    (target : Target) (d : DecisionFile) : Prop where
  approves : target = .approved
  review : d.status = .review
  human : c.identity.kind = .human
  permitted : c.identity.authorized .decisionApprove = true
  key : ∃ key, requireIdempotencyKey c.idempotencyKey = .ok key ∧
    replayOf c.identity key (transitionOperation decisionId target)
      (payloadHash pf (targetJson target)) t = .ok none
  unfit : ∃ r, Unbound d (c.identity.actor .decisionApprove) r ∧
    ¬ApproverFits d (c.identity.actor .decisionApprove) r

theorem nonEmpty_of_not_isBlank {s : String} (h : isBlank s = false) : nonEmpty s = true := by
  unfold nonEmpty
  unfold isBlank at h
  cases hs : s.toList with
  | nil => simp [hs] at h
  | cons a as => rfl

theorem boundDocument_approver (happroved : target = .approved) (hreview : d.status = .review)
    (hhuman : c.identity.kind = .human) : boundDocument pf c decidedAt tokens target d =
      bindApprovals pf d (c.identity.actor .decisionApprove) decidedAt tokens :=
  if_pos ⟨happroved, hreview, hhuman⟩

theorem nonEmpty_actor (c : Caller) (permission : Permission) :
    nonEmpty (c.identity.actor permission).id = true :=
  nonEmpty_of_not_isBlank c.identity.named

theorem BindsUnfit.raises (h : BindsUnfit pf t c decisionId target d)
    (hdigest : ∀ text, isSha256 ("sha256:" ++ pf.sha256 text) = true)
    (hdecided : pf.dateTime decidedAt = true) (htokens : Drawn tokens d) (hvalid : Valid pf d)
    (hload : t.getDecision c.identity.tenant decisionId = some d) :
    ∃ e, transition b pf c decisionId target decidedAt tokens t = .error (.decision e) := by
  obtain ⟨r, hr, hunfit⟩ := h.unfit
  have hinvalid : ¬Valid pf (boundDocument pf c decidedAt tokens target d) := by
    rw [boundDocument_approver h.approves h.review h.human]
    intro hbound
    apply hunfit
    have hnamed := nonEmpty_actor c .decisionApprove
    exact (valid_bindApprovals_iff hdigest hdecided htokens hvalid h.review h.human hnamed).mp
      hbound r hr
  obtain ⟨key, hkey, hreplay⟩ := h.key
  obtain rfl := h.approves
  obtain ⟨e, hraised, hrejected⟩ := @policy_raises pf c.now _ CaseStatus.approved
    (c.identity.actor (transitionPermission .approved d)) hinvalid
  have hrequire : require c.identity .decisionApprove = .ok () := if_pos h.permitted
  have herror : transitionError e = .decision e := by
    unfold transitionError
    split
    · exact absurd rfl (hrejected _)
    · rfl
  refine ⟨e, ?_⟩
  unfold transition
  simp only [hkey, ok_bind, requireTarget, hrequire, load, hload, orRaise, requireBlocked,
    reduceCtorEq, if_false, hreplay, unlessReplayed, transitionResult, Target.status, hraised,
    Except.mapError, herror, error_bind]

/-- What a request that is not turned away is allowed by: a stored reply, or the policy. -/
def TransitionAllowed (pf : Platform) (t : DecisionTables) (c : Caller) (decisionId : String)
    (target : Target) (decidedAt : String) (tokens : ℕ → String) (d : DecisionFile) : Prop :=
  (∃ key answer, requireIdempotencyKey c.idempotencyKey = .ok key ∧
    replayOf c.identity key (transitionOperation decisionId target)
      (payloadHash pf (targetJson target)) t = .ok (some answer)) ∨
  (boundDocument pf c decidedAt tokens target d).rejectionReasons d.status target.status
    (c.identity.actor (transitionPermission target d)) = []

theorem allowed_of_ok (hload : t.getDecision c.identity.tenant decisionId = some d)
    {reply : Reply × DecisionTables}
    (h : transition b pf c decisionId target decidedAt tokens t = .ok reply) :
    TransitionAllowed pf t c decisionId target decidedAt tokens d := by
  obtain ⟨key, hkey, h⟩ := bind_ok_cases h
  obtain ⟨⟨⟩, -, h⟩ := bind_ok_cases h
  obtain ⟨d', hfound, h⟩ := bind_ok_cases h
  obtain rfl : d' = d := Option.some.inj ((orRaise_ok.mp hfound).symm.trans hload)
  obtain ⟨⟨⟩, -, h⟩ := bind_ok_cases h
  obtain ⟨replay, hreplay, h⟩ := bind_ok_cases h
  cases replay with
  | some answer => exact Or.inl ⟨key, answer, hkey, hreplay⟩
  | none =>
    obtain ⟨r, hresult, -⟩ := bind_ok_cases h
    have hreasons := (transitionResult_cases hresult).reasons
    rw [boundDocument_status] at hreasons
    exact Or.inr hreasons

/-- A request that is not allowed is refused as the client's error, and nothing else is raised. -/
structure RefusedAsClient (b : Backend) (pf : Platform) (t : DecisionTables) (c : Caller)
    (decisionId : String) (target : Target) (decidedAt : String) (tokens : ℕ → String)
    (d : DecisionFile) : Prop where
  refused : ¬TransitionAllowed pf t c decisionId target decidedAt tokens d →
    ∃ e, transition b pf c decisionId target decidedAt tokens t = .error e
  client : ∀ e, transition b pf c decisionId target decidedAt tokens t = .error e →
    e.isClient = true ∧ served b pf t (.transition c decisionId target decidedAt tokens) = t

/-- Refused transitions of stored valid decisions are client errors exactly where the route binds
no approval that its approver does not fit. -/
theorem refusals_iff (b : Backend) (py : Interpreter)
    (hdigest : ∀ text, isSha256 ("sha256:" ++ py.sha256 text) = true) (acts : List Act)
    (c : Caller) (hnow : py.dateTime c.now = true) (decisionId : String) (target : Target)
    (decidedAt : String) (hdecided : py.dateTime decidedAt = true) (tokens : ℕ → String)
    (d : DecisionFile)
    (hload : (decisionsAfter b py acts).getDecision c.identity.tenant decisionId = some d)
    (hvalid : Valid py.toPlatform d) (htokens : Drawn tokens d) :
    RefusedAsClient b py.toPlatform (decisionsAfter b py acts) c decisionId target decidedAt
        tokens d ↔
      ¬BindsUnfit py.toPlatform (decisionsAfter b py acts) c decisionId target d := by
  have hs := @sound_decisionsAfter b py acts
  have hn := numbered_decisionsAfter b py acts
  constructor
  · intro hrefused hunfit
    obtain ⟨e, hraises⟩ := hunfit.raises (b := b) hdigest hdecided htokens hvalid hload
    have hclient := (hrefused.client _ hraises).1
    cases hclient
  · intro hfit
    constructor
    · intro hnot
      cases hreply : transition b py.toPlatform c decisionId target decidedAt tokens
          (decisionsAfter b py acts) with
      | error e => exact ⟨e, rfl⟩
      | ok reply => exact absurd (allowed_of_ok hload hreply) hnot
    · intro e hraised
      refine ⟨transition_isClient hs hn hload ?_ hraised, ?_⟩
      · intro key hkey htarget hreplay e' hraised'
        apply policy_rejects _ hnow (nonEmpty_actor c _) hraised'
        by_cases hbinds : target = .approved ∧ d.status = .review ∧ c.identity.kind = .human
        · obtain ⟨happroved, hreview, hhuman⟩ := hbinds
          rw [boundDocument_approver happroved hreview hhuman,
            valid_bindApprovals_iff hdigest hdecided htokens hvalid hreview hhuman
              (nonEmpty_actor c _)]
          intro r hr
          by_contra hunfit
          apply hfit
          refine ⟨happroved, hreview, hhuman, ?_, ⟨key, hkey, hreplay⟩, r, hr, hunfit⟩
          rw [happroved] at htarget
          simp only [requireTarget, require] at htarget
          split_ifs at htarget with hpermitted
          exact hpermitted
        · rw [boundDocument, if_neg hbinds]
          exact hvalid
      · rw [served, respond, hraised]
        rfl

end Route

/-! ## A creator who may approve -/

theorem isSha256_lastDigits (text : List Char) :
    isSha256 ("sha256:" ++ lastDigits text) = true := by
  have hhex : ∀ n < 16, isLowerHex (Nat.digitChar n) = true := by decide
  unfold lastDigits
  generalize hdigits : (List.replicate 64 '0' ++ text.map fun c =>
    Nat.digitChar (c.toNat % 16)).drop text.length = digits
  have hlength : digits.length = 64 := by
    rw [← hdigits, List.length_drop, List.length_append, List.length_replicate, List.length_map,
      Nat.add_sub_cancel]
  have hall : ∀ c ∈ digits, isLowerHex c = true := by
    intro c hc
    rw [← hdigits] at hc
    rcases List.mem_append.mp (List.mem_of_mem_drop hc) with hc | hc
    · rw [(List.mem_replicate.mp hc).2]
      rfl
    · obtain ⟨c', -, rfl⟩ := List.mem_map.mp hc
      exact hhex _ (Nat.mod_lt _ (by omega))
  have hchars : ("sha256:" ++ String.ofList digits).toList = "sha256:".toList ++ digits := by
    simp
  simp only [isSha256, searches, hchars, Bool.or_eq_true, Bool.and_eq_true]
  left
  refine ⟨⟨?_, ?_⟩, ?_⟩
  · exact List.isPrefixOf_iff_prefix.mpr (List.prefix_append _ _)
  · simp [hlength]
  · simpa using hall

/-- The author of a case as an approver. -/
def authorApprover : Caller where
  identity :=
    { authorIdentity with
      role := .approver
      roles := [.approver]
      primary := List.mem_singleton_self _ }
  idempotencyKey := some "key"
  correlationId := "corr"
  now := "2026-01-01"

def reviewCase : DecisionFile := { draftCase with status := .review }

def reviewActs : List Act := [.decision (.create authorCaller reviewCase)]

def storedReview : DecisionFile := reviewCase.withCreation plainPlatform authorCaller

def reviewNonce (_ : ℕ) : String := "0123456789012345678901"

theorem storedReview_loaded : (decisionsAfter .sqlite asciiInterpreter reviewActs).getDecision
    tenantA "case-1" = some storedReview := by
  rfl

theorem storedReview_valid : Valid plainPlatform storedReview :=
  ⟨by rfl, by rfl⟩

theorem reviewNonce_drawn : Drawn reviewNonce storedReview := by
  have hnonce : isNonce "0123456789012345678901" = true := by rfl
  refine ⟨fun _ _ => hnonce, ?_, ?_⟩
  · intro m hm n hn _
    change m < 1 at hm
    change n < 1 at hn
    omega
  · rintro _ _ _ ⟨⟩

theorem storedReview_unfit : BindsUnfit plainPlatform
    (decisionsAfter .sqlite asciiInterpreter reviewActs) authorApprover "case-1" .approved
    storedReview := by
  refine ⟨rfl, rfl, rfl, rfl, ⟨"key", rfl, by rfl⟩,
    ⟨"review", .approver, true, false⟩, ⟨List.mem_singleton_self _, rfl, ?_⟩, ?_⟩
  · rintro _ ⟨⟩
  · intro hfits
    exact hfits.creator rfl

theorem refusals_iff_review : ¬RefusedAsClient .sqlite plainPlatform
    (decisionsAfter .sqlite asciiInterpreter reviewActs) authorApprover "case-1" .approved
    "2026-01-01" reviewNonce storedReview := by
  intro hrefused
  exact (refusals_iff .sqlite asciiInterpreter isSha256_lastDigits reviewActs authorApprover rfl
    "case-1" .approved "2026-01-01" rfl reviewNonce storedReview storedReview_loaded
    storedReview_valid reviewNonce_drawn).mp hrefused storedReview_unfit

/-- The creator's approval violates the independence of actors: `DecisionFileSemanticError`. -/
theorem creator_unanswered : ¬∀ (c : Caller) (target : Target) (decidedAt : String)
    (tokens : ℕ → String) (d : DecisionFile),
    (decisionsAfter .sqlite asciiInterpreter reviewActs).getDecision c.identity.tenant "case-1" =
      some d → Valid plainPlatform d → Drawn tokens d →
    RefusedAsClient .sqlite plainPlatform (decisionsAfter .sqlite asciiInterpreter reviewActs) c
      "case-1" target decidedAt tokens d := by
  intro h
  have hrefused := h authorApprover .approved "2026-01-01" reviewNonce storedReview
    storedReview_loaded storedReview_valid reviewNonce_drawn
  obtain ⟨e, hraises⟩ := storedReview_unfit.raises (b := .sqlite) isSha256_lastDigits rfl
    reviewNonce_drawn storedReview_valid storedReview_loaded
  have hclient := (hrefused.client _ hraises).1
  cases hclient

end DecisionAssurance
