import DecisionAssurance.DecisionJson
import DecisionAssurance.Exceptions

/-!
# The Decision File contract and its semantic rules

`contractValid` is what the JSON schema asks beyond the shape of the records;
`validateSemantics` collects the errors of `validate_semantics` in its order.
-/

namespace DecisionAssurance

inductive DecisionError
  | contract
  | time (e : TimeError)
  | semantic (errors : List String)
  | transitionRejected (reasonCodes : List String)
  deriving DecidableEq

/-! ## Schema -/

/-- A pattern anchored by `^` and `$` and searched: `$` also matches before a final newline. -/
def searches (matched : List Char → Bool) (s : String) : Bool :=
  matched s.toList || (s.toList.getLast? = some '\n' && matched s.toList.dropLast)

def isDecisionId (s : String) : Bool := searches (matchesIdentifier ['.', '_', '-'] 127) s

def isLowerHex (c : Char) : Bool := c.isDigit || ('a' ≤ c && c ≤ 'f')

def isSha256 (s : String) : Bool :=
  searches (fun cs => "sha256:".toList.isPrefixOf cs && (cs.drop 7).length = 64 &&
    (cs.drop 7).all isLowerHex) s

def isNonce (s : String) : Bool :=
  searches (fun cs => 22 ≤ cs.length && cs.length ≤ 128 &&
    cs.all fun c => c.isAlphanum || c = '_' || c = '-') s

/-- `minLength` and `maxLength`. -/
def lengthBetween (low high : Nat) (s : String) : Bool :=
  low ≤ s.toList.length && s.toList.length ≤ high

def nonEmpty (s : String) : Bool := !s.toList.isEmpty

def Actor.contractValid (a : Actor) : Bool := nonEmpty a.id && a.role.inContract

def Claim.contractValid (c : Claim) : Bool := nonEmpty c.id && nonEmpty c.statement

def Evidence.contractValid (pf : Platform) (e : Evidence) : Bool :=
  nonEmpty e.id && !e.claimRefs.isEmpty && decide e.claimRefs.Nodup && nonEmpty e.sourceRef &&
    e.observedAt.all pf.dateTime

def ValidationResult.contractValid (pf : Platform) (v : ValidationResult) : Bool :=
  v.validator.contractValid && decide v.reasonCodes.Nodup && pf.dateTime v.validatedAt

def CanonicalAction.contractValid (a : CanonicalAction) : Bool :=
  isDecisionId a.actionId && lengthBetween 1 128 a.actionType && lengthBetween 1 500 a.effect &&
    lengthBetween 1 128 a.targetType && lengthBetween 1 512 a.targetId &&
    lengthBetween 1 128 a.tenantId && isSha256 a.executionContextHash &&
    isSha256 a.canonicalDigest

def Approval.contractValid (pf : Platform) (a : Approval) : Bool :=
  nonEmpty a.requirementRef && a.approver.contractValid && pf.dateTime a.decidedAt &&
    a.actionDigest.all isSha256 && isNonce a.nonce && isSha256 a.approvalDigest

def AuditEvent.contractValid (pf : Platform) (e : AuditEvent) : Bool :=
  pf.dateTime e.occurredAt && e.actor.contractValid && decide e.reasonCodes.Nodup

def DecisionFile.contractValid (pf : Platform) (d : DecisionFile) : Bool :=
  isDecisionId d.decisionId && lengthBetween 1 200 d.title && nonEmpty d.description &&
    lengthBetween 1 100 d.useCase && pf.dateTime d.createdAt && pf.dateTime d.updatedAt &&
    d.createdBy.contractValid && d.requestedBy.contractValid && d.currentOwner.contractValid &&
    d.canonicalAction.all CanonicalAction.contractValid &&
    !d.claims.isEmpty && d.claims.all Claim.contractValid &&
    d.evidence.all (Evidence.contractValid pf) &&
    d.assumptions.all (fun a => nonEmpty a.statement) &&
    d.constraints.all (fun c => nonEmpty c.reasonCode) &&
    d.validationResults.all (ValidationResult.contractValid pf) &&
    d.approvals.all (Approval.contractValid pf) &&
    d.outcomeReasons.all nonEmpty && decide d.outcomeReasons.Nodup &&
    d.auditEvents.all (AuditEvent.contractValid pf)

/-- `ContractValidator().validate("decision-file", document)` -/
def validateContract (pf : Platform) (d : DecisionFile) : Except DecisionError Unit :=
  if d.contractValid pf then .ok () else .error .contract

theorem validateContract_ok {pf : Platform} {d : DecisionFile} {u : Unit}
    (h : validateContract pf d = .ok u) : d.contractValid pf = true := by
  unfold validateContract at h
  split_ifs at h with hvalid
  exact hvalid

/-! ## Semantics -/

/-- An error when a check fails. -/
def errorUnless (holds : Bool) (error : String) : List String := if holds then [] else [error]

theorem errorUnless_eq_nil {holds : Bool} {error : String} :
    errorUnless holds error = [] ↔ holds = true := by
  unfold errorUnless
  split_ifs with h
  · simp only [h]
  · simp only [h, reduceCtorEq]

/-- `", ".join(sorted(set(refs)))` -/
def listed (refs : List String) : String :=
  ", ".intercalate (refs.dedup.insertionSort fun a b => a ≤ b)

namespace DecisionFile

/-- `requirements.get(ref)`, where a later requirement hides an earlier one of its id. -/
def requirement (d : DecisionFile) (ref : String) : Option ReviewRequirement :=
  d.reviewRequirements.reverse.find? fun r => r.id = ref

def expectedActionDigest (d : DecisionFile) : Option String :=
  d.canonicalAction.map CanonicalAction.canonicalDigest

def unknownClaims (d : DecisionFile) : List String :=
  (d.evidence.flatMap Evidence.claimRefs).filter fun ref => ref ∉ d.claims.map Claim.id

def unknownRequirements (d : DecisionFile) : List String :=
  (d.approvals.map Approval.requirementRef).filter fun ref =>
    ref ∉ d.reviewRequirements.map ReviewRequirement.id

def actionErrors (pf : Platform) (d : DecisionFile) : List String :=
  match d.canonicalAction with
  | none => []
  | some action =>
    errorUnless (action.canonicalDigest = canonicalActionDigest pf action)
      "canonical_action digest does not match canonical content" ++
    errorUnless (action.reversibilityClass = .readOnly ||
        d.reviewRequirements.any fun r => r.mandatory && r.requiredRole = .approver)
      "non-read-only canonical_action requires a mandatory APPROVER review"

def approvalErrors (pf : Platform) (d : DecisionFile) (a : Approval) : List String :=
  errorUnless ((d.requirement a.requirementRef).all fun r => a.approver.role = r.requiredRole.role)
    s!"approval {a.requirementRef} approver role does not match requirement" ++
  errorUnless (a.approver.kind = .human)
    s!"approval {a.requirementRef} requires a human approver" ++
  errorUnless (a.approver.id ≠ d.createdBy.id && a.approver.id ≠ d.requestedBy.id)
    s!"approval {a.requirementRef} violates actor independence" ++
  errorUnless (a.actionDigest = d.expectedActionDigest)
    s!"approval {a.requirementRef} is not bound to canonical_action" ++
  errorUnless (a.approvalDigest = approvalDigest pf d a)
    s!"approval {a.requirementRef} digest does not match approval"

/-- The errors of `validate_semantics` after the one on the timestamps. -/
def semanticErrors (pf : Platform) (d : DecisionFile) : List String :=
  errorUnless (decide (d.claims.map Claim.id).Nodup) "claims contain duplicate ids" ++
  errorUnless (decide (d.evidence.map Evidence.id).Nodup) "evidence contains duplicate ids" ++
  errorUnless d.unknownClaims.isEmpty
    ("evidence references unknown claims: " ++ listed d.unknownClaims) ++
  errorUnless d.unknownRequirements.isEmpty
    ("approvals reference unknown requirements: " ++ listed d.unknownRequirements) ++
  d.actionErrors pf ++
  errorUnless (decide (d.approvals.map Approval.nonce).Nodup) "approvals contain a reused nonce" ++
  errorUnless (d.approvals.isEmpty || d.status = .review || d.status = .approved ||
      d.status = .blocked)
    "approvals are not allowed before REVIEW" ++
  d.approvals.flatMap (d.approvalErrors pf)

end DecisionFile

def validateSemantics (pf : Platform) (d : DecisionFile) : Except DecisionError Unit :=
  match pf.earlier d.updatedAt d.createdAt with
  | .error e => .error (.time e)
  | .ok early =>
    let errors := errorUnless (!early) "updated_at must not be earlier than created_at" ++
      d.semanticErrors pf
    if errors.isEmpty then .ok () else .error (.semantic errors)

/-- What an approval of a semantically valid document satisfies. -/
structure ApprovalBound (pf : Platform) (d : DecisionFile) (a : Approval) : Prop where
  role : ∀ r, d.requirement a.requirementRef = some r → a.approver.role = r.requiredRole.role
  human : a.approver.kind = .human
  independent : a.approver.id ≠ d.createdBy.id ∧ a.approver.id ≠ d.requestedBy.id
  action : a.actionDigest = d.expectedActionDigest
  digest : a.approvalDigest = approvalDigest pf d a

theorem approvalBound_of_errors {pf : Platform} {d : DecisionFile} {a : Approval}
    (h : d.approvalErrors pf a = []) : ApprovalBound pf d a := by
  simp only [DecisionFile.approvalErrors, List.append_eq_nil_iff, errorUnless_eq_nil,
    Bool.and_eq_true, decide_eq_true_eq, Option.all_eq_true] at h
  obtain ⟨⟨⟨⟨hrole, hhuman⟩, hind⟩, haction⟩, hdigest⟩ := h
  exact ⟨hrole, hhuman, hind, haction, hdigest⟩

/-- What `validate_semantics` leaves of a document it accepts. -/
structure Semantic (pf : Platform) (d : DecisionFile) : Prop where
  time : pf.earlier d.updatedAt d.createdAt = .ok false
  claims : (d.claims.map Claim.id).Nodup
  evidence : (d.evidence.map Evidence.id).Nodup
  requirements : ∀ a ∈ d.approvals, a.requirementRef ∈ d.reviewRequirements.map ReviewRequirement.id
  nonces : (d.approvals.map Approval.nonce).Nodup
  early : d.approvals = [] ∨ d.status = .review ∨ d.status = .approved ∨ d.status = .blocked
  approvals : ∀ a ∈ d.approvals, ApprovalBound pf d a

theorem validateSemantics_ok {pf : Platform} {d : DecisionFile} {u : Unit}
    (h : validateSemantics pf d = .ok u) : Semantic pf d := by
  unfold validateSemantics at h
  cases htime : pf.earlier d.updatedAt d.createdAt with
  | error e => simp only [htime, reduceCtorEq] at h
  | ok early =>
    simp only [htime] at h
    split_ifs at h with hnil
    simp only [DecisionFile.semanticErrors, List.isEmpty_iff, List.append_eq_nil_iff,
      errorUnless_eq_nil, decide_eq_true_eq, List.flatMap_eq_nil_iff, Bool.or_eq_true,
      Bool.not_eq_true'] at hnil
    obtain ⟨hearly, ⟨⟨⟨⟨⟨⟨⟨hclaims, hevidence⟩, -⟩, hreq⟩, -⟩, hnonce⟩, hstatus⟩, happ⟩⟩ := hnil
    subst hearly
    refine ⟨htime, hclaims, hevidence, fun a ha => ?_, hnonce, ?_,
      fun a ha => approvalBound_of_errors (happ a ha)⟩
    · by_contra hmem
      have hfilter := List.filter_eq_nil_iff.mp hreq a.requirementRef (List.mem_map_of_mem ha)
      exact hfilter (decide_eq_true hmem)
    · rcases hstatus with ((hempty | hr) | ha) | hb
      · exact .inl hempty
      · exact .inr (.inl hr)
      · exact .inr (.inr (.inl ha))
      · exact .inr (.inr (.inr hb))

/-! ## A case -/

/-- A digest that keeps the last 64 characters, each as a hex digit. -/
def lastDigits (text : List Char) : String :=
  String.ofList <| (List.replicate 64 '0' ++ text.map fun c =>
    Nat.digitChar (c.toNat % 16)).drop text.length

def plainPlatform : Platform where
  sha256 := lastDigits
  earlier _ _ := .ok false
  dateTime _ := true

def caseAuthor : Actor := ⟨"author", .generator, .human⟩
def caseValidator : Actor := ⟨"validator", .validator, .human⟩
def caseApprover : Actor := ⟨"approver", .approver, .human⟩

/-- A case that asks for the review of an approver. -/
def draftCase : DecisionFile where
  decisionId := "case-1"
  title := "case"
  description := "case"
  useCase := "case"
  status := .draft
  assuranceLevel := .basic
  createdAt := "2026-01-01"
  updatedAt := "2026-01-01"
  createdBy := caseAuthor
  requestedBy := caseAuthor
  currentOwner := caseAuthor
  canonicalAction := none
  claims := [⟨"claim", "claim", false⟩]
  evidence := []
  assumptions := []
  constraints := []
  policies := []
  risks := []
  conflicts := []
  validationResults := []
  reviewRequirements := [⟨"review", .approver, true, false⟩]
  approvals := []
  decisionOutcome := none
  outcomeReasons := []
  auditEvents := []

example : draftCase.contractValid plainPlatform = true ∧
    validateSemantics plainPlatform draftCase = .ok () := by decide

end DecisionAssurance
