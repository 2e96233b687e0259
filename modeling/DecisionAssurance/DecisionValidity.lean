import DecisionAssurance.Runs
import DecisionAssurance.Transitions

/-!
# Validity of the documents that operations return

An evaluation and a transition check the document they are given against the contract and the
semantic rules, and their result against the contract only. Of the semantic rules the one on the
timestamps can fail on the result: the clock is written to `updated_at`, whereas `created_at` is
the client's.
-/

namespace DecisionAssurance

open Runs

variable {pf : Platform} {now : String} {d d' updated : DecisionFile}

structure Valid (pf : Platform) (d : DecisionFile) : Prop where
  contract : validateContract pf d = .ok ()
  semantic : validateSemantics pf d = .ok ()

inductive FileOperation
  | evaluate
  | transition (target : CaseStatus) (actor : Actor)

/-- An operation and the reading of the clock it is applied at. -/
structure TimedOperation where
  now : String
  operation : FileOperation

/-- The document an operation returns, unless it raises. -/
def TimedOperation.apply (pf : Platform) (o : TimedOperation) (d : DecisionFile) :
    Except DecisionError DecisionFile :=
  match o.operation with
  | .evaluate => evaluatedDocument pf o.now d
  | .transition target actor => TransitionPolicy.transition pf o.now d target actor

/-- An accepted operation. -/
def Accepted (pf : Platform) (d : DecisionFile) (o : TimedOperation) (d' : DecisionFile) : Prop :=
  o.apply pf d = .ok d'

/-! ## The semantic rules of a result -/

theorem validateSemantics_iff : validateSemantics pf d = .ok () ↔
    pf.earlier d.updatedAt d.createdAt = .ok false ∧ d.semanticErrors pf = [] := by
  unfold validateSemantics
  cases htime : pf.earlier d.updatedAt d.createdAt with
  | error e => simp only [reduceCtorEq, false_and]
  | ok early =>
    dsimp only
    split_ifs with hnil
    · rw [List.isEmpty_iff, List.append_eq_nil_iff, errorUnless_eq_nil] at hnil
      obtain ⟨hearly, herrors⟩ := hnil
      simp only [Bool.not_eq_true'] at hearly
      exact ⟨fun _ => ⟨by rw [hearly], herrors⟩, fun _ => rfl⟩
    · refine ⟨fun h => (nomatch h), fun ⟨hearly, herrors⟩ => absurd ?_ hnil⟩
      cases hearly
      rw [herrors]
      rfl

theorem semanticErrors_withEvaluation (report : Report) :
    (d.withEvaluation pf report).semanticErrors pf = d.semanticErrors pf := rfl

/-- Approvals are there from REVIEW on, and no transition leads back. -/
theorem semanticErrors_withTransition {target : CaseStatus} {actor : Actor}
    (h : d.semanticErrors pf = []) (hreasons : d.rejectionReasons d.status target actor = []) :
    (d.withTransition pf now target actor).semanticErrors pf = [] := by
  unfold DecisionFile.semanticErrors at h ⊢
  simp only [List.append_eq_nil_iff] at h ⊢
  obtain ⟨⟨⟨⟨⟨⟨⟨hclaims, hevidence⟩, hunknown⟩, hrequirements⟩, haction⟩, hnonces⟩, hearly⟩,
    happrovals⟩ := h
  refine ⟨⟨⟨⟨⟨⟨⟨hclaims, hevidence⟩, hunknown⟩, hrequirements⟩, haction⟩, hnonces⟩, ?_⟩,
    happrovals⟩
  obtain ⟨hallowed, -⟩ := rejectionReasons_nil hreasons
  rw [errorUnless_eq_nil, Bool.or_eq_true, Bool.or_eq_true, Bool.or_eq_true] at hearly ⊢
  simp only [decide_eq_true_eq] at hearly ⊢
  rcases hearly with ((hempty | hstatus) | hstatus) | hstatus
  · exact .inl (.inl (.inl hempty))
  · rw [hstatus] at hallowed
    rcases allowedTransition_cases hallowed with ht | ⟨hs, -⟩ | ⟨hs, -⟩ | ⟨-, ht, -⟩
    · exact .inr ht
    · cases hs
    · cases hs
    · exact .inl (.inr ht)
  · rw [hstatus] at hallowed
    cases target <;> cases hallowed
  · rw [hstatus] at hallowed
    cases target <;> cases hallowed

/-! ## Accepted operations -/

/-- What an operation leaves of the document it returns. -/
structure Returned (pf : Platform) (now : String) (d d' : DecisionFile) : Prop where
  contract : validateContract pf d' = .ok ()
  errors : d'.semanticErrors pf = []
  updatedAt : d'.updatedAt = now
  createdAt : d'.createdAt = d.createdAt

theorem returned_evaluation (h : evaluatedDocument pf now d = .ok d') : Returned pf now d d' := by
  unfold evaluatedDocument at h
  cases he : evaluateDecisionFile pf now d with
  | error e =>
    rw [he] at h
    cases h
  | ok r =>
    obtain ⟨updated, report⟩ := r
    rw [he] at h
    cases h
    obtain ⟨u, hcontract, he⟩ := bind_ok_cases he
    obtain ⟨u', hsem, he⟩ := bind_ok_cases he
    obtain ⟨u'', hresult, he⟩ := bind_ok_cases he
    cases he
    refine ⟨hresult, ?_, rfl, rfl⟩
    rw [semanticErrors_withEvaluation]
    exact (validateSemantics_iff.mp hsem).2

theorem returned_transition {target : CaseStatus} {actor : Actor}
    (h : TransitionPolicy.transition pf now d target actor = .ok d') : Returned pf now d d' := by
  obtain ⟨u, hcontract, h⟩ := bind_ok_cases h
  obtain ⟨u', hsem, h⟩ := bind_ok_cases h
  split_ifs at h with hreasons
  obtain ⟨u'', hresult, h⟩ := bind_ok_cases h
  cases h
  exact ⟨hresult, semanticErrors_withTransition (validateSemantics_iff.mp hsem).2
    (not_not.mp hreasons), rfl, rfl⟩

theorem Accepted.returned {o : TimedOperation} (h : Accepted pf d o d') :
    Returned pf o.now d d' := by
  obtain ⟨now, operation⟩ := o
  cases operation with
  | evaluate => exact returned_evaluation h
  | transition target actor => exact returned_transition h

/-- A returned document is valid if the clock was not behind its creation. -/
theorem Returned.valid_iff (h : Returned pf now d d') :
    Valid pf d' ↔ pf.earlier now d.createdAt = .ok false := by
  have hsemantic : validateSemantics pf d' = .ok () ↔ pf.earlier now d.createdAt = .ok false := by
    rw [validateSemantics_iff, h.updatedAt, h.createdAt]
    exact ⟨fun hs => hs.1, fun ht => ⟨ht, h.errors⟩⟩
  exact ⟨fun hv => hsemantic.mp hv.semantic, fun ht => ⟨h.contract, hsemantic.mpr ht⟩⟩

theorem createdAt_of_run {tr : Trace DecisionFile TimedOperation}
    (h : Run (Accepted pf) d tr d') : d'.createdAt = d.createdAt :=
  h.invariant_state (fun d' => d'.createdAt = d.createdAt) rfl
    fun _ _ _ hc hstep => hstep.returned.createdAt.trans hc

/-- Every document that a run of accepted operations returns is valid if and only if none of them
was applied at a clock reading earlier than the creation of the document. -/
theorem returned_valid_iff {tr : Trace DecisionFile TimedOperation}
    (h : Run (Accepted pf) d tr d') : (∀ x ∈ tr, Valid pf x.after) ↔
      ∀ x ∈ tr, pf.earlier x.label.now d.createdAt = .ok false := by
  have hvalid : ∀ x ∈ tr, Valid pf x.after ↔ pf.earlier x.label.now d.createdAt = .ok false := by
    intro x hx
    obtain ⟨pre, post, rfl⟩ := List.append_of_mem hx
    obtain ⟨hpre, hstep, -⟩ := h.split
    have hiff := hstep.returned.valid_iff
    rwa [createdAt_of_run hpre] at hiff
  exact forall₂_congr hvalid

/-! ## A case created ahead of the clock -/

/-- Times of one notation and zone are compared as texts. -/
def textualPlatform : Platform where
  sha256 := lastDigits
  earlier a b := .ok (decide (a.toList < b.toList))
  dateTime _ := true

def aheadCase : DecisionFile :=
  { draftCase with createdAt := "2027-01-01", updatedAt := "2027-01-01" }

def evaluationAt (now : String) : TimedOperation := ⟨now, .evaluate⟩

theorem returned_valid_iff_draftCase : ∃ d', Accepted textualPlatform draftCase
    (evaluationAt "2026-01-02") d' ∧ Valid textualPlatform d' := by
  have hsome : (toOption ((evaluationAt "2026-01-02").apply textualPlatform draftCase)).isSome =
      true := by
    rfl
  obtain ⟨d', hd'⟩ := Option.isSome_iff_exists.mp hsome
  have haccepted : Accepted textualPlatform draftCase (evaluationAt "2026-01-02") d' :=
    toOption_eq_some.mp hd'
  have hclock : textualPlatform.earlier "2026-01-02" draftCase.createdAt = .ok false := by
    rfl
  have hiff := returned_valid_iff (Run.single haccepted)
  rw [List.forall_mem_singleton, List.forall_mem_singleton] at hiff
  exact ⟨d', haccepted, hiff.mpr hclock⟩

/-- The case is valid and its evaluation accepted; the document it returns is not valid. -/
theorem aheadCase_invalid : ¬ ∀ (d d' : DecisionFile) (o : TimedOperation),
    Valid textualPlatform d → Accepted textualPlatform d o d' → Valid textualPlatform d' := by
  intro h
  have hvalid : Valid textualPlatform aheadCase := ⟨by rfl, by rfl⟩
  have hsome : (toOption ((evaluationAt "2026-01-02").apply textualPlatform aheadCase)).isSome =
      true := by
    rfl
  obtain ⟨d', hd'⟩ := Option.isSome_iff_exists.mp hsome
  have haccepted : Accepted textualPlatform aheadCase (evaluationAt "2026-01-02") d' :=
    toOption_eq_some.mp hd'
  have hclock := haccepted.returned.valid_iff.mp (h _ _ _ hvalid haccepted)
  have hearly : textualPlatform.earlier "2026-01-02" aheadCase.createdAt = .ok true := by
    rfl
  rw [show (evaluationAt "2026-01-02").now = "2026-01-02" from rfl, hearly] at hclock
  cases hclock

end DecisionAssurance
