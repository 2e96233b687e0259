import DecisionAssurance.McpService
import DecisionAssurance.NormalDomains

/-!
# Tools as clients of the idempotency table

A tool reserves its key for the digest of its request, acts only while it holds the key, and keeps
what it returns under it. Only `start` may raise while it holds its key.
-/

namespace DecisionAssurance.Services

open Interactions Interaction Research Mcp
open McpResearchService (startKey mutationKey target)
open Reservations (Counter Stage)
open Reservations.Counter

section Steady

variable {o : KeyOrder} {role : Reservations.Role IdempotencyKey String}
  {st : Stage IdempotencyKey String (ℕ × Json)} {ε α : Type}

/-- A program of the orchestrator, run by a client that is ready for its calls. -/
theorem steady_research {f : ResearchException → ε} (p : Program α) (hready : role.Ready st) :
    (counter o).Steady ((counter o).terms role) st (p.left f : Interaction serviceCalls ε α) :=
  steady_left p (fun _ _ ht => may_of rfl nofun (fun _ => hready) ht) fun _ => rfl

/-- A call that is no request, made by a client that is ready for it if it is an act. -/
theorem steady_call {c : serviceCalls.Call} (hplain : requestOf o c = none)
    (hsane : sane c = true) (hacts : acts c = true → role.Ready st) :
    (counter o).Steady ((counter o).terms role) st
      (ask c : Interaction serviceCalls ε (serviceCalls.Answer c)) := by
  refine steady_ask (fun t ht => may_of hsane (fun q hq => ?_) hacts ht) hplain
  cases hplain.symm.trans hq

end Steady

/-! ## Tools -/

section Tools

variable {o : KeyOrder} {T : Terms serviceCalls} {k : IdempotencyKey} {digest : String}

abbrev KeyStage := Stage IdempotencyKey String (ℕ × Json)

/-- A response that is kept under a key. -/
def Answered (k : IdempotencyKey) (digest : String) (response : ResearchToolResponse)
    (st : KeyStage) : Prop :=
  ∃ a : ℕ × Json, st = .answered k digest a ∧ responseFromData a.2 = some response

def Unheld (st : KeyStage) : Prop := ∀ k d, st ≠ .holding k d

/-- A tool that reserves a key: what it returns is kept under the key, and it does not hold the
key when it raises, unless it leaks it. -/
def Settled (leaks : Prop) (k : IdempotencyKey) (digest : String) :
    Except ToolFailure ResearchToolResponse → KeyStage → Prop
  | .ok response, st => Answered k digest response st
  | .error _, st => leaks ∨ Unheld st

theorem may_reserve {t : ServiceLog} (ht : (counter o).stageOf t = .fresh) :
    ((counter o).terms (.reserving k digest)).may t (.inr (.reserveIdempotency k digest)) := by
  refine may_of rfl (fun q hq => ?_) nofun ht
  cases hq
  exact ⟨.reserve k digest, rfl, rfl, trivial⟩

theorem triple_begin
    (hmay : ∀ t, (counter o).stageOf t = .fresh → T.may t (.inr (.reserveIdempotency k digest))) :
    (counter o).Triple T .fresh (begin k digest) fun r st => match r with
      | .ok none => st = .holding k digest
      | .ok (some response) => Answered k digest response st
      | .error _ => Unheld st := by
  refine triple_ask hmay fun a => ?_
  cases a with
  | ok found =>
    cases found with
    | none => exact triple_done rfl
    | some answer =>
      refine Triple.bind (Q := fun r st =>
        r = orRaise .invalidResponse (responseFromData answer.2) ∧ st = .answered k digest answer)
        (triple_done ⟨rfl, rfl⟩) (fun response st ⟨hr, hst⟩ => ?_) fun e st ⟨_, hst⟩ => ?_
      · exact triple_done ⟨answer, hst, orRaise_ok.mp hr.symm⟩
      · subst hst
        exact nofun
  | error e =>
    cases e with
    | reused => exact triple_done nofun
    | inProgress => exact triple_done nofun
    | failed m => exact triple_done nofun

theorem triple_finish (response : ResearchToolResponse) :
    (counter o).Triple ((counter o).terms (.reserving k digest)) (.holding k digest)
      (finish k digest response) fun r st => match r with
        | .ok () => Answered k digest response st
        | .error _ => Unheld st := by
  have hmay : ∀ t, (counter o).stageOf t = .holding k digest →
      ((counter o).terms (.reserving k digest)).may t
        (.inr (.completeIdempotency k digest 200 response.toData)) := by
    refine fun t ht => may_of rfl (fun q hq => ?_) (fun hacts => nomatch hacts) ht
    cases hq
    exact ⟨.complete k digest _, rfl, rfl, trivial⟩
  refine triple_ask hmay fun a => ?_
  cases a with
  | ok u => exact triple_done ⟨_, rfl, restores_response o response⟩
  | error e => exact triple_done nofun

theorem triple_release :
    (counter o).Triple ((counter o).terms (.reserving k digest)) (.holding k digest)
      (release k digest) fun _ st => Unheld st := by
  have hmay : ∀ t, (counter o).stageOf t = .holding k digest →
      ((counter o).terms (.reserving k digest)).may t
        (.inr (.releaseIdempotency k digest)) := by
    refine fun t ht => may_of rfl (fun q hq => ?_) (fun hacts => nomatch hacts) ht
    cases hq
    exact ⟨.release k digest, rfl, rfl, trivial⟩
  refine triple_ask hmay fun a => ?_
  cases a with
  | ok u => exact triple_done nofun
  | error e => exact triple_done nofun

/-- The `try` around an operation. -/
theorem triple_guarded {α : Type} {body : ToolProgram α} {failure : ToolFailure → ToolFailure}
    (hbody : (counter o).Triple ((counter o).terms (.reserving k digest)) (.holding k digest) body
      fun _ st => st = .holding k digest) :
    (counter o).Triple ((counter o).terms (.reserving k digest)) (.holding k digest)
      (guarded k digest body failure) fun r st => match r with
        | .ok _ => st = .holding k digest
        | .error _ => Unheld st := by
  refine Triple.bind (Q := fun r st => (∃ a, r = .ok a) ∧ st = .holding k digest)
    (Triple.attempt (hbody.mono fun r st hst => ⟨⟨r, rfl⟩, hst⟩))
    (fun result st ⟨_, hst⟩ => ?_) fun e st ⟨⟨_, h⟩, _⟩ => nomatch h
  subst hst
  cases result with
  | ok a => exact triple_done rfl
  | error e => exact triple_release.bind (fun _ st hst => triple_done hst) fun _ st hst => hst

/-- An operation under its key. -/
theorem triple_reserved {leaks : Prop} {body : ToolProgram (ResearchRun × Shown)}
    {failure : ToolFailure → ToolFailure}
    (hbody : (counter o).Triple ((counter o).terms (.reserving k digest)) (.holding k digest) body
      fun _ st => st = .holding k digest) :
    (counter o).Triple ((counter o).terms (.reserving k digest)) (.holding k digest)
      (reserved k digest body failure) (Settled leaks k digest) := by
  refine (triple_guarded hbody).bind (fun result st hst => ?_) fun e st hst => .inr hst
  obtain ⟨run, shown⟩ := result
  subst hst
  exact (triple_finish (success run shown)).bind (fun _ st hst => triple_done hst)
    fun e st hst => .inr hst

variable {s : McpResearchService} {identity : Identity}

theorem steady_require {st : KeyStage} {p : Permission} :
    (counter o).Steady T st (Mcp.require identity p) := by
  unfold Mcp.require
  split_ifs
  · exact steady_done _
  · exact steady_done _

section Bodies

variable {role : Reservations.Role IdempotencyKey String} {st : KeyStage}

theorem steady_required {runId : String} :
    (counter o).Steady ((counter o).terms role) st (Mcp.required identity runId) := by
  refine Steady.bind (steady_call (c := .inl (.getRun identity.tenant runId)) rfl rfl nofun)
    fun answer => ?_
  exact (steady_done _).bind fun found => steady_done _

theorem steady_submitted {request : ResearchStartInput} {contract : ResearchRequest}
    {documentHash correlationId : String} (hready : role.Ready st) :
    (counter o).Steady ((counter o).terms role) st
      (s.submitted identity request contract documentHash correlationId) := by
  unfold McpResearchService.submitted
  dsimp only
  split_ifs
  · refine Steady.bind (steady_call rfl rfl fun _ => hready) fun answer => ?_
    exact (steady_done _).bind fun _ => steady_done _
  · exact (steady_research _ hready).bind fun run => steady_done _

theorem steady_requeued {request : ResearchMutationInput} {correlationId : String}
    (hready : role.Ready st) :
    (counter o).Steady ((counter o).terms role) st
      (s.requeued identity request correlationId) := by
  refine Steady.bind (steady_research _ hready) fun run => ?_
  refine Steady.bind (steady_call rfl rfl nofun) fun now => ?_
  refine Steady.bind (steady_call rfl rfl fun _ => hready) fun answer => ?_
  exact (steady_done _).bind fun job => steady_done _

theorem steady_cancelJob {run : ResearchRun} (hready : role.Ready st) :
    (counter o).Steady ((counter o).terms role) st (s.cancelJob identity run) := by
  refine Steady.bind (steady_call rfl rfl fun _ => hready) fun answer => ?_
  cases answer with
  | ok job => exact steady_done _
  | error e => cases e <;> exact steady_done _

end Bodies

/-- A request of `start` whose contract is rejected. -/
def StartRejected (request : ResearchStartInput) : Prop :=
  isContractId request.targetId = false ∨ strip request.query.toList = [] ∨
    50 < (words (strip request.query.toList)).length ∨ isLanguageTag request.locale = false ∨
    ∃ l ∈ request.preferredLanguages, isLanguageTag l = false

/-- What the input model admits and the contract does not. -/
theorem start_rejected_iff (request : ResearchStartInput) :
    (s.contractFields request).error.isSome = true ↔ StartRejected request := by
  obtain ⟨hextract, hmost, hsearch⟩ := effectiveLimits_ok s.policy request.mode
    request.maxSearchResults request.maxSourcesToExtract
  have hrefs : request.claimRefs ≠ [] ∧ request.claimRefs.Nodup :=
    ⟨List.ne_nil_of_length_pos request.valid.claimRefs.1, request.valid.distinct⟩
  have hquery : ¬ 400 < (strip request.query.toList).length := by
    have hlength := (strip_sublist request.query.toList).length_le
    have hvalid := request.valid.query
    simp only [lengthBetween, Bool.and_eq_true, decide_eq_true_eq] at hvalid
    omega
  have hlanguages : request.preferredLanguages.isEmpty = false ∧
      ¬ 5 < request.preferredLanguages.length := by
    obtain ⟨hlow, hhigh⟩ := request.valid.preferredLanguages
    refine ⟨?_, by omega⟩
    cases hlangs : request.preferredLanguages with
    | nil => rw [hlangs] at hlow; exact absurd hlow (by decide)
    | cons l ls => rfl
  have hdomains : ¬ (50 < request.allowedDomains.length) ∧
      ¬ (50 < request.blockedDomains.length) :=
    ⟨Nat.not_lt.mpr request.valid.allowedDomains, Nat.not_lt.mpr request.valid.blockedDomains⟩
  have hlimits : ¬ ((s.limitsOf request).maxSearchResults < 1) ∧
      ¬ (20 < (s.limitsOf request).maxSearchResults) ∧
      ¬ ((s.limitsOf request).maxSourcesToExtract < 1) ∧
      ¬ (min (s.limitsOf request).maxSearchResults 10 <
        (s.limitsOf request).maxSourcesToExtract) := by
    unfold McpResearchService.limitsOf
    omega
  have hpolicy : (s.contractFields request).researchPolicy = "standard" ∨
      (s.contractFields request).researchPolicy = "high-assurance" := by
    unfold McpResearchService.contractFields
    split_ifs <;> simp
  have hknown : ¬ ((s.contractFields request).researchPolicy ≠ "standard" ∧
      (s.contractFields request).researchPolicy ≠ "high-assurance") :=
    fun hother => hpolicy.elim hother.1 hother.2
  unfold RequestFields.error StartRejected
  dsimp only [McpResearchService.contractFields] at hknown ⊢
  simp only [hquery, hlanguages, hdomains, hlimits, hknown, decide_false, Bool.or_false,
    Bool.false_or, if_false, Bool.false_eq_true, Bool.not_eq_true', List.isEmpty_iff,
    decide_eq_true_eq, List.any_eq_true, refusal_isSome, Option.isSome_none, or_false]
  simp only [Bool.or_eq_true, Bool.not_eq_true', decide_eq_false_iff_not, List.isEmpty_iff, hrefs,
    not_true_eq_false, or_false, false_or]

/-- The part of `start` up to its reservation, and the part that it reserves for. -/
theorem triple_start {request : ResearchStartInput}
    {Q : Except ToolFailure ResearchToolResponse → KeyStage → Prop}
    (hmay : ∀ t c, (counter o).stageOf t = .fresh →
      c = .inr .newId ∨ c = .inr (.getDecision identity.tenant request.targetId) ∨
        c = .inr (.reserveIdempotency (startKey identity request) (s.startDigest request)) →
      T.may t c)
    (hok : ∀ response st, Answered (startKey identity request) (s.startDigest request) response st →
      Q (.ok response) st)
    (herror : ∀ e st, Unheld st → Q (.error e) st)
    (hrest : ∀ (document : DecisionFile) correlationId, (counter o).Triple T
      (.holding (startKey identity request) (s.startDigest request))
      (do
        let contract ← lift ((ResearchRequest.build (s.contractFields request)).mapError .research)
        reserved (startKey identity request) (s.startDigest request)
          (s.submitted identity request contract
            (payloadHash s.orchestrator.pf document.toJson) correlationId) s.startFailure) Q) :
    (counter o).Triple T .fresh (s.start identity request) Q := by
  have hfresh : ∀ e, Q (.error e) .fresh := fun e => herror e _ nofun
  refine Steady.then steady_require (fun _ => ?_) hfresh
  refine Steady.then (steady_ask (fun t ht => hmay t _ ht (.inl rfl)) rfl)
    (fun correlationId => ?_) hfresh
  have htarget : (counter o).Steady T .fresh (target identity request) := by
    refine Steady.bind (steady_ask (fun t ht => hmay t _ ht (.inr (.inl rfl))) rfl)
      fun answer => ?_
    refine (steady_done _).bind fun found => (steady_done _).bind fun document => ?_
    split_ifs
    · exact steady_done _
    · exact steady_done _
    · exact steady_done _
  refine Steady.then htarget (fun document => ?_) hfresh
  refine (triple_begin fun t ht => hmay t _ ht (.inr (.inr rfl))).bind (fun replay st hst => ?_)
    fun e st hst => herror e st hst
  cases replay with
  | some response => exact triple_done (hok response st hst)
  | none =>
    subst hst
    exact hrest document correlationId

/-- `start` leaks its key only if its contract is rejected. -/
theorem start_settled (request : ResearchStartInput) :
    (counter o).Triple ((counter o).terms
      (.reserving (startKey identity request) (s.startDigest request))) .fresh
      (s.start identity request)
      (Settled (StartRejected request) (startKey identity request) (s.startDigest request)) := by
  refine triple_start (fun t c ht hc => ?_) (fun _ _ h => h) (fun _ _ h => .inr h)
    fun document correlationId => ?_
  · rcases hc with rfl | rfl | rfl
    · exact may_of rfl nofun nofun ht
    · exact may_of rfl nofun nofun ht
    · exact may_reserve ht
  · cases hbuild : ResearchRequest.build (s.contractFields request) with
    | error e =>
      exact triple_done (.inl ((start_rejected_iff request).mp
        (ResearchRequest.build_error.mp ⟨e, hbuild⟩)))
    | ok contract => exact triple_reserved (steady_submitted rfl)

/-- A `start` whose contract is rejected makes no call after its reservation. -/
theorem start_timid {request : ResearchStartInput}
    (hrejected : StartRejected request) :
    (counter o).Triple ⟨fun t _ => (counter o).stageOf t = .fresh, fun _ _ => True⟩ .fresh
      (s.start identity request) fun _ _ => True := by
  refine triple_start (fun t c ht _ => ht) (fun _ _ _ => trivial) (fun _ _ _ => trivial)
    fun document correlationId => ?_
  obtain ⟨e, he⟩ := ResearchRequest.build_error.mpr
    ((start_rejected_iff (s := s) request).mpr hrejected)
  rw [he]
  exact triple_done trivial

theorem mutate_settled {p : Permission} {action : String} {request : ResearchMutationInput}
    {body : String → ToolProgram (ResearchRun × Shown)} {failure : ToolFailure → ToolFailure}
    (hbody : ∀ correlationId, (counter o).Steady ((counter o).terms
      (.reserving (mutationKey identity action request) (s.mutationDigest request)))
      (.holding (mutationKey identity action request) (s.mutationDigest request))
      (body correlationId)) :
    (counter o).Triple ((counter o).terms
      (.reserving (mutationKey identity action request) (s.mutationDigest request))) .fresh
      (s.mutate identity p action request body failure)
      (Settled False (mutationKey identity action request) (s.mutationDigest request)) := by
  have hfresh : Unheld .fresh := nofun
  refine Steady.then steady_require (fun _ => ?_) fun _ => .inr hfresh
  refine Steady.then steady_required (fun _ => ?_) fun _ => .inr hfresh
  refine (triple_begin fun t ht => may_reserve ht).bind (fun replay st hst => ?_)
    fun e st hst => .inr hst
  cases replay with
  | some response => exact triple_done hst
  | none =>
    subst hst
    refine triple_ask (fun t ht => may_of rfl nofun nofun ht) fun correlationId => ?_
    exact triple_reserved (hbody correlationId)

/-- A request to the tools. -/
inductive ToolRequest
  | start (request : ResearchStartInput)
  | get (runId : String)
  | retry (request : ResearchMutationInput)
  | cancel (request : ResearchMutationInput)
  | handoff (request : ResearchMutationInput)

namespace ToolRequest

variable (s identity)

def program : ToolRequest → ToolProgram ResearchToolResponse
  | .start request => s.start identity request
  | .get runId => McpResearchService.get identity runId
  | .retry request => s.retry identity request
  | .cancel request => s.cancel identity request
  | .handoff request => s.handoff identity request

/-- The key that is reserved and the digest of the request. -/
def subject : ToolRequest → Option (IdempotencyKey × String)
  | .start request => some (startKey identity request, s.startDigest request)
  | .get _ => none
  | .retry request =>
    some (mutationKey identity "research_retry" request, s.mutationDigest request)
  | .cancel request =>
    some (mutationKey identity "research_cancel" request, s.mutationDigest request)
  | .handoff request =>
    some (mutationKey identity "research_handoff" request, s.mutationDigest request)

def role (r : ToolRequest) : Reservations.Role IdempotencyKey String :=
  match r.subject s identity with
  | some (k, digest) => .reserving k digest
  | none => .idle

variable {s identity} in
theorem role_eq_reserving {r : ToolRequest} {k : IdempotencyKey} {digest : String} :
    r.role s identity = .reserving k digest ↔ r.subject s identity = some (k, digest) := by
  unfold role
  cases hsubject : r.subject s identity with
  | none => simp
  | some subject =>
    obtain ⟨k', digest'⟩ := subject
    simp

variable {s identity} in
theorem operation_of_subject {r : ToolRequest} {k : IdempotencyKey} {digest : String}
    (h : r.subject s identity = some (k, digest)) : k.operation.toList.head? = some 'm' := by
  cases r <;> cases h <;> simp [startKey, mutationKey, toString]

/-- A request whose contract is rejected once its key is reserved. -/
def Leaks : ToolRequest → Prop
  | .start request => StartRejected request
  | .get _ | .retry _ | .cancel _ | .handoff _ => False

end ToolRequest

open ToolRequest in
theorem tool_settled (r : ToolRequest) :
    (counter o).Triple ((counter o).terms (r.role s identity)) .fresh (r.program s identity)
      fun result st => ∀ k digest, r.role s identity = .reserving k digest →
        Settled r.Leaks k digest result st := by
  have hone : ∀ {leaks : Prop} {k k' : IdempotencyKey} {digest digest' : String} {result st},
      Settled leaks k digest result st →
      Reservations.Role.reserving k digest = .reserving k' digest' →
      Settled leaks k' digest' result st := by
    rintro leaks k k' digest digest' result st h ⟨⟩
    exact h
  cases r with
  | start request => exact (start_settled request).mono fun _ _ h _ _ => hone h
  | get runId =>
    refine (Steady.bind steady_require fun _ => ?_).mono fun _ _ _ _ _ => nofun
    exact Steady.bind steady_required fun run => steady_done _
  | retry request =>
    refine Triple.mono (Q := Settled False _ _) ?_ fun _ _ h _ _ => hone h
    unfold program McpResearchService.retry
    dsimp only
    split_ifs
    · exact mutate_settled fun correlationId => steady_requeued rfl
    · refine mutate_settled fun correlationId => ?_
      exact Steady.bind (steady_research _ rfl) fun run => steady_done _
  | cancel request =>
    refine Triple.mono (Q := Settled False _ _) (mutate_settled fun correlationId => ?_)
      fun _ _ h _ _ => hone h
    refine Steady.bind (steady_research _ rfl) fun run => ?_
    split_ifs
    · exact Steady.bind (steady_cancelJob rfl) fun _ => steady_done _
    · exact steady_done _
  | handoff request =>
    refine Triple.mono (Q := Settled False _ _) (mutate_settled fun correlationId => ?_)
      fun _ _ h _ _ => hone h
    exact Steady.bind (steady_research _ rfl) fun run => steady_done _

end Tools

end DecisionAssurance.Services
