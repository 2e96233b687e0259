import DecisionAssurance.ResearchRoutes
import DecisionAssurance.ToolProtocol

/-!
# Routes as clients of the idempotency table

A route looks its key up for the digest of its request, acts only if it has found nothing, and
keeps what it returns under the key.
-/

namespace DecisionAssurance.Services

open Interactions Interaction Research
open Reservations (Counter Stage)
open Reservations.Counter

section Routes

open ResearchRoutes (RouteAnswer summary createKey actionKey ResearchAction)

theorem plain_int (n : Int) : (Json.int n).Plain := ⟨trivial, trivial⟩

theorem plain_orNull {α : Type} {f : α → Json} (h : ∀ a, (f a).Plain) (a : Option α) :
    (Json.orNull f a).Plain := by
  cases a with
  | none => exact ⟨trivial, trivial⟩
  | some a => exact h a

theorem plain_summary {run : ResearchRun} : ∀ field ∈ summary run, field.2.Plain := by
  have herror : ∀ item : ResearchError, (Json.obj [("reason_code", .str item.reasonCode),
      ("source_id", .ofOption item.sourceId),
      ("provider_id", .ofOption (item.provider.map fun p => p.providerId)),
      ("retryable", .bool (item.provider.any fun p => p.retryable)),
      ("status_code", .orNull Json.int (item.provider.bind fun p => p.statusCode))]).Plain := by
    intro item
    refine Json.plain_obj (by simp) ?_
    simp [Json.plain_str, Json.plain_bool, Json.plain_ofOption, plain_orNull plain_int]
  simp [summary, Json.plain_str, Json.plain_ofOption, plain_int, Json.plain_arr_map herror]

variable {o : KeyOrder} {k : IdempotencyKey} {digest : String}

/-- An answer whose body is kept under a key. -/
def Kept (k : IdempotencyKey) (digest : String) (answer : RouteAnswer) (st : KeyStage) : Prop :=
  (∃ a : ℕ × Json, st = .answered k digest a ∧ a.1 = answer.1 ∧ a.2.dumps = answer.2.dumps) ∨
    st = .waiting k digest

/-- A route that looks a key up: what it returns is kept under the key, or it has found a row that
is in progress. -/
def Replies (k : IdempotencyKey) (digest : String) :
    Except ResearchFailure RouteAnswer → KeyStage → Prop
  | .ok answer, st => Kept k digest answer st
  | .error _, _ => True

theorem triple_look :
    (counter o).Triple ((counter o).terms (.searching k digest)) .fresh
      (ResearchRoutes.begin k digest) fun r st => match r with
        | .ok none => st = .missing k digest
        | .ok (some answer) => Kept k digest answer st
        | .error _ => True := by
  refine triple_ask (fun t ht => may_of rfl (fun q hq => ?_) nofun ht) fun a => ?_
  · cases hq
    exact ⟨.look k digest, rfl, rfl, nofun⟩
  · cases a with
    | ok found =>
      cases found with
      | none => exact triple_done rfl
      | some answer =>
        refine triple_done ?_
        change Kept k digest answer
          (Stage.looking k digest (IdempotencyTable.searchedOf (.ok (some answer))))
        by_cases hstatus : answer.1 = inProgressStatus
        · rw [IdempotencyTable.searchedOf, if_pos hstatus]
          exact .inr rfl
        · rw [IdempotencyTable.searchedOf, if_neg hstatus]
          exact .inl ⟨answer, rfl, rfl, rfl⟩
    | error e =>
      cases e with
      | reused => exact triple_done trivial
      | inProgress => exact triple_done trivial
      | failed m => exact triple_done trivial

theorem triple_store {answer : RouteAnswer} (hstatus : answer.1 ≠ inProgressStatus)
    (hplain : answer.2.Plain) :
    (counter o).Triple ((counter o).terms (.searching k digest)) (.missing k digest)
      (do
        ResearchRoutes.finish k digest answer.1 answer.2
        return answer) (Replies k digest) := by
  refine Triple.bind (Q := fun r st => match r with
    | .ok () => Kept k digest answer st
    | .error _ => True) (triple_ask (fun t ht => ?_) fun a => ?_)
    (fun _ st hst => triple_done hst) fun e st hst => hst
  · refine may_of (decide_eq_true hstatus) (fun q hq => ?_) (fun hacts => nomatch hacts) ht
    cases hq
    exact ⟨.store k digest _, rfl, rfl, nofun⟩
  · cases a with
    | ok u => exact triple_done (.inl ⟨_, rfl, rfl, hplain.dumps_reread⟩)
    | error e => exact triple_done trivial

/-- An operation of a route, its answer being one that a store returns as it is. -/
def Answers (st : KeyStage) (r : Except ResearchFailure RouteAnswer) (st' : KeyStage) : Prop :=
  st' = st ∧ ∀ answer, r = .ok answer → answer.1 ≠ inProgressStatus ∧ answer.2.Plain

variable {orchestrator : ResearchOrchestrator} {submission : Bool} {c : Caller}

theorem triple_tried {α : Type} {T : Terms serviceCalls} {st : KeyStage} {statusCode : ℕ}
    {code : String} {body : RouteProgram α} {Q : Except ResearchFailure α → KeyStage → Prop}
    (h : (counter o).Triple T st body Q)
    (herror : ∀ e st', Q (.error e) st' →
      Q (.error (ResearchRoutes.failure statusCode code e)) st') :
    (counter o).Triple T st (ResearchRoutes.tried statusCode code body) Q := by
  refine Triple.bind (Q := fun r st' => ∃ r', r = .ok r' ∧ Q r' st')
    (Triple.attempt (h.mono fun r st' hr => ⟨r, rfl, hr⟩)) (fun result st' ⟨r', hr, hst⟩ => ?_)
    fun e st' ⟨r', hr, _⟩ => nomatch hr
  cases hr
  cases result with
  | ok a => exact triple_done hst
  | error e => exact triple_done (herror e st' hst)

theorem plain_obj_summary {run : ResearchRun} : (Json.obj (summary run)).Plain :=
  Json.plain_obj (by simp [summary]) plain_summary

theorem triple_created {body : ResearchRoutes.ResearchRequestBody} {documentHash : String} :
    (counter o).Triple ((counter o).terms (.searching k digest)) (.missing k digest)
      (ResearchRoutes.created orchestrator submission c body documentHash)
      (Answers (.missing k digest)) := by
  refine Steady.then (steady_done _) (fun contract => ?_) fun e => ⟨rfl, nofun⟩
  dsimp only
  split_ifs
  · refine Steady.then (steady_call rfl rfl fun _ => rfl) (fun answer => ?_) fun e => ⟨rfl, nofun⟩
    refine Steady.then (steady_done _) (fun submitted => ?_) fun e => ⟨rfl, nofun⟩
    refine triple_done ⟨rfl, ?_⟩
    rintro _ ⟨⟩
    refine ⟨show 202 ≠ 102 by decide, Json.plain_obj (by simp [summary]) ?_⟩
    simp only [List.forall_mem_append]
    refine ⟨plain_summary, ?_⟩
    simp [Json.plain_str]
  · refine Steady.then (steady_research _ rfl) (fun run => ?_) fun e => ⟨rfl, nofun⟩
    refine triple_done ⟨rfl, ?_⟩
    rintro _ ⟨⟩
    exact ⟨show 201 ≠ 102 by decide, plain_obj_summary⟩

/-- What a route does with a key once it has found nothing under it. -/
theorem triple_route {rest : RouteProgram RouteAnswer}
    (hrest : (counter o).Triple ((counter o).terms (.searching k digest)) (.missing k digest) rest
      (Replies k digest)) :
    (counter o).Triple ((counter o).terms (.searching k digest)) .fresh (do
      let replay ← ResearchRoutes.begin k digest
      match replay with
      | some answer => return answer
      | none => rest) (Replies k digest) := by
  refine triple_look.bind (fun replay st hst => ?_) fun e st _ => trivial
  cases replay with
  | some answer => exact triple_done hst
  | none =>
    subst hst
    exact hrest

theorem steady_routeRequired {role : Reservations.Role IdempotencyKey String} {st : KeyStage}
    {identity : Identity} {runId : String} :
    (counter o).Steady ((counter o).terms role) st (ResearchRoutes.required identity runId) := by
  refine Steady.bind (steady_call (c := .inl (.getRun identity.tenant runId)) rfl rfl nofun)
    fun answer => ?_
  refine Steady.bind (steady_done _) fun found => ?_
  cases found with
  | some run => exact steady_done _
  | none => exact steady_done _

/-- `create_research_run` once it has found nothing under its key. -/
theorem triple_createRest {body : ResearchRoutes.ResearchRequestBody} :
    (counter o).Triple ((counter o).terms (.searching k digest)) (.missing k digest) (do
      let document ← ResearchRoutes.target c body
      let answer ← ResearchRoutes.tried 422 "INVALID_REQUEST"
        (ResearchRoutes.created orchestrator submission c body
          (payloadHash orchestrator.pf document.toJson))
      ResearchRoutes.finish k digest answer.1 answer.2
      return answer) (Replies k digest) := by
  have htarget : (counter o).Steady ((counter o).terms (.searching k digest)) (.missing k digest)
      (ResearchRoutes.target c body) := by
    refine Steady.bind (steady_call rfl rfl nofun) fun answer => ?_
    refine Steady.bind (steady_done _) fun found => ?_
    cases found with
    | none => exact steady_done _
    | some document =>
      dsimp only
      split_ifs
      · exact steady_done _
      · exact steady_done _
      · exact steady_done _
  refine Steady.then htarget (fun document => ?_) fun _ => trivial
  refine (triple_tried triple_created fun e st h => ⟨h.1, nofun⟩).bind (fun answer st h => ?_)
    fun _ _ _ => trivial
  obtain ⟨rfl, hanswer⟩ := h
  obtain ⟨hstatus, hplain⟩ := hanswer answer rfl
  exact triple_store hstatus hplain

/-- A request to the routes. -/
inductive RouteRequest
  | create (body : ResearchRoutes.ResearchRequestBody)
  | act (action : ResearchAction) (runId : String)

namespace RouteRequest

variable (orchestrator submission c)

def program : RouteRequest → RouteProgram RouteAnswer
  | .create body => ResearchRoutes.createResearchRun orchestrator submission c body
  | .act action runId => ResearchRoutes.action orchestrator c action runId

/-- The key that is looked up and the digest of the request, under an idempotency key. -/
def subject (key : String) : RouteRequest → IdempotencyKey × String
  | .create body => (createKey c key, payloadHash orchestrator.pf body.toData)
  | .act action runId => (actionKey c action runId key, payloadHash orchestrator.pf (.obj []))

def role (r : RouteRequest) : Reservations.Role IdempotencyKey String :=
  match requireIdempotencyKey c.idempotencyKey with
  | .ok key => .searching (r.subject orchestrator c key).1 (r.subject orchestrator c key).2
  | .error _ => .idle

variable {orchestrator c} in
theorem operation_of_subject {r : RouteRequest} {key : String}
    (h : r.subject orchestrator c key = (k, digest)) :
    k.operation.toList.head? = some 'r' := by
  cases r <;> cases h <;> simp [createKey, actionKey, toString]

variable {orchestrator c} in
theorem role_ne_reserving {r : RouteRequest} : r.role orchestrator c ≠ .reserving k digest := by
  unfold role
  cases requireIdempotencyKey c.idempotencyKey <;> exact nofun

end RouteRequest

open RouteRequest in
theorem route_replies (r : RouteRequest) :
    (counter o).Triple ((counter o).terms (r.role orchestrator c)) .fresh
      (r.program orchestrator submission c) fun result st =>
        ∀ k digest, r.role orchestrator c = .searching k digest → Replies k digest result st := by
  unfold role
  cases hkey : requireIdempotencyKey c.idempotencyKey with
  | error e =>
    refine Triple.mono (Q := fun _ st => st = .fresh) ?_ fun _ _ _ _ _ => nofun
    cases r with
    | create body =>
      refine Steady.bind (steady_done _) fun _ => ?_
      rw [hkey]
      split_ifs
      · exact Steady.bind (steady_done _) fun _ => steady_done _
      · exact steady_done _
    | act action runId =>
      refine Steady.bind (steady_done _) fun _ => ?_
      rw [hkey]
      refine Steady.bind ?_ fun run => steady_done _
      exact steady_routeRequired
  | ok key =>
    refine Triple.mono (Q := Replies (r.subject orchestrator c key).1
      (r.subject orchestrator c key).2) ?_ ?_
    · cases r with
      | create body =>
        refine Steady.then (steady_done _) (fun _ => ?_) fun _ => trivial
        rw [hkey]
        split_ifs
        · refine Steady.then (steady_done _) (fun _ => ?_) fun _ => trivial
          exact triple_route triple_createRest
        · exact triple_route triple_createRest
      | act action runId =>
        refine Steady.then (steady_done _) (fun _ => ?_) fun _ => trivial
        refine Steady.then steady_routeRequired (fun _ => ?_) fun _ => trivial
        rw [hkey]
        refine triple_route ?_
        refine Triple.bind (triple_tried (steady_research _ rfl) fun _ _ h => h)
          (fun run st h => ?_) fun _ _ _ => trivial
        rw [h]
        have hstatus : ((200, .obj (summary run)) : RouteAnswer).1 ≠ inProgressStatus :=
          show 200 ≠ 102 by decide
        exact triple_store hstatus plain_obj_summary
    · rintro result st h k digest ⟨⟩
      exact h

end Routes

end DecisionAssurance.Services
