import DecisionAssurance.RouteProtocol

/-!
# Idempotency of the tools and the routes

Tools and routes run side by side against one idempotency table, their calls in any order; stores
and providers answer anything, any call to the table may raise with or without its effect, and a
client may stop anywhere.
-/

namespace DecisionAssurance.Services

open Interactions Interaction Research Mcp
open McpResearchService (startKey mutationKey)
open Reservations (Counter Stage)
open Reservations.Counter
open ResearchRoutes (RouteAnswer)

/-- A request to a service. -/
inductive ServiceClient
  | tool (s : McpResearchService) (identity : Identity) (r : ToolRequest)
  | route (orchestrator : ResearchOrchestrator) (submission : Bool) (c : Caller) (r : RouteRequest)

namespace ServiceClient

@[reducible] def Failure : ServiceClient → Type
  | .tool _ _ _ => ToolFailure
  | .route _ _ _ _ => ResearchFailure

@[reducible] def Answer : ServiceClient → Type
  | .tool _ _ _ => ResearchToolResponse
  | .route _ _ _ _ => RouteAnswer

def program : (x : ServiceClient) → Interaction serviceCalls x.Failure x.Answer
  | .tool s identity r => r.program s identity
  | .route orchestrator submission c r => r.program orchestrator submission c

def role : ServiceClient → Reservations.Role IdempotencyKey String
  | .tool s identity r => r.role s identity
  | .route orchestrator _ c r => r.role orchestrator c

end ServiceClient

/-- Clients side by side, from an empty table on. -/
abbrev Serving {ι : Type} [DecidableEq ι] (o : KeyOrder) (clients : ι → ServiceClient)
    (t : List (ι × ServiceEvent)) (table : IdempotencyTable) : Prop :=
  Together (ServedBy o) (fun i => (clients i).program) IdempotencyTable.empty t table

/-- The answer by which a key is reserved. -/
def granted (k : IdempotencyKey) (digest : String) : ServiceEvent :=
  ⟨.inr (.reserveIdempotency k digest), .ok none⟩

/-! ## Two tools with one request -/

/-- Nothing of a payload is kept in its digest. -/
def blindPlatform : Platform := { plainPlatform with sha256 := fun _ => "0" }

def pilotService : McpResearchService where
  orchestrator := { plainOrchestrator with pf := blindPlatform }
  policy := ⟨20, 10, by decide, by decide⟩
  submission := true
  jobs := true
  isAlnum := Char.isAlphanum

def startFields (query : String) : StartFields where
  decisionFileId := some "case-1"
  caseId := none
  claimRefs := ["claim"]
  query := query
  locale := "en"
  preferredLanguages := ["en"]
  mode := .quick
  maximumAgeDays := 365
  allowedDomains := []
  blockedDomains := []
  maxSearchResults := none
  maxSourcesToExtract := none
  idempotencyKey := "key-1"

theorem startFields_valid {query : String} (h : lengthBetween 1 400 query = true) :
    (startFields query).Valid where
  decisionFileId := show ∀ id ∈ some "case-1", lengthBetween 1 256 id = true by decide
  caseId := nofun
  claimRefs := show 1 ≤ 1 ∧ 1 ≤ 100 by decide
  query := h
  locale := show lengthBetween 2 35 "en" = true by decide
  preferredLanguages := show 1 ≤ 1 ∧ 1 ≤ 5 by decide
  maximumAgeDays := show 1 ≤ 365 ∧ 365 ≤ 3650 by decide
  allowedDomains := show 0 ≤ 50 by decide
  blockedDomains := show 0 ≤ 50 by decide
  maxSearchResults := nofun
  maxSourcesToExtract := nofun
  idempotencyKey := show lengthBetween 1 128 "key-1" = true by decide
  target := Bool.false_ne_true
  distinct := List.nodup_singleton _
  extractions := nofun

def startInput : ResearchStartInput := ⟨startFields "market size", startFields_valid (by decide)⟩

/-- The input model admits a query of blanks. -/
def blankInput : ResearchStartInput := ⟨startFields "   ", startFields_valid (by decide)⟩

def startClient : ServiceClient := .tool pilotService authorIdentity (.start startInput)

def startResponse : ResearchToolResponse :=
  success Jobs.pilotRun ⟨some .quick, some .researchAnswer, some "job-1", some "QUEUED"⟩

def firstKey : IdempotencyKey := startKey authorIdentity startInput

def firstDigest : String := pilotService.startDigest startInput

def startContract : ResearchRequest := ⟨pilotService.contractFields startInput, by decide⟩

def submission : ServiceEvent :=
  ⟨.inr (.submit tenantA "author" startContract (payloadHash blindPlatform draftCase.toJson)
    "correlation-1" none), .ok (Jobs.pilotRun, Jobs.pilotJob)⟩

def completion : ServiceEvent :=
  ⟨.inr (.completeIdempotency firstKey firstDigest 200 startResponse.toData), .ok ()⟩

def firstLog : ServiceLog :=
  [⟨.inr .newId, "correlation-1"⟩, ⟨.inr (.getDecision tenantA "case-1"), .ok (some draftCase)⟩,
    granted firstKey firstDigest, submission, completion]

def secondLog : ServiceLog :=
  [⟨.inr .newId, "correlation-2"⟩,
    ⟨.inr (.getDecision tenantA "case-1"), .ok (some draftCase)⟩,
    ⟨.inr (.reserveIdempotency firstKey firstDigest), .ok (some (200, startResponse.toData))⟩]

theorem firstLog_ends : startClient.program.Ends firstLog (.ok startResponse) :=
  .cons (.cons (.cons (.cons (.cons (.nil _)))))

theorem secondLog_ends : startClient.program.Ends secondLog (.ok startResponse) :=
  .cons (.cons (.cons (.nil _)))

def reservedTable : IdempotencyTable :=
  (IdempotencyTable.empty.reserve Json.keptOrder firstKey firstDigest).2

def completedTable : IdempotencyTable :=
  (reservedTable.complete firstKey firstDigest 200 startResponse.toData).2

/-- Two tools with one request, one after the other. -/
def startTrace : List (Bool × ServiceEvent) :=
  firstLog.map (Prod.mk false) ++ secondLog.map (Prod.mk true)

theorem startTrace_serving :
    Serving Json.keptOrder (fun _ : Bool => startClient) startTrace completedTable where
  served := .cons rfl (.cons rfl (.cons (.inl ⟨rfl, rfl⟩) (.cons rfl (.cons (.inl ⟨rfl, rfl⟩)
    (.cons rfl (.cons rfl (.cons (.inl ⟨rfl, rfl⟩) (.nil _))))))))
  follows i := by
    cases i with
    | false => exact ⟨_, firstLog_ends⟩
    | true => exact ⟨_, secondLog_ends⟩

/-! ## A request of blanks -/

def blankClient : ServiceClient := .tool pilotService authorIdentity (.start blankInput)

def blankKey : IdempotencyKey := startKey authorIdentity blankInput

def blankDigest : String := pilotService.startDigest blankInput

def blankLog : ServiceLog :=
  [⟨.inr .newId, "correlation-1"⟩,
    ⟨.inr (.getDecision tenantA "case-1"), .ok (some draftCase)⟩, granted blankKey blankDigest]

def blankTrace : List (Unit × ServiceEvent) := blankLog.map (Prod.mk ())

def blankTable : IdempotencyTable :=
  (IdempotencyTable.empty.reserve Json.keptOrder blankKey blankDigest).2

theorem blankLog_ends :
    blankClient.program.Ends blankLog (.error (.research (.valueError "QUERY_REQUIRED"))) :=
  .cons (.cons (.cons (.nil _)))

theorem blank_serving :
    Serving Json.keptOrder (fun _ : Unit => blankClient) blankTrace blankTable where
  served := .cons rfl (.cons rfl (.cons (.inl ⟨rfl, rfl⟩) (.nil _)))
  follows _ := ⟨_, blankLog_ends⟩

/-! ## Two routes with one request -/

def pilotCaller : Caller := ⟨authorIdentity, some "key-1", "correlation-1", "2026-01-01"⟩

def cancelClient : ServiceClient :=
  .route pilotService.orchestrator false pilotCaller (.act .cancel "run-1")

def cancelKey : IdempotencyKey := ResearchRoutes.actionKey pilotCaller .cancel "run-1" "key-1"

def cancelDigest : String := payloadHash blindPlatform (.obj [])

def cancelledPilot : ResearchRun :=
  { Jobs.pilotRun with actorId := "author" }.moved blindPlatform .cancelled
    (plainLibrary.isoformat 0) "author" ["RESEARCH_CANCELLED"]
    (.obj [("run_id", .str "run-1")])

def cancelAnswer : RouteAnswer := (200, .obj (ResearchRoutes.summary cancelledPilot))

def cancelLog : ServiceLog :=
  [⟨.inl (.getRun tenantA "run-1"), .ok (some Jobs.pilotRun)⟩,
    ⟨.inr (.getIdempotency cancelKey cancelDigest), .ok none⟩,
    ⟨.inl (.getRun tenantA "run-1"), .ok (some Jobs.pilotRun)⟩, ⟨.inl .clock, 0⟩,
    ⟨.inl (.save tenantA cancelledPilot), .ok ()⟩,
    ⟨.inr (.storeIdempotency cancelKey cancelDigest 200 cancelAnswer.2), .ok ()⟩]

def replayLog : ServiceLog :=
  [⟨.inl (.getRun tenantA "run-1"), .ok (some cancelledPilot)⟩,
    ⟨.inr (.getIdempotency cancelKey cancelDigest), .ok (some cancelAnswer)⟩]

theorem cancelLog_ends : cancelClient.program.Ends cancelLog (.ok cancelAnswer) :=
  .cons (.cons (.cons (.cons (.cons (.cons (.nil _))))))

theorem replayLog_ends : cancelClient.program.Ends replayLog (.ok cancelAnswer) :=
  .cons (.cons (.nil _))

def cancelTable : IdempotencyTable :=
  (IdempotencyTable.empty.store cancelKey cancelDigest 200 cancelAnswer.2).2

def cancelTrace : List (Bool × ServiceEvent) :=
  cancelLog.map (Prod.mk false) ++ replayLog.map (Prod.mk true)

theorem cancelTrace_serving :
    Serving Json.keptOrder (fun _ : Bool => cancelClient) cancelTrace cancelTable where
  served := .cons rfl (.cons (.inl ⟨rfl, rfl⟩) (.cons rfl (.cons rfl (.cons rfl
    (.cons (.inl ⟨rfl, rfl⟩) (.cons rfl (.cons (.inl ⟨rfl, rfl⟩) (.nil _))))))))
  follows i := by
    cases i with
    | false => exact ⟨_, cancelLog_ends⟩
    | true => exact ⟨_, replayLog_ends⟩

section Clients

variable {o : KeyOrder} {ι : Type} [DecidableEq ι] {clients : ι → ServiceClient}
  {t : List (ι × ServiceEvent)} {table : IdempotencyTable} {i j : ι}

open IdempotencyTable (view)

theorem client_ensures (o : KeyOrder) (x : ServiceClient) :
    x.program.Ensures ((counter o).terms x.role) (fun _ _ => True) [] := by
  cases x with
  | tool s identity r => exact (tool_settled r).ensures.mono fun _ _ _ => trivial
  | route orchestrator submission c r => exact (route_replies r).ensures.mono fun _ _ _ => trivial

theorem serving_sound (h : Serving o clients t table) :
    Reservations.Sound ((counter o).hall (view o) t table) :=
  hall_sound (counter_shows o) IdempotencyTable.view_empty (fun i => client_ensures o (clients i)) h

/-! ## Tools -/

/-- A tool has returned a response to a request with a key and a digest. -/
def ToolReturned (x : ServiceClient) (t : ServiceLog) (k : IdempotencyKey) (digest : String)
    (response : ResearchToolResponse) : Prop :=
  ∃ s identity r, x = .tool s identity r ∧ r.subject s identity = some (k, digest) ∧
    (r.program s identity).Ends t (.ok response)

/-- What a tool has returned is kept under its key. -/
theorem ToolReturned.answered {x : ServiceClient} {t : ServiceLog} {k : IdempotencyKey}
    {digest : String} {response : ResearchToolResponse} (h : ToolReturned x t k digest response) :
    Answered k digest response ((counter o).stageOf t) := by
  obtain ⟨s, identity, r, rfl, hsubject, hends⟩ := h
  exact (tool_settled r).ensures.ends hends grants_true k digest
    (ToolRequest.role_eq_reserving.mpr hsubject)

/-- The tools that return under one key had equal requests and return equal responses, and no two
of them have acted. -/
theorem tools_agree {k : IdempotencyKey} {digest digest' : String}
    {response response' : ResearchToolResponse} (h : Serving o clients t table)
    (hi : ToolReturned (clients i) (own i t) k digest response)
    (hj : ToolReturned (clients j) (own j t) k digest' response') :
    digest = digest' ∧ response = response' ∧
      ((∃ x ∈ own i t, acts x.1 = true) → (∃ x ∈ own j t, acts x.1 = true) → i = j) := by
  obtain ⟨a, hsti, hread⟩ := hi.answered (o := o)
  obtain ⟨a', hstj, hread'⟩ := hj.answered (o := o)
  obtain ⟨rfl, rfl⟩ := (serving_sound h).agree hsti hstj
  refine ⟨rfl, Option.some.inj (hread.symm.trans hread'), fun hacti hactj => ?_⟩
  exact acted_once (counter_shows o) IdempotencyTable.view_empty
    (fun i => client_ensures o (clients i)) h hsti hstj hacti hactj

theorem tools_agree_started : firstDigest = firstDigest ∧ startResponse = startResponse ∧
    ((∃ x ∈ own false startTrace, acts x.1 = true) →
      (∃ x ∈ own true startTrace, acts x.1 = true) → false = true) :=
  tools_agree startTrace_serving ⟨_, _, _, rfl, rfl, firstLog_ends⟩
    ⟨_, _, _, rfl, rfl, secondLog_ends⟩

/-- The calls that are made under a key that is held. -/
def works : serviceCalls.Call → Bool
  | .inr (.completeIdempotency _ _ _ _) | .inr (.releaseIdempotency _ _) => true
  | c => acts c

/-- A tool works while it holds its key. -/
theorem holding_of_works {t₁ t₂ : List (ι × ServiceEvent)} {x : ServiceEvent} {k : IdempotencyKey}
    {digest : String} (h : Serving o clients (t₁ ++ (i, x) :: t₂) table)
    (hi : (clients i).role = .reserving k digest) (hx : works x.1 = true) :
    (counter o).stageOf (own i t₁) = .holding k digest := by
  have hobeys := obeys_own (fun i => client_ensures o (clients i)) h i
  rw [hi, own_append, own_cons_self] at hobeys
  obtain ⟨-, hrequest, hready⟩ := hobeys (own i t₁) x (own i t₂) rfl
  have hends : ∀ {q}, requestOf o x.1 = some q → q.Answers ∨ (∃ k d, q = .release k d) →
      (counter o).stageOf (own i t₁) = .holding k digest := by
    intro q hq hends
    obtain ⟨hallows, rfl, rfl, hreserves⟩ := hrequest q hq
    generalize (counter o).stageOf (own i t₁) = st at hallows
    cases hallows with
    | complete k d a => rfl
    | release k d => rfl
    | store k d a => exact hreserves.elim
    | reserve k d =>
      rcases hends with hanswers | ⟨k', d', hq'⟩
      · exact hanswers.elim
      · cases hq'
    | look k d => exact hreserves.elim
  obtain ⟨c, a⟩ := x
  cases c with
  | inl c => exact hready hx
  | inr c =>
    cases c with
    | completeIdempotency k' digest' statusCode response => exact hends rfl (.inl trivial)
    | releaseIdempotency k' digest' => exact hends rfl (.inr ⟨k', digest', rfl⟩)
    | _ => exact hready hx

/-- A `start` whose contract is rejected, with its key and its digest. -/
def RejectedStart (x : ServiceClient) (k : IdempotencyKey) (digest : String) : Prop :=
  ∃ s identity request, x = .tool s identity (.start request) ∧ startKey identity request = k ∧
    s.startDigest request = digest ∧ StartRejected request

theorem granted_event {x : ServiceEvent} {k : IdempotencyKey} {digest : String}
    (hrequest : requestOf o x.1 = some (.reserve k digest)) (hreply : replyOf x = .granted) :
    x = granted k digest := by
  obtain ⟨c, a⟩ := x
  cases c with
  | inl c => cases hrequest
  | inr c =>
    cases c <;> cases hrequest
    cases a with
    | ok found =>
      cases found with
      | none => rfl
      | some answer => cases hreply
    | error e => cases e <;> cases hreply

/-- A `start` with a rejected contract that was granted its key holds it ever after. -/
theorem rejected_holds {k : IdempotencyKey} {digest : String} (h : Serving o clients t table)
    (hi : RejectedStart (clients i) k digest) (hgranted : granted k digest ∈ own i t) :
    (counter o).stageOf (own i t) = .holding k digest := by
  have hfollows := h.follows i
  generalize clients i = x at hi hfollows
  obtain ⟨s, identity, request, rfl, rfl, rfl, hrejected⟩ := hi
  obtain ⟨q, hq⟩ := hfollows
  obtain ⟨pre, post, hpost⟩ := List.append_of_mem hgranted
  have hstage : (counter o).stageOf (pre ++ [granted (startKey identity request)
      (s.startDigest request)]) = .holding (startKey identity request) (s.startDigest request) :=
    stageOf_request (q := .reserve (startKey identity request) (s.startDigest request)) rfl
  have htimid : (s.start identity request).Ensures _ (fun _ _ => True) [] :=
    (start_timid (o := o) hrejected).ensures
  rw [hpost] at hq ⊢
  cases post with
  | nil => exact hstage
  | cons y post =>
    -- a call after the grant would be one of a client that has not asked for its key
    rw [← List.singleton_append, ← List.append_assoc] at hq
    have hfresh := htimid.permitted hq fun _ _ _ _ => trivial
    cases hstage.symm.trans hfresh

/-- Of a run in which a `start` with a rejected contract was granted its key, the row of the key is
in progress, and no tool has returned under it. In a run in which every client has ended and no
request to the table has raised, the rows in progress are those of such a `start` only. -/
theorem leaked_keys (h : Serving o clients t table) :
    (∀ i k digest, RejectedStart (clients i) k digest → granted k digest ∈ own i t →
      (∃ row ∈ table.rows, row.reserved k digest = true) ∧
      ∀ j digest' response, ¬ ToolReturned (clients j) (own j t) k digest' response) ∧
    ((∀ i, ∃ result, (clients i).program.Ends (own i t) result) →
      (∀ i, ∀ x ∈ own i t, replyOf x ≠ .raised) →
      ∀ k digest, (∃ row ∈ table.rows, row.reserved k digest = true) →
        ∃ i, RejectedStart (clients i) k digest ∧ granted k digest ∈ own i t) := by
  have hsound := serving_sound h
  constructor
  · intro i k digest hi hgranted
    have hholding := rejected_holds h hi hgranted
    have hrow := IdempotencyTable.view_reserved.mp (hsound.held hholding)
    refine ⟨hrow, fun j digest' response hj => ?_⟩
    obtain ⟨a, hstj, -⟩ := hj.answered (o := o)
    exact hsound.apart hstj hholding
  · intro hended hcalm k digest hrow
    have hlost : ∀ i k d, (counter o).stageOf (own i t) ≠ .lost k d :=
      fun i k d => stageOf_ne_lost (hcalm i)
    obtain ⟨i, hi⟩ := (hsound.reserved_iff hlost).mp (IdempotencyTable.view_reserved.mpr hrow)
    have hholding : (counter o).stageOf (own i t) = .holding k digest := hi
    have hrole : (clients i).role = .reserving k digest := by
      refine (obeys_own (fun i => client_ensures o (clients i)) h i).claims ?_
      rw [hholding]
      rfl
    refine ⟨i, ?_, ?_⟩
    · have hends := hended i
      generalize clients i = x at hrole hends
      obtain ⟨result, hends⟩ := hends
      cases x with
      | route orchestrator submission c r => exact absurd hrole RouteRequest.role_ne_reserving
      | tool s identity r =>
        have hsettled := (tool_settled (o := o) r).ensures.ends hends grants_true k digest hrole
        rw [List.nil_append, hholding] at hsettled
        cases result with
        | ok response =>
          obtain ⟨a, hst, -⟩ := hsettled
          cases hst
        | error e =>
          rcases hsettled with hleaks | hunheld
          · cases r with
            | start request =>
              cases hrole
              exact ⟨s, identity, request, rfl, rfl, rfl, hleaks⟩
            | get runId => exact hleaks.elim
            | retry request => exact hleaks.elim
            | cancel request => exact hleaks.elim
            | handoff request => exact hleaks.elim
          · exact absurd rfl (hunheld k digest)
    · obtain ⟨x, hx, hrequest, hreply⟩ := granted_of_holding hholding
      rwa [granted_event hrequest hreply] at hx

theorem leaked_keys_blank : (∃ row ∈ blankTable.rows, row.reserved blankKey blankDigest = true) ∧
    ∀ digest' response,
      ¬ ToolReturned blankClient (own () blankTrace) blankKey digest' response := by
  have hstart : RejectedStart blankClient blankKey blankDigest :=
    ⟨pilotService, authorIdentity, blankInput, rfl, rfl, rfl, .inr (.inl rfl)⟩
  have hgranted : granted blankKey blankDigest ∈ own () blankTrace :=
    List.mem_of_getElem? (i := 2) rfl
  obtain ⟨hrow, hnone⟩ := (leaked_keys blank_serving).1 () blankKey blankDigest hstart hgranted
  exact ⟨hrow, hnone ()⟩

/-! ## Routes -/

/-- A route has returned an answer to a request with a key and a digest. -/
def RouteReturned (x : ServiceClient) (t : ServiceLog) (k : IdempotencyKey) (digest : String)
    (answer : RouteAnswer) : Prop :=
  ∃ orchestrator submission c r key, x = .route orchestrator submission c r ∧
    requireIdempotencyKey c.idempotencyKey = .ok key ∧
    r.subject orchestrator c key = (k, digest) ∧
    (r.program orchestrator submission c).Ends t (.ok answer)

theorem RouteReturned.kept {x : ServiceClient} {t : ServiceLog} {k : IdempotencyKey}
    {digest : String} {answer : RouteAnswer} (h : RouteReturned x t k digest answer) :
    Kept k digest answer ((counter o).stageOf t) := by
  obtain ⟨orchestrator, submission, c, r, key, rfl, hkey, hsubject, hends⟩ := h
  have hrole : r.role orchestrator c = .searching k digest := by
    simp only [RouteRequest.role, hkey, hsubject]
  exact (route_replies r).ensures.ends hends grants_true k digest hrole

/-- Tools and routes have no key in common. -/
theorem routes_apart {x : ServiceClient} {t : ServiceLog} {k : IdempotencyKey}
    {digest digest' : String} {answer : RouteAnswer} (h : RouteReturned x t k digest answer)
    {y : ServiceClient} : y.role ≠ .reserving k digest' := by
  intro hrole
  obtain ⟨orchestrator, submission, c, r, key, rfl, -, hsubject, -⟩ := h
  cases y with
  | route orchestrator submission c r => exact RouteRequest.role_ne_reserving hrole
  | tool s identity r' =>
    have htool : r'.subject s identity = some (k, digest') := ToolRequest.role_eq_reserving.mp hrole
    have hroute := RouteRequest.operation_of_subject hsubject
    rw [ToolRequest.operation_of_subject htool] at hroute
    cases hroute

/-- What a route has returned is kept under its key. -/
theorem RouteReturned.answered {k : IdempotencyKey} {digest : String} {answer : RouteAnswer}
    (hrun : Serving o clients t table) (h : RouteReturned (clients i) (own i t) k digest answer) :
    ∃ a : ℕ × Json, (counter o).stageOf (own i t) = .answered k digest a ∧ a.1 = answer.1 ∧
      a.2.dumps = answer.2.dumps := by
  rcases h.kept (o := o) with hanswered | hwaiting
  · exact hanswered
  · obtain ⟨j, hj⟩ := waits (counter_shows o) IdempotencyTable.view_empty
      (fun i => client_ensures o (clients i)) hrun i k digest hwaiting
    exact absurd hj (routes_apart h)

/-- The routes that return under one key had equal requests and return one status and one body, and
no two of them have acted. None of them returns the placeholder of a row in progress, nor is the row
of the key in progress afterwards. -/
theorem routes_agree {k : IdempotencyKey} {digest digest' : String} {answer answer' : RouteAnswer}
    (h : Serving o clients t table)
    (hi : RouteReturned (clients i) (own i t) k digest answer)
    (hj : RouteReturned (clients j) (own j t) k digest' answer') :
    (digest = digest' ∧ answer.1 = answer'.1 ∧ answer.2.dumps = answer'.2.dumps ∧
      ((∃ x ∈ own i t, acts x.1 = true) → (∃ x ∈ own j t, acts x.1 = true) → i = j)) ∧
      answer.1 ≠ inProgressStatus ∧
        ∀ row ∈ table.rows, row.id = k → row.statusCode ≠ inProgressStatus := by
  have hsound := serving_sound h
  obtain ⟨a, hsti, hstatus, hbody⟩ := hi.answered h
  obtain ⟨a', hstj, hstatus', hbody'⟩ := hj.answered h
  obtain ⟨rfl, rfl⟩ := hsound.agree hsti hstj
  obtain ⟨hdone, hrows⟩ := IdempotencyTable.view_answered (hsound.kept hsti)
  refine ⟨⟨rfl, hstatus.symm.trans hstatus', hbody.symm.trans hbody', fun hacti hactj => ?_⟩,
    hstatus ▸ hdone, hrows⟩
  exact acted_once (counter_shows o) IdempotencyTable.view_empty
    (fun i => client_ensures o (clients i)) h hsti hstj hacti hactj

theorem routes_agree_cancelled : (cancelDigest = cancelDigest ∧ cancelAnswer.1 = cancelAnswer.1 ∧
    cancelAnswer.2.dumps = cancelAnswer.2.dumps ∧
    ((∃ x ∈ own false cancelTrace, acts x.1 = true) →
      (∃ x ∈ own true cancelTrace, acts x.1 = true) → false = true)) ∧
    cancelAnswer.1 ≠ inProgressStatus ∧
      ∀ row ∈ cancelTable.rows, row.id = cancelKey → row.statusCode ≠ inProgressStatus :=
  routes_agree cancelTrace_serving ⟨_, _, _, _, _, rfl, rfl, rfl, cancelLog_ends⟩
    ⟨_, _, _, _, _, rfl, rfl, rfl, replayLog_ends⟩

end Clients

end DecisionAssurance.Services
