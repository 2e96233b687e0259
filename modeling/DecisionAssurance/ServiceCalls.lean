import DecisionAssurance.ReservationPrograms
import DecisionAssurance.ResearchIdempotency
import DecisionAssurance.ResearchPorts

/-!
# The calls of the research services

The tool service and the routes call the orchestrator, whose calls are theirs, the stores of
decisions and jobs, and the idempotency table. Only the table answers as it stands; of what a call
to it raises it is not known whether it has had its effect.
-/

namespace DecisionAssurance.Research

open Interactions
open Jobs (ResearchJob JobError)
open Reservations (Request Counter)

/-- `ResearchRequest(…)`, which raises the first error of its fields. -/
def ResearchRequest.build (fields : RequestFields) : Raises ResearchRequest :=
  match h : fields.error with
  | none => .ok ⟨fields, h⟩
  | some message => .error (.valueError message)

/-- A request is built unless one of its fields has an error. -/
theorem ResearchRequest.build_error {fields : RequestFields} :
    (∃ e, ResearchRequest.build fields = .error e) ↔ fields.error.isSome = true := by
  unfold ResearchRequest.build
  split
  · rename_i hnone
    simp [hnone]
  · rename_i message hmessage
    simp [hmessage]

inductive ServiceCall
  /-- `uuid.uuid4()` -/
  | newId
  /-- `datetime.now(timezone.utc).isoformat()` -/
  | now
  | getDecision (tenant : TenantContext) (decisionId : String)
  | submit (tenant : TenantContext) (actorId : String) (request : ResearchRequest)
      (documentHash correlationId : String) (refreshGeneration : Option String)
  | requeue (tenant : TenantContext) (jobId correlationId now : String)
  | cancelJob (tenant : TenantContext) (jobId now : String)
  | reserveIdempotency (k : IdempotencyKey) (requestHash : String)
  | completeIdempotency (k : IdempotencyKey) (requestHash : String) (statusCode : ℕ)
      (response : Json)
  | releaseIdempotency (k : IdempotencyKey) (requestHash : String)
  | getIdempotency (k : IdempotencyKey) (requestHash : String)
  | storeIdempotency (k : IdempotencyKey) (requestHash : String) (statusCode : ℕ)
      (response : Json)

@[reducible] def ServiceCall.Answer : ServiceCall → Type
  | .newId | .now => String
  | .getDecision _ _ => Raises (Option DecisionFile)
  | .submit _ _ _ _ _ _ => Raises (ResearchRun × ResearchJob)
  | .requeue _ _ _ _ | .cancelJob _ _ _ => Except JobError ResearchJob
  | .reserveIdempotency _ _ | .getIdempotency _ _ => Except IdempotencyError (Option (ℕ × Json))
  | .completeIdempotency _ _ _ _ | .releaseIdempotency _ _ | .storeIdempotency _ _ _ _ =>
    Except IdempotencyError Unit

@[reducible] def adapterCalls : Signature := ⟨ServiceCall, ServiceCall.Answer⟩

@[reducible] def serviceCalls : Signature := researchCalls.sum adapterCalls

abbrev ServiceEvent := Event serviceCalls

abbrev ServiceLog := Log serviceCalls

/-! ## The table's answers -/

/-- An operation of the table is served, or raises with or without its effect. -/
def Settles {α : Type} (op : Except IdempotencyError α × IdempotencyTable)
    (table : IdempotencyTable) (answer : Except IdempotencyError α) (table' : IdempotencyTable) :
    Prop :=
  answer = op.1 ∧ table' = op.2 ∨
    (∃ m, answer = .error (.failed m)) ∧ (table' = table ∨ table' = op.2)

/-- What the stores answer, as far as the table goes. -/
def ServedBy (o : KeyOrder) (table : IdempotencyTable) :
    ServiceEvent → IdempotencyTable → Prop
  | ⟨.inr (.reserveIdempotency k h), a⟩, table' => Settles (table.reserve o k h) table a table'
  | ⟨.inr (.completeIdempotency k h c r), a⟩, table' =>
    Settles (table.complete k h c r) table a table'
  | ⟨.inr (.releaseIdempotency k h), a⟩, table' => Settles (table.release k h) table a table'
  | ⟨.inr (.getIdempotency k h), a⟩, table' => Settles (table.get o k h, table) table a table'
  | ⟨.inr (.storeIdempotency k h c r), a⟩, table' => Settles (table.store k h c r) table a table'
  | ⟨.inr (.newId), _⟩, table' | ⟨.inr (.now), _⟩, table' | ⟨.inr (.getDecision _ _), _⟩, table'
  | ⟨.inr (.submit _ _ _ _ _ _), _⟩, table' | ⟨.inr (.requeue _ _ _ _), _⟩, table'
  | ⟨.inr (.cancelJob _ _ _), _⟩, table' | ⟨.inl _, _⟩, table' => table' = table

/-! ## The calls as requests to a store of reserved keys -/

abbrev KeyRequest := Request IdempotencyKey String (ℕ × Json)

def requestOf (o : KeyOrder) : serviceCalls.Call → Option KeyRequest
  | .inr (.reserveIdempotency k h) => some (.reserve k h)
  | .inr (.completeIdempotency k h c r) => some (.complete k h (c, r.reread o Json.float))
  | .inr (.releaseIdempotency k h) => some (.release k h)
  | .inr (.getIdempotency k h) => some (.look k h)
  | .inr (.storeIdempotency k h c r) => some (.store k h (c, r.reread o Json.float))
  | .inr .newId | .inr .now | .inr (.getDecision _ _) | .inr (.submit _ _ _ _ _ _)
  | .inr (.requeue _ _ _ _) | .inr (.cancelJob _ _ _) | .inl _ => none

def replyOf : ServiceEvent → Reservations.Reply (ℕ × Json)
  | ⟨.inr (.reserveIdempotency _ _), a⟩ => IdempotencyTable.reservedOf a
  | ⟨.inr (.getIdempotency _ _), a⟩ => IdempotencyTable.searchedOf a
  | ⟨.inr (.completeIdempotency _ _ _ _), a⟩ | ⟨.inr (.releaseIdempotency _ _), a⟩
  | ⟨.inr (.storeIdempotency _ _ _ _), a⟩ => IdempotencyTable.doneOf a
  | ⟨.inr .newId, _⟩ | ⟨.inr .now, _⟩ | ⟨.inr (.getDecision _ _), _⟩
  | ⟨.inr (.submit _ _ _ _ _ _), _⟩ | ⟨.inr (.requeue _ _ _ _), _⟩ | ⟨.inr (.cancelJob _ _ _), _⟩
  | ⟨.inl _, _⟩ => .done

/-- The calls that change a run, a job or a decision, or ask a provider. -/
def acts : serviceCalls.Call → Bool
  | .inl (.createOrGet _ _) | .inl (.save _ _) | .inl (.record _ _) | .inl (.reserveBudget _ _ _)
  | .inl (.search _) | .inl (.extract _) | .inl (.attach _ _ _ _)
  | .inr (.submit _ _ _ _ _ _) | .inr (.requeue _ _ _ _) | .inr (.cancelJob _ _ _) => true
  | _ => false

/-- An answer that is kept is not one that says that there is none yet. -/
def sane : serviceCalls.Call → Bool
  | .inr (.completeIdempotency _ _ c _) | .inr (.storeIdempotency _ _ c _) =>
    c ≠ inProgressStatus
  | _ => true

def counter (o : KeyOrder) : Counter serviceCalls IdempotencyKey String (ℕ × Json) where
  request := requestOf o
  reply := replyOf
  Acts c := acts c = true
  Sane c := sane c = true

section Shows

variable {o : KeyOrder} {table table' : IdempotencyTable}

open IdempotencyTable (view)

theorem serves_of_settles {α : Type} {op : Except IdempotencyError α × IdempotencyTable}
    {answer : Except IdempotencyError α} {q : KeyRequest}
    {reply : Except IdempotencyError α → Reservations.Reply (ℕ × Json)}
    (hact : Reservations.act (view o table) q = (reply op.1, view o op.2))
    (hfailed : ∀ m, reply (.error (.failed m)) = .raised)
    (h : Settles op table answer table') :
    Reservations.Serves (view o table) q (reply answer) (view o table') := by
  rcases h with ⟨rfl, rfl⟩ | ⟨⟨m, rfl⟩, rfl | rfl⟩
  · exact .inl hact.symm
  · exact .inr ⟨hfailed m, .inl rfl⟩
  · exact .inr ⟨hfailed m, .inr (congrArg Prod.snd hact).symm⟩

/-- The table is a store of reserved keys. -/
theorem counter_shows (o : KeyOrder) : (counter o).Shows (view o) (ServedBy o) := by
  intro table x table' hsane hx
  obtain ⟨c, a⟩ := x
  cases c with
  | inl c => exact congrArg (view o) hx
  | inr c =>
    cases c with
    | reserveIdempotency k h =>
      exact serves_of_settles IdempotencyTable.reserve_act (fun _ => rfl) hx
    | completeIdempotency k h c r =>
      have hstatus : c ≠ inProgressStatus := of_decide_eq_true hsane
      exact serves_of_settles (IdempotencyTable.complete_act hstatus r) (fun _ => rfl) hx
    | releaseIdempotency k h =>
      exact serves_of_settles IdempotencyTable.release_act (fun _ => rfl) hx
    | getIdempotency k h => exact serves_of_settles IdempotencyTable.get_act (fun _ => rfl) hx
    | storeIdempotency k h c r =>
      have hstatus : c ≠ inProgressStatus := of_decide_eq_true hsane
      exact serves_of_settles (IdempotencyTable.store_act hstatus r) (fun _ => rfl) hx
    | newId => exact congrArg (view o) hx
    | now => exact congrArg (view o) hx
    | getDecision tenant decisionId => exact congrArg (view o) hx
    | submit tenant actorId request documentHash correlationId refreshGeneration =>
      exact congrArg (view o) hx
    | requeue tenant jobId correlationId now => exact congrArg (view o) hx
    | cancelJob tenant jobId now => exact congrArg (view o) hx

end Shows

end DecisionAssurance.Research
