import DecisionAssurance.Containment
import DecisionAssurance.JobLifecycle
import DecisionAssurance.ResearchWorker

/-!
# A store as a server

The store of a deployment answers the calls to it by its own operations, and a world those to
everything else.
-/

namespace DecisionAssurance.Research

open Interactions Interaction PostgresResearchRepository
open Jobs (JobDatabase JobBackend JobKey LeaseToken)

variable {order : ScanOrder} {world : (c : ResearchCall) → c.Answer} {db : JobDatabase}

/-- The answer of a computation on the store, which is left as it is where the computation
raises. -/
def answered {ε α : Type} (db : JobDatabase) :
    Except ε (α × JobDatabase) → Except ε α × JobDatabase
  | .ok (a, db') => (.ok a, db')
  | .error e => (.error e, db)

def serveStore (order : ScanOrder) (world : (c : ResearchCall) → c.Answer) (db : JobDatabase) :
    (c : ResearchCall) → c.Answer × JobDatabase
  | .createOrGet tenant run => answered db (createOrGet db tenant (order.scan db.runs) run)
  | .getRun tenant runId => (.ok (get db tenant runId), db)
  | .save tenant run | .record tenant run =>
    answered db ((PostgresResearchRepository.save db tenant run).map fun db' => ((), db'))
  | .reserveBudget tenant runId limit => answered db (reserveBudget db tenant runId limit)
  | c => (world c, db)

theorem serveStore_serves (c : ResearchCall) :
    Serves order db ⟨c, (serveStore order world db c).1⟩ (serveStore order world db c).2 := by
  cases c with
  | createOrGet tenant run =>
    simp only [serveStore]
    cases h : createOrGet db tenant (order.scan db.runs) run with
    | ok r => exact h
    | error e => rfl
  | getRun tenant runId => exact ⟨rfl, rfl⟩
  | save tenant run =>
    simp only [serveStore]
    cases h : PostgresResearchRepository.save db tenant run with
    | ok db' => exact h
    | error e => rfl
  | record tenant run =>
    simp only [serveStore]
    cases h : PostgresResearchRepository.save db tenant run with
    | ok db' => exact h
    | error e => rfl
  | reserveBudget tenant runId limit =>
    simp only [serveStore]
    cases h : reserveBudget db tenant runId limit with
    | ok r => exact h
    | error e => rfl
  | _ => rfl

theorem serveStore_answers (b : JobBackend) (db : JobDatabase) (c : ResearchCall) :
    Answers b order db ⟨c, (serveStore order world db c).1⟩ (serveStore order world db c).2 :=
  ⟨db, .refl b db, serveStore_serves c⟩

/-- A program has returned a value with a property. -/
def returns {α : Type} (f : α → Bool) : Raises (Option α) → Bool
  | .ok (some a) => f a
  | _ => false

theorem returns_cases {α : Type} {f : α → Bool} {result : Raises (Option α)}
    (h : returns f result = true) : ∃ a, result = .ok (some a) ∧ f a = true := by
  rcases result with e | _ | a
  · cases h
  · cases h
  · exact ⟨a, rfl, h⟩

/-- A program run against the store ends with its log served. -/
theorem playOn_store {α : Type} (b : JobBackend) (order : ScanOrder)
    (world : (c : ResearchCall) → c.Answer) (p : Program α) (db : JobDatabase) :
    p.Ends (p.playOn (serveStore order world) db).2.1 (p.playOn (serveStore order world) db).1 ∧
      Served (Answers b order) db (p.playOn (serveStore order world) db).2.1
        (p.playOn (serveStore order world) db).2.2 :=
  ⟨playOn_ends _ p db, playOn_served (serveStore_answers b) p db⟩

end DecisionAssurance.Research
