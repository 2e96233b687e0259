import DecisionAssurance.JsonRecords
import DecisionAssurance.Reservations
import DecisionAssurance.Tables

/-!
# The idempotency table of research

The rows of `research_idempotency` and the requests to it. The tool service reserves a row before
it acts and completes it with its answer, the routes look one up and store an answer afterwards.
-/

namespace DecisionAssurance.Tables

variable {ρ κ : Type*} [DecidableEq κ] {key : ρ → κ} {k k' : κ} {rows : List ρ} {p : ρ → Bool}

/-- A statement about one key is about the row of that key. -/
theorem Keyed.countP_eq (h : Keyed key rows) (hp : ∀ r, p r = true → key r = k) :
    rows.countP p = if (lookup key k rows).any p then 1 else 0 := by
  induction rows with
  | nil => rfl
  | cons r rows ih =>
    obtain ⟨hfresh, hnodup⟩ := List.nodup_cons.mp h
    by_cases hr : key r = k
    · have hrest : rows.countP p = 0 := by
        rw [List.countP_eq_zero]
        intro r' hr' hpr'
        exact hfresh (hr.trans (hp r' hpr').symm ▸ List.mem_map_of_mem hr')
      simp [lookup, hr, List.countP_cons, hrest]
    · have hpr : p r = false := by
        rw [← Bool.not_eq_true]
        exact fun hpr => hr (hp r hpr)
      have hlookup : lookup key k (r :: rows) = lookup key k rows := by simp [lookup, hr]
      rw [List.countP_cons, ih hnodup, hpr, hlookup]
      rfl

theorem Keyed.lookup_deleteWhere_eq (h : Keyed key rows) (hp : ∀ r, p r = true → key r = k) :
    lookup key k' (deleteWhere p rows) =
      if k' = k ∧ (lookup key k rows).any p then none else lookup key k' rows := by
  by_cases hany : (lookup key k rows).any p = true
  · by_cases hk : k' = k
    · subst hk
      rw [if_pos ⟨rfl, hany⟩, lookup_eq_none]
      intro r hr hrk
      obtain ⟨hmem, hkept⟩ := mem_deleteWhere.mp hr
      rw [h.lookup_eq_some.mpr ⟨hmem, hrk⟩, Option.any_some, hkept] at hany
      cases hany
    · rw [if_neg fun hand => hk hand.1, lookup_deleteWhere]
      intro r _ hrk
      rw [← Bool.not_eq_true]
      exact fun hpr => hk (hrk.symm.trans (hp r hpr))
  · rw [if_neg fun hand => hany hand.2, lookup_deleteWhere]
    intro r hr hrk
    rw [← Bool.not_eq_true]
    intro hpr
    rw [h.lookup_eq_some.mpr ⟨hr, hp r hpr⟩, Option.any_some] at hany
    exact hany hpr

end DecisionAssurance.Tables

namespace DecisionAssurance.Research

open Tables
open Reservations (Entry Store act Serves)

/-- The primary key: tenant, actor, operation and idempotency key. -/
structure IdempotencyKey where
  tenantId : String
  actorId : String
  operation : String
  key : String
  deriving DecidableEq

structure IdempotencyRow where
  id : IdempotencyKey
  requestHash : String
  statusCode : ℕ
  response : Json
  deriving DecidableEq

structure IdempotencyTable where
  rows : List IdempotencyRow
  keyed : Keyed IdempotencyRow.id rows

inductive IdempotencyError
  /-- `ResearchIdempotencyConflict` -/
  | reused
  /-- `ResearchIdempotencyInProgress` -/
  | inProgress
  /-- `RuntimeError` and what a database raises. -/
  | failed (message : String)
  deriving DecidableEq

/-- `IDEMPOTENCY_IN_PROGRESS_STATUS` -/
def inProgressStatus : ℕ := 102

/-- `IDEMPOTENCY_IN_PROGRESS_RESPONSE` -/
def inProgressResponse : Json := .obj [("state", .str "IN_PROGRESS")]

/-- The row of a key with a request that is in progress. -/
def IdempotencyRow.reserved (k : IdempotencyKey) (requestHash : String) (row : IdempotencyRow) :
    Bool :=
  row.id = k && row.requestHash = requestHash && row.statusCode = inProgressStatus

def IdempotencyRow.answered (statusCode : ℕ) (response : Json) (row : IdempotencyRow) :
    IdempotencyRow :=
  { row with statusCode := statusCode, response := response }

theorem IdempotencyRow.answered_id (row : IdempotencyRow) (statusCode : ℕ) (response : Json) :
    (row.answered statusCode response).id = row.id := rfl

namespace IdempotencyTable

def empty : IdempotencyTable := ⟨[], List.nodup_nil⟩

def find (table : IdempotencyTable) (k : IdempotencyKey) : Option IdempotencyRow :=
  lookup IdempotencyRow.id k table.rows

/-- `INSERT`, none where the key is taken. -/
def insert (row : IdempotencyRow) (table : IdempotencyTable) : Option IdempotencyTable :=
  if hfresh : ∀ r ∈ table.rows, r.id ≠ row.id then
    some ⟨table.rows ++ [row], keyed_append_singleton table.keyed hfresh⟩
  else none

/-- `UPDATE` of the status and the response. -/
def update (p : IdempotencyRow → Bool) (statusCode : ℕ) (response : Json)
    (table : IdempotencyTable) : IdempotencyTable :=
  ⟨updateWhere p (IdempotencyRow.answered statusCode response) table.rows,
    keyed_updateWhere (fun row _ => row.answered_id statusCode response) table.keyed⟩

def delete (p : IdempotencyRow → Bool) (table : IdempotencyTable) : IdempotencyTable :=
  ⟨deleteWhere p table.rows, keyed_deleteWhere table.keyed⟩

section Requests

variable (o : KeyOrder) (k : IdempotencyKey) (requestHash : String) (table : IdempotencyTable)

/-- The status and the response of a row, read back. -/
def answerOf (row : IdempotencyRow) : ℕ × Json :=
  (row.statusCode, row.response.reread o Json.float)

/-- `reserve_idempotency`. The row is inserted unless there is one, and read back. -/
def reserve : Except IdempotencyError (Option (ℕ × Json)) × IdempotencyTable :=
  let inserted := table.insert ⟨k, requestHash, inProgressStatus, inProgressResponse⟩
  let table := inserted.getD table
  match table.find k with
  | none => (.error (.failed "IDEMPOTENCY_RESERVATION_FAILED"), table)
  | some row =>
    if row.requestHash ≠ requestHash then (.error .reused, table)
    else if inserted.isSome then (.ok none, table)
    else if row.statusCode = inProgressStatus then (.error .inProgress, table)
    else (.ok (some (answerOf o row)), table)

/-- `complete_idempotency`. The update is rolled back unless it is of one row. -/
def complete (statusCode : ℕ) (response : Json) :
    Except IdempotencyError Unit × IdempotencyTable :=
  if table.rows.countP (IdempotencyRow.reserved k requestHash) = 1 then
    (.ok (), table.update (IdempotencyRow.reserved k requestHash) statusCode response)
  else (.error (.failed "IDEMPOTENCY_COMPLETION_FAILED"), table)

/-- `release_idempotency` -/
def release : Except IdempotencyError Unit × IdempotencyTable :=
  (.ok (), table.delete (IdempotencyRow.reserved k requestHash))

/-- `get_idempotency` -/
def get : Except IdempotencyError (Option (ℕ × Json)) :=
  match table.find k with
  | none => .ok none
  | some row =>
    if row.requestHash ≠ requestHash then .error .reused else .ok (some (answerOf o row))

/-- `store_idempotency` -/
def store (statusCode : ℕ) (response : Json) : Except IdempotencyError Unit × IdempotencyTable :=
  match table.insert ⟨k, requestHash, statusCode, response⟩ with
  | some table => (.ok (), table)
  | none => (.error (.failed "IntegrityError"), table)

end Requests

/-! ## The table as a store of reserved keys -/

section View

variable {o : KeyOrder} {k k' : IdempotencyKey} {requestHash : String} {table : IdempotencyTable}
  {row : IdempotencyRow}

theorem find_insert {table' : IdempotencyTable} (h : table.insert row = some table') :
    table.find row.id = none ∧
      table'.find = Function.update table.find row.id (some row) := by
  unfold insert at h
  split_ifs at h with hfresh
  cases h
  have hnone : table.find row.id = none := lookup_eq_none.mpr hfresh
  refine ⟨hnone, funext fun k => ?_⟩
  by_cases hk : k = row.id
  · subst hk
    rw [Function.update_self]
    exact lookup_append_self hnone
  · rw [Function.update_of_ne hk]
    exact lookup_append_of_ne (Ne.symm hk)

theorem insert_eq_none : table.insert row = none ↔ (table.find row.id).isSome := by
  unfold insert
  rw [dite_eq_right_iff, ← not_iff_not, Bool.not_eq_true, Option.isSome_eq_false_iff,
    Option.isNone_iff_eq_none, find, lookup_eq_none]
  simp

def entryOf (o : KeyOrder) (row : IdempotencyRow) : Entry String (ℕ × Json) :=
  ⟨row.requestHash, if row.statusCode = inProgressStatus then none else some (answerOf o row)⟩

def view (o : KeyOrder) (table : IdempotencyTable) : Store IdempotencyKey String (ℕ × Json) :=
  fun k => (table.find k).map (entryOf o)

theorem entryOf_reserves : (entryOf o row).Reserves requestHash ↔
    row.requestHash = requestHash ∧ row.statusCode = inProgressStatus := by
  unfold Entry.Reserves entryOf
  by_cases hstatus : row.statusCode = inProgressStatus <;> simp [hstatus]

theorem reserved_iff : row.reserved k requestHash = true ↔
    row.id = k ∧ row.requestHash = requestHash ∧ row.statusCode = inProgressStatus := by
  simp [IdempotencyRow.reserved, and_assoc]

/-- A key is reserved in the store if its row is in progress in the table. -/
theorem view_reserved : view o table k = some ⟨requestHash, none⟩ ↔
    ∃ row ∈ table.rows, row.reserved k requestHash = true := by
  constructor
  · intro hview
    obtain ⟨row, hfind, hentry⟩ := Option.map_eq_some_iff.mp hview
    obtain ⟨hmem, hid⟩ := table.keyed.lookup_eq_some.mp hfind
    have hreserves : (entryOf o row).Reserves requestHash := by
      rw [hentry]
      exact ⟨rfl, rfl⟩
    exact ⟨row, hmem, reserved_iff.mpr ⟨hid, entryOf_reserves.mp hreserves⟩⟩
  · rintro ⟨row, hmem, hreserved⟩
    obtain ⟨hid, hhash, hstatus⟩ := reserved_iff.mp hreserved
    have hfind : table.find k = some row := table.keyed.lookup_eq_some.mpr ⟨hmem, hid⟩
    rw [view, hfind, Option.map_some, entryOf, hhash, if_pos hstatus]

/-- An answer under a key in the store is that of the row of the key, which is not in progress. -/
theorem view_answered {a : ℕ × Json} (h : view o table k = some ⟨requestHash, some a⟩) :
    a.1 ≠ inProgressStatus ∧ ∀ row ∈ table.rows, row.id = k → row.statusCode ≠ inProgressStatus := by
  obtain ⟨row, hfind, hentry⟩ := Option.map_eq_some_iff.mp h
  unfold entryOf at hentry
  by_cases hstatus : row.statusCode = inProgressStatus
  · rw [if_pos hstatus] at hentry
    cases hentry
  · rw [if_neg hstatus] at hentry
    cases hentry
    refine ⟨hstatus, fun row' hmem hid => ?_⟩
    have hfind' : table.find k = some row' := table.keyed.lookup_eq_some.mpr ⟨hmem, hid⟩
    rw [Option.some.inj (hfind'.symm.trans hfind)]
    exact hstatus

theorem view_empty : view o empty = fun _ => none := rfl

theorem view_insert {table' : IdempotencyTable} (h : table.insert row = some table') :
    view o table' = Function.update (view o table) row.id (some (entryOf o row)) := by
  funext k
  rw [view, (find_insert h).2]
  by_cases hk : k = row.id
  · subst hk
    simp only [Function.update_self, Option.map_some]
  · simp only [Function.update_of_ne hk, view]

/-! ## Replies -/

/-- What a reservation is told. -/
def reservedOf : Except IdempotencyError (Option (ℕ × Json)) → Reservations.Reply (ℕ × Json)
  | .ok none => .granted
  | .ok (some answer) => .replayed answer
  | .error .reused => .reused
  | .error .inProgress => .inProgress
  | .error (.failed _) => .raised

/-- What a search is told. It finds a row in progress as it finds any other. -/
def searchedOf : Except IdempotencyError (Option (ℕ × Json)) → Reservations.Reply (ℕ × Json)
  | .ok none => .absent
  | .ok (some answer) => if answer.1 = inProgressStatus then .inProgress else .replayed answer
  | .error .reused => .reused
  | .error .inProgress => .inProgress
  | .error (.failed _) => .raised

def doneOf : Except IdempotencyError Unit → Reservations.Reply (ℕ × Json)
  | .ok () => .done
  | .error _ => .raised

/-- What a reservation with a digest is told of a row that is there. -/
theorem reservedOf_row : reservedOf
    (if row.requestHash ≠ requestHash then .error .reused
      else if row.statusCode = inProgressStatus then .error .inProgress
      else .ok (some (answerOf o row))) = (entryOf o row).reply requestHash := by
  by_cases hhash : row.requestHash = requestHash
  · by_cases hstatus : row.statusCode = inProgressStatus <;>
      simp [hhash, hstatus, Entry.reply, entryOf, reservedOf]
  · simp [hhash, Entry.reply, entryOf, reservedOf]

theorem reserve_act : act (view o table) (.reserve k requestHash) =
    (reservedOf (table.reserve o k requestHash).1,
      view o (table.reserve o k requestHash).2) := by
  cases hfind : table.find k with
  | none =>
    have hinsert : table.insert ⟨k, requestHash, inProgressStatus, inProgressResponse⟩ ≠ none := by
      rw [Ne, insert_eq_none, hfind]
      exact Bool.false_ne_true
    obtain ⟨table', htable'⟩ := Option.ne_none_iff_exists'.mp hinsert
    have hrow : table'.find k = some ⟨k, requestHash, inProgressStatus, inProgressResponse⟩ := by
      rw [(find_insert htable').2, Function.update_self]
    have hview : view o table k = none := by rw [view, hfind, Option.map_none]
    have hreserve : table.reserve o k requestHash = (.ok none, table') := by
      simp only [reserve, htable', Option.getD_some, hrow, ne_eq, not_true_eq_false, if_false,
        Option.isSome_some, if_true]
    simp only [act, hview, hreserve, view_insert htable']
    rfl
  | some row =>
    have hinsert : table.insert ⟨k, requestHash, inProgressStatus, inProgressResponse⟩ = none := by
      rw [insert_eq_none, hfind, Option.isSome_some]
    have hview : view o table k = some (entryOf o row) := by rw [view, hfind, Option.map_some]
    have hreserve : table.reserve o k requestHash =
        (if row.requestHash ≠ requestHash then .error .reused
          else if row.statusCode = inProgressStatus then .error .inProgress
          else .ok (some (answerOf o row)), table) := by
      simp only [reserve, hinsert, Option.getD_none, hfind, Option.isSome_none, Bool.false_eq_true,
        if_false]
      split_ifs <;> rfl
    simp only [act, hview, hreserve, reservedOf_row]

theorem get_act : act (view o table) (.look k requestHash) =
    (searchedOf (table.get o k requestHash), view o table) := by
  cases hfind : table.find k with
  | none =>
    have hview : view o table k = none := by rw [view, hfind, Option.map_none]
    simp only [act, hview, get, hfind, searchedOf]
  | some row =>
    have hview : view o table k = some (entryOf o row) := by rw [view, hfind, Option.map_some]
    have hreply : searchedOf (table.get o k requestHash) =
        (entryOf o row).reply requestHash := by
      simp only [get, hfind]
      by_cases hhash : row.requestHash = requestHash
      · by_cases hstatus : row.statusCode = inProgressStatus <;>
          simp [hhash, hstatus, Entry.reply, entryOf, searchedOf, answerOf]
      · simp [hhash, Entry.reply, entryOf, searchedOf]
    simp only [act, hview, hreply]

/-- A key is reserved for a digest in the table as it is in the store. -/
theorem any_reserves : ((view o table k).any fun e => e.Reserves requestHash) =
    (table.find k).any (IdempotencyRow.reserved k requestHash) := by
  cases hfind : table.find k with
  | none => simp [view, hfind]
  | some row =>
    have hid : row.id = k := key_of_lookup hfind
    rw [view, hfind, Option.map_some, Option.any_some, Option.any_some, Bool.eq_iff_iff,
      decide_eq_true_eq, entryOf_reserves, reserved_iff, hid]
    simp

theorem complete_act {statusCode : ℕ} (hstatus : statusCode ≠ inProgressStatus) (response : Json) :
    act (view o table) (.complete k requestHash (statusCode, response.reread o Json.float)) =
      (doneOf (table.complete k requestHash statusCode response).1,
        view o (table.complete k requestHash statusCode response).2) := by
  have hcount := table.keyed.countP_eq (p := IdempotencyRow.reserved k requestHash)
    fun r hr => (reserved_iff.mp hr).1
  rw [act, any_reserves, complete, hcount, find]
  by_cases hany : (lookup IdempotencyRow.id k table.rows).any
      (IdempotencyRow.reserved k requestHash) = true
  · rw [if_pos hany, if_pos (if_pos hany)]
    refine congrArg (Prod.mk Reservations.Reply.done) (funext fun k' => ?_)
    change _ = Option.map (entryOf o) (lookup IdempotencyRow.id k' (updateWhere _ _ table.rows))
    rw [lookup_updateWhere fun row _ => row.answered_id statusCode response]
    by_cases hk : k' = k
    · subst hk
      rw [Function.update_self]
      cases hrow : lookup IdempotencyRow.id k' table.rows with
      | none => simp [hrow] at hany
      | some row =>
        rw [hrow, Option.any_some] at hany
        obtain ⟨-, hhash, -⟩ := reserved_iff.mp hany
        rw [Option.map_some, Option.map_some, if_pos hany]
        simp [entryOf, IdempotencyRow.answered, answerOf, hhash, hstatus]
    · rw [Function.update_of_ne hk]
      change Option.map (entryOf o) (lookup IdempotencyRow.id k' table.rows) = _
      cases hrow : lookup IdempotencyRow.id k' table.rows with
      | none => rfl
      | some row =>
        have hother : row.reserved k requestHash = false := by
          rw [← Bool.not_eq_true]
          exact fun h => hk ((key_of_lookup hrow).symm.trans (reserved_iff.mp h).1)
        rw [Option.map_some, Option.map_some, Option.map_some, hother]
        rfl
  · rw [if_neg hany, if_neg hany, if_neg (by decide)]
    rfl

theorem release_act : act (view o table) (.release k requestHash) =
    (doneOf (table.release k requestHash).1, view o (table.release k requestHash).2) := by
  rw [act, any_reserves, find]
  have hdelete : ∀ k', (table.release k requestHash).2.find k' =
      if k' = k ∧ (lookup IdempotencyRow.id k table.rows).any
        (IdempotencyRow.reserved k requestHash) then none else table.find k' := fun _ =>
    table.keyed.lookup_deleteWhere_eq fun r hr => (reserved_iff.mp hr).1
  by_cases hany : (lookup IdempotencyRow.id k table.rows).any
      (IdempotencyRow.reserved k requestHash) = true
  · rw [if_pos hany]
    refine congrArg (Prod.mk Reservations.Reply.done) (funext fun k' => ?_)
    change _ = Option.map (entryOf o) ((table.release k requestHash).2.find k')
    rw [hdelete]
    by_cases hk : k' = k
    · subst hk
      rw [Function.update_self, if_pos ⟨rfl, hany⟩, Option.map_none]
    · rw [Function.update_of_ne hk, if_neg fun hand => hk hand.1]
      rfl
  · rw [if_neg hany]
    refine congrArg (Prod.mk Reservations.Reply.done) (funext fun k' => ?_)
    change Option.map (entryOf o) (table.find k') =
      Option.map (entryOf o) ((table.release k requestHash).2.find k')
    rw [hdelete, if_neg fun hand => hany hand.2]

theorem store_act {statusCode : ℕ} (hstatus : statusCode ≠ inProgressStatus) (response : Json) :
    act (view o table) (.store k requestHash (statusCode, response.reread o Json.float)) =
      (doneOf (table.store k requestHash statusCode response).1,
        view o (table.store k requestHash statusCode response).2) := by
  cases hinsert : table.insert ⟨k, requestHash, statusCode, response⟩ with
  | none =>
    obtain ⟨row, hrow⟩ := Option.isSome_iff_exists.mp (insert_eq_none.mp hinsert)
    have hview : view o table k = some (entryOf o row) := by
      rw [view, show table.find k = some row from hrow, Option.map_some]
    simp only [act, hview, store, hinsert, doneOf]
  | some table' =>
    have hview : view o table k = none := by
      rw [view, show table.find k = none from (find_insert hinsert).1, Option.map_none]
    simp only [act, hview, store, hinsert, doneOf, view_insert hinsert]
    simp [entryOf, answerOf, hstatus]

end View

end IdempotencyTable

end DecisionAssurance.Research
