import DecisionAssurance.WrittenJson

/-!
# Reading records out of JSON

Readers for the shapes of a schema: texts, flags, names out of a list, arrays, nullable values and
objects that have no other fields than the ones read.
-/

namespace DecisionAssurance.Json

variable {α : Type} {fields fields' : List (String × Json)} {key : String}

/-! ## Readers -/

def asBool : Json → Option Bool
  | .bool b => some b
  | _ => none

/-- A value of an enumeration by its name. -/
def oneOf (name : α → String) (values : List α) : Json → Option α
  | .str s => values.find? fun a => name a = s
  | _ => none

def listOf (read : Json → Option α) : Json → Option (List α)
  | .arr items => items.mapM read
  | _ => none

def nullable (read : Json → Option α) : Json → Option (Option α)
  | .null => some none
  | j => (read j).map some

def asObject : Json → Option (List (String × Json))
  | .obj fields => some fields
  | _ => none

/-- The field of an object, absent without one. -/
def field? (fields : List (String × Json)) (key : String) : Option Json :=
  (fields.find? fun f => f.1 = key).map Prod.snd

def required (fields : List (String × Json)) (key : String) (read : Json → Option α) : Option α :=
  (field? fields key).bind read

def optional (fields : List (String × Json)) (key : String) (read : Json → Option α) :
    Option (Option α) :=
  match field? fields key with
  | none => some none
  | some j => (read j).map some

/-- An object with no fields besides the ones of these names, `additionalProperties: false`. -/
def closed (keys : List String) (read : List (String × Json) → Option α) : Json → Option α
  | .obj fields => if ∀ f ∈ fields, f.1 ∈ keys then read fields else none
  | _ => none

/-- A nullable value as the contract writes it. -/
def orNull (write : α → Json) : Option α → Json
  | none => .null
  | some a => write a

/-! ## Objects -/

theorem mem_of_field? {j : Json} (h : field? fields key = some j) : (key, j) ∈ fields := by
  obtain ⟨f, hf, rfl⟩ := Option.map_eq_some_iff.mp h
  have hkey := List.find?_some (p := fun f : String × Json => decide (f.1 = key)) hf
  rw [← of_decide_eq_true hkey]
  exact List.mem_of_find?_eq_some hf

end DecisionAssurance.Json
