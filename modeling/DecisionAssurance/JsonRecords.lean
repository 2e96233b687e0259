import DecisionAssurance.JsonReaders

/-!
# Records written to JSON and read back

Readers that take an object by its keys, and when they restore what was written: whatever the order
a store keeps the fields of objects in.
-/

namespace DecisionAssurance.Json

variable {α : Type}

/-- `item.get(key, default)` -/
def getOr (fields : List (String × Json)) (key : String) (read : Json → Option α) (default : α) :
    Option α :=
  match field? fields key with
  | none => some default
  | some j => read j

def asInt : Json → Option Int
  | .int n => some n
  | _ => none

def asFloat : Json → Option String
  | .float text => some text
  | _ => none

/-- One step of a reader that has found its value. -/
theorem some_bind {α β : Type} (a : α) (f : α → Option β) : (some a >>= f) = f a := rfl

/-! ## Fields in another order -/

@[simp] theorem field?_nil (key : String) : field? [] key = none := rfl

@[simp] theorem field?_cons (k : String) (j : Json) (fields : List (String × Json))
    (key : String) :
    field? ((k, j) :: fields) key = if k = key then some j else field? fields key := by
  by_cases h : k = key
  · simp [field?, h]
  · simp [field?, h]

theorem field?_eq_some {fields : List (String × Json)} (hkeys : (fields.map Prod.fst).Nodup)
    {key : String} {j : Json} : field? fields key = some j ↔ (key, j) ∈ fields := by
  refine ⟨mem_of_field?, fun hmem => ?_⟩
  cases hfield : field? fields key with
  | none =>
    simp only [field?, Option.map_eq_none_iff, List.find?_eq_none, decide_eq_true_eq] at hfield
    exact absurd rfl (hfield (key, j) hmem)
  | some j' =>
    have hsame := List.inj_on_of_nodup_map hkeys (mem_of_field? hfield) hmem rfl
    rw [(Prod.mk.inj hsame).2]

theorem field?_perm {fields fields' : List (String × Json)} (hperm : fields.Perm fields')
    (hkeys : (fields.map Prod.fst).Nodup) (key : String) :
    field? fields key = field? fields' key := by
  have hkeys' : (fields'.map Prod.fst).Nodup := (hperm.map Prod.fst).nodup_iff.mp hkeys
  apply Option.ext
  intro j
  rw [field?_eq_some hkeys, field?_eq_some hkeys', hperm.mem_iff]

theorem field?_rereadFields (o : KeyOrder) (number : String → Json)
    (fields : List (String × Json)) (key : String) :
    field? (rereadFields o number fields) key = (field? fields key).map (reread o number) := by
  induction fields with
  | nil => rfl
  | cons f fields ih =>
    obtain ⟨k, j⟩ := f
    rw [rereadFields, field?_cons, field?_cons, ih]
    by_cases h : k = key
    · rw [if_pos h, if_pos h, Option.map_some]
    · rw [if_neg h, if_neg h]

/-- The field of an object whose fields were arranged. -/
theorem field?_arrange (o : KeyOrder) (number : String → Json) {fields : List (String × Json)}
    (hkeys : (fields.map Prod.fst).Nodup) (key : String) :
    field? (o.arrange (rereadFields o number fields)) key =
      (field? fields key).map (reread o number) := by
  rw [← field?_perm (o.perm _).symm, field?_rereadFields]
  rwa [map_fst_rereadFields]

/-! ## Restoring -/

section Leaves

variable (o : KeyOrder) (number : String → Json)

@[simp] theorem reread_null : Json.null.reread o number = .null := rfl

@[simp] theorem reread_bool (b : Bool) : (Json.bool b).reread o number = .bool b := rfl

@[simp] theorem reread_int (n : Int) : (Json.int n).reread o number = .int n := rfl

@[simp] theorem reread_float (text : String) :
    (Json.float text).reread o number = number text := rfl

@[simp] theorem reread_str (s : String) : (Json.str s).reread o number = .str s := rfl

@[simp] theorem ofOption_none : ofOption none = .null := rfl

@[simp] theorem ofOption_some (s : String) : ofOption (some s) = .str s := rfl

@[simp] theorem asString_str (s : String) : asString (.str s) = some s := rfl

@[simp] theorem nullable_str (s : String) : nullable asString (.str s) = some (some s) := rfl

@[simp] theorem asBool_bool (b : Bool) : asBool (.bool b) = some b := rfl

@[simp] theorem asInt_int (n : Int) : asInt (.int n) = some n := rfl

@[simp] theorem asFloat_float (text : String) : asFloat (.float text) = some text := rfl

end Leaves

/-- What is written is read back, in whatever order its fields are kept. -/
def Restores (read : Json → Option α) (write : α → Json) : Prop :=
  ∀ (o : KeyOrder) (a : α), read ((write a).reread o Json.float) = some a

theorem restores_asString : Restores asString Json.str := fun _ _ => rfl

theorem rereadItems_map (o : KeyOrder) (number : String → Json) (f : α → Json) (as : List α) :
    rereadItems o number (as.map f) = as.map fun a => (f a).reread o number := by
  induction as with
  | nil => rfl
  | cons a as ih => simp only [List.map_cons, rereadItems, ih]

theorem Restores.list {read : Json → Option α} {write : α → Json} (h : Restores read write) :
    Restores (listOf read) fun as => .arr (as.map write) := by
  intro o as
  rw [reread, rereadItems_map]
  induction as with
  | nil => rfl
  | cons a as ih =>
    simp only [listOf, List.map_cons, List.mapM_cons] at ih ⊢
    rw [h o a, ih]
    rfl

theorem restores_strings : Restores (listOf asString) strings := restores_asString.list

theorem Restores.nullable {read : Json → Option α} {write : α → Json} (h : Restores read write)
    (hnull : ∀ (o : KeyOrder) a, (write a).reread o Json.float ≠ .null) :
    Restores (nullable read) (orNull write) := by
  intro o a
  cases a with
  | none => rfl
  | some a =>
    have hread : Json.nullable read ((write a).reread o Json.float) =
        (read ((write a).reread o Json.float)).map some := by
      cases hj : (write a).reread o Json.float with
      | null => exact absurd hj (hnull o a)
      | _ => rfl
    rw [orNull, hread, h o a]
    rfl

theorem restores_ofOption : Restores (nullable asString) ofOption := by
  intro o s
  cases s with
  | none => rfl
  | some s => rfl

/-- The fields of an object are found in whatever order they are kept. -/
theorem object_reread (o : KeyOrder) {j : Json} {fields : List (String × Json)}
    (hobject : j = .obj fields) (hkeys : (fields.map Prod.fst).Nodup) : ∃ arranged,
    j.reread o Json.float = .obj arranged ∧ arranged.length = fields.length ∧
      ∀ key, field? arranged key = (field? fields key).map (reread o Json.float) := by
  subst hobject
  refine ⟨_, rfl, ?_, fun key => field?_arrange o Json.float hkeys key⟩
  rw [(o.perm _).length_eq, ← List.length_map Prod.fst, map_fst_rereadFields, List.length_map]

/-- An object read as keyword arguments. -/
theorem closed_reread {names : List String} {read : List (String × Json) → Option α}
    (o : KeyOrder) {fields : List (String × Json)} (hkeys : (fields.map Prod.fst).Nodup)
    (hnames : ∀ f ∈ fields, f.1 ∈ names) {a : α}
    (hread : ∀ arranged, (∀ key, field? arranged key =
      (field? fields key).map (reread o Json.float)) → read arranged = some a) :
    closed names read ((Json.obj fields).reread o Json.float) = some a := by
  rw [reread, closed, if_pos]
  · exact hread _ fun key => field?_arrange o Json.float hkeys key
  · intro f hf
    have hmem : f.1 ∈ (rereadFields o Json.float fields).map Prod.fst :=
      List.mem_map_of_mem ((o.perm _).subset hf)
    rw [map_fst_rereadFields] at hmem
    obtain ⟨g, hg, hname⟩ := List.mem_map.mp hmem
    exact hname ▸ hnames g hg

/-- The order in which `json.loads` returns what `json.dumps` wrote. -/
def keptOrder : KeyOrder := ⟨id, fun _ => List.Perm.refl _⟩

mutual

theorem reread_keptOrder : ∀ j : Json, j.reread keptOrder Json.float = j
  | .null | .bool _ | .int _ | .float _ | .str _ => rfl
  | .arr items => congrArg Json.arr (rereadItems_keptOrder items)
  | .obj fields => congrArg Json.obj (rereadFields_keptOrder fields)

theorem rereadItems_keptOrder : ∀ items : List Json,
    rereadItems keptOrder Json.float items = items
  | [] => rfl
  | j :: items => by rw [rereadItems, reread_keptOrder j, rereadItems_keptOrder items]

theorem rereadFields_keptOrder : ∀ fields : List (String × Json),
    rereadFields keptOrder Json.float fields = fields
  | [] => rfl
  | (k, j) :: fields => by rw [rereadFields, reread_keptOrder j, rereadFields_keptOrder fields]

end

/-- What is restored in any order is restored as it was written. -/
theorem Restores.read {read : Json → Option α} {write : α → Json} (h : Restores read write)
    (a : α) : read (write a) = some a := by
  rw [← h keptOrder a, reread_keptOrder]

end DecisionAssurance.Json
