import Mathlib.Algebra.BigOperators.Group.List.Basic
import Mathlib.Algebra.GroupWithZero.Nat
import DecisionAssurance.Json

/-!
# JSON values read back from a store

A store keeps strings, integers and the order of arrays; it may reorder the fields of objects
and may write floating point numbers another way. Canonical texts sort the fields, so they
can only differ by the numbers. Where every changed number loses a sign or an exponent mark,
the canonical texts agree if and only if no number changed: lost marks cannot be made up
elsewhere.
-/

namespace DecisionAssurance

/-- An order in which a store returns the fields of objects. -/
structure KeyOrder where
  arrange : List (String × Json) → List (String × Json)
  perm : ∀ fields, (arrange fields).Perm fields

theorem perm_sortByName (fields : List (String × Json)) :
    (fields.insertionSort fun f g => f.1 ≤ g.1).Perm fields := List.perm_insertionSort _ fields

namespace Json

section Reread

variable (o : KeyOrder) (number : String → Json)

mutual

/-- A value after a store has arranged its objects and read its numbers. -/
def reread : Json → Json
  | .null => .null
  | .bool b => .bool b
  | .int n => .int n
  | .float text => number text
  | .str s => .str s
  | .arr items => .arr (rereadItems items)
  | .obj fields => .obj (o.arrange (rereadFields fields))

def rereadItems : List Json → List Json
  | [] => []
  | x :: xs => reread x :: rereadItems xs

def rereadFields : List (String × Json) → List (String × Json)
  | [] => []
  | (k, x) :: xs => (k, reread x) :: rereadFields xs

end

end Reread

section Floats

variable (P : String → Prop)

mutual

/-- Every floating point number of a value. -/
def Floats : Json → Prop
  | .null | .bool _ | .int _ | .str _ => True
  | .float text => P text
  | .arr items => FloatsItems items
  | .obj fields => FloatsFields fields

def FloatsItems : List Json → Prop
  | [] => True
  | x :: xs => Floats x ∧ FloatsItems xs

def FloatsFields : List (String × Json) → Prop
  | [] => True
  | (_, x) :: xs => Floats x ∧ FloatsFields xs

end

end Floats

mutual

/-- No object of a value has two fields of one name. -/
def DistinctKeys : Json → Prop
  | .null | .bool _ | .int _ | .float _ | .str _ => True
  | .arr items => DistinctKeysItems items
  | .obj fields => (fields.map Prod.fst).Nodup ∧ DistinctKeysFields fields

def DistinctKeysItems : List Json → Prop
  | [] => True
  | x :: xs => DistinctKeys x ∧ DistinctKeysItems xs

def DistinctKeysFields : List (String × Json) → Prop
  | [] => True
  | (_, x) :: xs => DistinctKeys x ∧ DistinctKeysFields xs

end

/-! ## Sorted fields -/

theorem dumpsFields_eq_map (esc : Char → List Char) (fields : List (String × Json)) :
    dumpsFields esc fields = fields.map fun f => (f.1, dumpsWith esc f.2) := by
  induction fields with
  | nil => rfl
  | cons f fields ih =>
    obtain ⟨k, x⟩ := f
    simp only [dumpsFields, ih, List.map_cons]

theorem dumpsItems_cons (x : Json) (xs : List Json) :
    dumpsItems escape (x :: xs) = x.dumps :: dumpsItems escape xs := rfl

theorem dumpsFields_cons (k : String) (x : Json) (xs : List (String × Json)) :
    dumpsFields escape ((k, x) :: xs) = (k, x.dumps) :: dumpsFields escape xs := rfl

theorem map_fst_dumpsFields (esc : Char → List Char) (fields : List (String × Json)) :
    (dumpsFields esc fields).map Prod.fst = fields.map Prod.fst := by
  rw [dumpsFields_eq_map, List.map_map]
  rfl

theorem map_fst_rereadFields (o : KeyOrder) (number : String → Json)
    (fields : List (String × Json)) :
    (rereadFields o number fields).map Prod.fst = fields.map Prod.fst := by
  induction fields with
  | nil => rfl
  | cons f fields ih =>
    obtain ⟨k, x⟩ := f
    simp only [rereadFields, List.map_cons, ih]

theorem pairwise_sorted (fields : List (String × List Char)) :
    (fields.insertionSort keyLe).Pairwise keyLe := by
  have htotal : Std.Total keyLe := ⟨fun a b => le_total a.1 b.1⟩
  have htrans : IsTrans _ keyLe := ⟨fun a b c h h' => le_trans (α := String) h h'⟩
  exact List.pairwise_insertionSort keyLe fields

/-- With distinct names, sorted fields do not depend on the order they came in. -/
theorem insertionSort_eq_of_perm {fields fields' : List (String × List Char)}
    (hperm : fields.Perm fields') (hnodup : (fields'.map Prod.fst).Nodup) :
    fields.insertionSort keyLe = fields'.insertionSort keyLe := by
  have hsorted : (fields.insertionSort keyLe).Perm (fields'.insertionSort keyLe) :=
    (List.perm_insertionSort keyLe fields).trans
      (hperm.trans (List.perm_insertionSort keyLe fields').symm)
  refine hsorted.eq_of_pairwise ?_ (pairwise_sorted fields) (pairwise_sorted fields')
  intro a b ha hb hab hba
  have ha' : a ∈ fields' := hperm.mem_iff.mp ((List.perm_insertionSort keyLe fields).mem_iff.mp ha)
  have hb' : b ∈ fields' := (List.perm_insertionSort keyLe fields').mem_iff.mp hb
  exact List.inj_on_of_nodup_map hnodup ha' hb' (le_antisymm hab hba)

/-! ## Marks -/

/-- The signs and exponent marks in a text. -/
def marks (cs : List Char) : ℕ := cs.count '+' + cs.count '-'

@[simp] theorem marks_append (cs cs' : List Char) : marks (cs ++ cs') = marks cs + marks cs' := by
  simp only [marks, List.count_append]
  omega

theorem marks_cons_of_ne {c : Char} (hplus : c ≠ '+') (hminus : c ≠ '-') (cs : List Char) :
    marks (c :: cs) = marks cs := by
  simp only [marks, List.count_cons_of_ne hplus, List.count_cons_of_ne hminus]

theorem marks_intercalate (texts : List (List Char)) :
    marks ([','].intercalate texts) = (texts.map marks).sum := by
  induction texts with
  | nil => rfl
  | cons text texts ih =>
    cases texts with
    | nil => simp [List.intercalate]
    | cons text' texts =>
      have hcons : [','].intercalate (text :: text' :: texts) =
          text ++ ',' :: [','].intercalate (text' :: texts) := by
        simp [List.intercalate, List.intersperse]
      rw [hcons, marks_append, marks_cons_of_ne (by decide) (by decide), ih]
      simp only [List.map_cons, List.sum_cons]

theorem marks_dumps_arr (items : List Json) :
    marks (dumps (.arr items)) = ((dumpsItems escape items).map marks).sum := by
  simp only [dumps, dumpsWith]
  rw [List.cons_append, marks_cons_of_ne (by decide) (by decide), marks_append,
    marks_intercalate, marks_cons_of_ne (by decide) (by decide)]
  rfl

/-- The marks of the names and values of fields. -/
def fieldMarks (fields : List (String × List Char)) : ℕ :=
  (fields.map fun f => marks (field escape f)).sum

theorem fieldMarks_eq_of_perm {fields fields' : List (String × List Char)}
    (h : fields.Perm fields') : fieldMarks fields = fieldMarks fields' :=
  (h.map _).sum_eq

theorem marks_dumps_obj (fields : List (String × Json)) :
    marks (dumps (.obj fields)) = fieldMarks (dumpsFields escape fields) := by
  simp only [dumps, dumpsWith]
  rw [List.cons_append, marks_cons_of_ne (by decide) (by decide), marks_append,
    marks_intercalate, marks_cons_of_ne (by decide) (by decide), List.map_map]
  exact fieldMarks_eq_of_perm (List.perm_insertionSort keyLe _)

theorem marks_field (k : String) (cs : List Char) :
    marks (field escape (k, cs)) = marks (quote escape k) + marks cs := by
  simp only [field, marks_append]
  rw [marks_cons_of_ne (by decide) (by decide)]

theorem fieldMarks_cons (k : String) (cs : List Char) (fields : List (String × List Char)) :
    fieldMarks ((k, cs) :: fields) = marks (quote escape k) + marks cs + fieldMarks fields := by
  simp only [fieldMarks, List.map_cons, List.sum_cons, marks_field]

/-! ## Texts after reading back -/

section Reading

variable {o : KeyOrder} {number : String → Json} {P : String → Prop}

theorem perm_dumpsFields_arrange (fields : List (String × Json)) :
    (dumpsFields escape (o.arrange fields)).Perm (dumpsFields escape fields) := by
  simp only [dumpsFields_eq_map]
  exact (o.perm fields).map _

mutual

theorem dumps_reread_of_floats (hnumber : ∀ text, P text → (number text).dumps = text.toList) :
    ∀ v : Json, v.DistinctKeys → v.Floats P → (v.reread o number).dumps = v.dumps
  | .null, _, _ | .bool _, _, _ | .int _, _, _ | .str _, _, _ => rfl
  | .float text, _, hv => hnumber text hv
  | .arr items, hkeys, hv => by
    simp only [reread, dumps, dumpsWith, dumpsItems_rereadItems hnumber items hkeys hv]
  | .obj fields, hkeys, hv => by
    have hfields := dumpsFields_rereadFields hnumber fields hkeys.2 hv
    have hperm := perm_dumpsFields_arrange (o := o) (rereadFields o number fields)
    rw [hfields] at hperm
    have hsort := insertionSort_eq_of_perm hperm (by rw [map_fst_dumpsFields]; exact hkeys.1)
    simp only [reread, dumps, dumpsWith, hsort]

theorem dumpsItems_rereadItems (hnumber : ∀ text, P text → (number text).dumps = text.toList) :
    ∀ items : List Json, DistinctKeysItems items → FloatsItems P items →
      dumpsItems escape (rereadItems o number items) = dumpsItems escape items
  | [], _, _ => rfl
  | x :: xs, hkeys, hv => by
    have hx := dumps_reread_of_floats hnumber x hkeys.1 hv.1
    have hxs := dumpsItems_rereadItems hnumber xs hkeys.2 hv.2
    simp only [rereadItems, dumpsItems_cons, hxs, hx]

theorem dumpsFields_rereadFields (hnumber : ∀ text, P text → (number text).dumps = text.toList) :
    ∀ fields : List (String × Json), DistinctKeysFields fields → FloatsFields P fields →
      dumpsFields escape (rereadFields o number fields) = dumpsFields escape fields
  | [], _, _ => rfl
  | (k, x) :: xs, hkeys, hv => by
    have hx := dumps_reread_of_floats hnumber x hkeys.1 hv.1
    have hxs := dumpsFields_rereadFields hnumber xs hkeys.2 hv.2
    simp only [rereadFields, dumpsFields_cons, hxs, hx]

end

/-- Reading back never adds marks, and where it loses none each number stays. -/
def LosesMarks (P Q : String → Prop) (number : String → Json) : Prop :=
  ∀ text, P text → (marks (number text).dumps ≤ marks text.toList ∧
    (marks (number text).dumps = marks text.toList → Q text))

variable {Q : String → Prop}

mutual

theorem marks_reread (h : LosesMarks P Q number) : ∀ v : Json, v.Floats P →
    marks (v.reread o number).dumps ≤ marks v.dumps ∧
      (marks (v.reread o number).dumps = marks v.dumps → v.Floats Q)
  | .null, _ | .bool _, _ | .int _, _ | .str _, _ => ⟨le_rfl, fun _ => trivial⟩
  | .float text, hv => h text hv
  | .arr items, hv => by
    simp only [reread, marks_dumps_arr, Floats]
    exact marks_rereadItems h items hv
  | .obj fields, hv => by
    simp only [reread, marks_dumps_obj, Floats,
      fieldMarks_eq_of_perm (perm_dumpsFields_arrange (o := o) (rereadFields o number fields))]
    exact marks_rereadFields h fields hv

theorem marks_rereadItems (h : LosesMarks P Q number) : ∀ items : List Json, FloatsItems P items →
    ((dumpsItems escape (rereadItems o number items)).map marks).sum ≤
        ((dumpsItems escape items).map marks).sum ∧
      (((dumpsItems escape (rereadItems o number items)).map marks).sum =
        ((dumpsItems escape items).map marks).sum → FloatsItems Q items)
  | [], _ => ⟨le_rfl, fun _ => trivial⟩
  | x :: xs, hv => by
    obtain ⟨hle, hkept⟩ := marks_reread h x hv.1
    obtain ⟨hle', hkept'⟩ := marks_rereadItems h xs hv.2
    simp only [rereadItems, dumpsItems_cons, List.map_cons, List.sum_cons, FloatsItems]
    refine ⟨by omega, fun heq => ⟨hkept (by omega), hkept' (by omega)⟩⟩

theorem marks_rereadFields (h : LosesMarks P Q number) :
    ∀ fields : List (String × Json), FloatsFields P fields →
      fieldMarks (dumpsFields escape (rereadFields o number fields)) ≤
          fieldMarks (dumpsFields escape fields) ∧
        (fieldMarks (dumpsFields escape (rereadFields o number fields)) =
          fieldMarks (dumpsFields escape fields) → FloatsFields Q fields)
  | [], _ => ⟨le_rfl, fun _ => trivial⟩
  | (k, x) :: xs, hv => by
    obtain ⟨hle, hkept⟩ := marks_reread h x hv.1
    obtain ⟨hle', hkept'⟩ := marks_rereadFields h xs hv.2
    simp only [rereadFields, dumpsFields_cons, fieldMarks_cons, FloatsFields]
    refine ⟨by omega, fun heq => ⟨hkept (by omega), hkept' (by omega)⟩⟩

end

mutual

theorem Floats.and : ∀ {v : Json}, v.Floats P → v.Floats Q → v.Floats fun t => P t ∧ Q t
  | .null, _, _ | .bool _, _, _ | .int _, _, _ | .str _, _, _ => trivial
  | .float _, h, h' => ⟨h, h'⟩
  | .arr _, h, h' => FloatsItems.and h h'
  | .obj _, h, h' => FloatsFields.and h h'

theorem FloatsItems.and : ∀ {items : List Json}, FloatsItems P items → FloatsItems Q items →
    FloatsItems (fun t => P t ∧ Q t) items
  | [], _, _ => trivial
  | _ :: _, h, h' => ⟨h.1.and h'.1, FloatsItems.and h.2 h'.2⟩

theorem FloatsFields.and : ∀ {fields : List (String × Json)}, FloatsFields P fields →
    FloatsFields Q fields → FloatsFields (fun t => P t ∧ Q t) fields
  | [], _, _ => trivial
  | (_, _) :: _, h, h' => ⟨h.1.and h'.1, FloatsFields.and h.2 h'.2⟩

end

/-- The canonical text is the one written if and only if every number is. -/
theorem dumps_reread_iff (h : LosesMarks P Q number)
    (hnumber : ∀ text, P text ∧ Q text → (number text).dumps = text.toList) {v : Json}
    (hkeys : v.DistinctKeys) (hv : v.Floats P) :
    (v.reread o number).dumps = v.dumps ↔ v.Floats Q :=
  ⟨fun heq => (marks_reread h v hv).2 (congrArg marks heq),
    fun hq => dumps_reread_of_floats hnumber v hkeys (hv.and hq)⟩

/-! ## Values without floating point numbers -/

/-- A value that every store returns with its canonical text. -/
structure Plain (v : Json) : Prop where
  distinct : v.DistinctKeys
  floats : v.Floats fun _ => False

theorem Plain.dumps_reread {v : Json} (h : v.Plain) : (v.reread o number).dumps = v.dumps :=
  dumps_reread_of_floats (fun _ hfalse => hfalse.elim) v h.distinct h.floats

theorem plain_str (s : String) : (Json.str s).Plain := ⟨trivial, trivial⟩

theorem plain_bool (b : Bool) : (Json.bool b).Plain := ⟨trivial, trivial⟩

theorem plain_arr {items : List Json} (h : ∀ v ∈ items, v.Plain) : (Json.arr items).Plain := by
  induction items with
  | nil => exact ⟨trivial, trivial⟩
  | cons v items ih =>
    have hv := h v List.mem_cons_self
    have hitems := ih fun w hw => h w (List.mem_cons_of_mem _ hw)
    exact ⟨⟨hv.distinct, hitems.distinct⟩, hv.floats, hitems.floats⟩

theorem plain_arr_map {α : Type} {f : α → Json} (h : ∀ a, (f a).Plain) (as : List α) :
    (Json.arr (as.map f)).Plain := by
  refine plain_arr fun v hv => ?_
  obtain ⟨a, -, rfl⟩ := List.mem_map.mp hv
  exact h a

theorem plain_ofOption (s : Option String) : (ofOption s).Plain := by
  cases s with
  | none => exact ⟨trivial, trivial⟩
  | some s => exact plain_str s

theorem plain_obj {fields : List (String × Json)} (hkeys : (fields.map Prod.fst).Nodup)
    (h : ∀ f ∈ fields, f.2.Plain) : (Json.obj fields).Plain := by
  have hfields : DistinctKeysFields fields ∧ FloatsFields (fun _ => False) fields := by
    clear hkeys
    induction fields with
    | nil => exact ⟨trivial, trivial⟩
    | cons f fields ih =>
      have hf := h f List.mem_cons_self
      have hrest := ih fun g hg => h g (List.mem_cons_of_mem _ hg)
      exact ⟨⟨hf.distinct, hrest.1⟩, hf.floats, hrest.2⟩
  exact ⟨⟨hkeys, hfields.1⟩, hfields.2⟩

/-- An object whose fields are read back as the fields of another one. -/
theorem dumps_reread_obj {fields fields' : List (String × Json)}
    (hkeys : (fields'.map Prod.fst).Nodup)
    (h : dumpsFields escape (rereadFields o number fields) = dumpsFields escape fields') :
    ((Json.obj fields).reread o number).dumps = (Json.obj fields').dumps := by
  have hperm := perm_dumpsFields_arrange (o := o) (rereadFields o number fields)
  rw [h] at hperm
  have hsort := insertionSort_eq_of_perm hperm (by rwa [map_fst_dumpsFields])
  simp only [reread, dumps, dumpsWith, hsort]

end Reading

end Json

end DecisionAssurance
