import DecisionAssurance.ApprovalBinding
import DecisionAssurance.CanonicalText

/-!
# Values of one canonical text

Two values are alike when they have the same structure up to the order of keys. The canonical
texts that the hash functions digest agree for values that are alike, and for no others. A
string with a surrogate that stands alone has no UTF-8 form: the hash functions raise on it.
-/

namespace DecisionAssurance.Json

/-! ## Values that are alike -/

mutual

/-- The same structure, up to the order of keys. A float is held by its `repr`. -/
inductive Alike : Json → Json → Prop
  | null : Alike .null .null
  | bool (b : Bool) : Alike (.bool b) (.bool b)
  | int (n : Int) : Alike (.int n) (.int n)
  | float (text : String) : Alike (.float text) (.float text)
  | str (s : String) : Alike (.str s) (.str s)
  | arr {items items' : List Json} (h : AlikeItems items items') :
      Alike (.arr items) (.arr items')
  | obj {fields fields' fields'' : List (String × Json)} (h : AlikeFields fields fields')
      (hperm : fields'.Perm fields'') : Alike (.obj fields) (.obj fields'')

inductive AlikeItems : List Json → List Json → Prop
  | nil : AlikeItems [] []
  | cons {x y : Json} {xs ys : List Json} (h : Alike x y) (hs : AlikeItems xs ys) :
      AlikeItems (x :: xs) (y :: ys)

inductive AlikeFields : List (String × Json) → List (String × Json) → Prop
  | nil : AlikeFields [] []
  | cons (k : String) {x y : Json} {xs ys : List (String × Json)} (h : Alike x y)
      (hs : AlikeFields xs ys) : AlikeFields ((k, x) :: xs) ((k, y) :: ys)

end

/-! ## Texts of values that are alike -/

theorem distinctKeysFields_iff {fields : List (String × Json)} :
    DistinctKeysFields fields ↔ ∀ f ∈ fields, f.2.DistinctKeys := by
  induction fields with
  | nil => simp [DistinctKeysFields]
  | cons f fields ih =>
    obtain ⟨k, x⟩ := f
    simp [DistinctKeysFields, ih]

mutual

theorem dumps_of_alike : ∀ v w : Json, w.DistinctKeys → Alike v w → v.dumps = w.dumps
  | .null, _, _, .null | .bool _, _, _, .bool _ | .int _, _, _, .int _
  | .float _, _, _, .float _ | .str _, _, _, .str _ => rfl
  | .arr items, .arr items', hw, .arr h => by
    have hitems := dumpsItems_of_alike items items' hw h
    simp only [dumps, dumpsWith, hitems]
  | .obj fields, .obj fields'', hw, .obj h hperm => by
    have hkeys : DistinctKeysFields _ := distinctKeysFields_iff.mpr fun f hf =>
      distinctKeysFields_iff.mp hw.2 f (hperm.mem_iff.mp hf)
    have hfields := dumpsFields_of_alike fields _ hkeys h
    have htexts : (dumpsFields escape fields).Perm (dumpsFields escape fields'') := by
      rw [hfields, dumpsFields_eq_map, dumpsFields_eq_map]
      exact hperm.map _
    have hsort := insertionSort_eq_of_perm htexts (by rw [map_fst_dumpsFields]; exact hw.1)
    simp only [dumps, dumpsWith, hsort]

theorem dumpsItems_of_alike : ∀ xs ys : List Json, DistinctKeysItems ys → AlikeItems xs ys →
    dumpsItems escape xs = dumpsItems escape ys
  | [], _, _, .nil => rfl
  | x :: xs, y :: ys, hys, .cons h hs => by
    have hx := dumps_of_alike x y hys.1 h
    have hxs := dumpsItems_of_alike xs ys hys.2 hs
    rw [dumpsItems_cons, dumpsItems_cons, hx, hxs]

theorem dumpsFields_of_alike : ∀ xs ys : List (String × Json), DistinctKeysFields ys →
    AlikeFields xs ys → dumpsFields escape xs = dumpsFields escape ys
  | [], _, _, .nil => rfl
  | (k, x) :: xs, (_, y) :: ys, hys, .cons _ h hs => by
    have hx := dumps_of_alike x y hys.1 h
    have hxs := dumpsFields_of_alike xs ys hys.2 hs
    rw [dumpsFields_cons, dumpsFields_cons, hx, hxs]

end

/-! ## Values of one text -/

theorem rereadFields_eq_map (o : KeyOrder) (number : String → Json)
    (fields : List (String × Json)) :
    rereadFields o number fields = fields.map fun f => (f.1, f.2.reread o number) := by
  induction fields with
  | nil => rfl
  | cons f fields ih =>
    obtain ⟨k, x⟩ := f
    simp only [rereadFields, ih, List.map_cons]

/-- Objects with the same sorted fields have the same fields, in some order. -/
theorem exists_perm_of_arrange {fields fields' : List (String × Json)}
    (h : byName.arrange (rereadFields byName .float fields) =
      byName.arrange (rereadFields byName .float fields')) :
    ∃ fields'', rereadFields byName .float fields = rereadFields byName .float fields'' ∧
      fields''.Perm fields' := by
  have hperm : (rereadFields byName .float fields).Perm (rereadFields byName .float fields') := by
    apply (byName.perm _).symm.trans
    rw [h]
    exact byName.perm _
  simp only [rereadFields_eq_map] at hperm ⊢
  have hcomp : Relation.Comp (fun l l' => l = l'.map fun f : String × Json =>
      (f.1, f.2.reread byName .float)) List.Perm
        (fields.map fun f => (f.1, f.2.reread byName .float)) fields' := by
    rw [List.eq_map_comp_perm]
    exact hperm
  exact hcomp

mutual

theorem alike_of_normal : ∀ v w : Json, v.normal = w.normal → Alike v w
  | .null, w, h => by
    cases w with
    | null => exact .null
    | _ => cases h
  | .bool b, w, h => by
    cases w with
    | bool b' =>
      cases h
      exact .bool b
    | _ => cases h
  | .int n, w, h => by
    cases w with
    | int n' =>
      cases h
      exact .int n
    | _ => cases h
  | .float text, w, h => by
    cases w with
    | float text' =>
      cases h
      exact .float text
    | _ => cases h
  | .str s, w, h => by
    cases w with
    | str s' =>
      cases h
      exact .str s
    | _ => cases h
  | .arr items, w, h => by
    cases w with
    | arr items' => exact .arr (alikeItems_of_reread items items' (Json.arr.inj h))
    | _ => cases h
  | .obj fields, w, h => by
    cases w with
    | obj fields' =>
      obtain ⟨fields'', hsame, hperm⟩ := exists_perm_of_arrange (Json.obj.inj h)
      exact .obj (alikeFields_of_reread fields fields'' hsame) hperm
    | _ => cases h

theorem alikeItems_of_reread : ∀ xs ys : List Json,
    rereadItems byName .float xs = rereadItems byName .float ys → AlikeItems xs ys
  | [], ys, h => by
    cases ys with
    | nil => exact .nil
    | cons y ys => cases h
  | x :: xs, ys, h => by
    cases ys with
    | nil => cases h
    | cons y ys =>
      obtain ⟨hx, hxs⟩ := List.cons.inj h
      exact .cons (alike_of_normal x y hx) (alikeItems_of_reread xs ys hxs)

theorem alikeFields_of_reread : ∀ xs ys : List (String × Json),
    rereadFields byName .float xs = rereadFields byName .float ys → AlikeFields xs ys
  | [], ys, h => by
    cases ys with
    | nil => exact .nil
    | cons y ys =>
      obtain ⟨l, y⟩ := y
      cases h
  | (k, x) :: xs, ys, h => by
    cases ys with
    | nil => cases h
    | cons y ys =>
      obtain ⟨l, y⟩ := y
      obtain ⟨hx, hxs⟩ := List.cons.inj h
      obtain ⟨rfl, hvalue⟩ := Prod.mk.inj hx
      exact .cons k (alike_of_normal x y hvalue) (alikeFields_of_reread xs ys hxs)

end

/-- The canonical texts of two values agree exactly when the values are alike: up to the order of
keys they have one structure, and no integer is written as a float or a Boolean. -/
theorem dumps_eq_iff_alike {v w : Json} (hv : v.Floats FloatText) (hw : w.Floats FloatText)
    (hkeys : w.DistinctKeys) : v.dumps = w.dumps ↔ Alike v w := by
  constructor
  · intro h
    exact alike_of_normal v w (normal_eq_of_dumps hv hw h)
  · exact dumps_of_alike v w hkeys

/-- `{"b": 1, "a": [true, 1.0]}` has the text of `{"a": [true, 1.0], "b": 1}` and is no
`{"b": 1, "a": [1, 1.0]}`. -/
theorem dumps_eq_iff_alike_reordered :
    let v := Json.obj [("b", .int 1), ("a", .arr [.bool true, .float "1.0"])]
    let w := Json.obj [("a", .arr [.bool true, .float "1.0"]), ("b", .int 1)]
    let u := Json.obj [("b", .int 1), ("a", .arr [.int 1, .float "1.0"])]
    Alike v w ∧ ¬ Alike v u := by
  have hone : FloatText "1.0" := Or.inr ⟨⟨false, [1], [0], none⟩, rfl, Or.inl (by decide)⟩
  have hfloats : ∀ j : Json, j.Floats FloatText →
      (Json.arr [j, .float "1.0"]).Floats FloatText := fun j hj => ⟨hj, hone, trivial⟩
  have hkeys : ∀ k l : String, k ≠ l → ∀ x y : Json, x.DistinctKeys → y.DistinctKeys →
      (Json.obj [(k, x), (l, y)]).DistinctKeys := fun k l hkl x y hx hy =>
    ⟨by simpa using hkl, hx, hy, trivial⟩
  constructor
  · refine (dumps_eq_iff_alike ?_ ?_ ?_).mp rfl
    · exact ⟨trivial, hfloats _ trivial, trivial⟩
    · exact ⟨hfloats _ trivial, trivial, trivial⟩
    · exact hkeys _ _ (by decide) _ _ ⟨trivial, trivial, trivial⟩ trivial
  · intro h
    have htext := (dumps_eq_iff_alike ?_ ?_ ?_).mpr h
    · exact absurd htext (by decide)
    · exact ⟨trivial, hfloats _ trivial, trivial⟩
    · exact ⟨trivial, hfloats _ trivial, trivial⟩
    · exact hkeys _ _ (by decide) _ _ trivial ⟨trivial, trivial, trivial⟩

end DecisionAssurance.Json
