import Mathlib.Data.List.Find
import Mathlib.Data.List.Nodup
import Mathlib.Tactic.SplitIfs

/-!
# Keyed tables

A table is the list of its rows in insertion order; a key function picks the primary key of
a row. `updateWhere` and `deleteWhere` are the statements `UPDATE … WHERE` and
`DELETE … WHERE`, `lookup` is the `SELECT` of one row by its primary key.
-/

namespace DecisionAssurance.Tables

instance lawfulKeys : LawfulBEq (String × String) := inferInstance

variable {ρ κ : Type*}

def updateWhere (p : ρ → Bool) (f : ρ → ρ) (rows : List ρ) : List ρ :=
  rows.map fun r => if p r then f r else r

def deleteWhere (p : ρ → Bool) (rows : List ρ) : List ρ :=
  rows.filter fun r => !p r

/-- The primary key constraint. -/
def Keyed (key : ρ → κ) (rows : List ρ) : Prop := (rows.map key).Nodup

theorem mem_deleteWhere {p : ρ → Bool} {rows : List ρ} {r : ρ} :
    r ∈ deleteWhere p rows ↔ r ∈ rows ∧ p r = false := by
  simp only [deleteWhere, List.mem_filter, Bool.not_eq_eq_eq_not, Bool.not_true]

theorem mem_updateWhere {p : ρ → Bool} {f : ρ → ρ} {rows : List ρ} {r : ρ} :
    r ∈ updateWhere p f rows ↔ ∃ r₀ ∈ rows, (if p r₀ then f r₀ else r₀) = r := by
  simp only [updateWhere, List.mem_map]

@[simp] theorem updateWhere_nil (p : ρ → Bool) (f : ρ → ρ) :
    updateWhere p f ([] : List ρ) = [] := rfl

@[simp] theorem updateWhere_cons (p : ρ → Bool) (f : ρ → ρ) (r : ρ) (rows : List ρ) :
    updateWhere p f (r :: rows) = (if p r then f r else r) :: updateWhere p f rows := rfl

theorem map_key_updateWhere {key : ρ → κ} {p : ρ → Bool} {f : ρ → ρ}
    (hf : ∀ r, p r = true → key (f r) = key r) (rows : List ρ) :
    (updateWhere p f rows).map key = rows.map key := by
  simp only [updateWhere, List.map_map]
  refine List.map_congr_left fun r _ => ?_
  by_cases hp : p r
  · simp only [Function.comp_apply, hp, if_true, hf r hp]
  · simp only [Function.comp_apply, hp, if_false, Bool.false_eq_true]

theorem keyed_updateWhere {key : ρ → κ} {p : ρ → Bool} {f : ρ → ρ}
    (hf : ∀ r, p r = true → key (f r) = key r) {rows : List ρ} (h : Keyed key rows) :
    Keyed key (updateWhere p f rows) := by
  rw [Keyed, map_key_updateWhere hf]
  exact h

theorem keyed_deleteWhere {key : ρ → κ} {p : ρ → Bool} {rows : List ρ} (h : Keyed key rows) :
    Keyed key (deleteWhere p rows) :=
  List.Nodup.sublist (List.Sublist.map key List.filter_sublist) h

theorem keyed_append_singleton {key : ρ → κ} {rows : List ρ} {r : ρ} (h : Keyed key rows)
    (hr : ∀ r' ∈ rows, key r' ≠ key r) : Keyed key (rows ++ [r]) := by
  rw [Keyed, List.map_append, List.map_singleton]
  refine List.Nodup.append h (List.nodup_singleton _) ?_
  rw [List.disjoint_singleton]
  intro hmem
  obtain ⟨r', hr', he⟩ := List.mem_map.mp hmem
  exact hr r' hr' he

theorem Keyed.eq_of_mem {key : ρ → κ} {rows : List ρ} (h : Keyed key rows) {r r' : ρ}
    (hr : r ∈ rows) (hr' : r' ∈ rows) (he : key r = key r') : r = r' :=
  List.inj_on_of_nodup_map h hr hr' he

theorem updateWhere_eq_self {p : ρ → Bool} {f : ρ → ρ} {rows : List ρ}
    (h : ∀ r ∈ rows, p r = false) : updateWhere p f rows = rows := by
  induction rows with
  | nil => rfl
  | cons r rows ih =>
    rw [updateWhere_cons, h r List.mem_cons_self, ih fun r' hr' => h r' (List.mem_cons_of_mem r hr')]
    rfl

/-- An update of the row of a key changes a count by that row alone. -/
theorem countP_updateWhere_of_mem [DecidableEq κ] {key : ρ → κ} {rows : List ρ}
    (h : Keyed key rows) {r : ρ} (hr : r ∈ rows) {k : κ} (hk : key r = k) (f : ρ → ρ)
    (q : ρ → Bool) :
    (updateWhere (fun r => key r = k) f rows).countP q + (if q r then 1 else 0) =
      rows.countP q + if q (f r) then 1 else 0 := by
  subst hk
  induction rows with
  | nil => cases hr
  | cons r₀ rows ih =>
    obtain ⟨hfresh, hnodup⟩ := List.nodup_cons.mp h
    rw [updateWhere_cons, List.countP_cons, List.countP_cons]
    rcases List.mem_cons.mp hr with rfl | hr
    · have hrest : updateWhere (fun r' => key r' = key r) f rows = rows := by
        refine updateWhere_eq_self fun r' hr' => decide_eq_false fun he => hfresh ?_
        exact he ▸ List.mem_map_of_mem hr'
      rw [hrest, if_pos (decide_eq_true rfl)]
      omega
    · have hne : key r₀ ≠ key r := fun he => hfresh (he ▸ List.mem_map_of_mem hr)
      have hrest := ih hnodup hr
      rw [if_neg (fun hd => hne (of_decide_eq_true hd))]
      omega

section Lookup

variable [DecidableEq κ] {key : ρ → κ} {k k' : κ} {rows : List ρ} {r : ρ}

def lookup (key : ρ → κ) (k : κ) (rows : List ρ) : Option ρ :=
  rows.find? fun r => key r = k

theorem mem_of_lookup (h : lookup key k rows = some r) : r ∈ rows := List.mem_of_find?_eq_some h

theorem key_of_lookup (h : lookup key k rows = some r) : key r = k := by
  simpa only [decide_eq_true_eq] using List.find?_some h

theorem lookup_eq_none : lookup key k rows = none ↔ ∀ r ∈ rows, key r ≠ k := by
  simp only [lookup, List.find?_eq_none, decide_eq_true_eq, ne_eq]

theorem Keyed.lookup_eq_some (h : Keyed key rows) :
    lookup key k rows = some r ↔ r ∈ rows ∧ key r = k := by
  refine ⟨fun hl => ⟨mem_of_lookup hl, key_of_lookup hl⟩, fun ⟨hr, hk⟩ => ?_⟩
  cases hl : lookup key k rows with
  | none => exact absurd hk (lookup_eq_none.mp hl r hr)
  | some r' =>
    rw [h.eq_of_mem (mem_of_lookup hl) hr ((key_of_lookup hl).trans hk.symm)]

/-- A row that is not deleted is found as before. -/
theorem lookup_deleteWhere {p : ρ → Bool} (h : ∀ r ∈ rows, key r = k → p r = false) :
    lookup key k (deleteWhere p rows) = lookup key k rows := by
  unfold lookup deleteWhere
  rw [List.find?_filter]
  apply List.find?_congr
  intro r hr
  by_cases hk : key r = k
  · simp [hk, h r hr hk]
  · simp [hk]

/-- An update that keeps keys acts on the row of each key by itself. -/
theorem lookup_updateWhere {p : ρ → Bool} {f : ρ → ρ}
    (hf : ∀ r, p r = true → key (f r) = key r) :
    lookup key k (updateWhere p f rows) =
      (lookup key k rows).map fun r => if p r then f r else r := by
  induction rows with
  | nil => rfl
  | cons r rows ih =>
    have hkey : key (if p r then f r else r) = key r := by
      by_cases hp : p r
      · rw [if_pos hp, hf r hp]
      · rw [if_neg hp]
    rw [updateWhere_cons, lookup, List.find?_cons, lookup, List.find?_cons, hkey]
    by_cases hk : key r = k
    · simp only [hk, decide_true, Option.map_some]
    · simpa only [hk, decide_false, lookup] using ih

theorem lookup_append_singleton :
    lookup key k (rows ++ [r]) = (lookup key k rows).or (if key r = k then some r else none) := by
  simp only [lookup, List.find?_append, List.find?_singleton, decide_eq_true_eq]

theorem lookup_append_of_ne (h : key r ≠ k) :
    lookup key k (rows ++ [r]) = lookup key k rows := by
  rw [lookup_append_singleton, if_neg h, Option.or_none]

theorem lookup_append_self (h : lookup key (key r) rows = none) :
    lookup key (key r) (rows ++ [r]) = some r := by
  rw [lookup_append_singleton, h, if_pos rfl, Option.none_or]

/-- A column-wise copy of a table has the copies of its rows. -/
theorem lookup_map {ρ' : Type*} {key' : ρ' → κ} {f : ρ → ρ'} (hf : ∀ r, key' (f r) = key r)
    (k : κ) (rows : List ρ) : lookup key' k (rows.map f) = (lookup key k rows).map f := by
  unfold lookup
  rw [List.find?_map]
  refine congrArg (Option.map f) (congrArg (fun p => rows.find? p) (funext fun r => ?_))
  rw [Function.comp_apply, hf]

/-- `INSERT` under the primary key constraint: none where the key is taken. -/
def insertRow (key : ρ → κ) (r : ρ) (rows : List ρ) : Option (List ρ) :=
  if (lookup key (key r) rows).isSome then none else some (rows ++ [r])

theorem insertRow_cases {rows' : List ρ} (h : insertRow key r rows = some rows') :
    (∀ r' ∈ rows, key r' ≠ key r) ∧ rows' = rows ++ [r] := by
  unfold insertRow at h
  split_ifs at h with hsome
  cases h
  exact ⟨lookup_eq_none.mp (Option.not_isSome_iff_eq_none.mp hsome), rfl⟩

theorem insertRow_of_fresh (h : ∀ r' ∈ rows, key r' ≠ key r) :
    insertRow key r rows = some (rows ++ [r]) := by
  unfold insertRow
  rw [lookup_eq_none.mpr h]
  rfl

theorem insertRow_of_taken {r' : ρ} (hr : r' ∈ rows) (hkey : key r' = key r) :
    insertRow key r rows = none := by
  have htaken : lookup key (key r) rows ≠ none := fun h => lookup_eq_none.mp h r' hr hkey
  unfold insertRow
  rw [if_pos (Option.isSome_iff_ne_none.mpr htaken)]

theorem keyed_insertRow {rows' : List ρ} (h : Keyed key rows)
    (hi : insertRow key r rows = some rows') : Keyed key rows' := by
  obtain ⟨hne, rfl⟩ := insertRow_cases hi
  exact keyed_append_singleton h hne

/-- Writing the row of a key: replace it where it exists, else append it. -/
def upsert (key : ρ → κ) (r : ρ) (rows : List ρ) : List ρ :=
  if (lookup key (key r) rows).isSome then updateWhere (fun r' => key r' = key r) (fun _ => r) rows
  else rows ++ [r]

theorem mem_upsert {r' : ρ} (h : r' ∈ upsert key r rows) : r' = r ∨ r' ∈ rows := by
  unfold upsert at h
  split_ifs at h with hsome
  · obtain ⟨r₀, hr₀, rfl⟩ := mem_updateWhere.mp h
    split_ifs
    · exact .inl rfl
    · exact .inr hr₀
  · rcases List.mem_append.mp h with h | h
    · exact .inr h
    · exact .inl (List.mem_singleton.mp h)

theorem keyed_upsert (h : Keyed key rows) : Keyed key (upsert key r rows) := by
  unfold upsert
  split_ifs with hsome
  · apply keyed_updateWhere _ h
    intro r' hr'
    exact (of_decide_eq_true hr').symm
  · apply keyed_append_singleton h
    rw [Bool.not_eq_true, Option.isSome_eq_false_iff, Option.isNone_iff_eq_none] at hsome
    exact lookup_eq_none.mp hsome

theorem length_upsert_le (r : ρ) (rows : List ρ) :
    (upsert key r rows).length ≤ rows.length + 1 := by
  unfold upsert
  split_ifs
  · simp [updateWhere]
  · simp

theorem lookup_upsert (r : ρ) (rows : List ρ) (k : κ) :
    lookup key k (upsert key r rows) = if key r = k then some r else lookup key k rows := by
  unfold upsert
  cases hl : lookup key (key r) rows with
  | none =>
    simp only [Option.isSome_none, Bool.false_eq_true, if_false]
    by_cases hk : key r = k
    · rw [if_pos hk, ← hk, lookup_append_self hl]
    · rw [if_neg hk, lookup_append_of_ne hk]
  | some r' =>
    simp only [Option.isSome_some, if_true]
    rw [lookup_updateWhere fun r' hr' => (of_decide_eq_true hr').symm]
    by_cases hk : key r = k
    · rw [if_pos hk, ← hk, hl, Option.map_some, if_pos (decide_eq_true (key_of_lookup hl))]
    · rw [if_neg hk]
      cases hl' : lookup key k rows with
      | none => rfl
      | some r'' =>
        have hne : ¬ key r'' = key r := fun he => hk (he.symm.trans (key_of_lookup hl'))
        rw [Option.map_some, decide_eq_false hne]
        rfl

end Lookup

end DecisionAssurance.Tables
