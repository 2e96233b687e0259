import DecisionAssurance.Tables
import Mathlib.Data.List.Perm.Basic

/-!
# Lists projected to tables

The parts of a value are written to a table one after the other, each to the row of the value and
of its own id: the row is updated where it exists, else it is appended. The rows of the value then
are its parts, in another order perhaps, if the ids tell them apart and the parts written before
are still there, as far as an update leaves them.
-/

namespace DecisionAssurance.Tables

/-! ## Parts -/

section Place

variable {α ι : Type*} [DecidableEq ι] (ident : α → ι) (merge : α → α → α)

/-- The parts after one more is written: merged with the part of its id, else appended. -/
def place (parts : List α) (a : α) : List α :=
  if ident a ∈ parts.map ident then parts.map fun p => if ident p = ident a then merge p a else p
  else parts ++ [a]

variable {ident merge} {parts es : List α} {a p : α} {i : ι}

theorem map_ident_place (hmerge : ∀ p a, ident p = ident a → ident (merge p a) = ident a) :
    (place ident merge parts a).map ident =
      if ident a ∈ parts.map ident then parts.map ident else parts.map ident ++ [ident a] := by
  unfold place
  split_ifs with hmem
  · rw [List.map_map]
    apply List.map_congr_left
    intro p _
    rw [Function.comp_apply]
    split_ifs with hsame
    · exact (hmerge p a hsame).trans hsame.symm
    · rfl
  · rw [List.map_append, List.map_singleton]

/-- The ids after all parts are written. -/
theorem mem_ident_foldl (hmerge : ∀ p a, ident p = ident a → ident (merge p a) = ident a) :
    i ∈ (es.foldl (place ident merge) parts).map ident ↔
      i ∈ parts.map ident ∨ i ∈ es.map ident := by
  induction es generalizing parts with
  | nil => simp
  | cons e es ih =>
    rw [List.foldl_cons, ih, map_ident_place hmerge, List.map_cons, List.mem_cons]
    split_ifs with hmem
    · constructor
      · rintro (h | h)
        · exact .inl h
        · exact .inr (.inr h)
      · rintro (h | rfl | h)
        · exact .inl h
        · exact .inl hmem
        · exact .inr h
    · rw [List.mem_append, List.mem_singleton, or_assoc]

variable (es) in
/-- The ids stay distinct. -/
theorem nodup_foldl (hmerge : ∀ p a, ident p = ident a → ident (merge p a) = ident a)
    (h : (parts.map ident).Nodup) :
    ((es.foldl (place ident merge) parts).map ident).Nodup := by
  induction es generalizing parts with
  | nil => exact h
  | cons e es ih =>
    apply ih
    rw [map_ident_place hmerge]
    split_ifs with hmem
    · exact h
    · exact h.append (List.nodup_singleton _) (List.disjoint_singleton.mpr hmem)

/-! ### Parts that are overwritten -/

theorem mem_place_overwrite :
    p ∈ place ident (fun _ a => a) parts a ↔ p = a ∨ p ∈ parts ∧ ident p ≠ ident a := by
  unfold place
  split_ifs with hmem
  · rw [List.mem_map]
    constructor
    · rintro ⟨q, hq, hqp⟩
      split_ifs at hqp with hsame
      · exact .inl hqp.symm
      · exact .inr (hqp ▸ ⟨hq, hsame⟩)
    · rintro (rfl | ⟨hp, hne⟩)
      · obtain ⟨q, hq, hsame⟩ := List.mem_map.mp hmem
        exact ⟨q, hq, if_pos hsame⟩
      · exact ⟨p, hp, if_neg hne⟩
  · rw [List.mem_append, List.mem_singleton, or_comm]
    refine or_congr_right ⟨fun hp => ⟨hp, fun hsame => hmem ?_⟩, And.left⟩
    exact hsame ▸ List.mem_map_of_mem hp

theorem mem_foldl_overwrite (hes : (es.map ident).Nodup) :
    p ∈ es.foldl (place ident fun _ a => a) parts ↔
      p ∈ es ∨ p ∈ parts ∧ ident p ∉ es.map ident := by
  induction es generalizing parts with
  | nil => simp
  | cons e es ih =>
    rw [List.map_cons, List.nodup_cons] at hes
    rw [List.foldl_cons, ih hes.2, mem_place_overwrite, List.map_cons, List.mem_cons,
      List.mem_cons, not_or]
    constructor
    · rintro (hp | ⟨rfl | ⟨hp, hne⟩, hfresh⟩)
      · exact .inl (.inr hp)
      · exact .inl (.inl rfl)
      · exact .inr ⟨hp, hne, hfresh⟩
    · rintro ((rfl | hp) | ⟨hp, hne, hfresh⟩)
      · exact .inr ⟨.inl rfl, hes.1⟩
      · exact .inl hp
      · exact .inr ⟨.inr ⟨hp, hne⟩, hfresh⟩

/-- Parts that overwrite those written before are what is left, if their ids are distinct. -/
theorem overwrite_perm_iff (hparts : (parts.map ident).Nodup)
    (hgrown : ∀ p ∈ parts, ident p ∈ es.map ident) :
    (es.foldl (place ident fun _ a => a) parts).Perm es ↔ (es.map ident).Nodup := by
  have hnodup : ((es.foldl (place ident fun _ a => a) parts).map ident).Nodup :=
    nodup_foldl es (fun _ _ _ => rfl) hparts
  constructor
  · intro h
    exact (h.map ident).nodup_iff.mp hnodup
  · intro hes
    refine (List.perm_ext_iff_of_nodup hnodup.of_map hes.of_map).mpr fun p => ?_
    rw [mem_foldl_overwrite hes]
    refine ⟨fun h => h.resolve_right fun ⟨hp, hfresh⟩ => hfresh (hgrown p hp), .inl⟩

/-! ### Parts that are kept -/

theorem mem_place_keep :
    p ∈ place ident (fun p _ => p) parts a ↔ p ∈ parts ∨ p = a ∧ ident a ∉ parts.map ident := by
  unfold place
  split_ifs with hmem
  · simp [hmem]
  · simp [hmem]

theorem mem_foldl_keep (hes : (es.map ident).Nodup) :
    p ∈ es.foldl (place ident fun p _ => p) parts ↔
      p ∈ parts ∨ p ∈ es ∧ ident p ∉ parts.map ident := by
  induction es generalizing parts with
  | nil => simp
  | cons e es ih =>
    rw [List.map_cons, List.nodup_cons] at hes
    rw [List.foldl_cons, ih hes.2, mem_place_keep, map_ident_place fun _ _ h => h, List.mem_cons]
    constructor
    · rintro ((hp | ⟨rfl, hfresh⟩) | ⟨hp, hfresh⟩)
      · exact .inl hp
      · exact .inr ⟨.inl rfl, hfresh⟩
      · refine .inr ⟨.inr hp, fun hmem => hfresh ?_⟩
        split_ifs
        · exact hmem
        · exact List.mem_append_left _ hmem
    · rintro (hp | ⟨rfl | hp, hfresh⟩)
      · exact .inl (.inl hp)
      · exact .inl (.inr ⟨rfl, hfresh⟩)
      · refine .inr ⟨hp, fun hmem => ?_⟩
        split_ifs at hmem
        · exact hfresh hmem
        · rcases List.mem_append.mp hmem with hmem | hmem
          · exact hfresh hmem
          · exact hes.1 (List.mem_singleton.mp hmem ▸ List.mem_map_of_mem hp)

/-- Parts that leave those written before as they are what is left, if their ids are distinct and
none has changed. -/
theorem keep_perm_iff (hparts : (parts.map ident).Nodup) :
    (es.foldl (place ident fun p _ => p) parts).Perm es ↔
      (es.map ident).Nodup ∧ ∀ p ∈ parts, p ∈ es := by
  have hkept : ∀ es : List α, ∀ parts : List α, ∀ p ∈ parts,
      p ∈ es.foldl (place ident fun p _ => p) parts := by
    intro es
    induction es with
    | nil => exact fun _ _ hp => hp
    | cons e es ih => exact fun parts p hp => ih _ p (mem_place_keep.mpr (.inl hp))
  have hnodup : ((es.foldl (place ident fun p _ => p) parts).map ident).Nodup :=
    nodup_foldl es (fun _ _ h => h) hparts
  constructor
  · intro h
    exact ⟨(h.map ident).nodup_iff.mp hnodup, fun p hp => h.subset (hkept es parts p hp)⟩
  · rintro ⟨hes, hsame⟩
    refine (List.perm_ext_iff_of_nodup hnodup.of_map hes.of_map).mpr fun p => ?_
    rw [mem_foldl_keep hes]
    constructor
    · rintro (hp | ⟨hp, -⟩)
      · exact hsame p hp
      · exact hp
    · intro hp
      by_cases hmem : ident p ∈ parts.map ident
      · obtain ⟨q, hq, hid⟩ := List.mem_map.mp hmem
        obtain rfl : q = p := List.inj_on_of_nodup_map hes (hsame q hq) hp hid
        exact .inl hq
      · exact .inr ⟨hp, hmem⟩

end Place

/-! ## Rows -/

/-- How the parts of values are written to the rows of a table. -/
structure Projection (ρ α κ ι : Type*) where
  key : ρ → κ × ι
  part : ρ → α
  ident : α → ι
  row : κ → α → ρ
  update : α → ρ → ρ
  merge : α → α → α
  key_row : ∀ k a, key (row k a) = (k, ident a)
  part_row : ∀ k a, part (row k a) = a
  key_update : ∀ a r, key (update a r) = key r
  part_update : ∀ a r, part (update a r) = merge (part r) a
  ident_merge : ∀ p a, ident p = ident a → ident (merge p a) = ident a

namespace Projection

variable {ρ α κ ι : Type*} [DecidableEq κ] [DecidableEq ι] (P : Projection ρ α κ ι) (k : κ)

/-- `INSERT … ON CONFLICT (key) DO …` of a part: the row of its key is updated where it exists,
else a row is appended if the other constraints of the table admit it. -/
def write (admits : List ρ → α → Bool) (rows : List ρ) (a : α) : Option (List ρ) :=
  if (lookup P.key (k, P.ident a) rows).isSome then
    some (updateWhere (fun r => P.key r = (k, P.ident a)) (P.update a) rows)
  else if admits rows a then some (rows ++ [P.row k a])
  else none

def writeAll (admits : List ρ → α → Bool) (rows : List ρ) (es : List α) : Option (List ρ) :=
  es.foldlM (P.write k admits) rows

/-- The parts in the rows of a value. -/
def partsOf (rows : List ρ) : List α := (rows.filter fun r => (P.key r).1 = k).map P.part

/-- Rows with distinct keys, which name the parts in them. -/
structure Labelled (rows : List ρ) : Prop where
  keyed : Keyed P.key rows
  named : ∀ r ∈ rows, P.ident (P.part r) = (P.key r).2

variable {P k} {admits : List ρ → α → Bool} {rows rows' : List ρ} {es : List α} {a p : α} {k' : κ}

omit [DecidableEq ι] in
theorem mem_partsOf : p ∈ P.partsOf k rows ↔ ∃ r ∈ rows, (P.key r).1 = k ∧ P.part r = p := by
  simp only [partsOf, List.mem_map, List.mem_filter, decide_eq_true_eq, and_assoc]

theorem lookup_isSome_iff (h : P.Labelled rows) :
    (lookup P.key (k, P.ident a) rows).isSome ↔ P.ident a ∈ (P.partsOf k rows).map P.ident := by
  rw [List.mem_map, Option.isSome_iff_ne_none, ne_eq, lookup_eq_none]
  constructor
  · intro hkey
    push Not at hkey
    obtain ⟨r, hr, hkey⟩ := hkey
    refine ⟨P.part r, mem_partsOf.mpr ⟨r, hr, congrArg Prod.fst hkey, rfl⟩, ?_⟩
    exact (h.named r hr).trans (congrArg Prod.snd hkey)
  · rintro ⟨p, hp, hid⟩ hkey
    obtain ⟨r, hr, hk, rfl⟩ := mem_partsOf.mp hp
    exact hkey r hr (Prod.ext hk ((h.named r hr).symm.trans hid))

theorem Labelled.write (h : P.Labelled rows) (hw : P.write k admits rows a = some rows') :
    P.Labelled rows' := by
  unfold Projection.write at hw
  split_ifs at hw with hfound
  · cases hw
    constructor
    · exact keyed_updateWhere (fun r _ => P.key_update a r) h.keyed
    · intro r hr
      obtain ⟨r₀, hr₀, rfl⟩ := mem_updateWhere.mp hr
      split_ifs with hkey
      · have hid := (h.named r₀ hr₀).trans (congrArg Prod.snd (of_decide_eq_true hkey))
        rw [P.part_update, P.key_update, P.ident_merge _ _ hid]
        exact (congrArg Prod.snd (of_decide_eq_true hkey)).symm
      · exact h.named r₀ hr₀
  · cases hw
    have hfresh := lookup_eq_none.mp (Option.not_isSome_iff_eq_none.mp hfound)
    constructor
    · apply keyed_append_singleton h.keyed
      rwa [P.key_row]
    · intro r hr
      rcases List.mem_append.mp hr with hr | hr
      · exact h.named r hr
      · rw [List.mem_singleton.mp hr, P.part_row, P.key_row]

/-- An update moves no row to another value. -/
theorem filter_key_update : (fun r => decide ((P.key r).1 = k')) ∘ (fun r =>
    if decide (P.key r = (k, P.ident a)) then P.update a r else r) =
      fun r => decide ((P.key r).1 = k') := by
  funext r
  rw [Function.comp_apply]
  split_ifs
  · rw [P.key_update]
  · rfl

/-- A write places the part among those of its value. -/
theorem partsOf_write (h : P.Labelled rows) (hw : P.write k admits rows a = some rows') :
    P.partsOf k rows' = place P.ident P.merge (P.partsOf k rows) a := by
  unfold place
  unfold Projection.write at hw
  split_ifs at hw with hfound
  · cases hw
    rw [if_pos ((lookup_isSome_iff h).mp hfound)]
    unfold partsOf updateWhere
    rw [List.filter_map, List.map_map, List.map_map, filter_key_update]
    apply List.map_congr_left
    intro r hr
    obtain ⟨hr, hk⟩ := List.mem_filter.mp hr
    have hid : P.key r = (k, P.ident a) ↔ P.ident (P.part r) = P.ident a := by
      rw [h.named r hr, Prod.ext_iff, and_iff_right (of_decide_eq_true hk)]
    rw [Function.comp_apply, Function.comp_apply]
    by_cases hsame : P.ident (P.part r) = P.ident a
    · rw [if_pos (decide_eq_true (hid.mpr hsame)), if_pos hsame, P.part_update]
    · rw [if_neg (fun hkey => hsame (hid.mp (of_decide_eq_true hkey))), if_neg hsame]
  · cases hw
    rw [if_neg (fun hmem => hfound ((lookup_isSome_iff h).mpr hmem))]
    have hkey : decide ((P.key (P.row k a)).1 = k) = true := by
      rw [P.key_row]
      exact decide_eq_true rfl
    rw [partsOf, List.filter_append, List.map_append, List.filter_singleton, hkey]
    exact congrArg (_ ++ [·]) (P.part_row k a)

/-- A write leaves the parts of other values as they are. -/
theorem partsOf_write_of_ne (hk : k' ≠ k) (hw : P.write k admits rows a = some rows') :
    P.partsOf k' rows' = P.partsOf k' rows := by
  unfold Projection.write at hw
  split_ifs at hw with hfound
  · cases hw
    unfold partsOf updateWhere
    rw [List.filter_map, List.map_map, filter_key_update]
    apply List.map_congr_left
    intro r hr
    have hother := of_decide_eq_true (List.mem_filter.mp hr).2
    have hne : ¬ decide (P.key r = (k, P.ident a)) = true := fun hkey =>
      hk (hother.symm.trans (congrArg Prod.fst (of_decide_eq_true hkey)))
    rw [Function.comp_apply, if_neg hne]
  · cases hw
    have hkey : decide ((P.key (P.row k a)).1 = k') = false := by
      rw [P.key_row]
      exact decide_eq_false (Ne.symm hk)
    rw [partsOf, List.filter_append, List.map_append, List.filter_singleton, hkey]
    exact List.append_nil _

/-! ### All parts -/

/-- What one write preserves, all writes preserve. -/
theorem writeAll_invariant {I : List ρ → Prop}
    (hI : ∀ rows a rows', a ∈ es → I rows → P.write k admits rows a = some rows' → I rows')
    (hw : P.writeAll k admits rows es = some rows') (h : I rows) : I rows' := by
  unfold writeAll at hw
  induction es generalizing rows with
  | nil =>
    cases hw
    exact h
  | cons e es ih =>
    obtain ⟨rows₁, hfirst, hrest⟩ := Option.bind_eq_some_iff.mp hw
    have hlater : ∀ rows a rows', a ∈ es → I rows → P.write k admits rows a = some rows' →
        I rows' := fun rows a rows' ha => hI rows a rows' (List.mem_cons_of_mem _ ha)
    exact ih hlater hrest (hI _ _ _ List.mem_cons_self h hfirst)

/-- All parts are written where what the writes preserve admits each of them. -/
theorem writeAll_isSome {I : List ρ → Prop}
    (hI : ∀ rows a rows', a ∈ es → I rows → P.write k admits rows a = some rows' → I rows')
    (hadmits : ∀ rows a, a ∈ es → I rows → lookup P.key (k, P.ident a) rows = none →
      admits rows a = true) (h : I rows) : ∃ rows', P.writeAll k admits rows es = some rows' := by
  unfold writeAll
  induction es generalizing rows with
  | nil => exact ⟨rows, rfl⟩
  | cons e es ih =>
    obtain ⟨rows₁, hfirst⟩ : ∃ rows₁, P.write k admits rows e = some rows₁ := by
      unfold Projection.write
      split_ifs with hfound hadmitted
      · exact ⟨_, rfl⟩
      · exact ⟨_, rfl⟩
      · have hfresh := Option.not_isSome_iff_eq_none.mp hfound
        exact absurd (hadmits rows e List.mem_cons_self h hfresh) hadmitted
    rw [List.foldlM_cons, hfirst]
    apply ih
    · exact fun rows a rows' ha => hI rows a rows' (List.mem_cons_of_mem _ ha)
    · exact fun rows a ha => hadmits rows a (List.mem_cons_of_mem _ ha)
    · exact hI _ _ _ List.mem_cons_self h hfirst

/-- Where the rows come from after a write. -/
theorem mem_write {r' : ρ} (hw : P.write k admits rows a = some rows') (hr : r' ∈ rows') :
    r' ∈ rows ∨ (∃ r ∈ rows, P.key r = (k, P.ident a) ∧ r' = P.update a r) ∨
      r' = P.row k a := by
  unfold Projection.write at hw
  split_ifs at hw
  · cases hw
    obtain ⟨r, hmem, rfl⟩ := mem_updateWhere.mp hr
    split_ifs with hkey
    · exact .inr (.inl ⟨r, hmem, of_decide_eq_true hkey, rfl⟩)
    · exact .inl hmem
  · cases hw
    rcases List.mem_append.mp hr with hr | hr
    · exact .inl hr
    · exact .inr (.inr (List.mem_singleton.mp hr))

/-- What the columns of a key's rows have, a write of a part that has it leaves them. -/
theorem write_columns {β : Type*} {S : β → Prop} {col : ρ → β} {colOf : α → β}
    (hrow : ∀ a, col (P.row k a) = colOf a) (hupdate : ∀ a r, col (P.update a r) = col r)
    (ha : k' = k → S (colOf a)) (h : ∀ r ∈ rows, (P.key r).1 = k' → S (col r))
    (hw : P.write k admits rows a = some rows') : ∀ r ∈ rows', (P.key r).1 = k' → S (col r) := by
  intro r hr hk
  rcases mem_write hw hr with hr | ⟨r₀, hr₀, hkey, rfl⟩ | rfl
  · exact h r hr hk
  · rw [P.key_update] at hk
    rw [hupdate]
    exact h r₀ hr₀ hk
  · rw [P.key_row] at hk
    rw [hrow]
    exact ha hk.symm

theorem writeAll_columns {β : Type*} {S : β → Prop} {col : ρ → β} {colOf : α → β}
    (hrow : ∀ a, col (P.row k a) = colOf a) (hupdate : ∀ a r, col (P.update a r) = col r)
    (hes : ∀ a ∈ es, k' = k → S (colOf a)) (h : ∀ r ∈ rows, (P.key r).1 = k' → S (col r))
    (hw : P.writeAll k admits rows es = some rows') :
    ∀ r ∈ rows', (P.key r).1 = k' → S (col r) :=
  writeAll_invariant (I := fun rows => ∀ r ∈ rows, (P.key r).1 = k' → S (col r))
    (fun _ _ _ ha h hw => write_columns hrow hupdate (hes _ ha) h hw) hw h

theorem Labelled.writeAll (h : P.Labelled rows) (hw : P.writeAll k admits rows es = some rows') :
    P.Labelled rows' :=
  writeAll_invariant (fun _ _ _ _ h hw => h.write hw) hw h

theorem partsOf_writeAll (h : P.Labelled rows) (hw : P.writeAll k admits rows es = some rows') :
    P.partsOf k rows' = es.foldl (place P.ident P.merge) (P.partsOf k rows) := by
  unfold Projection.writeAll at hw
  induction es generalizing rows with
  | nil =>
    cases hw
    rfl
  | cons e es ih =>
    obtain ⟨rows₁, hfirst, hrest⟩ := Option.bind_eq_some_iff.mp hw
    rw [ih (h.write hfirst) hrest, partsOf_write h hfirst, List.foldl_cons]

theorem partsOf_writeAll_of_ne (hk : k' ≠ k) (hw : P.writeAll k admits rows es = some rows') :
    P.partsOf k' rows' = P.partsOf k' rows :=
  writeAll_invariant (I := fun rows₁ => P.partsOf k' rows₁ = P.partsOf k' rows)
    (fun _ _ _ _ h hw => (partsOf_write_of_ne hk hw).trans h) hw rfl

omit [DecidableEq ι] in
theorem nodup_partsOf (h : P.Labelled rows) : ((P.partsOf k rows).map P.ident).Nodup := by
  unfold partsOf
  rw [List.map_map]
  have hids : ((rows.filter fun r => (P.key r).1 = k).map (P.ident ∘ P.part)) =
      ((rows.filter fun r => (P.key r).1 = k).map P.key).map Prod.snd := by
    rw [List.map_map]
    exact List.map_congr_left fun r hr => h.named r (List.mem_filter.mp hr).1
  rw [hids]
  have hkeys : ((rows.filter fun r => (P.key r).1 = k).map P.key).Nodup :=
    h.keyed.sublist (List.Sublist.map _ List.filter_sublist)
  apply hkeys.map_on
  intro x hx y hy hsame
  obtain ⟨r, hr, rfl⟩ := List.mem_map.mp hx
  obtain ⟨r', hr', rfl⟩ := List.mem_map.mp hy
  have hk := of_decide_eq_true (List.mem_filter.mp hr).2
  have hk' := of_decide_eq_true (List.mem_filter.mp hr').2
  exact Prod.ext (hk.trans hk'.symm) hsame

/-- The ids in the rows of a value after all its parts are written. -/
theorem mem_ident_writeAll (h : P.Labelled rows)
    (hw : P.writeAll k admits rows es = some rows') {i : ι} :
    i ∈ (P.partsOf k rows').map P.ident ↔
      i ∈ (P.partsOf k rows).map P.ident ∨ i ∈ es.map P.ident := by
  rw [partsOf_writeAll h hw]
  exact mem_ident_foldl P.ident_merge

/-- Rows that are overwritten are the parts just written, if the ids of these are distinct. -/
theorem overwritten_perm_iff (hmerge : P.merge = fun _ a => a) (h : P.Labelled rows)
    (hgrown : ∀ p ∈ P.partsOf k rows, P.ident p ∈ es.map P.ident)
    (hw : P.writeAll k admits rows es = some rows') :
    (P.partsOf k rows').Perm es ↔ (es.map P.ident).Nodup := by
  rw [partsOf_writeAll h hw, hmerge]
  exact overwrite_perm_iff (nodup_partsOf h) hgrown

/-- Rows that are kept are the parts just written, if the ids of these are distinct and none in the
rows has changed. -/
theorem kept_perm_iff (hmerge : P.merge = fun p _ => p) (h : P.Labelled rows)
    (hw : P.writeAll k admits rows es = some rows') :
    (P.partsOf k rows').Perm es ↔
      (es.map P.ident).Nodup ∧ ∀ p ∈ P.partsOf k rows, p ∈ es := by
  rw [partsOf_writeAll h hw, hmerge]
  exact keep_perm_iff (nodup_partsOf h)

end Projection

end DecisionAssurance.Tables
