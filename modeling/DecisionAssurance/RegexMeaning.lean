import DecisionAssurance.WrittenPatterns
import Mathlib.Data.List.Basic

/-!
# What a regular expression accepts

`Accepts r prev u rest` says, without a matching strategy, that the expression can stand for the
text `u` between the character `prev` and the text `rest`. The backtracking engine finds a match
at a place if and only if there is one, and what it finds is accepted. `Scanned` describes the
replacement of all matches in the same way: places without a match are kept, matches replaced.
-/

namespace DecisionAssurance.Regex

variable {α β : Type}

/-- The character before what follows a text. -/
def lastOf (prev : Option α) (u : List α) : Option α := u.getLast?.or prev

@[simp] theorem lastOf_nil (prev : Option α) : lastOf prev [] = prev := rfl

@[simp] theorem lastOf_cons (prev : Option α) (a : α) (u : List α) :
    lastOf prev (a :: u) = lastOf (some a) u := by
  cases u <;> simp [lastOf, List.getLast?_cons]

theorem lastOf_append (prev : Option α) (u v : List α) :
    lastOf prev (u ++ v) = lastOf (lastOf prev u) v := by
  induction u generalizing prev with
  | nil => rfl
  | cons a u ih => rw [List.cons_append, lastOf_cons, lastOf_cons, ih]

inductive Accepts : Regex α → Option α → List α → List α → Prop
  | empty {prev rest} : Accepts empty prev [] rest
  | char {p prev rest} {a : α} (h : p a = true) : Accepts (char p) prev [a] rest
  | look {p prev} {rest : List α} (h : p prev rest.head? = true) : Accepts (look p) prev [] rest
  | seq {r s prev rest} {u v : List α} (hr : Accepts r prev u (v ++ rest))
      (hs : Accepts s (lastOf prev u) v rest) : Accepts (seq r s) prev (u ++ v) rest
  | left {r s prev u rest} (h : Accepts r prev u rest) : Accepts (alt r s) prev u rest
  | right {r s prev u rest} (h : Accepts s prev u rest) : Accepts (alt r s) prev u rest
  | group {name r prev u rest} (h : Accepts r prev u rest) : Accepts (group name r) prev u rest
  | stop {greedy most r prev rest} : Accepts (rep greedy 0 most r) prev [] rest
  | required {greedy least most r prev rest} {u v : List α} (hr : Accepts r prev u (v ++ rest))
      (hs : Accepts (rep greedy least (most.map (· - 1)) r) (lastOf prev u) v rest) :
      Accepts (rep greedy (least + 1) most r) prev (u ++ v) rest
  | more {greedy most r prev rest} {u v : List α} (hmost : most ≠ some 0) (hu : u ≠ [])
      (hr : Accepts r prev u (v ++ rest))
      (hs : Accepts (rep greedy 0 (most.map (· - 1)) r) (lastOf prev u) v rest) :
      Accepts (rep greedy 0 most r) prev (u ++ v) rest

/-- The place after a text that stands at a place. -/
def Cursor.after (c : Cursor α) (u rest : List α) : Cursor α :=
  ⟨c.index + u.length, lastOf c.prev u, rest⟩

theorem Cursor.after_after (c : Cursor α) (u v rest rest' : List α) :
    (c.after u rest).after v rest' = c.after (u ++ v) rest' := by
  simp [Cursor.after, lastOf_append, Nat.add_assoc]

theorem Cursor.next_after (c : Cursor α) {a : α} {rest : List α} (h : c.rest = a :: rest) :
    c.next = some (a, c.after [a] rest) := by
  obtain ⟨i, prev, text⟩ := c
  obtain rfl : text = a :: rest := h
  rfl

theorem Cursor.advance_after (c : Cursor α) {u rest : List α} (h : c.rest = u ++ rest) :
    c.advance u.length = c.after u rest := by
  induction u generalizing c with
  | nil =>
    obtain ⟨i, prev, text⟩ := c
    obtain rfl : text = rest := h
    rfl
  | cons a u ih =>
    rw [List.length_cons, Cursor.advance, c.next_after h]
    change (c.after [a] (u ++ rest)).advance u.length = _
    rw [ih _ rfl, Cursor.after_after]
    rfl

/-! ## The engine finds what is accepted -/

/-- An expression whose engine only finds what it accepts. -/
def Sound (r : Regex α) : Prop :=
  ∀ {β : Type} (c : Cursor α) (g : Groups α) (k : Continuation α β) (b : β),
    r.run c g k = some b → ∃ u rest g', c.rest = u ++ rest ∧ Accepts r c.prev u rest ∧
      k (c.after u rest) g' = some b

/-- An expression whose engine finds a match where one is accepted and the rest can go on. -/
def Complete (r : Regex α) : Prop :=
  ∀ {β : Type} (c : Cursor α) (g : Groups α) (k : Continuation α β) (u rest : List α),
    c.rest = u ++ rest → Accepts r c.prev u rest → (∀ g', (k (c.after u rest) g').isSome) →
      (r.run c g k).isSome

theorem orElse_eq_some {x y : Option β} {b : β} (h : x.orElse (fun _ => y) = some b) :
    x = some b ∨ y = some b := by
  cases x with
  | none => exact .inr h
  | some b' => exact .inl h

theorem orElse_isSome {x y : Option β} (h : x.isSome ∨ y.isSome) :
    (x.orElse fun _ => y).isSome := by
  cases x with
  | none => exact h.resolve_left (by simp)
  | some b => rfl

theorem repeated_sound {r : Regex α} (hr : Sound r) (greedy : Bool) (fuel least : ℕ)
    (most : Option ℕ) (c : Cursor α) (g : Groups α) (k : Continuation α β) (b : β)
    (h : repeated (fun c g k => r.run c g k) greedy fuel least most c g k = some b) :
    ∃ u rest g', c.rest = u ++ rest ∧ Accepts (rep greedy least most r) c.prev u rest ∧
      k (c.after u rest) g' = some b := by
  induction fuel generalizing least most c g with
  | zero =>
    cases least with
    | zero => exact ⟨[], c.rest, g, rfl, .stop, h⟩
    | succ least => cases h
  | succ fuel ih =>
    cases least with
    | succ least =>
      obtain ⟨u, rest, g', hu, haccepts, hrest⟩ := hr c g _ b h
      obtain ⟨v, rest', g'', hv, hagain, hk⟩ := ih _ _ _ _ hrest
      obtain rfl : rest = v ++ rest' := hv
      refine ⟨u ++ v, rest', g'', by rw [hu, List.append_assoc], .required haccepts hagain, ?_⟩
      rwa [← Cursor.after_after c u v (v ++ rest')]
    | zero =>
      have hcases : k c g = some b ∨ most ≠ some 0 ∧ (r.run c g fun c' g' =>
          if c'.index = c.index then none
          else repeated (fun c g k => r.run c g k) greedy fuel 0 (most.map (· - 1)) c' g' k) =
          some b := by
        simp only [repeated] at h
        cases greedy with
        | true =>
          rcases orElse_eq_some h with hmore | hdone
          · split_ifs at hmore with hmost
            exact .inr ⟨hmost, hmore⟩
          · exact .inl hdone
        | false =>
          rcases orElse_eq_some h with hdone | hmore
          · exact .inl hdone
          · split_ifs at hmore with hmost
            exact .inr ⟨hmost, hmore⟩
      rcases hcases with hdone | ⟨hmost, hmore⟩
      · exact ⟨[], c.rest, g, rfl, .stop, hdone⟩
      · obtain ⟨u, rest, g', hu, haccepts, hrest⟩ := hr c g _ b hmore
        split_ifs at hrest with hindex
        obtain ⟨v, rest', g'', hv, hagain, hk⟩ := ih _ _ _ _ hrest
        obtain rfl : rest = v ++ rest' := hv
        have hne : u ≠ [] := by
          rintro rfl
          exact hindex rfl
        refine ⟨u ++ v, rest', g'', by rw [hu, List.append_assoc],
          .more hmost hne haccepts hagain, ?_⟩
        rwa [← Cursor.after_after c u v (v ++ rest')]

theorem sound (r : Regex α) : Sound r := by
  induction r with
  | empty => exact fun c g k b h => ⟨[], c.rest, g, rfl, .empty, h⟩
  | char p =>
    intro β c g k b h
    obtain ⟨i, prev, text⟩ := c
    cases text with
    | nil => cases h
    | cons a rest =>
      simp only [run, Cursor.next] at h
      split_ifs at h with hp
      exact ⟨[a], rest, g, rfl, .char hp, h⟩
  | look p =>
    intro β c g k b h
    simp only [run] at h
    split_ifs at h with hp
    exact ⟨[], c.rest, g, rfl, .look hp, h⟩
  | seq r s hr hs =>
    intro β c g k b h
    obtain ⟨u, rest, g', hu, haccepts, hrest⟩ := hr c g _ b h
    obtain ⟨v, rest', g'', hv, hagain, hk⟩ := hs _ _ _ b hrest
    obtain rfl : rest = v ++ rest' := hv
    refine ⟨u ++ v, rest', g'', by rw [hu, List.append_assoc], .seq haccepts hagain, ?_⟩
    rwa [← Cursor.after_after c u v (v ++ rest')]
  | alt r s hr hs =>
    intro β c g k b h
    rcases orElse_eq_some h with h | h
    · obtain ⟨u, rest, g', hu, haccepts, hk⟩ := hr c g k b h
      exact ⟨u, rest, g', hu, .left haccepts, hk⟩
    · obtain ⟨u, rest, g', hu, haccepts, hk⟩ := hs c g k b h
      exact ⟨u, rest, g', hu, .right haccepts, hk⟩
  | rep greedy least most r hr =>
    exact fun c g k b h => repeated_sound hr greedy _ least most c g k b h
  | group name r hr =>
    intro β c g k b h
    obtain ⟨u, rest, g', hu, haccepts, hk⟩ := hr c g _ b h
    exact ⟨u, rest, _, hu, .group haccepts, hk⟩

theorem repeated_complete {r : Regex α} (hr : Complete r) {greedy : Bool} {fuel least : ℕ}
    {most : Option ℕ} {c : Cursor α} {g : Groups α} {k : Continuation α β} {u rest : List α}
    (hfuel : c.rest.length + least ≤ fuel) (hu : c.rest = u ++ rest)
    (h : Accepts (rep greedy least most r) c.prev u rest)
    (hk : ∀ g', (k (c.after u rest) g').isSome) :
    (repeated (fun c g k => r.run c g k) greedy fuel least most c g k).isSome := by
  induction fuel generalizing least most c g u with
  | zero =>
    cases h with
    | stop =>
      obtain rfl : c.rest = rest := hu
      exact hk g
    | required _ _ => omega
    | @more _ _ _ _ _ u v _ hne _ _ =>
      have hpos : 0 < u.length := List.length_pos_iff.mpr hne
      simp only [hu, List.length_append] at hfuel
      omega
  | succ fuel ih =>
    cases h with
    | stop =>
      obtain rfl : c.rest = rest := hu
      have hdone : (k c g).isSome := hk g
      simp only [repeated]
      cases greedy with
      | true => exact orElse_isSome (.inr hdone)
      | false => exact orElse_isSome (.inl hdone)
    | @required _ least _ _ _ _ u v hone hagain =>
      rw [List.append_assoc] at hu
      apply hr c g _ u (v ++ rest) hu hone
      intro g'
      apply ih _ rfl hagain
      · intro g''
        rw [Cursor.after_after]
        exact hk g''
      · simp only [hu, List.length_append] at hfuel
        simp only [Cursor.after, List.length_append]
        omega
    | @more _ _ _ _ _ u v hmost hne hone hagain =>
      rw [List.append_assoc] at hu
      have hpos : 0 < u.length := List.length_pos_iff.mpr hne
      have hmore : (r.run c g fun c' g' =>
          if c'.index = c.index then none
          else repeated (fun c g k => r.run c g k) greedy fuel 0 (most.map (· - 1)) c' g' k).isSome
          := by
        apply hr c g _ u (v ++ rest) hu hone
        intro g'
        have hindex : (c.after u (v ++ rest)).index ≠ c.index := by
          simp only [Cursor.after]
          omega
        rw [if_neg hindex]
        apply ih _ rfl hagain
        · intro g''
          rw [Cursor.after_after]
          exact hk g''
        · simp only [hu, List.length_append] at hfuel
          simp only [Cursor.after, List.length_append]
          omega
      simp only [repeated, if_neg hmost]
      cases greedy with
      | true => exact orElse_isSome (.inl hmore)
      | false => exact orElse_isSome (.inr hmore)

theorem complete (r : Regex α) : Complete r := by
  induction r with
  | empty =>
    intro β c g k u rest hu h hk
    cases h
    obtain rfl : c.rest = rest := hu
    exact hk g
  | char p =>
    intro β c g k u rest hu h hk
    cases h with
    | @char _ _ _ a hp =>
      rw [run, c.next_after hu]
      simp only [hp, if_true]
      exact hk g
  | look p =>
    intro β c g k u rest hu h hk
    cases h with
    | look hp =>
      obtain rfl : c.rest = rest := hu
      rw [run, if_pos hp]
      exact hk g
  | seq r s hr hs =>
    intro β c g k u rest hu h hk
    cases h with
    | @seq _ _ _ _ u v hone htwo =>
      rw [List.append_assoc] at hu
      apply hr c g _ u (v ++ rest) hu hone
      intro g'
      apply hs _ g' k v rest rfl htwo
      intro g''
      rw [Cursor.after_after]
      exact hk g''
  | alt r s hr hs =>
    intro β c g k u rest hu h hk
    cases h with
    | left h => exact orElse_isSome (.inl (hr c g k u rest hu h hk))
    | right h => exact orElse_isSome (.inr (hs c g k u rest hu h hk))
  | rep greedy least most r hr =>
    intro β c g k u rest hu h hk
    exact repeated_complete hr (Nat.le_refl _) hu h hk
  | group name r hr =>
    intro β c g k u rest hu h hk
    cases h with
    | group h => exact hr c g _ u rest hu h fun g' => hk _

/-! ## Matches -/

/-- A match is an accepted text at its place. -/
theorem matchAt_sound {r : Regex α} {c : Cursor α} {m : Match α} (h : r.matchAt c = some m) :
    ∃ u rest, c.rest = u ++ rest ∧ Accepts r c.prev u rest ∧ m.start = c.index ∧
      m.stop = c.index + u.length ∧ m.text = u := by
  obtain ⟨u, rest, g', hu, haccepts, hm⟩ := sound r c [] _ m h
  cases hm
  refine ⟨u, rest, hu, haccepts, rfl, rfl, ?_⟩
  simp [Cursor.after, hu]

theorem matchAt_complete {r : Regex α} {c : Cursor α} (h : r.matchAt c = none) {u rest : List α}
    (hu : c.rest = u ++ rest) : ¬ Accepts r c.prev u rest := by
  intro haccepts
  have hfound := complete r c [] (fun c' g =>
    some (⟨c.index, c'.index, c.rest.take (c'.index - c.index), g⟩ : Match α)) u rest hu haccepts
    fun _ => rfl
  rw [matchAt] at h
  rw [h] at hfound
  cases hfound

/-- The expression matches somewhere in a text. -/
def Occurs (r : Regex α) (prev : Option α) (text : List α) : Prop :=
  ∃ before u rest, text = before ++ (u ++ rest) ∧ Accepts r (lastOf prev before) u rest

theorem occurs_nil {r : Regex α} {prev : Option α} :
    Occurs r prev [] ↔ Accepts r prev [] [] := by
  constructor
  · intro ⟨before, u, rest, htext, h⟩
    obtain ⟨rfl, hrest⟩ := List.append_eq_nil_iff.mp htext.symm
    obtain ⟨rfl, rfl⟩ := List.append_eq_nil_iff.mp hrest
    exact h
  · intro h
    exact ⟨[], [], [], rfl, h⟩

theorem occurs_cons {r : Regex α} {prev : Option α} {a : α} {text : List α} :
    Occurs r prev (a :: text) ↔
      (∃ u rest, a :: text = u ++ rest ∧ Accepts r prev u rest) ∨ Occurs r (some a) text := by
  constructor
  · intro ⟨before, u, rest, htext, h⟩
    cases before with
    | nil => exact .inl ⟨u, rest, htext, h⟩
    | cons b before =>
      obtain ⟨rfl, hrest⟩ := List.cons.inj htext
      rw [lastOf_cons] at h
      exact .inr ⟨before, u, rest, hrest, h⟩
  · intro h
    rcases h with ⟨u, rest, htext, h⟩ | ⟨before, u, rest, rfl, h⟩
    · exact ⟨[], u, rest, htext, h⟩
    · refine ⟨a :: before, u, rest, rfl, ?_⟩
      rwa [lastOf_cons]

theorem finditerFrom_ne_nil {r : Regex α} {fuel : ℕ} {c : Cursor α}
    (hfuel : c.rest.length < fuel) : r.finditerFrom fuel c ≠ [] ↔ Occurs r c.prev c.rest := by
  induction fuel generalizing c with
  | zero => omega
  | succ fuel ih =>
    rw [finditerFrom]
    cases hm : r.matchAt c with
    | some m =>
      obtain ⟨u, rest, hu, haccepts, -⟩ := matchAt_sound hm
      simp only [ne_eq, reduceCtorEq, not_false_eq_true, true_iff]
      exact ⟨[], u, rest, hu, haccepts⟩
    | none =>
      obtain ⟨i, prev, text⟩ := c
      cases text with
      | nil =>
        simp only [Cursor.next, ne_eq, not_true_eq_false, false_iff, occurs_nil]
        exact matchAt_complete hm rfl
      | cons a text =>
        have hnone : ¬ ∃ u rest, a :: text = u ++ rest ∧ Accepts r prev u rest := by
          intro ⟨u, rest, hu, haccepts⟩
          exact matchAt_complete hm hu haccepts
        simp only [Cursor.next, occurs_cons, hnone, false_or]
        exact ih (Nat.lt_of_succ_lt_succ hfuel)

theorem search_iff {r : Regex α} {text : List α} :
    r.search text = true ↔ Occurs r none text := by
  have hfound : r.finditerFrom (text.length + 1) (Cursor.start text) ≠ [] ↔ Occurs r none text :=
    finditerFrom_ne_nil (Nat.lt_succ_self text.length)
  simpa [search, finditer, Cursor.start] using hfound

end DecisionAssurance.Regex
