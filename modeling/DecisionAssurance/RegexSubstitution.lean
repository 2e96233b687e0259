import DecisionAssurance.RegexMeaning

/-!
# Replacing the matches of a regular expression

`Scanned` describes a substitution without the engine: from left to right, a place where the
expression accepts nothing is kept and an accepted text is replaced. It also lists what follows
each of the replaced texts. Expressions here accept no empty text.
-/

namespace DecisionAssurance.Regex

variable {α β : Type}

/-- The text from a place on with every match replaced. -/
def subFrom (r : Regex α) (replacement : List α) : ℕ → Cursor α → List α
  | 0, c => c.rest
  | fuel + 1, c => match r.matchAt c with
    | some m => replacement ++ r.subFrom replacement fuel (c.advance (max 1 (m.stop - c.index)))
    | none => match c.next with
      | none => []
      | some (a, c) => a :: r.subFrom replacement fuel c

/-- `re.sub(r, replacement, text)` -/
def sub (r : Regex α) (replacement text : List α) : List α :=
  r.subFrom replacement (text.length + 1) (Cursor.start text)

/-- A text, the text with the matches replaced, and what follows each match. -/
inductive Scanned (r : Regex α) (replacement : List α) :
    Option α → List α → List α → List (List α) → Prop
  | done {prev} : Scanned r replacement prev [] [] []
  | kept {prev a text result ends}
      (hnone : ∀ u rest, a :: text = u ++ rest → ¬ Accepts r prev u rest)
      (h : Scanned r replacement (some a) text result ends) :
      Scanned r replacement prev (a :: text) (a :: result) ends
  | replaced {prev u rest result ends} (hu : u ≠ []) (haccepts : Accepts r prev u rest)
      (h : Scanned r replacement (lastOf prev u) rest result ends) :
      Scanned r replacement prev (u ++ rest) (replacement ++ result) (rest :: ends)

/-- The expression accepts no empty text. -/
def Consuming (r : Regex α) : Prop := ∀ prev rest, ¬ Accepts r prev [] rest

variable {r : Regex α} {replacement : List α} {fuel : ℕ} {c : Cursor α} {m : Match α}

/-- A match of a consuming expression, with the place it leads to. -/
theorem Consuming.matchAt (hr : Consuming r) (h : r.matchAt c = some m) :
    ∃ u rest, u ≠ [] ∧ c.rest = u ++ rest ∧ Accepts r c.prev u rest ∧
      m.stop = c.index + u.length ∧ c.advance (max 1 (m.stop - c.index)) = c.after u rest := by
  obtain ⟨u, rest, hu, haccepts, -, hstop, -⟩ := matchAt_sound h
  have hne : u ≠ [] := by
    rintro rfl
    exact hr _ _ haccepts
  have hpos : 0 < u.length := List.length_pos_iff.mpr hne
  have hlength : max 1 (m.stop - c.index) = u.length := by omega
  refine ⟨u, rest, hne, hu, haccepts, hstop, ?_⟩
  rw [hlength, c.advance_after hu]

theorem Consuming.index_le_stop (hr : Consuming r) (hm : m ∈ r.finditerFrom fuel c) :
    c.index ≤ m.stop := by
  induction fuel generalizing c with
  | zero => cases hm
  | succ fuel ih =>
    rw [finditerFrom] at hm
    cases hfirst : r.matchAt c with
    | some first =>
      obtain ⟨u, rest, -, -, -, hstop, hnext⟩ := hr.matchAt hfirst
      simp only [hfirst, hnext, List.mem_cons] at hm
      rcases hm with rfl | hm
      · omega
      · have hlater := ih hm
        simp only [Cursor.after] at hlater
        omega
    | none =>
      obtain ⟨i, prev, text⟩ := c
      cases text with
      | nil => simp [hfirst, Cursor.next] at hm
      | cons a text =>
        simp only [hfirst, Cursor.next] at hm
        exact Nat.le_of_succ_le (ih hm)

/-- What follows the matches after a text, seen from before the text. -/
theorem Consuming.map_drop (hr : Consuming r) (fuel : ℕ) {u rest : List α}
    (hu : c.rest = u ++ rest) :
    ((r.finditerFrom fuel (c.after u rest)).map fun m => c.rest.drop (m.stop - c.index)) =
      (r.finditerFrom fuel (c.after u rest)).map fun m =>
        rest.drop (m.stop - (c.after u rest).index) := by
  apply List.map_congr_left
  intro m hm
  have hstop : c.index + u.length ≤ m.stop := hr.index_le_stop hm
  rw [hu, List.drop_append, List.drop_eq_nil_of_le (by omega), List.nil_append]
  congr 1
  simp only [Cursor.after]
  omega

theorem Consuming.scanned_subFrom (hr : Consuming r) (hfuel : c.rest.length < fuel) :
    Scanned r replacement c.prev c.rest (r.subFrom replacement fuel c)
      ((r.finditerFrom fuel c).map fun m => c.rest.drop (m.stop - c.index)) := by
  induction fuel generalizing c with
  | zero => omega
  | succ fuel ih =>
    rw [subFrom, finditerFrom]
    cases hfirst : r.matchAt c with
    | some m =>
      obtain ⟨u, rest, hne, hu, haccepts, hstop, hnext⟩ := hr.matchAt hfirst
      have hpos : 0 < u.length := List.length_pos_iff.mpr hne
      have hshort : (c.after u rest).rest.length < fuel := by
        have hlength := congrArg List.length hu
        rw [List.length_append] at hlength
        change rest.length < fuel
        omega
      have hrest : c.rest.drop (m.stop - c.index) = rest := by
        rw [hstop, Nat.add_sub_cancel_left, hu, List.drop_left]
      simp only [hnext, List.map_cons, hr.map_drop fuel hu, hrest]
      conv => arg 4; rw [hu]
      exact .replaced hne haccepts (ih hshort)
    | none =>
      have hnone : ∀ u rest, c.rest = u ++ rest → ¬ Accepts r c.prev u rest :=
        fun u rest => matchAt_complete hfirst
      cases htext : c.rest with
      | nil =>
        obtain ⟨i, prev, text⟩ := c
        obtain rfl : text = [] := htext
        exact .done
      | cons a text =>
        have hshort : (c.after [a] text).rest.length < fuel := by
          rw [htext, List.length_cons] at hfuel
          exact Nat.lt_of_succ_lt_succ hfuel
        have hdrop := hr.map_drop fuel (u := [a]) htext
        rw [htext] at hdrop hnone
        simp only [c.next_after htext, hdrop]
        exact .kept hnone (ih hshort)

theorem Consuming.scanned_sub (hr : Consuming r) (text : List α) :
    Scanned r replacement none text (r.sub replacement text)
      ((r.finditer text).map fun m => text.drop m.stop) :=
  hr.scanned_subFrom (c := Cursor.start text) (Nat.lt_succ_self text.length)

/-! ## Expressions that do not look around -/

/-- The expression accepts the words of a language, wherever they stand. -/
def Denotes (r : Regex α) (language : List α → Prop) : Prop :=
  ∀ prev u rest, Accepts r prev u rest ↔ language u

variable {s : Regex α} {language language' : List α → Prop} {p : α → Bool} {greedy : Bool}

theorem Denotes.congr (hr : Denotes r language) (h : ∀ u, language u ↔ language' u) :
    Denotes r language' :=
  fun prev u rest => (hr prev u rest).trans (h u)

theorem denotes_char : Denotes (char p) fun u => ∃ a, u = [a] ∧ p a = true := by
  intro prev u rest
  constructor
  · intro h
    cases h with
    | char h => exact ⟨_, rfl, h⟩
  · rintro ⟨a, rfl, h⟩
    exact .char h

theorem denotes_empty : Denotes (α := α) empty fun u => u = [] := by
  intro prev u rest
  constructor
  · intro h
    cases h
    rfl
  · rintro rfl
    exact .empty

theorem Denotes.seq (hr : Denotes r language) (hs : Denotes s language') :
    Denotes (r.seq s) fun u => ∃ v w, u = v ++ w ∧ language v ∧ language' w := by
  intro prev u rest
  constructor
  · intro h
    cases h with
    | seq hone htwo => exact ⟨_, _, rfl, (hr _ _ _).mp hone, (hs _ _ _).mp htwo⟩
  · rintro ⟨v, w, rfl, hv, hw⟩
    exact .seq ((hr _ _ _).mpr hv) ((hs _ _ _).mpr hw)

theorem Denotes.alt (hr : Denotes r language) (hs : Denotes s language') :
    Denotes (r.alt s) fun u => language u ∨ language' u := by
  intro prev u rest
  constructor
  · intro h
    cases h with
    | left h => exact .inl ((hr _ _ _).mp h)
    | right h => exact .inr ((hs _ _ _).mp h)
  · intro h
    rcases h with h | h
    · exact .left ((hr _ _ _).mpr h)
    · exact .right ((hs _ _ _).mpr h)

theorem Denotes.optional (hr : Denotes r language) (hne : ¬ language []) :
    Denotes (Regex.optional r) fun u => u = [] ∨ language u := by
  intro prev u rest
  constructor
  · intro h
    generalize hrep : Regex.optional r = repetition at h
    cases h with
    | stop => exact .inl rfl
    | more _ _ hone hagain =>
      cases hrep
      cases hagain with
      | stop =>
        rw [List.append_nil]
        exact .inr ((hr _ _ _).mp hone)
      | more hmost => exact absurd rfl hmost
    | _ => cases hrep
  · intro h
    rcases h with rfl | h
    · exact .stop
    · have hone : Accepts r prev u ([] ++ rest) := (hr _ _ _).mpr h
      rw [← List.append_nil u]
      refine .more nofun ?_ hone .stop
      rintro rfl
      exact hne h

/-- A repetition of a character class without an upper bound. -/
theorem denotes_rep_char (least : ℕ) :
    Denotes (rep greedy least none (char p)) fun u => least ≤ u.length ∧ ∀ a ∈ u, p a = true := by
  intro prev u rest
  constructor
  · intro h
    generalize hrep : rep greedy least none (char p) = repetition at h
    induction h generalizing least with
    | stop =>
      cases hrep
      exact ⟨Nat.zero_le _, fun a ha => absurd ha List.not_mem_nil⟩
    | required hone _ _ ih =>
      cases hrep
      cases hone with
      | char hp =>
        obtain ⟨hlength, hall⟩ := ih _ rfl
        exact ⟨Nat.succ_le_succ hlength, List.forall_mem_cons.mpr ⟨hp, hall⟩⟩
    | more _ _ hone _ _ ih =>
      cases hrep
      cases hone with
      | char hp =>
        obtain ⟨-, hall⟩ := ih _ rfl
        exact ⟨Nat.zero_le _, List.forall_mem_cons.mpr ⟨hp, hall⟩⟩
    | _ => cases hrep
  · rintro ⟨hlength, hall⟩
    induction u generalizing prev least with
    | nil =>
      obtain rfl := Nat.le_zero.mp hlength
      exact .stop
    | cons a u ih =>
      obtain ⟨hp, hall⟩ := List.forall_mem_cons.mp hall
      cases least with
      | zero =>
        exact .more (u := [a]) nofun (List.cons_ne_nil _ _) (.char hp) (ih _ _ (Nat.zero_le _) hall)
      | succ least =>
        exact .required (u := [a]) (.char hp) (ih _ _ (Nat.le_of_succ_le_succ hlength) hall)

theorem Denotes.occurs (hr : Denotes r language) {prev : Option α} {text : List α} :
    Occurs r prev text ↔ ∃ u, u <:+: text ∧ language u := by
  constructor
  · intro ⟨before, u, rest, htext, h⟩
    refine ⟨u, ⟨before, rest, ?_⟩, (hr _ _ _).mp h⟩
    rw [htext, List.append_assoc]
  · intro ⟨u, ⟨before, rest, htext⟩, h⟩
    refine ⟨before, u, rest, ?_, (hr _ _ _).mpr h⟩
    rw [← htext, List.append_assoc]

end DecisionAssurance.Regex
