import Mathlib.Data.List.Induction
import Mathlib.Data.List.Range

/-!
# Records and their journals

A record is written together with an entry of its journal: the first entry opens the record and
each later one has an effect on it. Whoever keeps to this can tell the record from its journal.
The entries are numbered from one, each by the highest number so far.
-/

namespace DecisionAssurance.Journals

variable {σ ε : Type*} {opens : ε → σ → Prop} {effect : σ → ε → σ} {log log' : List ε}
  {state state' : Option σ}

/-- The record that a journal tells of. -/
inductive Tells (opens : ε → σ → Prop) (effect : σ → ε → σ) : List ε → Option σ → Prop
  | blank : Tells opens effect [] none
  | opened {e : ε} {s : σ} (rest : List ε) : opens e s →
      Tells opens effect (e :: rest) (some (rest.foldl effect s))

/-- What may become of a journal and its record at once. -/
inductive Writes (opens : ε → σ → Prop) (effect : σ → ε → σ) :
    List ε → Option σ → List ε → Option σ → Prop
  | kept (log : List ε) (state : Option σ) : Writes opens effect log state log state
  | opened {e : ε} {s : σ} (log : List ε) : opens e s →
      Writes opens effect log none (log ++ [e]) (some s)
  | entered (log : List ε) (s : σ) (e : ε) :
      Writes opens effect log (some s) (log ++ [e]) (some (effect s e))

theorem Tells.writes (h : Tells opens effect log state)
    (hw : Writes opens effect log state log' state') : Tells opens effect log' state' := by
  cases hw with
  | kept => exact h
  | opened _ hopens =>
    cases h
    exact .opened [] hopens
  | entered _ _ e =>
    cases h with
    | @opened _ s rest hopens =>
      have hfold : effect (rest.foldl effect s) e = (rest ++ [e]).foldl effect s :=
        (List.foldl_concat effect s e rest).symm
      rw [List.cons_append, hfold]
      exact .opened (rest ++ [e]) hopens

theorem Tells.mono {opens' : ε → σ → Prop} (hopens : ∀ e s, opens e s → opens' e s)
    (h : Tells opens effect log state) : Tells opens' effect log state := by
  cases h with
  | blank => exact .blank
  | opened rest hfirst => exact .opened rest (hopens _ _ hfirst)

theorem Tells.eq_nil (h : Tells opens effect log none) : log = [] := by
  cases h
  rfl

/-! ## Numbers -/

/-- The highest of the numbers from one to `n`. -/
theorem foldl_max_range (n : ℕ) : ((List.range n).map (· + 1)).foldl max 0 = n := by
  induction n with
  | zero => rfl
  | succ n ih =>
    rw [List.range_succ, List.map_append, List.foldl_append, ih]
    simp only [List.map_cons, List.map_nil, List.foldl_cons, List.foldl_nil]
    omega

variable {number : ε → ℕ}

/-- The entries are numbered from one. -/
def Enumerated (number : ε → ℕ) (log : List ε) : Prop :=
  log.map number = (List.range log.length).map (· + 1)

theorem Enumerated.next (h : Enumerated number log) :
    (log.map number).foldl max 0 + 1 = log.length + 1 := by
  rw [h, foldl_max_range]

theorem Enumerated.concat (h : Enumerated number log) {e : ε} (he : number e = log.length + 1) :
    Enumerated number (log ++ [e]) := by
  unfold Enumerated at h ⊢
  rw [List.map_append, List.length_append, List.length_singleton, List.range_succ, List.map_append,
    h]
  simp only [List.map_cons, List.map_nil, he]

theorem Enumerated.le (h : Enumerated number log) {e : ε} (he : e ∈ log) :
    number e ≤ log.length := by
  have hmem : number e ∈ log.map number := List.mem_map_of_mem he
  rw [h, List.mem_map] at hmem
  obtain ⟨i, hi, hnumber⟩ := hmem
  have hlt := List.mem_range.mp hi
  omega

end DecisionAssurance.Journals
