import Mathlib.Data.List.Sort

/-!
# Pages of an ordered query

A query with `ORDER BY`, `LIMIT` and `OFFSET` leaves the order of rows that compare alike open, and
every query may settle it in its own way. Pages make up a table where no two rows compare alike.
-/

namespace DecisionAssurance.Paging

variable {ρ : Type*}

/-- An answer to `SELECT … ORDER BY … LIMIT … OFFSET …`. -/
def Selects (before : ρ → ρ → Prop) (rows : List ρ) (limit offset : ℕ) (page : List ρ) : Prop :=
  ∃ l : List ρ, l.Perm rows ∧ l.Pairwise before ∧ page = (l.drop offset).take limit

variable {before : ρ → ρ → Prop} {rows : List ρ} {limit offset : ℕ} {page : List ρ}

/-- The answer that sorting in place gives. -/
theorem selects_insertionSort [DecidableRel before] [Std.Total before] [IsTrans ρ before] :
    Selects before rows limit offset (((rows.insertionSort before).drop offset).take limit) :=
  ⟨_, List.perm_insertionSort before rows, List.pairwise_insertionSort before rows, rfl⟩

/-- All answers come from one order where no two rows compare alike. -/
theorem Selects.eq_of_pairwise {l : List ρ} (h : Selects before rows limit offset page)
    (hperm : l.Perm rows) (hl : l.Pairwise before)
    (hanti : ∀ r ∈ rows, ∀ r' ∈ rows, before r r' → before r' r → r = r') :
    page = (l.drop offset).take limit := by
  obtain ⟨l', hperm', hl', rfl⟩ := h
  have hsame : l' = l := by
    apply (hperm'.trans hperm.symm).eq_of_pairwise _ hl' hl
    intro r r' hr hr' hle hge
    exact hanti r (hperm'.mem_iff.mp hr) r' (hperm.mem_iff.mp hr') hle hge
  rw [hsame]

theorem flatMap_pages (l : List ρ) (limit n : ℕ) :
    (List.range n).flatMap (fun i => (l.drop (i * limit)).take limit) = l.take (n * limit) := by
  induction n with
  | zero => simp
  | succ n ih =>
    rw [List.range_succ, List.flatMap_append, ih, List.flatMap_singleton, Nat.succ_mul,
      List.take_add]

/-- Pages that are taken one after the other list every row once. -/
theorem perm_flatMap_pages {pages : ℕ → List ρ} {n : ℕ}
    (hanti : ∀ r ∈ rows, ∀ r' ∈ rows, before r r' → before r' r → r = r')
    (hpages : ∀ i < n, Selects before rows limit (i * limit) (pages i))
    (hn : rows.length ≤ n * limit) : ((List.range n).flatMap pages).Perm rows := by
  by_cases hzero : n = 0
  · subst hzero
    have hnil : rows = [] := List.length_eq_zero_iff.mp (by omega)
    rw [hnil]
    exact List.Perm.refl _
  · obtain ⟨l, hperm, hl, -⟩ := hpages 0 (by omega)
    have hsame : (List.range n).flatMap pages =
        (List.range n).flatMap fun i => (l.drop (i * limit)).take limit := by
      apply List.flatMap_congr
      intro i hi
      exact (hpages i (List.mem_range.mp hi)).eq_of_pairwise hperm hl hanti
    rw [hsame, flatMap_pages, List.take_of_length_le (hperm.length_eq ▸ hn)]
    exact hperm

end DecisionAssurance.Paging
