import Mathlib.Data.List.Induction

/-!
# Pieces of a text

What the pieces between separators hold, and what joined pieces hold.
-/

namespace DecisionAssurance.TextPieces

variable {α : Type} {p : α → Bool} {c sep : α} {cs piece : List α} {pieces : List (List α)}

theorem sublist_of_mem_splitOnP (h : piece ∈ cs.splitOnP p) : piece.Sublist cs := by
  induction cs generalizing piece with
  | nil =>
    rw [List.splitOnP_nil, List.mem_singleton] at h
    exact h ▸ List.Sublist.refl []
  | cons x cs ih =>
    rw [List.splitOnP_cons_eq_if_modifyHead] at h
    split at h
    · rcases List.mem_cons.mp h with rfl | h
      · exact List.nil_sublist _
      · exact (ih h).cons x
    · obtain ⟨first, pieces, hpieces⟩ := List.exists_cons_of_ne_nil (List.splitOnP_ne_nil p cs)
      rw [hpieces, List.modifyHead_cons] at h
      rcases List.mem_cons.mp h with rfl | h
      · exact (ih (hpieces ▸ List.mem_cons_self)).cons_cons x
      · exact (ih (hpieces ▸ List.mem_cons_of_mem _ h)).cons x

theorem not_separator (h : piece ∈ cs.splitOnP p) (hc : c ∈ piece) : p c = false := by
  induction cs generalizing piece with
  | nil =>
    rw [List.splitOnP_nil, List.mem_singleton] at h
    rw [h] at hc
    cases hc
  | cons x cs ih =>
    rw [List.splitOnP_cons_eq_if_modifyHead] at h
    split at h
    · rcases List.mem_cons.mp h with rfl | h
      · cases hc
      · exact ih h hc
    · next hx =>
      obtain ⟨first, pieces, hpieces⟩ := List.exists_cons_of_ne_nil (List.splitOnP_ne_nil p cs)
      rw [hpieces, List.modifyHead_cons] at h
      rcases List.mem_cons.mp h with rfl | h
      · rcases List.mem_cons.mp hc with rfl | hc
        · exact Bool.not_eq_true _ ▸ hx
        · exact ih (hpieces ▸ List.mem_cons_self) hc
      · exact ih (hpieces ▸ List.mem_cons_of_mem _ h) hc

theorem sublist_of_mem_splitOn [BEq α] (h : piece ∈ cs.splitOn sep) : piece.Sublist cs := by
  rw [List.splitOn_eq_splitOnP] at h
  exact sublist_of_mem_splitOnP h

/-- A piece holds elements of the list that do not separate. -/
theorem mem_splitOn [BEq α] [LawfulBEq α] (h : piece ∈ cs.splitOn sep) (hc : c ∈ piece) :
    c ∈ cs ∧ c ≠ sep := by
  refine ⟨(sublist_of_mem_splitOn h).subset hc, ?_⟩
  rw [List.splitOn_eq_splitOnP] at h
  simpa using not_separator h hc

theorem mem_intercalate {seps : List α} (hc : c ∈ seps.intercalate pieces) :
    c ∈ seps ∨ ∃ piece ∈ pieces, c ∈ piece := by
  induction pieces with
  | nil => cases hc
  | cons piece pieces ih =>
    by_cases hpieces : pieces = []
    · rw [hpieces, List.intercalate_singleton] at hc
      exact Or.inr ⟨piece, List.mem_cons_self, hc⟩
    · rw [List.intercalate_cons_of_ne_nil hpieces, List.mem_append, List.mem_append] at hc
      rcases hc with (hc | hc) | hc
      · exact Or.inr ⟨piece, List.mem_cons_self, hc⟩
      · exact Or.inl hc
      · rcases ih hc with hc | ⟨other, hother, hc⟩
        · exact Or.inl hc
        · exact Or.inr ⟨other, List.mem_cons_of_mem _ hother, hc⟩

/-- The pieces of joined pieces are theirs. -/
theorem splitOn_intercalate_mem [BEq α] [LawfulBEq α] (hne : pieces ≠ [])
    (h : piece ∈ ([sep].intercalate pieces).splitOn sep) :
    ∃ whole ∈ pieces, piece ∈ whole.splitOn sep := by
  induction pieces with
  | nil => exact absurd rfl hne
  | cons whole pieces ih =>
    by_cases hpieces : pieces = []
    · rw [hpieces, List.intercalate_singleton] at h
      exact ⟨whole, List.mem_cons_self, h⟩
    · rw [List.intercalate_cons_of_ne_nil hpieces, List.append_assoc, List.singleton_append,
        List.splitOn_append_cons_self, List.mem_append] at h
      rcases h with h | h
      · exact ⟨whole, List.mem_cons_self, h⟩
      · obtain ⟨other, hother, h⟩ := ih hpieces h
        exact ⟨other, List.mem_cons_of_mem _ hother, h⟩

end DecisionAssurance.TextPieces
