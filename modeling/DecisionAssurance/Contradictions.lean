import DecisionAssurance.EvidencePolicies
import Mathlib.Data.List.Dedup

/-!
# Contradictions between texts

`_contradicts` looks for a positive phrase in one text and its negation in the other. Some
positive phrases stand inside their own negations, so that a text which only prohibits something
also contains the phrase that affirms it. An affirmation is therefore an occurrence of the
positive phrase outside every occurrence of the negative one.
-/

namespace DecisionAssurance

section Occurrences

variable {α : Type*} {item inner text : List α} {i j : ℕ}

/-- The item stands in the text at this position. -/
def OccursAt (item text : List α) (i : ℕ) : Prop := item <+: text.drop i

theorem infix_iff_occursAt : item <:+: text ↔ ∃ i, OccursAt item text i := by
  rw [List.infix_iff_prefix_suffix]
  constructor
  · intro ⟨rest, hprefix, hsuffix⟩
    refine ⟨text.length - rest.length, ?_⟩
    rw [OccursAt, ← List.suffix_iff_eq_drop.mp hsuffix]
    exact hprefix
  · intro ⟨i, h⟩
    exact ⟨text.drop i, h, List.drop_suffix i text⟩

/-- What occurs within an occurrence of an item is part of the item. -/
theorem OccursAt.infix_of_within (hinner : OccursAt inner text i) (hitem : OccursAt item text j)
    (hstart : j ≤ i) (hend : i + inner.length ≤ j + item.length) : inner <:+: item := by
  obtain ⟨rest, hrest⟩ := hitem
  rw [infix_iff_occursAt]
  refine ⟨i - j, ?_⟩
  have hdrop : text.drop i = item.drop (i - j) ++ rest := by
    have hle : i - j ≤ item.length := by omega
    rw [← Nat.add_sub_cancel' hstart, ← List.drop_drop, ← hrest, Nat.add_sub_cancel_left,
      List.drop_append_of_le_length hle]
  rw [OccursAt, hdrop] at hinner
  apply List.prefix_of_prefix_length_le hinner (List.prefix_append _ _)
  rw [List.length_drop]
  omega

end Occurrences

namespace Research

section Contradictions

variable (casefold : String → String)

/-- The text as `_contradicts` searches it. -/
def padded (text : String) : List Char := (" " ++ casefold text ++ " ").toList

/-- The text contains the phrase. -/
def Mentions (phrase text : String) : Prop := phrase.toList <:+: padded casefold text

/-- The text contains the pair's positive phrase at an occurrence that is not part of the pair's
negative phrase. -/
def Affirms (pair : String × String) (text : String) : Prop :=
  ∃ i, OccursAt pair.1.toList (padded casefold text) i ∧
    ∀ j, OccursAt pair.2.toList (padded casefold text) j →
      ¬ (j ≤ i ∧ i + pair.1.toList.length ≤ j + pair.2.toList.length)

/-- One text negates what the other affirms. -/
def Opposed (left right : String) : Prop :=
  ∃ pair ∈ negationPairs,
    (Affirms casefold pair left ∧ Mentions casefold pair.2 right) ∨
      (Mentions casefold pair.2 left ∧ Affirms casefold pair right)

/-- The texts share at least half of the words of the shorter one. -/
def Overlapping (left right : String) : Prop :=
  let overlap := ((coreWords casefold left).filter fun w => w ∈ coreWords casefold right).length
  0 < overlap ∧
    max 1 (min (coreWords casefold left).length (coreWords casefold right).length) ≤ 2 * overlap

/-- Both texts make the same prohibition. -/
def SharedProhibition (left right : String) : Prop :=
  ∃ phrase ∈ [" must not ", " shall not "],
    Mentions casefold phrase left ∧ Mentions casefold phrase right

variable {casefold : String → String} {left right text : String} {pair : String × String}

theorem contradicts_iff : contradicts casefold left right = true ↔
    (∃ pair ∈ negationPairs,
      (Mentions casefold pair.1 left ∧ Mentions casefold pair.2 right) ∨
        (Mentions casefold pair.2 left ∧ Mentions casefold pair.1 right)) ∧
      Overlapping casefold left right := by
  simp only [contradicts, contains, Bool.and_eq_true, List.any_eq_true, Bool.or_eq_true,
    decide_eq_true_eq, Mentions, padded, Overlapping, and_assoc]

theorem Overlapping.symm (h : Overlapping casefold left right) :
    Overlapping casefold right left := by
  have hperm : ((coreWords casefold left).filter fun w => w ∈ coreWords casefold right).Perm
      ((coreWords casefold right).filter fun w => w ∈ coreWords casefold left) := by
    apply (List.perm_ext_iff_of_nodup _ _).mpr
    · intro w
      simp only [List.mem_filter, decide_eq_true_eq]
      exact and_comm
    · exact List.Nodup.filter _ (List.nodup_dedup _)
    · exact List.Nodup.filter _ (List.nodup_dedup _)
  simpa only [Overlapping, hperm.length_eq, min_comm] using h

theorem contradicts_symm (h : contradicts casefold left right = true) :
    contradicts casefold right left = true := by
  rw [contradicts_iff] at h ⊢
  obtain ⟨⟨pair, hpair, hexplicit⟩, hoverlap⟩ := h
  refine ⟨⟨pair, hpair, ?_⟩, hoverlap.symm⟩
  exact hexplicit.symm.imp And.symm And.symm

theorem contradicts_comm : contradicts casefold left right = contradicts casefold right left :=
  Bool.eq_iff_iff.mpr ⟨contradicts_symm, contradicts_symm⟩

theorem Affirms.mentions (h : Affirms casefold pair text) : Mentions casefold pair.1 text := by
  obtain ⟨i, hi, -⟩ := h
  exact infix_iff_occursAt.mpr ⟨i, hi⟩

/-- A positive phrase that affirms nothing stands inside its negation. -/
theorem Mentions.affirms_or (h : Mentions casefold pair.1 text) :
    Affirms casefold pair text ∨
      (Mentions casefold pair.2 text ∧ pair.1.toList <:+: pair.2.toList) := by
  obtain ⟨i, hi⟩ := infix_iff_occursAt.mp h
  by_cases hinside : ∃ j, OccursAt pair.2.toList (padded casefold text) j ∧
      j ≤ i ∧ i + pair.1.toList.length ≤ j + pair.2.toList.length
  · obtain ⟨j, hj, hstart, hend⟩ := hinside
    apply Or.inr
    exact ⟨infix_iff_occursAt.mpr ⟨j, hj⟩, hi.infix_of_within hj hstart hend⟩
  · apply Or.inl
    exact ⟨i, hi, fun j hj hin => hinside ⟨j, hj, hin⟩⟩

/-- Only these two negations contain what they negate. -/
theorem negation_contains_iff (h : pair ∈ negationPairs) :
    pair.1.toList <:+: pair.2.toList ↔ pair.2 ∈ [" must not ", " shall not "] := by
  have hall : ∀ pair ∈ negationPairs,
      pair.1.toList <:+: pair.2.toList ↔ pair.2 ∈ [" must not ", " shall not "] := by decide
  exact hall pair h

theorem Opposed.explicit (h : Opposed casefold left right) :
    ∃ pair ∈ negationPairs,
      (Mentions casefold pair.1 left ∧ Mentions casefold pair.2 right) ∨
        (Mentions casefold pair.2 left ∧ Mentions casefold pair.1 right) := by
  obtain ⟨pair, hpair, hopposed⟩ := h
  refine ⟨pair, hpair, hopposed.imp ?_ ?_⟩
  · exact And.imp_left Affirms.mentions
  · exact And.imp_right Affirms.mentions

/-- The search finds the texts that are opposed, and besides them those that make the same
prohibition. -/
theorem explicit_iff :
    (∃ pair ∈ negationPairs,
      (Mentions casefold pair.1 left ∧ Mentions casefold pair.2 right) ∨
        (Mentions casefold pair.2 left ∧ Mentions casefold pair.1 right)) ↔
      Opposed casefold left right ∨ SharedProhibition casefold left right := by
  constructor
  · intro ⟨pair, hpair, hexplicit⟩
    rcases hexplicit with ⟨hpositive, hnegative⟩ | ⟨hnegative, hpositive⟩
    · rcases hpositive.affirms_or with haffirms | ⟨hboth, hinside⟩
      · exact .inl ⟨pair, hpair, .inl ⟨haffirms, hnegative⟩⟩
      · have hphrase := (negation_contains_iff hpair).mp hinside
        exact .inr ⟨pair.2, hphrase, hboth, hnegative⟩
    · rcases hpositive.affirms_or with haffirms | ⟨hboth, hinside⟩
      · exact .inl ⟨pair, hpair, .inr ⟨hnegative, haffirms⟩⟩
      · have hphrase := (negation_contains_iff hpair).mp hinside
        exact .inr ⟨pair.2, hphrase, hnegative, hboth⟩
  · intro h
    rcases h with hopposed | ⟨phrase, hphrase, hleft, hright⟩
    · exact hopposed.explicit
    · obtain ⟨pair, hpair, rfl⟩ : ∃ pair ∈ negationPairs, pair.2 = phrase := by
        have hall : ∀ phrase ∈ [" must not ", " shall not "],
            ∃ pair ∈ negationPairs, pair.2 = phrase := by decide
        exact hall phrase hphrase
      have hinside := (negation_contains_iff hpair).mpr hphrase
      exact ⟨pair, hpair, .inl ⟨hinside.trans hleft, hright⟩⟩

variable (casefold left right) in
/-- What marking a contradiction promises of two texts: the order does not matter, one text
negates what the other affirms, and so two texts that contain the phrases in negated form only are
never marked. -/
structure LawfulContradiction : Prop where
  symmetric : contradicts casefold left right = contradicts casefold right left
  opposed : contradicts casefold left right = true → Opposed casefold left right
  negated : (∀ pair ∈ negationPairs, ¬ Affirms casefold pair left) →
    (∀ pair ∈ negationPairs, ¬ Affirms casefold pair right) →
    contradicts casefold left right = false

theorem lawful_of_opposed
    (h : contradicts casefold left right = true → Opposed casefold left right) :
    LawfulContradiction casefold left right where
  symmetric := contradicts_comm
  opposed := h
  negated := by
    intro hleft hright
    rw [Bool.eq_false_iff]
    intro hcontradicts
    obtain ⟨pair, hpair, ⟨haffirms, -⟩ | ⟨-, haffirms⟩⟩ := h hcontradicts
    · exact hleft pair hpair haffirms
    · exact hright pair hpair haffirms

theorem opposed_of_contradicts
    (h : SharedProhibition casefold left right → Overlapping casefold left right →
      Opposed casefold left right)
    (hcontradicts : contradicts casefold left right = true) : Opposed casefold left right := by
  obtain ⟨hexplicit, hoverlap⟩ := contradicts_iff.mp hcontradicts
  rcases explicit_iff.mp hexplicit with hopposed | hshared
  · exact hopposed
  · exact h hshared hoverlap

/-- The marking is right exactly where no prohibition that two overlapping texts share takes the
place of an opposition. -/
theorem lawful_contradiction_iff : LawfulContradiction casefold left right ↔
    (SharedProhibition casefold left right → Overlapping casefold left right →
      Opposed casefold left right) := by
  constructor
  · intro hlawful hshared hoverlap
    apply hlawful.opposed
    exact contradicts_iff.mpr ⟨explicit_iff.mpr (.inr hshared), hoverlap⟩
  · intro h
    apply lawful_of_opposed
    exact opposed_of_contradicts h

/-! ## Texts that only prohibit -/

/-- A text that affirms something does so at one of its positions. -/
theorem Affirms.bounded (hphrase : pair.1.toList ≠ []) (h : Affirms casefold pair text) :
    ∃ i ∈ List.range (padded casefold text).length,
      pair.1.toList <+: (padded casefold text).drop i ∧
        ∀ j ∈ List.range (padded casefold text).length,
          pair.2.toList <+: (padded casefold text).drop j →
            ¬ (j ≤ i ∧ i + pair.1.toList.length ≤ j + pair.2.toList.length) := by
  obtain ⟨i, hi, houtside⟩ := h
  refine ⟨i, ?_, hi, fun j _ hj => houtside j hj⟩
  rw [List.mem_range]
  by_contra hlong
  rw [OccursAt, List.drop_eq_nil_of_le (not_lt.mp hlong)] at hi
  exact hphrase (List.prefix_nil.mp hi)

/-- `str.casefold` on texts in ASCII. -/
def asciiCasefold (text : String) : String := String.ofList (text.toList.map Char.toLower)

/-- Two sources that forbid the same thing are marked as contradicting each other. -/
theorem shared_prohibition_marked :
    contradicts asciiCasefold "Suppliers must not share records"
        "Suppliers must not share records" = true ∧
      (∀ pair ∈ negationPairs, ¬ Affirms asciiCasefold pair "Suppliers must not share records") ∧
      ¬ LawfulContradiction asciiCasefold "Suppliers must not share records"
        "Suppliers must not share records" := by
  have hmarked : contradicts asciiCasefold "Suppliers must not share records"
      "Suppliers must not share records" = true := by rfl
  have hnone : ∀ pair ∈ negationPairs,
      ¬ Affirms asciiCasefold pair "Suppliers must not share records" := by
    intro pair hpair haffirms
    have hphrase : pair.1.toList ≠ [] := by
      have hall : ∀ pair ∈ negationPairs, pair.1.toList ≠ [] := by decide
      exact hall pair hpair
    have hbounded := haffirms.bounded hphrase
    revert hbounded
    clear hphrase haffirms
    revert pair
    decide
  refine ⟨hmarked, hnone, fun hlawful => ?_⟩
  rw [hlawful.negated hnone hnone] at hmarked
  cases hmarked

end Contradictions

end Research

end DecisionAssurance
