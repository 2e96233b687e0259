import Mathlib.Algebra.Field.Rat
import DecisionAssurance.IntakeConflicts

/-!
# What conflicts say

Conflicts are looked for among the normalized texts, and a text says neither the currency nor that
it is another notation of the same number. So they are conflicts of quantities exactly where equal
quantities are written alike, and equal texts have one currency.
-/

namespace DecisionAssurance.Intake

open QuoteExtractor

section Quantities

variable (py : Interpreter)

/-- The number that a text is read as, or the text itself where it cannot be read. -/
def denoted (s : List Char) : ℚ ⊕ List Char :=
  match DecimalNumber.parse py.decimal s with
  | some (.finite negative c e) => .inl (DecimalNumber.signed negative c * 10 ^ e)
  | _ => .inr s

/-- A number or text with its currency. -/
abbrev Quantity := Option (ℚ ⊕ List Char) × Option String

def CandidateFact.quantity (c : CandidateFact) : Quantity :=
  (c.normalizedValue.map fun value => denoted py value.toList, c.currency)

/-- Two candidates of the type denote different quantities. -/
def Different (candidates : List CandidateFact) (factType : FactType) : Prop :=
  ∃ c ∈ candidates, ∃ d ∈ candidates, c.factType = factType ∧ d.factType = factType ∧
    c.quantity py ≠ d.quantity py

/-- A conflict is reported of exactly the types with different quantities, and refers to exactly the
candidates of its type. -/
def SemanticConflicts (report : ExtractionReport) : Prop :=
  ∀ factType ∈ conflictTypes,
    ((∃ k ∈ report.conflicts, k.factType = factType) ↔
      Different py report.candidates factType) ∧
    ∀ k ∈ report.conflicts, k.factType = factType → k.factRefs =
      (report.candidates.filter fun c => c.factType = factType).map CandidateFact.factId

/-! ## What the patterns find -/

def QuoteExtractor.Found.quantity (f : QuoteExtractor.Found) : (ℚ ⊕ List Char) × Option String :=
  (denoted py f.normalized, f.currency)

/-- All that is found of the type is one quantity, in more than one notation. -/
def Spurious (found : List QuoteExtractor.Found) (factType : FactType) : Prop :=
  (∃ f ∈ found, ∃ g ∈ found, f.factType = factType ∧ g.factType = factType ∧
    f.normalized ≠ g.normalized) ∧
  ∀ f ∈ found, ∀ g ∈ found, f.factType = factType → g.factType = factType →
    QuoteExtractor.Found.quantity py f = QuoteExtractor.Found.quantity py g

end Quantities

/-- All that is found of the type has one text, and not one currency. -/
def Unnoticed (found : List QuoteExtractor.Found) (factType : FactType) : Prop :=
  (∀ f ∈ found, ∀ g ∈ found, f.factType = factType → g.factType = factType →
    f.normalized = g.normalized) ∧
  ∃ f ∈ found, ∃ g ∈ found, f.factType = factType ∧ g.factType = factType ∧
    f.currency ≠ g.currency

/-- The locale that an extraction goes by. -/
def localeOf (locale : String) : String := if locale = "de" ∨ locale = "en" then locale else "en"

section Reported

variable {py : Interpreter} {intakeId : String} {candidates : List CandidateFact}
  {factType : FactType}

def group (candidates : List CandidateFact) (factType : FactType) : List CandidateFact :=
  candidates.filter fun c => c.factType = factType

/-- Every type with two values has one conflict, which refers to its candidates. -/
theorem map_conflicts :
    (conflicts intakeId candidates).map (fun k => (k.factType, k.factRefs)) =
      (conflictTypes.filter fun t =>
        1 < ((group candidates t).map CandidateFact.normalizedValue).dedup.length).map fun t =>
          (t, (group candidates t).map CandidateFact.factId) := by
  have hfold : ∀ (types : List FactType) (before : List IntakeConflict),
      (types.foldl (fun conflicts factType =>
        let group := candidates.filter fun item => item.factType = factType
        if 1 < (group.map CandidateFact.normalizedValue).dedup.length then
          conflicts ++ [{
            conflictId := s!"{intakeId}:conflict:{toString (conflicts.length + 1)}"
            factType := factType
            factRefs := group.map CandidateFact.factId
            reasonCode := "CONFLICTING_CANDIDATES" }]
        else conflicts) before).map (fun k => (k.factType, k.factRefs)) =
      before.map (fun k => (k.factType, k.factRefs)) ++ (types.filter fun t =>
        1 < ((group candidates t).map CandidateFact.normalizedValue).dedup.length).map fun t =>
          (t, (group candidates t).map CandidateFact.factId) := by
    intro types
    induction types with
    | nil => simp
    | cons t types ih =>
      intro before
      rw [List.foldl_cons, ih]
      by_cases hconflict :
          1 < ((group candidates t).map CandidateFact.normalizedValue).dedup.length
      · rw [List.filter_cons_of_pos (by simpa using hconflict)]
        unfold group at hconflict
        simp [hconflict, group]
      · rw [List.filter_cons_of_neg (by simpa using hconflict)]
        unfold group at hconflict
        simp [hconflict]
  exact hfold conflictTypes []

theorem mem_conflicts (htype : factType ∈ conflictTypes) :
    (∃ k ∈ conflicts intakeId candidates, k.factType = factType) ↔
      ∃ c ∈ candidates, ∃ d ∈ candidates, c.factType = factType ∧ d.factType = factType ∧
        c.normalizedValue ≠ d.normalizedValue := by
  have hmem : (∃ k ∈ conflicts intakeId candidates, k.factType = factType) ↔
      ∃ refs, (factType, refs) ∈
        (conflicts intakeId candidates).map fun k => (k.factType, k.factRefs) := by
    constructor
    · rintro ⟨k, hk, rfl⟩
      exact ⟨k.factRefs, List.mem_map_of_mem hk⟩
    · rintro ⟨refs, hrefs⟩
      obtain ⟨k, hk, heq⟩ := List.mem_map.mp hrefs
      exact ⟨k, hk, (Prod.mk.inj heq).1⟩
  rw [hmem, map_conflicts]
  simp only [List.mem_map, List.mem_filter, decide_eq_true_eq, Prod.mk.injEq]
  constructor
  · rintro ⟨refs, t, ⟨-, hshort⟩, rfl, -⟩
    obtain ⟨a, hc', b, hd', hne⟩ := one_lt_dedup.mp hshort
    obtain ⟨c, hc, rfl⟩ := List.mem_map.mp hc'
    obtain ⟨d, hd, rfl⟩ := List.mem_map.mp hd'
    obtain ⟨hc, hct⟩ := List.mem_filter.mp hc
    obtain ⟨hd, hdt⟩ := List.mem_filter.mp hd
    exact ⟨c, hc, d, hd, of_decide_eq_true hct, of_decide_eq_true hdt, hne⟩
  · rintro ⟨c, hc, d, hd, hct, hdt, hne⟩
    have hcmem : c ∈ group candidates factType := List.mem_filter.mpr ⟨hc, decide_eq_true hct⟩
    have hdmem : d ∈ group candidates factType := List.mem_filter.mpr ⟨hd, decide_eq_true hdt⟩
    exact ⟨_, factType, ⟨htype, one_lt_dedup.mpr ⟨_, List.mem_map_of_mem hcmem, _,
      List.mem_map_of_mem hdmem, hne⟩⟩, rfl, rfl⟩

theorem factRefs_conflicts {k : IntakeConflict} (hk : k ∈ conflicts intakeId candidates) :
    k.factRefs = (group candidates k.factType).map CandidateFact.factId := by
  have hmem : (k.factType, k.factRefs) ∈
      (conflicts intakeId candidates).map fun k => (k.factType, k.factRefs) :=
    List.mem_map_of_mem hk
  rw [map_conflicts] at hmem
  obtain ⟨t, -, heq⟩ := List.mem_map.mp hmem
  obtain ⟨rfl, hrefs⟩ := Prod.mk.inj heq
  exact hrefs.symm

end Reported

section Extracted

variable {py : Interpreter} {rawInput locale intakeId : String}

theorem withConflict_currency (conflicts : List IntakeConflict) (c : CandidateFact) :
    (withConflict conflicts c).currency = c.currency := by
  unfold withConflict
  split <;> rfl

/-- What a candidate is compared by. -/
def CandidateFact.compared (c : CandidateFact) : FactType × Option String × Option String :=
  (c.factType, c.normalizedValue, c.currency)

def QuoteExtractor.Found.compared (f : QuoteExtractor.Found) :
    FactType × Option String × Option String :=
  (f.factType, some (String.ofList f.normalized), f.currency)

theorem map_compared_extract : (extract py rawInput locale intakeId).candidates.map
    CandidateFact.compared =
      (found py rawInput.toList (localeOf locale)).map QuoteExtractor.Found.compared := by
  have hmap : ∀ (fs : List QuoteExtractor.Found) (sourceHash : String),
      (fs.mapIdx fun i f => candidate intakeId sourceHash f (i + 1)).map CandidateFact.compared =
        fs.map QuoteExtractor.Found.compared := by
    intro fs sourceHash
    rw [List.mapIdx_eq_zipIdx_map, List.map_map]
    conv_rhs => rw [← List.zipIdx_map_fst 0 fs, List.map_map]
    rfl
  have hsame : ∀ conflicts : List IntakeConflict,
      CandidateFact.compared ∘ withConflict conflicts = CandidateFact.compared := by
    intro conflicts
    funext c
    simp [CandidateFact.compared, withConflict_currency]
  unfold extract
  simp only [List.map_map, hsame]
  exact hmap _ _

/-- Two candidates differ in a way exactly if two of the findings do. -/
theorem exists_pair_extract (py : Interpreter) (rawInput locale intakeId : String)
    (R : FactType × Option String × Option String →
      FactType × Option String × Option String → Prop) :
    (∃ c ∈ (extract py rawInput locale intakeId).candidates,
      ∃ d ∈ (extract py rawInput locale intakeId).candidates, R c.compared d.compared) ↔
      ∃ f ∈ found py rawInput.toList (localeOf locale),
        ∃ g ∈ found py rawInput.toList (localeOf locale), R f.compared g.compared := by
  have hread : ∀ {α : Type} (l : List α) (k : α → FactType × Option String × Option String),
      (∃ c ∈ l, ∃ d ∈ l, R (k c) (k d)) ↔ ∃ x ∈ l.map k, ∃ y ∈ l.map k, R x y := by
    intro α l k
    simp only [List.mem_map, exists_exists_and_eq_and]
  rw [hread _ CandidateFact.compared, hread _ QuoteExtractor.Found.compared, map_compared_extract]

end Extracted

section Meaning

variable {py : Interpreter} {rawInput locale intakeId : String} {factType : FactType}

theorem conflict_extract_iff (htype : factType ∈ conflictTypes) :
    (∃ k ∈ (extract py rawInput locale intakeId).conflicts, k.factType = factType) ↔
      ∃ f ∈ found py rawInput.toList (localeOf locale),
        ∃ g ∈ found py rawInput.toList (localeOf locale), f.factType = factType ∧
          g.factType = factType ∧ f.normalized ≠ g.normalized := by
  have hreported : (∃ k ∈ (extract py rawInput locale intakeId).conflicts,
      k.factType = factType) ↔ ∃ c ∈ (extract py rawInput locale intakeId).candidates,
        ∃ d ∈ (extract py rawInput locale intakeId).candidates, c.factType = factType ∧
          d.factType = factType ∧ c.normalizedValue ≠ d.normalizedValue := by
    unfold extract
    simp only [mem_conflicts htype, List.mem_map, exists_exists_and_eq_and,
      withConflict_factType, withConflict_normalizedValue]
  rw [hreported]
  have hpair := exists_pair_extract py rawInput locale intakeId fun x y =>
    x.1 = factType ∧ y.1 = factType ∧ x.2.1 ≠ y.2.1
  have hinj : ∀ a b, String.ofList a = String.ofList b ↔ a = b := fun a b =>
    ⟨fun h => by simpa using congrArg String.toList h, congrArg _⟩
  simpa [CandidateFact.compared, QuoteExtractor.Found.compared, hinj] using hpair

theorem different_extract_iff :
    Different py (extract py rawInput locale intakeId).candidates factType ↔
      ∃ f ∈ found py rawInput.toList (localeOf locale),
        ∃ g ∈ found py rawInput.toList (localeOf locale), f.factType = factType ∧
          g.factType = factType ∧ f.quantity py ≠ g.quantity py := by
  have hpair := exists_pair_extract py rawInput locale intakeId fun x y =>
    x.1 = factType ∧ y.1 = factType ∧
      ((x.2.1.map fun value => denoted py value.toList, x.2.2) : Quantity) ≠
        (y.2.1.map fun value => denoted py value.toList, y.2.2)
  simpa [Different, CandidateFact.compared, QuoteExtractor.Found.compared, CandidateFact.quantity,
    QuoteExtractor.Found.quantity] using hpair

/-- The candidates before they name their conflicts. -/
def numberedCandidates (py : Interpreter) (rawInput locale intakeId : String) :
    List CandidateFact :=
  (found py rawInput.toList (localeOf locale)).mapIdx fun i f =>
    candidate intakeId ("sha256:" ++ py.sha256 rawInput.toList) f (i + 1)

theorem extract_parts (py : Interpreter) (rawInput locale intakeId : String) :
    (extract py rawInput locale intakeId).conflicts =
      conflicts intakeId (numberedCandidates py rawInput locale intakeId) ∧
    (extract py rawInput locale intakeId).candidates =
      (numberedCandidates py rawInput locale intakeId).map
        (withConflict (conflicts intakeId (numberedCandidates py rawInput locale intakeId))) := by
  simp only [extract, numberedCandidates, localeOf, and_self]

theorem factRefs_extract {k : IntakeConflict}
    (hk : k ∈ (extract py rawInput locale intakeId).conflicts) :
    k.factRefs = (group (extract py rawInput locale intakeId).candidates k.factType).map
      CandidateFact.factId := by
  have hsame : ∀ (conflicts : List IntakeConflict) (candidates : List CandidateFact),
      (group (candidates.map (withConflict conflicts)) k.factType).map CandidateFact.factId =
        (group candidates k.factType).map CandidateFact.factId := by
    intro conflicts candidates
    unfold group
    rw [List.filter_map, List.map_map]
    simp [Function.comp_def]
  obtain ⟨hconflicts, hcandidates⟩ := extract_parts py rawInput locale intakeId
  rw [hconflicts] at hk
  rw [hcandidates, hsame]
  exact factRefs_conflicts hk

end Meaning

/-- Conflicts are semantic exactly for the texts of which no type is one quantity in different
notations, or one number in different currencies. -/
theorem semanticConflicts_iff (py : Interpreter) (rawInput locale intakeId : String) :
    SemanticConflicts py (extract py rawInput locale intakeId) ↔ ∀ factType ∈ conflictTypes,
      ¬Spurious py (found py rawInput.toList (localeOf locale)) factType ∧
        ¬Unnoticed (found py rawInput.toList (localeOf locale)) factType := by
  apply forall₂_congr
  intro factType htype
  have hrefs : ∀ k ∈ (extract py rawInput locale intakeId).conflicts, k.factType = factType →
      k.factRefs = ((extract py rawInput locale intakeId).candidates.filter fun c =>
        c.factType = factType).map CandidateFact.factId := by
    rintro k hk rfl
    exact factRefs_extract hk
  rw [and_iff_left hrefs, conflict_extract_iff htype, different_extract_iff]
  generalize found py rawInput.toList (localeOf locale) = fs
  constructor
  · intro h
    refine ⟨?_, ?_⟩
    · rintro ⟨htexts, hall⟩
      obtain ⟨f, hf, g, hg, hft, hgt, hne⟩ := h.mp htexts
      exact hne (hall f hf g hg hft hgt)
    · rintro ⟨hall, f, hf, g, hg, hft, hgt, hne⟩
      obtain ⟨f', hf', g', hg', hft', hgt', htexts⟩ := h.mpr
        ⟨f, hf, g, hg, hft, hgt, fun heq => hne (Prod.mk.inj heq).2⟩
      exact htexts (hall f' hf' g' hg' hft' hgt')
  · rintro ⟨hspurious, hunnoticed⟩
    constructor
    · intro htexts
      by_contra hnone
      refine hspurious ⟨htexts, fun f hf g hg hft hgt => ?_⟩
      by_contra hne
      exact hnone ⟨f, hf, g, hg, hft, hgt, hne⟩
    · rintro ⟨f, hf, g, hg, hft, hgt, hne⟩
      by_contra hnone
      have hall : ∀ f ∈ fs, ∀ g ∈ fs, f.factType = factType → g.factType = factType →
          f.normalized = g.normalized := by
        intro f hf g hg hft hgt
        by_contra htexts
        exact hnone ⟨f, hf, g, hg, hft, hgt, htexts⟩
      refine hunnoticed ⟨hall, f, hf, g, hg, hft, hgt, fun hcurrency => hne ?_⟩
      unfold QuoteExtractor.Found.quantity
      rw [hall f hf g hg hft hgt, hcurrency]

/-- One euro and one dollar are no conflict. -/
theorem currencies_unnoticed : ¬∀ (py : Interpreter) (rawInput locale intakeId : String),
    SemanticConflicts py (extract py rawInput locale intakeId) := by
  intro h
  have hconflict := ((h asciiInterpreter "1€ 1$" "en" "quote" .amount (by decide)).1.mpr ?_)
  · have hnone : (quoteOf "1€ 1$").conflicts = [] := by
      rfl
    obtain ⟨k, hk, -⟩ := hconflict
    change k ∈ (quoteOf "1€ 1$").conflicts at hk
    rw [hnone] at hk
    cases hk
  · have hcurrencies : ∃ c ∈ (quoteOf "1€ 1$").candidates, ∃ d ∈ (quoteOf "1€ 1$").candidates,
        c.factType = .amount ∧ d.factType = .amount ∧ c.currency ≠ d.currency := by
      decide
    obtain ⟨c, hc, d, hd, hct, hdt, hne⟩ := hcurrencies
    exact ⟨c, hc, d, hd, hct, hdt, fun heq => hne (Prod.mk.inj heq).2⟩

end DecisionAssurance.Intake
