import Mathlib.Data.List.Dedup
import DecisionAssurance.IntakeTrust

/-!
# Revisions of a report

A confirmation followed by a verification again, as one step on the report, and when the
conflicting values of a quote keep it from being ready.
-/

namespace DecisionAssurance.Intake

/-! ## What extraction hands over -/

section Extracted

variable {py : Interpreter} {rawInput locale intakeId : String}

@[simp] theorem withConflict_factId (conflicts : List IntakeConflict) (c : CandidateFact) :
    (QuoteExtractor.withConflict conflicts c).factId = c.factId := by
  unfold QuoteExtractor.withConflict
  split <;> rfl

@[simp] theorem withConflict_factType (conflicts : List IntakeConflict) (c : CandidateFact) :
    (QuoteExtractor.withConflict conflicts c).factType = c.factType := by
  unfold QuoteExtractor.withConflict
  split <;> rfl

@[simp] theorem withConflict_normalizedValue (conflicts : List IntakeConflict)
    (c : CandidateFact) :
    (QuoteExtractor.withConflict conflicts c).normalizedValue = c.normalizedValue := by
  unfold QuoteExtractor.withConflict
  split <;> rfl

theorem nodup_extract : ((QuoteExtractor.extract py rawInput locale intakeId).candidates.map
    CandidateFact.factId).Nodup := by
  have hids : ∀ (found : List QuoteExtractor.Found) (sourceHash : String),
      ((found.mapIdx fun i f => QuoteExtractor.candidate intakeId sourceHash f (i + 1)).map
        CandidateFact.factId).Nodup := by
    intro found sourceHash
    rw [List.mapIdx_eq_zipIdx_map, List.map_map]
    change (found.zipIdx.map
      ((fun i : ℕ => s!"{intakeId}:fact:{toString (i + 1)}") ∘ Prod.snd)).Nodup
    rw [← List.map_map]
    apply List.Nodup.map
    · intro i j h
      exact Nat.succ_injective (numbered_injective intakeId ":fact:" h)
    · rw [List.zipIdx_map_snd]
      exact List.nodup_range'
  unfold QuoteExtractor.extract
  simp only [List.map_map]
  have hsame : ∀ conflicts, CandidateFact.factId ∘ QuoteExtractor.withConflict conflicts =
      CandidateFact.factId := fun conflicts => funext (withConflict_factId conflicts)
  rw [hsame]
  exact hids _ _

theorem valued_extract {c : CandidateFact}
    (h : c ∈ (QuoteExtractor.extract py rawInput locale intakeId).candidates) :
    c.normalizedValue.isSome = true := by
  obtain ⟨d, hd, rfl⟩ := List.mem_map.mp h
  obtain ⟨i, hi, rfl⟩ := List.mem_mapIdx.mp hd
  rw [withConflict_normalizedValue]
  rfl

/-- Two candidates of one of the types that conflict have different values. -/
def Conflicting (candidates : List CandidateFact) : Prop :=
  ∃ c ∈ candidates, ∃ d ∈ candidates, c.factType ∈ QuoteExtractor.conflictTypes ∧
    d.factType = c.factType ∧ c.normalizedValue ≠ d.normalizedValue

theorem one_lt_dedup {α : Type} [DecidableEq α] {l : List α} :
    1 < l.dedup.length ↔ ∃ a ∈ l, ∃ b ∈ l, a ≠ b := by
  constructor
  · intro h
    obtain ⟨a, b, rest, hl⟩ : ∃ a b rest, l.dedup = a :: b :: rest := by
      match hl : l.dedup, h with
      | a :: b :: rest, _ => exact ⟨a, b, rest, rfl⟩
    have hnodup := List.nodup_dedup l
    rw [hl, List.nodup_cons] at hnodup
    refine ⟨a, List.mem_dedup.mp (hl ▸ List.mem_cons_self), b,
      List.mem_dedup.mp (hl ▸ List.mem_cons_of_mem _ List.mem_cons_self), ?_⟩
    rintro rfl
    exact hnodup.1 List.mem_cons_self
  · rintro ⟨a, ha, b, hb, hne⟩
    by_contra hshort
    have hone : l.dedup.length ≤ 1 := Nat.le_of_not_lt hshort
    have ha' := List.mem_dedup.mpr ha
    have hb' := List.mem_dedup.mpr hb
    match hl : l.dedup, hone with
    | [], _ => simp [hl] at ha'
    | [x], _ =>
      rw [hl, List.mem_singleton] at ha' hb'
      exact hne (ha'.trans hb'.symm)

theorem conflicts_isEmpty (intakeId : String) (candidates : List CandidateFact) :
    (QuoteExtractor.conflicts intakeId candidates).isEmpty = false ↔ Conflicting candidates := by
  -- each type adds its own conflict, whatever the types before it have added
  have hfold : ∀ (types : List FactType) (before : List IntakeConflict),
      (types.foldl (fun conflicts factType =>
        let group := candidates.filter fun item => item.factType = factType
        if 1 < (group.map CandidateFact.normalizedValue).dedup.length then
          conflicts ++ [{
            conflictId := s!"{intakeId}:conflict:{toString (conflicts.length + 1)}"
            factType := factType
            factRefs := group.map CandidateFact.factId
            reasonCode := "CONFLICTING_CANDIDATES" }]
        else conflicts) before).isEmpty = false ↔ before.isEmpty = false ∨
      ∃ factType ∈ types, 1 < ((candidates.filter fun item => item.factType = factType).map
        CandidateFact.normalizedValue).dedup.length := by
    intro types
    induction types with
    | nil => simp
    | cons factType types ih =>
      intro before
      rw [List.foldl_cons, ih]
      by_cases hconflict : 1 < ((candidates.filter fun item => item.factType = factType).map
          CandidateFact.normalizedValue).dedup.length
      · simp [hconflict]
      · simp [hconflict]
  unfold QuoteExtractor.conflicts
  rw [hfold]
  simp only [List.isEmpty_nil, Bool.true_eq_false, false_or, one_lt_dedup, List.mem_map,
    List.mem_filter, decide_eq_true_eq]
  constructor
  · rintro ⟨factType, htype, -, ⟨c, ⟨hc, rfl⟩, rfl⟩, -, ⟨d, ⟨hd, hsame⟩, rfl⟩, hne⟩
    exact ⟨c, hc, d, hd, htype, hsame, hne⟩
  · rintro ⟨c, hc, d, hd, htype, hsame, hne⟩
    exact ⟨c.factType, htype, _, ⟨c, ⟨hc, rfl⟩, rfl⟩, _, ⟨d, ⟨hd, hsame⟩, rfl⟩, hne⟩

/-- A conflict is reported exactly for the texts with conflicting values. -/
theorem extract_conflicts_iff :
    (QuoteExtractor.extract py rawInput locale intakeId).conflicts.isEmpty = false ↔
      Conflicting (QuoteExtractor.extract py rawInput locale intakeId).candidates := by
  unfold QuoteExtractor.extract
  simp only [conflicts_isEmpty]
  unfold Conflicting
  simp only [List.mem_map, exists_exists_and_eq_and, withConflict_factType,
    withConflict_normalizedValue]

end Extracted

/-! ## One revision -/

section Revision

variable (py : Interpreter)

/-- A confirmation and the policy and date of the verification after it. -/
structure Revision where
  call : ConfirmationCall
  policy : Option PolicyContext
  referenceDate : ℤ

/-- `confirm_fact` and then `reverify`, where neither raises -/
def revise (report : VerificationReport) (r : Revision) : Option VerificationReport :=
  toOption do
    let (updated, _) ← confirmFact py r.call report
    reverify py r.policy r.referenceDate updated

def Revises (before : VerificationReport) (r : Revision) (after : VerificationReport) : Prop :=
  revise py before r = some after

/-- What a confirmation makes of a candidate. -/
def confirmed (call : ConfirmationCall) (c : CandidateFact) : CandidateFact :=
  if c.factId = call.factId then updatedFact call c else c

variable {py} {before after : VerificationReport} {r : Revision}

/-- Everything a revision can do to a report with distinct facts. -/
structure Revised (py : Interpreter) (before : VerificationReport) (r : Revision)
    (after : VerificationReport) : Prop where
  allowed : r.call.Allowed
  present : ∃ c ∈ before.candidates, c.factId = r.call.factId
  candidates : after.candidates = before.candidates.map fun c =>
    settle py r.policy (before.candidates.map (confirmed r.call)) (confirmed r.call c)
  requirements : after.unresolvedRequirementRefs =
    remainingRequirements after.candidates before.unresolvedRequirementRefs
  conflicts : "CONFLICTS_UNRESOLVED" ∈ after.reasonCodes ↔
    "CONFLICTS_UNRESOLVED" ∈ before.reasonCodes
  missing : after.unresolvedRequirementRefs ≠ [] →
    "MANDATORY_INFORMATION_MISSING" ∈ after.reasonCodes
  ready : after.ready = after.reasonCodes.isEmpty

theorem conflicts_mem_confirmationReasons {call : ConfirmationCall}
    {candidates : List CandidateFact} {codes : List String} :
    "CONFLICTS_UNRESOLVED" ∈ confirmationReasons call candidates codes ↔
      "CONFLICTS_UNRESOLVED" ∈ codes := by
  have hother : "CONFLICTS_UNRESOLVED" ≠ "HUMAN_CONFIRMATION_REQUIRED" := by decide
  have hadded : "CONFLICTS_UNRESOLVED" ≠ "REVERIFICATION_REQUIRED" := by decide
  unfold confirmationReasons
  simp only
  split_ifs <;> simp [hother, hadded]

theorem Revises.revised (h : Revises py before r after)
    (hnodup : (before.candidates.map CandidateFact.factId).Nodup) : Revised py before r after := by
  obtain ⟨⟨updated, confirmation⟩, hconfirm, hverify⟩ := bind_ok_cases (toOption_eq_some.mp h)
  obtain ⟨hallowed, current, hcurrent, hid, hunique, -, hcandidates, hrefs, hcodes⟩ :=
    confirmFact_ok hconfirm
  obtain ⟨-, hafter, hremaining, hreasons, hready⟩ := buildReport_ok hverify
  have hupdated : updated.candidates = before.candidates.map (confirmed r.call) := by
    rw [hcandidates]
    apply List.map_congr_left
    intro c hc
    unfold confirmed
    split_ifs with hfact
    · rw [hunique c hc hfact hnodup]
    · rfl
  have hsettled : after.candidates = before.candidates.map fun c =>
      settle py r.policy (before.candidates.map (confirmed r.call)) (confirmed r.call c) := by
    rw [hafter, hupdated, verifyCandidates_eq_map, List.map_map]
    rfl
  refine ⟨hallowed, ⟨current, hcurrent, hid⟩, hsettled, ?_, ?_, ?_, hready⟩
  · rw [hremaining, hrefs, hafter]
  · rw [hreasons, mem_reportReasons_conflicts, List.contains_iff_mem, hcodes,
      conflicts_mem_confirmationReasons]
  · intro hne
    rw [hreasons]
    rw [hremaining] at hne
    exact mem_reportReasons_missing hne

@[simp] theorem confirmed_factId (call : ConfirmationCall) (c : CandidateFact) :
    (confirmed call c).factId = c.factId := by
  unfold confirmed
  split_ifs <;> rfl

@[simp] theorem confirmed_factType (call : ConfirmationCall) (c : CandidateFact) :
    (confirmed call c).factType = c.factType := by
  unfold confirmed
  split_ifs <;> rfl

@[simp] theorem confirmed_source (call : ConfirmationCall) (c : CandidateFact) :
    (confirmed call c).source = c.source := by
  unfold confirmed
  split_ifs <;> rfl

theorem confirmed_span (call : ConfirmationCall) (c : CandidateFact) :
    (confirmed call c).span = c.span := by
  simp [CandidateFact.span]

theorem map_span_confirmed (call : ConfirmationCall) (candidates : List CandidateFact) :
    (candidates.map (confirmed call)).map CandidateFact.span =
      candidates.map CandidateFact.span := by
  rw [List.map_map]
  exact List.map_congr_left fun c _ => confirmed_span call c

theorem Revised.nodup (h : Revised py before r after)
    (hnodup : (before.candidates.map CandidateFact.factId).Nodup) :
    (after.candidates.map CandidateFact.factId).Nodup := by
  rw [h.candidates, List.map_map]
  simpa [Function.comp_def] using hnodup

end Revision

end DecisionAssurance.Intake
