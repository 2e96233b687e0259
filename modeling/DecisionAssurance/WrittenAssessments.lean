import DecisionAssurance.Engine
import DecisionAssurance.NumberLiterals

/-!
# Assessment payloads

The engine over payloads as it is handed them: a DATS case or a native request, with items that
may override what the rules derive. More items never weaken an assessment, and their order does
not matter.
-/

namespace DecisionAssurance

/-! ## Values as Python sees them -/

/-- What a value that is no list and no dictionary is compared and hashed by: booleans and
floating point numbers count by their value. -/
inductive Scalar
  | none
  | number (q : ℚ)
  | special (text : String)
  | str (s : String)
  deriving DecidableEq

namespace Json

/-- The value of a finite floating point number. -/
def floatValue (text : String) : Option ℚ :=
  if text ∈ ["NaN", "Infinity", "-Infinity"] then none
  else
    let n := (NumberLiteral.parse text.toList).decimal
    some (n.toInt / 10 ^ n.scale)

def scalar : Json → Option Scalar
  | .null => some .none
  | .bool b => some (.number (if b then 1 else 0))
  | .int n => some (.number n)
  | .float text => some ((floatValue text).elim (.special text) .number)
  | .str s => some (.str s)
  | .arr _ | .obj _ => none

def truthy : Json → Bool
  | .null => false
  | .bool b => b
  | .int n => n ≠ 0
  | .float text => floatValue text ≠ some 0
  | .str s => nonEmpty s
  | .arr items => !items.isEmpty
  | .obj fields => !fields.isEmpty

example : scalar (.float "1.0") = scalar (.bool true) ∧ truthy (.float "-0.0") = false ∧
    truthy (.float "NaN") = true := by decide +kernel

mutual

/-- `==` -/
def equals : Json → Json → Bool
  | .arr xs, .arr ys => equalItems xs ys
  | .obj fields, .obj fields' => fields.length = fields'.length && equalFields fields fields'
  | .arr _, .obj _ => false
  | .obj _, .arr _ => false
  | a, c => a.scalar = c.scalar

def equalItems : List Json → List Json → Bool
  | [], [] => true
  | x :: xs, y :: ys => equals x y && equalItems xs ys
  | _, _ => false

def equalFields : List (String × Json) → List (String × Json) → Bool
  | [], _ => true
  | (key, x) :: fields, fields' =>
    (match fields'.find? fun f => f.1 = key with
      | some (_, y) => equals x y
      | none => false) && equalFields fields fields'

end

end Json

/-- A dictionary. -/
abbrev Fields := List (String × Json)

namespace Fields

def find (d : Fields) (key : String) : Option Json := (d.find? fun f => f.1 = key).map Prod.snd

/-- `d.get(key, default)` -/
def getOr (d : Fields) (key : String) (default : Json) : Json := (d.find key).getD default

/-- `d[key] = value` -/
def set (key : String) (value : Json) : Fields → Fields
  | [] => [(key, value)]
  | f :: d => if f.1 = key then (key, value) :: d else f :: set key value d

theorem find_set (d : Fields) (key key' : String) (value : Json) :
    (d.set key value).find key' = if key = key' then some value else d.find key' := by
  unfold find
  induction d with
  | nil =>
    by_cases h : key = key'
    · simp [set, h]
    · simp [set, h]
  | cons f d ih =>
    unfold set
    by_cases hf : f.1 = key
    · subst hf
      by_cases h : f.1 = key'
      · simp [h]
      · simp [h]
    · rw [if_neg hf]
      by_cases h : f.1 = key'
      · have hne : key ≠ key' := fun hsame => hf (h.trans hsame.symm)
        simp [h, hne]
      · simp only [List.find?_cons, h, decide_false, ih]

end Fields

/-! ## `normalize` -/

/-- The data that the rules read. -/
structure AssessmentData where
  evidence : Json
  constraints : Json
  policies : Json
  conflicts : Json
  actors : Json
  risk : Json
  mandatoryEvidenceMissing : Json

def AssessmentData.ofFields (d : Fields) : AssessmentData where
  evidence := d.getOr "evidence" (.arr [])
  constraints := d.getOr "constraints" (.arr [])
  policies := d.getOr "policies" (.arr [])
  conflicts := d.getOr "conflicts" (.arr [])
  actors := d.getOr "actors" (.obj [])
  risk := d.getOr "risk" (.obj [])
  mandatoryEvidenceMissing := d.getOr "mandatory_evidence_missing" (.bool false)

/-- The two forms of a payload differ in where the data stands; the defaults are the same. -/
def normalize (payload : Fields) : AssessmentData :=
  match payload.find "input" with
  | some (.obj data) => .ofFields data
  | _ => .ofFields payload

/-! ## `_validate` -/

inductive PayloadError
  | attributeError | typeError
  deriving DecidableEq

/-- Only a dictionary has the method `get`. -/
def dictOf : Json → Except PayloadError Fields
  | .obj fields => .ok fields
  | _ => .error .attributeError

/-- What a loop over a value runs through. -/
def itemsOf : Json → Except PayloadError (List Json)
  | .arr items => .ok items
  | .obj fields => .ok (fields.map fun f => .str f.1)
  | .str s => .ok (s.toList.map fun c => .str (String.singleton c))
  | _ => .error .typeError

/-- A finding of the rules, whose code and subject an item of the payload may give. -/
structure PayloadFound where
  reasonCode : Json
  severity : Severity
  subjectRef : Json

def flagged (condition : Bool) (reasonCode : Json) (severity : Severity) (subjectRef : Json) :
    List PayloadFound :=
  if condition then [⟨reasonCode, severity, subjectRef⟩] else []

namespace Fields

/-- `item.get(key, item.get("id"))` -/
def ref (item : Fields) (key : String) : Json := item.getOr key (item.getOr "id" .null)

/-- Whether a field that may be absent is true. -/
def flag (item : Fields) (key : String) (default : Bool) : Bool :=
  (item.getOr key (.bool default)).truthy

def evidenceFound (evidence : Fields) : List PayloadFound :=
  let ref := evidence.ref "evidence_id"
  let status := evidence.getOr "status" .null
  flagged (!evidence.flag "verifiable" (status ≠ .str "UNVERIFIED"))
    (.str "EVIDENCE_UNVERIFIABLE") .review ref ++
  flagged (evidence.flag "fabricated" false) (.str "CITATION_FABRICATED") .block ref ++
  flagged (evidence.flag "outdated" (status = .str "OUTDATED"))
    (.str "EVIDENCE_OUTDATED") .review ref ++
  flagged (!evidence.flag "supports_claim" true) (.str "SOURCE_CLAIM_MISMATCH") .review ref ++
  flagged (evidence.flag "contradicts_claim" (status = .str "CONFLICTING"))
    (.str "EVIDENCE_CONFLICT") .review ref ++
  flagged (status = .str "UNAVAILABLE") (.str "MANDATORY_EVIDENCE_MISSING") .review ref

def constraintFound (constraint : Fields) : List PayloadFound :=
  let ref := constraint.ref "constraint_id"
  let severity := constraint.getOr "severity" .null
  let hard := constraint.flag "hard" (severity = .str "MANDATORY")
  let satisfied := constraint.flag "satisfied" true
  if hard && !satisfied then [⟨.str "HARD_CONSTRAINT_VIOLATION", .block, ref⟩]
  else flagged (severity = .str "REVIEW_REQUIRED" && !satisfied)
    (constraint.getOr "reason_code" (.str "CONSTRAINT_REQUIRES_REVIEW")) .review ref

def policyFound (policy : Fields) : List PayloadFound :=
  flagged (policy.flag "requires_review" false) (.str "POLICY_REQUIRES_REVIEW") .review
    (policy.ref "policy_id")

def conflictFound (conflict : Fields) : List PayloadFound :=
  let critical := conflict.getOr "severity" .null = .str "CRITICAL"
  flagged (!conflict.flag "resolved" false)
    (.str (if critical then "CRITICAL_CONFLICT_UNRESOLVED" else "CONFLICT_UNRESOLVED"))
    (if critical then .block else .review) (conflict.getOr "id" .null)

def separationFound (actors : Fields) : List PayloadFound :=
  let generator := actors.getOr "generator" .null
  flagged (generator.truthy && (actors.getOr "approver" .null).equals generator)
    (.str "SEPARATION_OF_DUTIES_VIOLATION") .block generator

def riskFound (risk : Fields) : List PayloadFound :=
  flagged (risk.flag "high_impact" false && risk.flag "unresolved_uncertainty" false)
    (.str "HIGH_IMPACT_UNCERTAINTY") .review .null

/-- Missing evidence blocks where the impact is high. -/
def missingFound (risk : Fields) (missing : Json) : List PayloadFound :=
  flagged missing.truthy (.str "MANDATORY_EVIDENCE_MISSING")
    (if risk.flag "high_impact" false then .block else .review) .null

end Fields

/-- What a rule finds in the items of a collection. -/
def collect (rule : Fields → List PayloadFound) (collection : Json) :
    Except PayloadError (List PayloadFound) := do
  let items ← itemsOf collection
  let dicts ← items.mapM dictOf
  return dicts.flatMap rule

/-- `_validate`; a `risk` that is no dictionary raises in any case. -/
def AssessmentData.found (d : AssessmentData) : Except PayloadError (List PayloadFound) := do
  let evidence ← collect Fields.evidenceFound d.evidence
  let risk ← dictOf d.risk
  let constraints ← collect Fields.constraintFound d.constraints
  let policies ← collect Fields.policyFound d.policies
  let actors ← dictOf d.actors
  let conflicts ← collect Fields.conflictFound d.conflicts
  return evidence ++ risk.missingFound d.mandatoryEvidenceMissing ++ constraints ++ policies ++
    actors.separationFound ++ risk.riskFound ++ conflicts

/-! ## `assess` -/

/-- `_govern` -/
def judged (severities : List Severity) : Outcome :=
  if .block ∈ severities then .block else if severities.isEmpty then .pass else .review

/-- The codes without those that equal an earlier one, `dict.fromkeys(codes)`. -/
def fromKeys : List Json → List Json
  | [] => []
  | code :: codes => code :: (fromKeys codes).filter fun c => c.scalar ≠ code.scalar

structure Assessment where
  outcome : Outcome
  reasonCodes : List Json

def allSatisfied : Json := .str "ALL_REQUIRED_CHECKS_SATISFIED"

/-- What `assess` decides; a reason code that is a list or a dictionary cannot be hashed. -/
def Assessment.ofFound (found : List PayloadFound) : Except PayloadError Assessment :=
  let codes := found.map PayloadFound.reasonCode
  if codes.any fun code => code.scalar.isNone then .error .typeError
  else .ok ⟨judged (found.map PayloadFound.severity),
    if found.isEmpty then [allSatisfied] else fromKeys codes⟩

/-- `assess` -/
def assessPayload (payload : Fields) : Except PayloadError Assessment :=
  (normalize payload).found >>= Assessment.ofFound

/-! ## Collections -/

inductive Collection
  | evidence | constraints | policies | conflicts

namespace Collection

def key : Collection → String
  | evidence => "evidence"
  | constraints => "constraints"
  | policies => "policies"
  | conflicts => "conflicts"

/-- What the rules find in one item. -/
def rule : Collection → Fields → List PayloadFound
  | evidence => Fields.evidenceFound
  | constraints => Fields.constraintFound
  | policies => Fields.policyFound
  | conflicts => Fields.conflictFound

def of (d : AssessmentData) : Collection → Json
  | evidence => d.evidence
  | constraints => d.constraints
  | policies => d.policies
  | conflicts => d.conflicts

end Collection

def AssessmentData.withCollection (d : AssessmentData) (v : Json) : Collection → AssessmentData
  | .evidence => { d with evidence := v }
  | .constraints => { d with constraints := v }
  | .policies => { d with policies := v }
  | .conflicts => { d with conflicts := v }

/-- The payload with another value for a collection. -/
def withCollection (payload : Fields) (c : Collection) (v : Json) : Fields :=
  match payload.find "input" with
  | some (.obj data) => payload.set "input" (.obj (Fields.set c.key v data))
  | _ => payload.set c.key v

theorem ofFields_set (d : Fields) (c : Collection) (v : Json) :
    AssessmentData.ofFields (d.set c.key v) = (AssessmentData.ofFields d).withCollection v c := by
  cases c with
  | evidence =>
    simp [AssessmentData.ofFields, AssessmentData.withCollection, Fields.getOr, Fields.find_set,
      Collection.key]
  | constraints =>
    simp [AssessmentData.ofFields, AssessmentData.withCollection, Fields.getOr, Fields.find_set,
      Collection.key]
  | policies =>
    simp [AssessmentData.ofFields, AssessmentData.withCollection, Fields.getOr, Fields.find_set,
      Collection.key]
  | conflicts =>
    simp [AssessmentData.ofFields, AssessmentData.withCollection, Fields.getOr, Fields.find_set,
      Collection.key]

theorem normalize_withCollection (payload : Fields) (c : Collection) (v : Json) :
    normalize (withCollection payload c v) = (normalize payload).withCollection v c := by
  have hkey : c.key ≠ "input" := by cases c <;> decide
  have hnative : (payload.set c.key v).find "input" = payload.find "input" := by
    rw [Fields.find_set, if_neg hkey]
  unfold withCollection
  cases hinput : payload.find "input" with
  | none => simp only [normalize, hnative, hinput, ofFields_set]
  | some input =>
    cases input with
    | obj data => simp only [normalize, hinput, Fields.find_set, if_true, ofFields_set]
    | _ => simp only [normalize, hnative, hinput, ofFields_set]

/-! ## Assessments as sets of findings -/

def Outcome.rank : Outcome → ℕ
  | .pass => 0
  | .review => 1
  | .block => 2

theorem Outcome.rank_injective : Function.Injective Outcome.rank := by
  intro a c h
  cases a <;> cases c <;> first | rfl | cases h

instance : LinearOrder Outcome := LinearOrder.lift' Outcome.rank Outcome.rank_injective

theorem judged_mono {severities severities' : List Severity}
    (h : ∀ s ∈ severities, s ∈ severities') : judged severities ≤ judged severities' := by
  unfold judged
  by_cases hblock : Severity.block ∈ severities
  · rw [if_pos hblock, if_pos (h _ hblock)]
  · rw [if_neg hblock]
    cases severities with
    | nil =>
      simp only [List.isEmpty_nil, if_true]
      split_ifs <;> decide
    | cons s severities =>
      have hs := h s List.mem_cons_self
      have hne : severities'.isEmpty = false := by
        cases severities' with
        | nil => cases hs
        | cons _ _ => rfl
      simp only [List.isEmpty_cons, hne, Bool.false_eq_true, if_false]
      split_ifs <;> decide

theorem mem_of_mem_fromKeys {codes : List Json} {c : Json} (h : c ∈ fromKeys codes) :
    c ∈ codes := by
  induction codes with
  | nil => exact h
  | cons code codes ih =>
    rcases List.mem_cons.mp h with rfl | h
    · exact List.mem_cons_self
    · exact List.mem_cons_of_mem _ (ih (List.mem_filter.mp h).1)

theorem exists_mem_fromKeys {codes : List Json} {c : Json} (h : c ∈ codes) :
    ∃ c' ∈ fromKeys codes, c'.scalar = c.scalar := by
  induction codes with
  | nil => cases h
  | cons code codes ih =>
    by_cases hsame : code.scalar = c.scalar
    · exact ⟨code, List.mem_cons_self, hsame⟩
    · rcases List.mem_cons.mp h with rfl | h
      · exact absurd rfl hsame
      · obtain ⟨c', hc', hscalar⟩ := ih h
        refine ⟨c', List.mem_cons_of_mem _ (List.mem_filter.mpr ⟨hc', ?_⟩), hscalar⟩
        exact decide_eq_true fun hcode => hsame (hcode.symm.trans hscalar)

/-- A set of codes has a member that equals the code. -/
def Lists (codes : List Json) (code : Json) : Prop := ∃ c ∈ codes, c.scalar = code.scalar

variable {found found' : List PayloadFound} {a a' : Assessment}

theorem ofFound_eq_ok : Assessment.ofFound found = .ok a ↔
    (∀ f ∈ found, f.reasonCode.scalar.isSome) ∧
      a = ⟨judged (found.map PayloadFound.severity),
        if found.isEmpty then [allSatisfied] else fromKeys (found.map PayloadFound.reasonCode)⟩ := by
  have hunhashable : (found.map PayloadFound.reasonCode).any (fun code => code.scalar.isNone) =
      true ↔ ¬∀ f ∈ found, f.reasonCode.scalar.isSome := by
    simp [Option.isSome_iff_ne_none]
  unfold Assessment.ofFound
  by_cases hhash : ∀ f ∈ found, f.reasonCode.scalar.isSome
  · rw [if_neg fun h => hunhashable.mp h hhash]
    constructor
    · rintro ⟨⟩
      exact ⟨hhash, rfl⟩
    · rintro ⟨-, rfl⟩
      rfl
  · rw [if_pos (hunhashable.mpr hhash)]
    constructor
    · rintro ⟨⟩
    · rintro ⟨h, -⟩
      exact absurd h hhash

theorem ofFound_ok (h : Assessment.ofFound found = .ok a) :
    a.outcome = judged (found.map PayloadFound.severity) ∧
      (∀ f ∈ found, Lists a.reasonCodes f.reasonCode) ∧
      ∀ code ∈ a.reasonCodes, (found = [] ∧ code = allSatisfied) ∨
        ∃ f ∈ found, f.reasonCode = code := by
  obtain ⟨-, rfl⟩ := ofFound_eq_ok.mp h
  refine ⟨rfl, ?_, ?_⟩
  · intro f hf
    have hne : found.isEmpty = false := by
      cases found with
      | nil => cases hf
      | cons _ _ => rfl
    simp only [hne, Bool.false_eq_true, if_false]
    exact exists_mem_fromKeys (List.mem_map_of_mem hf)
  · intro code hcode
    cases found with
    | nil => exact Or.inl ⟨rfl, List.mem_singleton.mp hcode⟩
    | cons f found =>
      obtain ⟨g, hg, hcode⟩ := List.mem_map.mp (mem_of_mem_fromKeys hcode)
      exact Or.inr ⟨g, hg, hcode⟩

/-- More findings do not weaken an assessment. -/
theorem ofFound_mono (h : Assessment.ofFound found = .ok a)
    (h' : Assessment.ofFound found' = .ok a') (hsub : ∀ f ∈ found, f ∈ found') :
    a.outcome ≤ a'.outcome ∧
      ∀ code ∈ a.reasonCodes, code ≠ allSatisfied → Lists a'.reasonCodes code := by
  obtain ⟨houtcome, -, hcodes⟩ := ofFound_ok h
  obtain ⟨houtcome', hlists', -⟩ := ofFound_ok h'
  constructor
  · rw [houtcome, houtcome']
    apply judged_mono
    intro s hs
    obtain ⟨f, hf, rfl⟩ := List.mem_map.mp hs
    exact List.mem_map_of_mem (hsub f hf)
  · intro code hcode hne
    rcases hcodes code hcode with ⟨-, hsatisfied⟩ | ⟨f, hf, rfl⟩
    · exact absurd hsatisfied hne
    · exact hlists' f (hsub f hf)

/-! ## More items, and items in another order -/

section Items

variable {d : AssessmentData} {c : Collection} {items items' : List Json} {v : Json}
  {f : PayloadFound}

/-- The findings of a collection alone. -/
def Collection.Finds (c : Collection) (v : Json) (f : PayloadFound) : Prop :=
  ∃ own, collect c.rule v = .ok own ∧ f ∈ own

/-- The findings that no item of a collection gives. -/
def AssessmentData.Finds (d : AssessmentData) (f : PayloadFound) : Prop :=
  ∃ risk actors, dictOf d.risk = .ok risk ∧ dictOf d.actors = .ok actors ∧
    (f ∈ risk.missingFound d.mandatoryEvidenceMissing ∨ f ∈ actors.separationFound ∨
      f ∈ risk.riskFound)

theorem found_eq_ok : d.found = .ok found ↔ ∃ evidence risk constraints policies actors conflicts,
    collect Fields.evidenceFound d.evidence = .ok evidence ∧ dictOf d.risk = .ok risk ∧
      collect Fields.constraintFound d.constraints = .ok constraints ∧
      collect Fields.policyFound d.policies = .ok policies ∧ dictOf d.actors = .ok actors ∧
      collect Fields.conflictFound d.conflicts = .ok conflicts ∧
      found = evidence ++ risk.missingFound d.mandatoryEvidenceMissing ++ constraints ++ policies ++
        actors.separationFound ++ risk.riskFound ++ conflicts := by
  constructor
  · intro h
    obtain ⟨evidence, hevidence, h⟩ := bind_ok_cases h
    obtain ⟨risk, hrisk, h⟩ := bind_ok_cases h
    obtain ⟨constraints, hconstraints, h⟩ := bind_ok_cases h
    obtain ⟨policies, hpolicies, h⟩ := bind_ok_cases h
    obtain ⟨actors, hactors, h⟩ := bind_ok_cases h
    obtain ⟨conflicts, hconflicts, h⟩ := bind_ok_cases h
    cases h
    exact ⟨_, _, _, _, _, _, hevidence, hrisk, hconstraints, hpolicies, hactors, hconflicts, rfl⟩
  · rintro ⟨evidence, risk, constraints, policies, actors, conflicts, hevidence, hrisk,
      hconstraints, hpolicies, hactors, hconflicts, rfl⟩
    simp only [AssessmentData.found, hevidence, hrisk, hconstraints, hpolicies, hactors,
      hconflicts, ok_bind]
    rfl

theorem found_accepts : (∃ found, d.found = .ok found) ↔
    (∀ c : Collection, ∃ own, collect c.rule (c.of d) = .ok own) ∧
      (∃ risk, dictOf d.risk = .ok risk) ∧ ∃ actors, dictOf d.actors = .ok actors := by
  simp only [found_eq_ok]
  constructor
  · rintro ⟨_, evidence, risk, constraints, policies, actors, conflicts, hevidence, hrisk,
      hconstraints, hpolicies, hactors, hconflicts, rfl⟩
    refine ⟨fun c => ?_, ⟨risk, hrisk⟩, ⟨actors, hactors⟩⟩
    cases c with
    | evidence => exact ⟨evidence, hevidence⟩
    | constraints => exact ⟨constraints, hconstraints⟩
    | policies => exact ⟨policies, hpolicies⟩
    | conflicts => exact ⟨conflicts, hconflicts⟩
  · rintro ⟨hcollections, ⟨risk, hrisk⟩, ⟨actors, hactors⟩⟩
    obtain ⟨evidence, hevidence⟩ := hcollections .evidence
    obtain ⟨constraints, hconstraints⟩ := hcollections .constraints
    obtain ⟨policies, hpolicies⟩ := hcollections .policies
    obtain ⟨conflicts, hconflicts⟩ := hcollections .conflicts
    exact ⟨_, evidence, risk, constraints, policies, actors, conflicts, hevidence, hrisk,
      hconstraints, hpolicies, hactors, hconflicts, rfl⟩

theorem mem_found (h : d.found = .ok found) :
    f ∈ found ↔ (∃ c : Collection, c.Finds (c.of d) f) ∨ d.Finds f := by
  obtain ⟨evidence, risk, constraints, policies, actors, conflicts, hevidence, hrisk,
    hconstraints, hpolicies, hactors, hconflicts, rfl⟩ := found_eq_ok.mp h
  simp only [List.mem_append]
  constructor
  · rintro ((((((hf | hf) | hf) | hf) | hf) | hf) | hf)
    · exact Or.inl ⟨.evidence, evidence, hevidence, hf⟩
    · exact Or.inr ⟨risk, actors, hrisk, hactors, Or.inl hf⟩
    · exact Or.inl ⟨.constraints, constraints, hconstraints, hf⟩
    · exact Or.inl ⟨.policies, policies, hpolicies, hf⟩
    · exact Or.inr ⟨risk, actors, hrisk, hactors, Or.inr (Or.inl hf)⟩
    · exact Or.inr ⟨risk, actors, hrisk, hactors, Or.inr (Or.inr hf)⟩
    · exact Or.inl ⟨.conflicts, conflicts, hconflicts, hf⟩
  · rintro (⟨c, own, hown, hf⟩ | ⟨risk', actors', hrisk', hactors', hf⟩)
    · cases c with
      | evidence =>
        cases hevidence.symm.trans hown
        tauto
      | constraints =>
        cases hconstraints.symm.trans hown
        tauto
      | policies =>
        cases hpolicies.symm.trans hown
        tauto
      | conflicts =>
        cases hconflicts.symm.trans hown
        tauto
    · cases hrisk.symm.trans hrisk'
      cases hactors.symm.trans hactors'
      tauto

/-- Another value for one collection leaves the others and the rest of the data. -/
theorem of_withCollection (d : AssessmentData) (c c' : Collection) (v : Json) :
    c'.of (d.withCollection v c) = v ∧ c' = c ∨ c'.of (d.withCollection v c) = c'.of d ∧ c' ≠ c := by
  cases c <;> cases c' <;> simp [Collection.of, AssessmentData.withCollection]

theorem finds_withCollection (d : AssessmentData) (c : Collection) (v : Json) :
    (d.withCollection v c).risk = d.risk ∧ (d.withCollection v c).actors = d.actors ∧
      (d.withCollection v c).mandatoryEvidenceMissing = d.mandatoryEvidenceMissing := by
  cases c <;> exact ⟨rfl, rfl, rfl⟩

/-- A collection that finds what another one finds, and more. -/
def Collection.Covers (c : Collection) (v v' : Json) : Prop :=
  ∀ own, collect c.rule v = .ok own → ∃ own', collect c.rule v' = .ok own' ∧ ∀ f ∈ own, f ∈ own'

theorem found_covers (h : d.found = .ok found) (hcovers : c.Covers (c.of d) v) :
    ∃ found', (d.withCollection v c).found = .ok found' ∧ ∀ f ∈ found, f ∈ found' := by
  obtain ⟨hcollections, hrisk, hactors⟩ := found_accepts.mp ⟨found, h⟩
  obtain ⟨hsameRisk, hsameActors, hsameMissing⟩ := finds_withCollection d c v
  have haccepts : ∃ found', (d.withCollection v c).found = .ok found' := by
    apply found_accepts.mpr
    rw [hsameRisk, hsameActors]
    refine ⟨fun c' => ?_, hrisk, hactors⟩
    obtain ⟨own, hown⟩ := hcollections c'
    rcases of_withCollection d c c' v with ⟨hv, rfl⟩ | ⟨hsame, -⟩
    · obtain ⟨own', hown', -⟩ := hcovers own hown
      exact ⟨own', by rw [hv]; exact hown'⟩
    · exact ⟨own, hsame ▸ hown⟩
  obtain ⟨found', hfound'⟩ := haccepts
  refine ⟨found', hfound', fun f hf => ?_⟩
  rw [mem_found hfound']
  rcases (mem_found h).mp hf with ⟨c', own, hown, hf⟩ | hf
  · left
    rcases of_withCollection d c c' v with ⟨hv, rfl⟩ | ⟨hsame, -⟩
    · obtain ⟨own', hown', hsub⟩ := hcovers own hown
      exact ⟨c', own', by rw [hv]; exact hown', hsub f hf⟩
    · exact ⟨c', own, hsame ▸ hown, hf⟩
  · right
    unfold AssessmentData.Finds
    rw [hsameRisk, hsameActors, hsameMissing]
    exact hf

theorem mapM_dictOf {dicts : List Fields} :
    items.mapM dictOf = .ok dicts ↔ items = dicts.map Json.obj := by
  induction items generalizing dicts with
  | nil =>
    simp only [List.mapM_nil, List.nil_eq, List.map_eq_nil_iff]
    constructor
    · rintro ⟨⟩
      rfl
    · rintro rfl
      rfl
  | cons item items ih =>
    rw [List.mapM_cons]
    constructor
    · intro h
      obtain ⟨fields, hitem, h⟩ := bind_ok_cases h
      obtain ⟨dicts', hdicts, h⟩ := bind_ok_cases h
      cases h
      rw [List.map_cons, ← ih.mp hdicts]
      cases item with
      | obj fields' =>
        cases hitem
        rfl
      | _ => cases hitem
    · intro h
      obtain ⟨fields, dicts', rfl, rfl, hitems⟩ := List.map_eq_cons_iff.mp h.symm
      rw [ih.mpr hitems.symm]
      rfl

theorem collect_arr {rule : Fields → List PayloadFound} {own : List PayloadFound} :
    collect rule (.arr items) = .ok own ↔
      ∃ dicts : List Fields, items = dicts.map Json.obj ∧ own = dicts.flatMap rule := by
  constructor
  · intro h
    obtain ⟨_, ⟨⟩, h⟩ := bind_ok_cases h
    obtain ⟨dicts, hdicts, h⟩ := bind_ok_cases h
    cases h
    exact ⟨dicts, mapM_dictOf.mp hdicts, rfl⟩
  · rintro ⟨dicts, hitems, rfl⟩
    simp only [collect, itemsOf, ok_bind, mapM_dictOf.mpr hitems]
    rfl

/-- Items that are dictionaries cover those among them. -/
theorem covers_of_subset (hsub : ∀ v ∈ items, v ∈ items')
    (hdicts : ∀ v ∈ items', ∃ fields, v = .obj fields) : c.Covers (.arr items) (.arr items') := by
  intro own hown
  obtain ⟨dicts, rfl, rfl⟩ := collect_arr.mp hown
  obtain ⟨dicts', rfl⟩ : ∃ dicts' : List Fields, items' = dicts'.map Json.obj := by
    clear hsub
    induction items' with
    | nil => exact ⟨[], rfl⟩
    | cons v items' ih =>
      obtain ⟨fields, rfl⟩ := hdicts v List.mem_cons_self
      obtain ⟨dicts', rfl⟩ := ih fun v hv => hdicts v (List.mem_cons_of_mem _ hv)
      exact ⟨fields :: dicts', rfl⟩
  refine ⟨_, collect_arr.mpr ⟨dicts', rfl, rfl⟩, fun f hf => ?_⟩
  obtain ⟨fields, hfields, hf⟩ := List.mem_flatMap.mp hf
  obtain ⟨fields', hfields', hsame⟩ := List.mem_map.mp (hsub _ (List.mem_map_of_mem hfields))
  cases hsame
  exact List.mem_flatMap.mpr ⟨fields, hfields', hf⟩

theorem assessPayload_ok {payload : Fields} : assessPayload payload = .ok a ↔
    ∃ found, (normalize payload).found = .ok found ∧ Assessment.ofFound found = .ok a := by
  constructor
  · intro h
    exact bind_ok_cases h
  · rintro ⟨found, hfound, h⟩
    rw [assessPayload, hfound]
    exact h

theorem dicts_of_found (h : d.found = .ok found) (hitems : c.of d = .arr items) :
    ∀ v ∈ items, ∃ fields, v = .obj fields := by
  obtain ⟨own, hown⟩ := (found_accepts.mp ⟨found, h⟩).1 c
  rw [hitems] at hown
  obtain ⟨dicts, rfl, -⟩ := collect_arr.mp hown
  intro v hv
  obtain ⟨fields, -, rfl⟩ := List.mem_map.mp hv
  exact ⟨fields, rfl⟩

/-- The assessment with other items for a collection, among which are all of the payload's. -/
theorem assessPayload_covers {payload : Fields} (hitems : c.of (normalize payload) = .arr items)
    (hsub : ∀ v ∈ items, v ∈ items') (h : assessPayload payload = .ok a)
    (h' : assessPayload (withCollection payload c (.arr items')) = .ok a') :
    a.outcome ≤ a'.outcome ∧
      ∀ code ∈ a.reasonCodes, code ≠ allSatisfied → Lists a'.reasonCodes code := by
  obtain ⟨found, hfound, ha⟩ := assessPayload_ok.mp h
  obtain ⟨found', hfound', ha'⟩ := assessPayload_ok.mp h'
  rw [normalize_withCollection] at hfound'
  have hitems' : c.of ((normalize payload).withCollection (.arr items') c) = .arr items' := by
    cases c <;> rfl
  obtain ⟨found'', hfound'', hmem⟩ := found_covers hfound
    (hitems ▸ covers_of_subset hsub (dicts_of_found hfound' hitems'))
  cases hfound'.symm.trans hfound''
  exact ofFound_mono ha ha' hmem

end Items

section Laws

variable {d : AssessmentData} {c : Collection} {items items' : List Json} {payload : Fields}

theorem lists_iff (h : Assessment.ofFound found = .ok a) (code : Json) :
    Lists a.reasonCodes code ↔ (found = [] ∧ allSatisfied.scalar = code.scalar) ∨
      ∃ f ∈ found, f.reasonCode.scalar = code.scalar := by
  obtain ⟨-, hlists, hcodes⟩ := ofFound_ok h
  constructor
  · rintro ⟨code', hcode', hsame⟩
    rcases hcodes code' hcode' with ⟨hnone, rfl⟩ | ⟨f, hf, rfl⟩
    · exact Or.inl ⟨hnone, hsame⟩
    · exact Or.inr ⟨f, hf, hsame⟩
  · rintro (⟨rfl, hsame⟩ | ⟨f, hf, hsame⟩)
    · obtain ⟨-, rfl⟩ := ofFound_eq_ok.mp h
      exact ⟨allSatisfied, List.mem_singleton_self _, hsame⟩
    · obtain ⟨code', hcode', hsame'⟩ := hlists f hf
      exact ⟨code', hcode', hsame'.trans hsame⟩

theorem of_withCollection_self (d : AssessmentData) (c : Collection) (v : Json) :
    c.of (d.withCollection v c) = v := by
  cases c <;> rfl

theorem withCollection_withCollection (d : AssessmentData) (c : Collection) (v : Json) :
    (d.withCollection v c).withCollection (c.of d) c = d := by
  cases c <;> rfl

/-- The same items in another order find the same. -/
theorem assessPayload_perm (hitems : c.of (normalize payload) = .arr items)
    (hperm : items.Perm items') (h : assessPayload payload = .ok a) :
    ∃ a', assessPayload (withCollection payload c (.arr items')) = .ok a' ∧
      a'.outcome = a.outcome ∧ ∀ code, Lists a'.reasonCodes code ↔ Lists a.reasonCodes code := by
  obtain ⟨found, hfound, ha⟩ := assessPayload_ok.mp h
  have hdicts := dicts_of_found hfound hitems
  have hdicts' : ∀ v ∈ items', ∃ fields, v = .obj fields := fun v hv =>
    hdicts v (hperm.mem_iff.mpr hv)
  obtain ⟨found', hfound', hsub⟩ := found_covers hfound
    (hitems ▸ covers_of_subset (fun v hv => hperm.mem_iff.mp hv) hdicts')
  have hback : c.Covers (c.of ((normalize payload).withCollection (.arr items') c))
      (c.of (normalize payload)) := by
    rw [of_withCollection_self, hitems]
    exact covers_of_subset (fun v hv => hperm.mem_iff.mpr hv) hdicts
  obtain ⟨found'', hfound'', hsub'⟩ := found_covers hfound' hback
  rw [withCollection_withCollection] at hfound''
  cases hfound.symm.trans hfound''
  have hmem : ∀ f, f ∈ found' ↔ f ∈ found := fun f => ⟨hsub' f, hsub f⟩
  obtain ⟨a', ha'⟩ : ∃ a', Assessment.ofFound found' = .ok a' :=
    ⟨_, ofFound_eq_ok.mpr ⟨fun f hf => (ofFound_eq_ok.mp ha).1 f (hsub' f hf), rfl⟩⟩
  refine ⟨a', ?_, ?_, fun code => ?_⟩
  · apply assessPayload_ok.mpr
    rw [normalize_withCollection]
    exact ⟨found', hfound', ha'⟩
  · exact le_antisymm (ofFound_mono ha' ha hsub').1 (ofFound_mono ha ha' hsub).1
  · rw [lists_iff ha', lists_iff ha]
    simp only [hmem, List.eq_nil_iff_forall_not_mem]

/-- A payload with one more item is accepted, unless a list or dictionary stands for its code. -/
theorem assessPayload_accepts (hitems : c.of (normalize payload) = .arr items) {fields : Fields}
    (hcodes : ∀ f ∈ c.rule fields, f.reasonCode.scalar.isSome)
    (h : assessPayload payload = .ok a) :
    ∃ a', assessPayload (withCollection payload c (.arr (items ++ [.obj fields]))) = .ok a' := by
  obtain ⟨found, hfound, ha⟩ := assessPayload_ok.mp h
  obtain ⟨hcollections, hrest⟩ := found_accepts.mp ⟨found, hfound⟩
  obtain ⟨own, hown⟩ := hcollections c
  rw [hitems] at hown
  obtain ⟨dicts, rfl, rfl⟩ := collect_arr.mp hown
  have hgrown : collect c.rule (.arr (dicts.map Json.obj ++ [.obj fields])) =
      .ok (dicts.flatMap c.rule ++ c.rule fields) :=
    collect_arr.mpr ⟨dicts ++ [fields], by simp, by simp⟩
  obtain ⟨hrisk, hactors, hmissing⟩ := finds_withCollection (normalize payload) c
    (.arr (dicts.map Json.obj ++ [.obj fields]))
  obtain ⟨found', hfound'⟩ : ∃ found', ((normalize payload).withCollection
      (.arr (dicts.map Json.obj ++ [.obj fields])) c).found = .ok found' := by
    apply found_accepts.mpr
    rw [hrisk, hactors]
    refine ⟨fun c' => ?_, hrest⟩
    rcases of_withCollection (normalize payload) c c'
      (.arr (dicts.map Json.obj ++ [.obj fields])) with ⟨hv, rfl⟩ | ⟨hsame, -⟩
    · rw [hv]
      exact ⟨_, hgrown⟩
    · rw [hsame]
      exact hcollections c'
  have hhash : ∀ f ∈ found', f.reasonCode.scalar.isSome := by
    intro f hf
    have hold := (ofFound_eq_ok.mp ha).1
    rcases (mem_found hfound').mp hf with ⟨c', own, hown', hf⟩ | hf
    · rcases of_withCollection (normalize payload) c c'
        (.arr (dicts.map Json.obj ++ [.obj fields])) with ⟨hv, rfl⟩ | ⟨hsame, -⟩
      · rw [hv, hgrown] at hown'
        cases hown'
        rcases List.mem_append.mp hf with hf | hf
        · exact hold f ((mem_found hfound).mpr (Or.inl ⟨c', _, hitems ▸ hown, hf⟩))
        · exact hcodes f hf
      · exact hold f ((mem_found hfound).mpr (Or.inl ⟨c', own, hsame ▸ hown', hf⟩))
    · unfold AssessmentData.Finds at hf
      rw [hrisk, hactors, hmissing] at hf
      exact hold f ((mem_found hfound).mpr (Or.inr hf))
  refine ⟨_, assessPayload_ok.mpr ⟨found', ?_, ofFound_eq_ok.mpr ⟨hhash, rfl⟩⟩⟩
  rw [normalize_withCollection]
  exact hfound'

/-- One more item never lowers the outcome and takes no code away but the one of a case without
findings, and the order of the items changes neither the outcome nor the set of codes. -/
theorem assessment_monotone (payload : Fields) (c : Collection) (items : List Json)
    (a : Assessment) (hitems : c.of (normalize payload) = .arr items)
    (h : assessPayload payload = .ok a) :
    (∀ item a', assessPayload (withCollection payload c (.arr (items ++ [item]))) = .ok a' →
      a.outcome ≤ a'.outcome ∧
        ∀ code ∈ a.reasonCodes, code ≠ allSatisfied → Lists a'.reasonCodes code) ∧
    (∀ fields, (∀ f ∈ c.rule fields, f.reasonCode.scalar.isSome) →
      ∃ a', assessPayload (withCollection payload c (.arr (items ++ [.obj fields]))) = .ok a') ∧
    ∀ items', items.Perm items' →
      ∃ a', assessPayload (withCollection payload c (.arr items')) = .ok a' ∧
        a'.outcome = a.outcome ∧ ∀ code, Lists a'.reasonCodes code ↔ Lists a.reasonCodes code := by
  refine ⟨fun item a' h' => ?_, fun fields hcodes => ?_, fun items' hperm => ?_⟩
  · exact assessPayload_covers hitems (fun v hv => List.mem_append_left _ hv) h h'
  · exact assessPayload_accepts hitems hcodes h
  · exact assessPayload_perm hitems hperm h

def outdated : Json := .obj [("id", .str "e"), ("outdated", .int 1)]

/-- A case with an item of evidence whose status an override contradicts. -/
def outdatedPayload : Fields :=
  [("input", .obj [("evidence", .arr [outdated, .obj [("verifiable", .str "")]])])]

theorem assessment_monotone_outdated : ∃ a, assessPayload outdatedPayload = .ok a ∧
    a.outcome = .review ∧
    ∃ a', assessPayload (withCollection outdatedPayload .evidence
        (.arr [.obj [("verifiable", .str "")], outdated])) = .ok a' ∧ a'.outcome = .review ∧
      ∀ code, Lists a'.reasonCodes code ↔ Lists a.reasonCodes code := by
  have haccepted : (toOption (assessPayload outdatedPayload)).any
      (fun a => a.outcome = .review) = true := by
    rfl
  obtain ⟨a, ha, houtcome⟩ := (Option.any_eq_true _ _).mp haccepted
  have h := toOption_eq_some.mp ha
  obtain ⟨a', h', hsame, hcodes⟩ := (assessment_monotone outdatedPayload .evidence _ a rfl h).2.2
    [.obj [("verifiable", .str "")], outdated] (List.Perm.swap _ _ _)
  exact ⟨a, h, of_decide_eq_true houtcome, a', h', hsame.trans (of_decide_eq_true houtcome), hcodes⟩

end Laws

/-! ## The requests of Decision Files -/

section Requests

theorem map_findings {β : Type} (g : Found → β) (r : AssessmentRequest) :
    r.findings.map (fun f => g f.toFound) = r.found.map g := by
  have hfst : r.findings.map (fun f => g f.toFound) =
      r.found.zipIdx.map (g ∘ Prod.fst) := by
    unfold AssessmentRequest.findings
    rw [List.map_map]
    apply List.map_congr_left
    intro indexed _
    rfl
  rw [hfst, ← List.map_map, List.zipIdx_map_fst]

theorem judged_findings (r : AssessmentRequest) :
    judged (r.found.map Found.severity) = govern r.findings := by
  rw [← map_findings]
  unfold judged govern
  simp only [List.mem_map, List.any_eq_true, decide_eq_true_eq, List.isEmpty_map]

end Requests

end DecisionAssurance
