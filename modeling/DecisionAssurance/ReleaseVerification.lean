import Mathlib.Data.List.Induction
import Mathlib.Data.List.Sort
import Mathlib.Data.String.Basic
import Mathlib.Tactic.SplitIfs
import DecisionAssurance.Identifiers
import DecisionAssurance.Tables

/-!
# Release verification

`ReleaseVerifier.verify` computes a report from the results of the release gates, and
`publication_eligible` reads the report. What a gate contributes depends on its results only
through the list of those that carry its id.
-/

namespace DecisionAssurance.Release

open Tables

inductive ReleaseStatus where
  | pass
  | review
  | block
  deriving DecidableEq

/-- An id `GateResult` accepts. -/
abbrev GateId := { gateId : String // isContractId gateId = true }

/-- The result of a gate. Building one checks that a result other than PASS has a reason, and
that it has evidence. -/
structure GateResult where
  gateId : GateId
  status : ReleaseStatus
  reasonCodes : List String
  evidenceRefs : List String
  reasonRequired : status ≠ .pass → reasonCodes ≠ []
  evidenceRequired : evidenceRefs ≠ []
  deriving DecidableEq

/-- `_SHA`, matched in full. -/
def isCommitSha (s : String) : Bool :=
  decide (40 ≤ s.toList.length) && decide (s.toList.length ≤ 64) &&
    s.toList.all fun c => ('0' ≤ c && c ≤ '9') || ('a' ≤ c && c ≤ 'f')

structure ReleaseVerificationReport where
  version : String
  commitSha : String
  generatedAt : String
  gates : List GateResult
  schemaVersion : String
  versions : schemaVersion = "0.5.0" ∧ version = "0.5.0"
  shaValid : isCommitSha commitSha = true
  gatesValid : gates ≠ [] ∧ (gates.map GateResult.gateId).Nodup
  deriving DecidableEq

/-- The constructor of a report, whose schema version has its default. -/
def ReleaseVerificationReport.build (version commitSha generatedAt : String)
    (gates : List GateResult) : Except String ReleaseVerificationReport :=
  if hversion : version = "0.5.0" then
    if hsha : isCommitSha commitSha = true then
      if hgates : gates ≠ [] ∧ (gates.map GateResult.gateId).Nodup then
        .ok ⟨version, commitSha, generatedAt, gates, "0.5.0", ⟨rfl, hversion⟩, hsha, hgates⟩
      else .error "INVALID_RELEASE_GATES"
    else .error "INVALID_BUILD_COMMIT"
  else .error "INVALID_RELEASE_REPORT_VERSION"

def ReleaseVerificationReport.status (report : ReleaseVerificationReport) : ReleaseStatus :=
  let values := report.gates.map GateResult.status
  if ReleaseStatus.block ∈ values then .block
  else if ReleaseStatus.review ∈ values then .review
  else .pass

/-- `MANDATORY_GATES` -/
def mandatoryGates : List GateId :=
  [⟨"unit-quality", by decide⟩, ⟨"dependency-audit", by decide⟩, ⟨"secret-scan", by decide⟩,
    ⟨"oidc-validation", by decide⟩, ⟨"postgresql-migrations", by decide⟩,
    ⟨"tenant-isolation", by decide⟩, ⟨"database-roles", by decide⟩,
    ⟨"worker-recovery", by decide⟩, ⟨"production-configuration", by decide⟩,
    ⟨"observability-health", by decide⟩, ⟨"container-scan", by decide⟩,
    ⟨"restore-verification", by decide⟩, ⟨"controlled-pilot-e2e", by decide⟩,
    ⟨"artifact-integrity", by decide⟩]

/-- `BLOCKING_REASON_CODES` -/
def blockingReasonCodes : List String :=
  ["TENANT_ISOLATION_FAILURE", "CRITICAL_VULNERABILITY", "MIGRATION_FAILURE", "RESTORE_FAILURE",
    "AUDIT_INTEGRITY_FAILURE", "STATIC_AUTH_PRODUCTION", "RESEARCH_OUTCOME_USED",
    "AGENT_APPROVAL", "SECRET_LEAKAGE"]

/-- A reason code of the result blocks a release. -/
def GateResult.Blocked (gate : GateResult) : Prop :=
  ∃ code ∈ gate.reasonCodes, code ∈ blockingReasonCodes

instance (gate : GateResult) : Decidable gate.Blocked :=
  inferInstanceAs (Decidable (∃ code ∈ gate.reasonCodes, code ∈ blockingReasonCodes))

theorem GateResult.Blocked.reasons {gate : GateResult} (h : gate.Blocked) :
    gate.reasonCodes ≠ [] := by
  obtain ⟨code, hcode, -⟩ := h
  exact List.ne_nil_of_mem hcode

/-- `_enforce_blockers` -/
def enforceBlockers (gate : GateResult) : GateResult :=
  if h : gate.Blocked then
    { gate with status := .block, reasonRequired := fun _ => h.reasons }
  else gate

@[simp] theorem enforceBlockers_gateId (gate : GateResult) :
    (enforceBlockers gate).gateId = gate.gateId := by
  unfold enforceBlockers
  split_ifs <;> rfl

/-- A result counts as PASS where it says so and no code of it blocks. -/
theorem enforceBlockers_pass (gate : GateResult) :
    (enforceBlockers gate).status = .pass ↔ gate.status = .pass ∧ ¬ gate.Blocked := by
  unfold enforceBlockers
  by_cases h : gate.Blocked
  · simp [h]
  · simp [h]

/-! ## The loop over the results -/

/-- The dictionary `supplied` and the set `duplicate_ids`. -/
structure Supplied where
  supplied : List GateResult
  duplicateIds : List GateId

/-- One turn of the loop. -/
def Supplied.add (s : Supplied) (gate : GateResult) : Supplied where
  supplied := upsert GateResult.gateId (enforceBlockers gate) s.supplied
  duplicateIds :=
    if (lookup GateResult.gateId gate.gateId s.supplied).isSome then gate.gateId :: s.duplicateIds
    else s.duplicateIds

def collect (gates : List GateResult) : Supplied := gates.foldl Supplied.add ⟨[], []⟩

/-- The result `verify` puts in the place of missing or repeated evidence. -/
def refused (gateId : GateId) (code : String) : GateResult where
  gateId := gateId
  status := .block
  reasonCodes := [code]
  evidenceRefs := ["release-verification"]
  reasonRequired := fun _ => List.cons_ne_nil code []
  evidenceRequired := List.cons_ne_nil _ []

/-- The result `verify` reports for a mandatory gate. -/
def Supplied.result (s : Supplied) (gateId : GateId) : GateResult :=
  if gateId ∈ s.duplicateIds then refused gateId "DUPLICATE_GATE_EVIDENCE"
  else
    match lookup GateResult.gateId gateId s.supplied with
    | none => refused gateId "MANDATORY_GATE_MISSING"
    | some gate => gate

/-- `sorted(set(supplied).difference(MANDATORY_GATES))` -/
def Supplied.unknown (s : Supplied) : List GateId :=
  ((s.supplied.map GateResult.gateId).filter fun gateId => gateId ∉ mandatoryGates).insertionSort
    fun a b => a ≤ b

def releaseInput : GateId := ⟨"release-input", by decide⟩

/-- The result for gates that no release has. -/
def unknownGates (unknown : List GateId) (h : unknown ≠ []) : GateResult where
  gateId := releaseInput
  status := .block
  reasonCodes := ["UNKNOWN_RELEASE_GATE"]
  evidenceRefs := unknown.map fun gateId => "gate:" ++ gateId.1
  reasonRequired := fun _ => List.cons_ne_nil _ []
  evidenceRequired := fun hnil => h (List.map_eq_nil_iff.mp hnil)

/-- `normalized` -/
def Supplied.normalized (s : Supplied) : List GateResult :=
  mandatoryGates.map s.result ++
    if h : s.unknown ≠ [] then [unknownGates s.unknown h] else []

/-- `ReleaseVerifier.verify` -/
def verify (version commitSha generatedAt : String) (gates : List GateResult) :
    Except String ReleaseVerificationReport :=
  ReleaseVerificationReport.build version commitSha generatedAt (collect gates).normalized

/-- `publication_eligible` -/
def publicationEligible (report : ReleaseVerificationReport) : Bool :=
  decide (report.status = .pass) && decide (report.gates.map GateResult.gateId = mandatoryGates)

/-- The results given for a gate, in their order. -/
def resultsFor (gates : List GateResult) (gateId : GateId) : List GateResult :=
  gates.filter fun gate => gate.gateId = gateId

theorem collect_append (gates : List GateResult) (gate : GateResult) :
    collect (gates ++ [gate]) = (collect gates).add gate := by
  simp only [collect, List.foldl_append, List.foldl_cons, List.foldl_nil]

theorem resultsFor_append (gates : List GateResult) (gate : GateResult) (gateId : GateId) :
    resultsFor (gates ++ [gate]) gateId =
      resultsFor gates gateId ++ if gate.gateId = gateId then [gate] else [] := by
  by_cases h : gate.gateId = gateId
  · simp [resultsFor, h]
  · simp [resultsFor, h]

/-- The last result of a gate is the one supplied. -/
theorem lookup_collect (gates : List GateResult) (gateId : GateId) :
    lookup GateResult.gateId gateId (collect gates).supplied =
      (resultsFor gates gateId).getLast?.map enforceBlockers := by
  induction gates using List.reverseRecOn with
  | nil => rfl
  | append_singleton gates gate ih =>
    rw [collect_append, resultsFor_append]
    simp only [Supplied.add, lookup_upsert, enforceBlockers_gateId]
    by_cases h : gate.gateId = gateId
    · simp [h]
    · simp [h, ih]

theorem keyed_collect (gates : List GateResult) :
    Keyed GateResult.gateId (collect gates).supplied := by
  induction gates using List.reverseRecOn with
  | nil => exact List.nodup_nil
  | append_singleton gates gate ih =>
    rw [collect_append]
    exact keyed_upsert ih

/-- The repeated ids are those with two results. -/
theorem mem_duplicateIds (gates : List GateResult) (gateId : GateId) :
    gateId ∈ (collect gates).duplicateIds ↔ 2 ≤ (resultsFor gates gateId).length := by
  induction gates using List.reverseRecOn with
  | nil => simp [collect, resultsFor]
  | append_singleton gates gate ih =>
    have hlookup := lookup_collect gates gate.gateId
    rw [collect_append, resultsFor_append]
    simp only [Supplied.add]
    by_cases h : gate.gateId = gateId
    · subst h
      cases hres : resultsFor gates gate.gateId with
      | nil =>
        rw [hres] at hlookup ih
        simp [hlookup, ih]
      | cons first rest =>
        rw [hres] at hlookup
        simp [hlookup, List.getLast?_cons]
    · have hne : gateId ≠ gate.gateId := fun he => h he.symm
      rw [if_neg h, List.append_nil, ← ih]
      split_ifs <;> simp [hne]

/-- What a mandatory gate contributes, read off its results. -/
def standing (gateId : GateId) : List GateResult → GateResult
  | [] => refused gateId "MANDATORY_GATE_MISSING"
  | [gate] => enforceBlockers gate
  | _ :: _ :: _ => refused gateId "DUPLICATE_GATE_EVIDENCE"

theorem result_collect (gates : List GateResult) (gateId : GateId) :
    (collect gates).result gateId = standing gateId (resultsFor gates gateId) := by
  have hlookup := lookup_collect gates gateId
  have hduplicate := mem_duplicateIds gates gateId
  unfold Supplied.result
  match hres : resultsFor gates gateId with
  | [] =>
    rw [hres] at hlookup hduplicate
    rw [if_neg (by simp [hduplicate]), hlookup]
    rfl
  | [gate] =>
    rw [hres] at hlookup hduplicate
    rw [if_neg (by simp [hduplicate]), hlookup]
    rfl
  | _ :: _ :: _ =>
    rw [hres] at hduplicate
    rw [if_pos (by simp [hduplicate])]
    rfl

theorem standing_gateId (gates : List GateResult) (gateId : GateId) :
    (standing gateId (resultsFor gates gateId)).gateId = gateId := by
  match hres : resultsFor gates gateId with
  | [] => rfl
  | [gate] =>
    have hmem : gate ∈ resultsFor gates gateId := by simp [hres]
    rw [standing, enforceBlockers_gateId]
    simpa [resultsFor] using (List.mem_filter.mp hmem).2
  | _ :: _ :: _ => rfl

/-- A gate counts as PASS where it has one result, which passes and is not blocked. -/
theorem standing_pass (gateId : GateId) (results : List GateResult) :
    (standing gateId results).status = .pass ↔
      ∃ gate, results = [gate] ∧ gate.status = .pass ∧ ¬ gate.Blocked := by
  match results with
  | [] => simp [standing, refused]
  | [gate] => simp [standing, enforceBlockers_pass]
  | _ :: _ :: _ => simp [standing, refused]

theorem standing_perm (gateId : GateId) {results results' : List GateResult}
    (h : results.Perm results') : standing gateId results = standing gateId results' := by
  match results, results', h.length_eq with
  | [], [], _ => rfl
  | [gate], [gate'], _ => rw [List.singleton_perm_singleton.mp h]
  | _ :: _ :: _, _ :: _ :: _, _ => rfl

theorem mem_unknown (gates : List GateResult) (gateId : GateId) :
    gateId ∈ (collect gates).unknown ↔ (∃ gate ∈ gates, gate.gateId = gateId) ∧
      gateId ∉ mandatoryGates := by
  have hsupplied : gateId ∈ (collect gates).supplied.map GateResult.gateId ↔
      ∃ gate ∈ gates, gate.gateId = gateId := by
    have hlookup := lookup_collect gates gateId
    constructor
    · intro hmem
      obtain ⟨gate, hgate, hid⟩ := List.mem_map.mp hmem
      rw [(keyed_collect gates).lookup_eq_some.mpr ⟨hgate, hid⟩] at hlookup
      obtain ⟨last, hlast, -⟩ := Option.map_eq_some_iff.mp hlookup.symm
      have hmem' := List.mem_filter.mp (List.mem_of_getLast? hlast)
      exact ⟨last, hmem'.1, by simpa using hmem'.2⟩
    · rintro ⟨gate, hgate, hid⟩
      have hmem : gate ∈ resultsFor gates gateId := by simp [resultsFor, hgate, hid]
      cases hlast : (resultsFor gates gateId).getLast? with
      | none => simp [List.getLast?_eq_none_iff.mp hlast] at hmem
      | some last =>
        rw [hlast] at hlookup
        exact List.mem_map.mpr ⟨_, mem_of_lookup hlookup, key_of_lookup hlookup⟩
  simp [Supplied.unknown, List.mem_insertionSort, hsupplied]

theorem unknown_perm {gates gates' : List GateResult} (h : gates.Perm gates') :
    (collect gates).unknown = (collect gates').unknown := by
  have hnodup (gates : List GateResult) : (collect gates).unknown.Nodup :=
    (List.perm_insertionSort _ _).nodup_iff.mpr ((keyed_collect gates).filter _)
  have hsorted (gates : List GateResult) : (collect gates).unknown.Pairwise (· ≤ ·) :=
    List.pairwise_insertionSort _ _
  apply List.Perm.eq_of_pairwise' (hsorted gates) (hsorted gates')
  rw [List.perm_ext_iff_of_nodup (hnodup gates) (hnodup gates')]
  intro gateId
  simp only [mem_unknown, h.mem_iff]

/-- The results that are reported do not depend on the order of those given. -/
theorem normalized_perm {gates gates' : List GateResult} (h : gates.Perm gates') :
    (collect gates).normalized = (collect gates').normalized := by
  have hresult : (collect gates).result = (collect gates').result := by
    funext gateId
    rw [result_collect, result_collect]
    exact standing_perm gateId (h.filter _)
  simp only [Supplied.normalized, hresult, unknown_perm h]

/-- The results of one release: each mandatory gate has one, it passes and no reason of it blocks,
and no other gate has any. -/
structure Conforming (gates : List GateResult) : Prop where
  once : ∀ gateId ∈ mandatoryGates, (gates.map GateResult.gateId).count gateId = 1
  passed : ∀ gate ∈ gates, gate.status = .pass ∧ ¬ gate.Blocked
  known : ∀ gate ∈ gates, gate.gateId ∈ mandatoryGates

theorem length_resultsFor (gates : List GateResult) (gateId : GateId) :
    (resultsFor gates gateId).length = (gates.map GateResult.gateId).count gateId := by
  induction gates with
  | nil => rfl
  | cons gate gates ih =>
    by_cases h : gate.gateId = gateId
    · simpa [resultsFor, h] using ih
    · simpa [resultsFor, h] using ih

theorem unknown_nil (gates : List GateResult) :
    (collect gates).unknown = [] ↔ ∀ gate ∈ gates, gate.gateId ∈ mandatoryGates := by
  simp only [List.eq_nil_iff_forall_not_mem, mem_unknown, not_and, not_not]
  constructor
  · intro h gate hgate
    exact h gate.gateId ⟨gate, hgate, rfl⟩
  · rintro h gateId ⟨gate, hgate, rfl⟩
    exact h gate hgate

theorem map_gateId_normalized (gates : List GateResult) :
    (collect gates).normalized.map GateResult.gateId =
      mandatoryGates ++ if (collect gates).unknown = [] then [] else [releaseInput] := by
  have hids : mandatoryGates.map (GateResult.gateId ∘ (collect gates).result) = mandatoryGates := by
    conv_rhs => rw [← List.map_id mandatoryGates]
    apply List.map_congr_left
    intro gateId _
    rw [Function.comp_apply, result_collect, standing_gateId, id_eq]
  unfold Supplied.normalized
  rw [List.map_append, List.map_map, hids]
  by_cases h : (collect gates).unknown = []
  · simp [h]
  · simp [h, unknownGates]

/-- The constructor of the report accepts what `verify` computes. -/
theorem normalized_valid (gates : List GateResult) :
    (collect gates).normalized ≠ [] ∧
      ((collect gates).normalized.map GateResult.gateId).Nodup := by
  have hids := map_gateId_normalized gates
  constructor
  · intro hnil
    rw [hnil] at hids
    simp [mandatoryGates] at hids
  · rw [hids]
    split_ifs
    · decide
    · decide

theorem status_pass (report : ReleaseVerificationReport) :
    report.status = .pass ↔ ∀ gate ∈ report.gates, gate.status = .pass := by
  have hcases : ∀ s : ReleaseStatus, s ≠ .block → s ≠ .review → s = .pass := by
    intro s
    cases s <;> simp
  simp only [ReleaseVerificationReport.status]
  split_ifs with hblock hreview
  · obtain ⟨gate, hgate, hs⟩ := List.mem_map.mp hblock
    simp only [false_iff]
    intro h
    cases hs.symm.trans (h gate hgate)
  · obtain ⟨gate, hgate, hs⟩ := List.mem_map.mp hreview
    simp only [false_iff]
    intro h
    cases hs.symm.trans (h gate hgate)
  · refine iff_of_true rfl fun gate hgate => hcases gate.status ?_ ?_
    · exact fun h => hblock (List.mem_map.mpr ⟨gate, hgate, h⟩)
    · exact fun h => hreview (List.mem_map.mpr ⟨gate, hgate, h⟩)

/-- The results of one release are those whose report passes for the mandatory gates alone. -/
theorem conforming_iff (gates : List GateResult) :
    Conforming gates ↔ (∀ gate ∈ (collect gates).normalized, gate.status = .pass) ∧
      (collect gates).unknown = [] := by
  have hreported : (collect gates).unknown = [] →
      (collect gates).normalized = mandatoryGates.map (collect gates).result := by
    intro h
    simp [Supplied.normalized, h]
  constructor
  · intro h
    have hunknown := (unknown_nil gates).mpr h.known
    refine ⟨?_, hunknown⟩
    rw [hreported hunknown, List.forall_mem_map]
    intro gateId hid
    have hlength := (length_resultsFor gates gateId).trans (h.once gateId hid)
    obtain ⟨gate, hgate⟩ := List.length_eq_one_iff.mp hlength
    have hmem : gate ∈ resultsFor gates gateId := by simp [hgate]
    rw [result_collect, standing_pass]
    exact ⟨gate, hgate, h.passed gate (List.mem_of_mem_filter hmem)⟩
  · rintro ⟨hpass, hunknown⟩
    rw [hreported hunknown, List.forall_mem_map] at hpass
    have hknown := (unknown_nil gates).mp hunknown
    have hone : ∀ gateId ∈ mandatoryGates, ∃ gate, resultsFor gates gateId = [gate] ∧
        gate.status = .pass ∧ ¬ gate.Blocked := by
      intro gateId hid
      rw [← standing_pass, ← result_collect]
      exact hpass gateId hid
    refine ⟨?_, ?_, hknown⟩
    · intro gateId hid
      obtain ⟨gate, hgate, -⟩ := hone gateId hid
      rw [← length_resultsFor, hgate]
      rfl
    · intro gate hgate
      obtain ⟨only, honly, hgood⟩ := hone gate.gateId (hknown gate hgate)
      have hmem : gate ∈ resultsFor gates gate.gateId := by simp [resultsFor, hgate]
      rw [honly, List.mem_singleton] at hmem
      rwa [hmem]

theorem verify_gates (version commitSha generatedAt : String) (gates : List GateResult)
    (report : ReleaseVerificationReport)
    (h : verify version commitSha generatedAt gates = .ok report) :
    report.gates = (collect gates).normalized := by
  unfold verify ReleaseVerificationReport.build at h
  split_ifs at h
  cases h
  rfl

/-- A report makes a release eligible exactly where the results given are those of one release:
each mandatory gate once, passing and unblocked, and nothing else. The report, and with it the
verdict, is the same for every order of the results. -/
theorem publicationEligible_iff (version commitSha generatedAt : String)
    (gates : List GateResult) :
    ((∃ report, verify version commitSha generatedAt gates = .ok report) ↔
      version = "0.5.0" ∧ isCommitSha commitSha = true) ∧
    (∀ report, verify version commitSha generatedAt gates = .ok report →
      (publicationEligible report = true ↔ Conforming gates)) ∧
    ∀ gates' : List GateResult, gates.Perm gates' →
      verify version commitSha generatedAt gates = verify version commitSha generatedAt gates' := by
  refine ⟨?_, ?_, ?_⟩
  · unfold verify ReleaseVerificationReport.build
    have hvalid := normalized_valid gates
    split_ifs with hversion hsha
    · simp [hversion, hsha]
    · simp [hsha]
    · simp [hversion]
  · intro report hreport
    have hgates := verify_gates version commitSha generatedAt gates report hreport
    rw [publicationEligible, Bool.and_eq_true, decide_eq_true_eq, decide_eq_true_eq, status_pass,
      hgates, map_gateId_normalized, conforming_iff]
    apply and_congr_right
    intro _
    by_cases h : (collect gates).unknown = []
    · simp [h]
    · simp [h]
  · intro gates' h
    unfold verify
    rw [normalized_perm h]

/-- A result for each mandatory gate. -/
def passing : List GateResult := mandatoryGates.map fun gateId =>
  ⟨gateId, .pass, [], ["evidence/" ++ gateId.1 ++ ".json"], fun h => absurd rfl h,
    List.cons_ne_nil _ _⟩

theorem publicationEligible_passing : ∃ report,
    verify "0.5.0" "aaaaaaaaaaaaaaaaaaaaaaaaaaaaaaaaaaaaaaaa" "2026-07-30T12:00:00Z" passing =
      .ok report ∧ publicationEligible report = true := by
  obtain ⟨haccepts, heligible, -⟩ := publicationEligible_iff "0.5.0"
    "aaaaaaaaaaaaaaaaaaaaaaaaaaaaaaaaaaaaaaaa" "2026-07-30T12:00:00Z" passing
  obtain ⟨report, hreport⟩ := haccepts.mpr ⟨rfl, by decide⟩
  refine ⟨report, hreport, (heligible report hreport).mpr ⟨?_, ?_, ?_⟩⟩
  · decide
  · decide
  · decide

end DecisionAssurance.Release
