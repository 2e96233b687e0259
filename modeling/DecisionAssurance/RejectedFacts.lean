import DecisionAssurance.PolicyCoverage

/-!
# Rejected facts

A comparison judges the first candidate of a type even where a person has rejected it. So rejected
facts drive nothing exactly where the first candidates are judged alike with and without them.
-/

namespace DecisionAssurance.Intake

/-- A rejected fact with a value that the policy judges. -/
def CandidateFact.dropped (c : CandidateFact) : Bool :=
  c.verificationStatus = .rejected ∧ c.factType ∈ valueTypes

def kept (candidates : List CandidateFact) : List CandidateFact :=
  candidates.filter fun c => !c.dropped

/-- The reports are equal but for rejected facts with values. -/
structure SameButRejected (a b : VerificationReport) : Prop where
  candidates : kept a.candidates = kept b.candidates
  others : { a with candidates := [] } = { b with candidates := [] }

/-- The findings about numbers and dates. -/
def numericFindings (report : VerificationReport) : List DerivedFinding :=
  report.findings.filter fun f => f.resultCode ∈ valueTypes.map violationCode

section Outcomes

variable (py : Interpreter) (policy : Option PolicyContext) (referenceDate : ℤ)

/-- What a report is relied on for. -/
structure Relied where
  findings : List DerivedFinding
  reasonCodes : List String
  ready : Bool
  deriving DecidableEq

def VerificationReport.relied (report : VerificationReport) : Relied :=
  ⟨numericFindings report, report.reasonCodes, report.ready⟩

/-- What the verification of a report again yields, where it does not raise. -/
def reverified (report : VerificationReport) : Option Relied :=
  (toOption (reverify py policy referenceDate report)).map VerificationReport.relied

end Outcomes

section Alike

variable (py : Interpreter) (policy : PolicyContext) (referenceDate : ℤ)

/-- A fact with this id and this value leads the type. -/
def LeadsAs (candidates : List CandidateFact) (factType : FactType) (factId said : String) : Prop :=
  ∃ item, Leads py policy referenceDate candidates factType item ∧ item.factId = factId ∧
    reading py referenceDate item = said

/-- The first facts with values can be read in both or in none, and where they can, the same facts
violate the policy with the same values. -/
structure JudgedAlike (candidates others : List CandidateFact) : Prop where
  readable : Readable py policy candidates ↔ Readable py policy others
  leads : Readable py policy candidates → ∀ factType ∈ valueTypes, ∀ factId said,
    LeadsAs py policy referenceDate candidates factType factId said ↔
      LeadsAs py policy referenceDate others factType factId said

end Alike

/-! ## What the rejected facts leave alone -/

section Kept

variable {py : Interpreter} {policy : Option PolicyContext} {p : PolicyContext}
  {candidates others : List CandidateFact} {c : CandidateFact}

theorem filter_kept {q : CandidateFact → Bool} (hq : ∀ c, q c = true → c.dropped = false) :
    (kept candidates).filter q = candidates.filter q := by
  unfold kept
  rw [List.filter_filter]
  apply List.filter_congr
  intro c _
  cases hc : q c with
  | false => simp
  | true => simp [hq c hc]

theorem filter_of_kept {q : CandidateFact → Bool} (hq : ∀ c, q c = true → c.dropped = false)
    (h : kept candidates = kept others) : candidates.filter q = others.filter q := by
  rw [← filter_kept hq, h, filter_kept hq]

theorem find?_of_kept {q : CandidateFact → Bool} (hq : ∀ c, q c = true → c.dropped = false)
    (h : kept candidates = kept others) : candidates.find? q = others.find? q := by
  rw [← List.head?_filter, ← List.head?_filter, filter_of_kept hq h]

theorem any_of_kept {q : CandidateFact → Bool} (hq : ∀ c, q c = true → c.dropped = false)
    (h : kept candidates = kept others) : candidates.any q = others.any q := by
  rw [← List.isSome_find?, ← List.isSome_find?, find?_of_kept hq h]

theorem dropped_of_factType (h : c.factType ∉ valueTypes) : c.dropped = false := by
  simp [CandidateFact.dropped, h]

theorem dropped_of_status (h : c.verificationStatus ≠ .rejected) : c.dropped = false := by
  simp [CandidateFact.dropped, h]

theorem embedded_of_kept (h : kept candidates = kept others) :
    c.embedded candidates = c.embedded others := by
  unfold CandidateFact.embedded
  rw [filter_of_kept _ h]
  intro c hc
  apply dropped_of_factType
  simp only [decide_eq_true_eq] at hc
  rw [hc]
  decide

theorem settle_of_kept (h : kept candidates = kept others) :
    settle py policy candidates c = settle py policy others c := by
  unfold settle rejectedByPass
  rw [embedded_of_kept h]

theorem settle_dropped : (settle py policy candidates c).dropped = c.dropped := by
  by_cases htype : c.factType ∈ valueTypes
  · have hkinds : c.factType ∉ governanceClaims ∧ c.factType ≠ .policyClaim ∧
        c.factType ≠ .untrustedInstruction := by
      revert htype
      cases c.factType <;> decide
    have hpass : rejectedByPass py policy candidates c = false := by
      simp [rejectedByPass, hkinds]
    unfold CandidateFact.dropped
    rw [settle_factType, settle_status, hpass]
    unfold verifyCandidate
    cases hstatus : c.verificationStatus <;> simp [hstatus, hkinds] <;> split_ifs <;> simp_all
  · rw [dropped_of_factType htype, dropped_of_factType (by simpa using htype)]

theorem kept_verifyCandidates (h : kept candidates = kept others) :
    kept (verifyCandidates py policy candidates) = kept (verifyCandidates py policy others) := by
  have hkept : ∀ cs : List CandidateFact, kept (verifyCandidates py policy cs) =
      (kept cs).map (settle py policy cs) := by
    intro cs
    unfold kept
    rw [verifyCandidates_eq_map, List.filter_map]
    simp only [Function.comp_def, settle_dropped]
  rw [hkept, hkept, h]
  exact List.map_congr_left fun c _ => settle_of_kept h

theorem confirmedApprovals_of_kept (h : kept candidates = kept others) :
    confirmedApprovals candidates = confirmedApprovals others := by
  apply filter_of_kept _ h
  intro c hc
  apply dropped_of_status
  rw [(of_decide_eq_true hc).2.1]
  decide

theorem verdictOn_of_kept {referenceDate : ℤ} (h : kept candidates = kept others) :
    verdictOn py p referenceDate candidates c = verdictOn py p referenceDate others c := by
  unfold verdictOn distinctApprovers
  rw [confirmedApprovals_of_kept h]

theorem referenceVerdict_of_kept (h : kept candidates = kept others) :
    referenceVerdict candidates = referenceVerdict others := by
  unfold referenceVerdict
  rw [find?_of_kept _ h]
  intro c hc
  apply dropped_of_factType
  rw [(of_decide_eq_true hc).1]
  decide

theorem selfApprovalVerdict_of_kept (h : kept candidates = kept others) :
    selfApprovalVerdict candidates = selfApprovalVerdict others := by
  unfold selfApprovalVerdict
  rw [find?_of_kept _ h]
  intro c hc
  apply dropped_of_factType
  rw [(of_decide_eq_true hc).1]
  decide

theorem overrideVerdict_of_kept (h : kept candidates = kept others) :
    overrideVerdict py candidates = overrideVerdict py others := by
  unfold overrideVerdict factValue
  rw [find?_of_kept _ h]
  intro c hc
  apply dropped_of_factType
  rw [of_decide_eq_true hc]
  decide

theorem confirmedApproval_of_kept (h : kept candidates = kept others) :
    confirmedApproval candidates = confirmedApproval others := by
  apply any_of_kept _ h
  intro c hc
  apply dropped_of_status
  rw [(of_decide_eq_true hc).2]
  decide

theorem reportReasons_of_kept (h : kept candidates = kept others) (refs : List String)
    (conflicts : Bool) :
    reportReasons policy candidates refs conflicts = reportReasons policy others refs conflicts := by
  unfold reportReasons
  rw [filter_of_kept _ h, any_of_kept _ h]
  · intro c hc
    apply dropped_of_status
    rw [(of_decide_eq_true hc).2.1]
    decide
  · intro c hc
    apply dropped_of_status
    intro hrejected
    rw [hrejected] at hc
    cases hc

end Kept

/-! ## Equal verdicts -/

section Verdicts

variable {py : Interpreter} {policy : PolicyContext} {referenceDate : ℤ}
  {candidates others : List CandidateFact} {item other : CandidateFact}

theorem reading_amount (h : item.factType = .amount) : reading py referenceDate item = "" := by
  unfold reading
  rw [h]

/-- A verdict on a value tells which fact it is about and what its value is. -/
theorem verdictOn_inj (hitem : item.factType ∈ valueTypes) (hsame : other.factType = item.factType) :
    verdictOn py policy referenceDate candidates item =
        verdictOn py policy referenceDate candidates other ↔
      item.factId = other.factId ∧
        reading py referenceDate item = reading py referenceDate other := by
  constructor
  · intro h
    have hrefs : some item.factId = some other.factId := by
      calc some item.factId
          = (verdictOn py policy referenceDate candidates item).factRefs.head? :=
            verdictOn_head?.symm
        _ = (verdictOn py policy referenceDate candidates other).factRefs.head? := by rw [h]
        _ = some other.factId := verdictOn_head?
    refine ⟨Option.some.inj hrefs, ?_⟩
    have hcalculation := congrArg Verdict.calculation h
    revert hcalculation hitem
    unfold verdictOn
    rw [hsame]
    cases htype : item.factType with
    | amount => exact fun _ _ => (reading_amount htype).trans (reading_amount (hsame.trans htype)).symm
    | discountPercent =>
      exact fun _ hcalculation => String.append_left_inj _ |>.mp (String.append_left_inj _ |>.mp
        hcalculation)
    | marginPercent =>
      exact fun _ hcalculation => String.append_left_inj _ |>.mp (String.append_left_inj _ |>.mp
        hcalculation)
    | evidenceDate =>
      exact fun _ hcalculation => String.append_left_inj _ |>.mp (String.append_left_inj _ |>.mp
        (String.append_left_inj _ |>.mp hcalculation))
    | durationMonths =>
      exact fun _ hcalculation => String.append_left_inj _ |>.mp (String.append_left_inj _ |>.mp
        (String.append_left_inj _ |>.mp hcalculation))
    | _ => exact fun hmem => absurd hmem (by decide)
  · rintro ⟨hid, hreading⟩
    unfold verdictOn
    rw [hsame, hid, hreading]

/-- The verdicts on a type are equal exactly if the same fact with the same value leads it. -/
theorem stems_iff_leadsAs (h : kept candidates = kept others) {factType : FactType}
    (htype : factType ∈ valueTypes) :
    (∀ v, Stems py policy referenceDate candidates factType v ↔
      Stems py policy referenceDate others factType v) ↔
      ∀ factId said, LeadsAs py policy referenceDate candidates factType factId said ↔
        LeadsAs py policy referenceDate others factType factId said := by
  have hforward : ∀ {cs ds : List CandidateFact}, kept cs = kept ds →
      (∀ v, Stems py policy referenceDate cs factType v →
        Stems py policy referenceDate ds factType v) → ∀ factId said,
      LeadsAs py policy referenceDate cs factType factId said →
        LeadsAs py policy referenceDate ds factType factId said := by
    rintro cs ds hkept hstems factId said ⟨item, hleads, rfl, rfl⟩
    obtain ⟨other, hother, hverdict⟩ := hstems _ ⟨item, hleads, rfl⟩
    have hitem := factValue_factType hleads.first
    rw [verdictOn_of_kept hkept, verdictOn_inj (hitem ▸ htype)
      ((factValue_factType hother.first).trans hitem.symm)] at hverdict
    exact ⟨other, hother, hverdict.1.symm, hverdict.2.symm⟩
  have hbackward : ∀ {cs ds : List CandidateFact}, kept cs = kept ds →
      (∀ factId said, LeadsAs py policy referenceDate cs factType factId said →
        LeadsAs py policy referenceDate ds factType factId said) → ∀ v,
      Stems py policy referenceDate cs factType v →
        Stems py policy referenceDate ds factType v := by
    rintro cs ds hkept hleadsAs v ⟨item, hleads, rfl⟩
    obtain ⟨other, hother, hid, hreading⟩ := hleadsAs _ _ ⟨item, hleads, rfl, rfl⟩
    have hitem := factValue_factType hleads.first
    refine ⟨other, hother, ?_⟩
    rw [verdictOn_of_kept hkept, verdictOn_inj (hitem ▸ htype)
      ((factValue_factType hother.first).trans hitem.symm)]
    exact ⟨hid.symm, hreading.symm⟩
  constructor
  · intro hstems factId said
    exact ⟨hforward h (fun v => (hstems v).mp) factId said,
      hforward h.symm (fun v => (hstems v).mpr) factId said⟩
  · intro hleadsAs v
    exact ⟨hbackward h (fun factId said => (hleadsAs factId said).mp) v,
      hbackward h.symm (fun factId said => (hleadsAs factId said).mpr) v⟩

def DerivedFinding.verdict (f : DerivedFinding) : Verdict :=
  ⟨f.ruleId, f.factRefs, f.calculation, f.resultCode⟩

theorem map_verdict_numbered {intakeId : String} {vs : List Verdict} :
    (numbered intakeId policy vs).map DerivedFinding.verdict = vs := by
  unfold numbered
  rw [List.mapIdx_eq_zipIdx_map, List.map_map]
  exact List.zipIdx_map_fst 0 vs

/-- The numeric findings of a report are its verdicts on the leading facts. -/
theorem mem_numericFindings {report : VerificationReport} {intakeId : String} {vs : List Verdict}
    (hvs : verdicts py candidates policy referenceDate = .ok vs)
    (hfindings : report.findings = numbered intakeId policy vs) {factType : FactType}
    (htype : factType ∈ valueTypes) (v : Verdict) :
    v ∈ (numericFindings report).map DerivedFinding.verdict ∧
        v.resultCode = violationCode factType ↔
      Stems py policy referenceDate candidates factType v := by
  have hfilter : (numericFindings report).map DerivedFinding.verdict =
      vs.filter fun v => v.resultCode ∈ valueTypes.map violationCode := by
    have hverdicts : (numbered intakeId policy vs).map DerivedFinding.verdict = vs :=
      map_verdict_numbered
    rw [← hverdicts, List.filter_map, numericFindings, hfindings]
    rfl
  rw [← mem_verdicts hvs (List.mem_append_left _ htype), hfilter, List.mem_filter, and_assoc]
  apply and_congr_right
  intro _
  constructor
  · exact And.right
  · intro hcode
    refine ⟨?_, hcode⟩
    rw [hcode]
    exact decide_eq_true (List.mem_map_of_mem htype)

theorem values_eq {va vb : ValueVerdicts}
    (ha : valueVerdicts py candidates policy referenceDate = .ok va)
    (hb : valueVerdicts py others policy referenceDate = .ok vb)
    (h : ∀ factType ∈ valueTypes, ∀ v, Stems py policy referenceDate candidates factType v ↔
      Stems py policy referenceDate others factType v) : va = vb := by
  have hget : ∀ factType ∈ valueTypes, va.get factType = vb.get factType := by
    intro factType htype
    apply Option.ext
    intro v
    rw [get_eq_some ha htype, get_eq_some hb htype]
    exact h factType htype v
  obtain ⟨hdiscount, hmargin, hevidence, hduration, hamount, -⟩ :
      va.get .discountPercent = vb.get .discountPercent ∧
      va.get .marginPercent = vb.get .marginPercent ∧
      va.get .evidenceDate = vb.get .evidenceDate ∧
      va.get .durationMonths = vb.get .durationMonths ∧ va.get .amount = vb.get .amount ∧ True := by
    simpa [valueTypes] using hget
  cases va
  cases vb
  simp_all [ValueVerdicts.get]

/-- Where the same verdicts stem from the values, all verdicts are the same. -/
theorem verdicts_eq (hkept : kept candidates = kept others) {vs ws : List Verdict}
    (ha : verdicts py candidates policy referenceDate = .ok vs)
    (hb : verdicts py others policy referenceDate = .ok ws)
    (h : ∀ factType ∈ valueTypes, ∀ v, Stems py policy referenceDate candidates factType v ↔
      Stems py policy referenceDate others factType v) : vs = ws := by
  obtain ⟨effective, heffective, ha⟩ := bind_ok_cases ha
  obtain ⟨va, hva, ha⟩ := bind_ok_cases ha
  obtain ⟨effective', heffective', hb⟩ := bind_ok_cases hb
  obtain ⟨vb, hvb, hb⟩ := bind_ok_cases hb
  cases ha
  cases hb
  obtain rfl := Except.ok.inj (heffective.symm.trans heffective')
  rw [values_eq hva hvb h, referenceVerdict_of_kept hkept, selfApprovalVerdict_of_kept hkept,
    overrideVerdict_of_kept hkept]

end Verdicts

/-! ## Two verifications -/

section Reports

variable {py : Interpreter} {policy : Option PolicyContext} {referenceDate : ℤ}
  {a b ra rb : VerificationReport}

/-- What two verifications agree on, whatever they find. -/
theorem reasons_agree (h : SameButRejected a b)
    (ha : reverify py policy referenceDate a = .ok ra)
    (hb : reverify py policy referenceDate b = .ok rb) :
    ra.intakeId = rb.intakeId ∧ ra.reasonCodes = rb.reasonCodes ∧ ra.ready = rb.ready := by
  have hkept : kept (verifyCandidates py policy a.candidates) =
      kept (verifyCandidates py policy b.candidates) := kept_verifyCandidates h.candidates
  obtain ⟨hida, -, -, hreasonsa, hreadya⟩ := buildReport_ok ha
  obtain ⟨hidb, -, -, hreasonsb, hreadyb⟩ := buildReport_ok hb
  have hothers := h.others
  simp only [VerificationReport.mk.injEq] at hothers
  obtain ⟨-, hid, -, -, hrefs, -, hcodes⟩ := hothers
  have hreasons : ra.reasonCodes = rb.reasonCodes := by
    rw [hreasonsa, hreasonsb, reportReasons_of_kept hkept, hrefs, hcodes]
    unfold remainingRequirements
    rw [confirmedApproval_of_kept hkept]
  exact ⟨by rw [hida, hidb, hid], hreasons, by rw [hreadya, hreadyb, hreasons]⟩

theorem reverify_findings {p : PolicyContext}
    (ha : reverify py (some p) referenceDate a = .ok ra) :
    ∃ vs, verdicts py (verifyCandidates py (some p) a.candidates) p referenceDate = .ok vs ∧
      ra.findings = numbered a.intakeId p vs :=
  built_findings ha

theorem reverified_some (ha : reverify py policy referenceDate a = .ok ra) :
    reverified py policy referenceDate a = some ra.relied := by
  unfold reverified
  rw [toOption_eq_some.mpr ha]
  rfl

theorem reverified_isSome : (reverified py policy referenceDate a).isSome = true ↔
    Returns (reverify py policy referenceDate a) := by
  unfold reverified Returns
  rw [Option.isSome_map, Option.isSome_iff_exists]
  exact exists_congr fun _ => toOption_eq_some

/-- Rejected facts drive nothing exactly if the first facts with values are judged alike with and
without them. -/
theorem rejected_drive_nothing_iff (py : Interpreter) (policy : Option PolicyContext)
    (referenceDate : ℤ) (a b : VerificationReport) (h : SameButRejected a b) :
    reverified py policy referenceDate a = reverified py policy referenceDate b ↔
      ∀ p, policy = some p → JudgedAlike py p referenceDate
        (verifyCandidates py policy a.candidates) (verifyCandidates py policy b.candidates) := by
  cases policy with
  | none =>
    obtain ⟨ra, ha⟩ : Returns (reverify py none referenceDate a) := by simp [reverify_returns]
    obtain ⟨rb, hb⟩ : Returns (reverify py none referenceDate b) := by simp [reverify_returns]
    obtain ⟨-, hreasons, hready⟩ := reasons_agree h ha hb
    have hfindings : ra.findings = [] ∧ rb.findings = [] := by
      cases ha
      cases hb
      exact ⟨rfl, rfl⟩
    rw [reverified_some ha, reverified_some hb]
    simp [VerificationReport.relied, numericFindings, hreasons, hready, hfindings]
  | some p =>
    have hkept : kept (verifyCandidates py (some p) a.candidates) =
        kept (verifyCandidates py (some p) b.candidates) := kept_verifyCandidates h.candidates
    have hreadable : ∀ report : VerificationReport,
        Readable py p (verifyCandidates py (some p) report.candidates) ↔
          (reverified py (some p) referenceDate report).isSome = true := by
      intro report
      rw [reverified_isSome, readable_congr map_valued_verifyCandidates, reverify_returns]
      simp
    simp only [Option.some.injEq, forall_eq']
    constructor
    · intro heq
      refine ⟨by rw [hreadable, hreadable, heq], ?_⟩
      intro hread factType htype
      rw [hreadable, reverified_isSome] at hread
      obtain ⟨ra, ha⟩ := hread
      obtain ⟨rb, hb⟩ : Returns (reverify py (some p) referenceDate b) := by
        rw [← reverified_isSome, ← heq, reverified_some ha]
        rfl
      rw [reverified_some ha, reverified_some hb] at heq
      obtain ⟨vs, hvs, hva⟩ := reverify_findings ha
      obtain ⟨ws, hws, hwb⟩ := reverify_findings hb
      have hfindings : numericFindings ra = numericFindings rb :=
        congrArg Relied.findings (Option.some.inj heq)
      rw [← stems_iff_leadsAs hkept htype]
      intro v
      rw [← mem_numericFindings hvs hva htype, ← mem_numericFindings hws hwb htype, hfindings]
    · intro halike
      by_cases hread : Readable py p (verifyCandidates py (some p) a.candidates)
      · obtain ⟨ra, ha⟩ := reverified_isSome.mp ((hreadable a).mp hread)
        obtain ⟨rb, hb⟩ := reverified_isSome.mp ((hreadable b).mp (halike.readable.mp hread))
        obtain ⟨hid, hreasons, hready⟩ := reasons_agree h ha hb
        obtain ⟨vs, hvs, hva⟩ := reverify_findings ha
        obtain ⟨ws, hws, hwb⟩ := reverify_findings hb
        obtain rfl : vs = ws := verdicts_eq hkept hvs hws fun factType htype =>
          (stems_iff_leadsAs hkept htype).mpr (halike.leads hread factType htype)
        have hfindings : ra.findings = rb.findings := by
          rw [hva, hwb, ← (buildReport_ok ha).1, ← (buildReport_ok hb).1, hid]
        rw [reverified_some ha, reverified_some hb]
        simp only [VerificationReport.relied, numericFindings, hfindings, hreasons, hready]
      · have hother := mt halike.readable.mpr hread
        rw [hreadable, Bool.not_eq_true, Option.isSome_eq_false_iff, Option.isNone_iff_eq_none]
          at hread hother
        rw [hread, hother]

end Reports

/-! ## A rejected discount -/

def rejectedDiscount (percent : String) : CandidateFact :=
  (QuoteExtractor.candidate "quote" "" {
    start := 0
    stop := 4
    factType := .discountPercent
    raw := percent.toList ++ ['%']
    normalized := percent.toList
    unit := some "percent"
    currency := none
    confidence := "0.97" } 1).reject

def reportOn (candidates : List CandidateFact) : VerificationReport where
  schemaVersion := "0.3.0"
  intakeId := "quote"
  candidates := candidates
  findings := []
  unresolvedRequirementRefs := []
  ready := true
  reasonCodes := []

theorem sameButRejected_discount (percent : String) :
    SameButRejected (reportOn [rejectedDiscount percent]) (reportOn []) := by
  constructor
  · rfl
  · rfl

theorem rejected_drive_nothing_small :
    SameButRejected (reportOn [rejectedDiscount "3"]) (reportOn []) ∧
      ∀ p, some quotePolicy = some p → JudgedAlike asciiInterpreter p 739617
        (verifyCandidates asciiInterpreter (some quotePolicy) [rejectedDiscount "3"])
        (verifyCandidates asciiInterpreter (some quotePolicy) []) := by
  have h := sameButRejected_discount "3"
  exact ⟨h, (rejected_drive_nothing_iff asciiInterpreter (some quotePolicy) 739617 _ _ h).mp
    (by rfl)⟩

/-- A rejected discount above the maximum still has a finding. -/
theorem rejected_discount_found : ¬∀ (py : Interpreter) (policy : Option PolicyContext)
    (referenceDate : ℤ) (a b : VerificationReport), SameButRejected a b →
      reverified py policy referenceDate a = reverified py policy referenceDate b := by
  intro h
  have heq := h asciiInterpreter (some quotePolicy) 739617 _ _ (sameButRejected_discount "15")
  revert heq
  decide

end DecisionAssurance.Intake
