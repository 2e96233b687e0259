import DecisionAssurance.CompiledDecisions
import DecisionAssurance.IntakeRevisions

/-!
# Confirmations side by side

A request saves the whole record it has loaded, with its own changes. Where every request of an
intake finds the record at its save that it has loaded, no confirmation and no audit event is
lost; otherwise the later save takes the earlier one's changes back.
-/

namespace DecisionAssurance.Intake

open Tables DecisionFileCompiler

/-! ## What a confirmation does to its fact -/

section Effects

variable {py : Interpreter} {m m' : Moment} {body body' : IntakeConfirmationBody}
  {record : IntakeRecord} {updated : VerificationReport} {confirmation : HumanConfirmation}

/-- The status a confirmation gives its fact, which a pass of the verification may refuse. -/
def givenStatus (action : ConfirmationAction) (refused : Bool) : VerificationStatus :=
  if action = .reject ∨ refused then .rejected else .humanConfirmed

/-- The confirmed fact has the status that the confirmation gave it, and names its actor. -/
structure Effective (py : Interpreter) (m : Moment) (body : IntakeConfirmationBody)
    (report : VerificationReport) : Prop where
  present : ∃ c ∈ report.candidates, c.factId = body.factId
  given : ∀ c ∈ report.candidates, c.factId = body.factId →
    c.confirmedByActorId = some m.caller.identity.actorId ∧
      c.verificationStatus =
        givenStatus body.action (rejectedByPass py m.policy report.candidates c)

theorem confirmedReport_revises
    (h : confirmedReport py m body record = .ok (updated, confirmation)) :
    Revises py record.verification ⟨confirmationCall m body, m.policy, m.today⟩ updated := by
  obtain ⟨⟨reported, c⟩, hconfirm, h⟩ := bind_ok_cases h
  obtain ⟨updated, hreverify, h⟩ := bind_ok_cases h
  cases h
  apply toOption_eq_some.mpr
  rw [hconfirm]
  exact hreverify

theorem settle_confirmedBy (policy : Option PolicyContext) (candidates : List CandidateFact)
    (c : CandidateFact) :
    (settle py policy candidates c).confirmedByActorId = c.confirmedByActorId := by
  unfold settle verifyCandidate CandidateFact.reject
  split_ifs <;> rfl

/-- What a pass refuses does not depend on what the passes have settled. -/
theorem rejectedByPass_congr {policy : Option PolicyContext}
    {candidates others : List CandidateFact} {c d : CandidateFact} (hspan : d.span = c.span)
    (hvalue : d.normalizedValue = c.normalizedValue)
    (h : others.map CandidateFact.span = candidates.map CandidateFact.span) :
    rejectedByPass py policy others d = rejectedByPass py policy candidates c := by
  have htype : d.factType = c.factType := congrArg Prod.fst hspan
  unfold rejectedByPass
  rw [embedded_congr hspan h, htype, hvalue]

theorem verifyCandidate_settled {c : CandidateFact}
    (h : c.verificationStatus = .humanConfirmed ∨ c.verificationStatus = .rejected) :
    verifyCandidate c = c := if_pos h

variable {r : Revision} {before after : VerificationReport}

theorem Revised.span (h : Revised py before r after) :
    after.candidates.map CandidateFact.span = before.candidates.map CandidateFact.span := by
  rw [h.candidates, List.map_map]
  apply List.map_congr_left
  intro c _
  simp [CandidateFact.span]

/-- A pass refuses a candidate after a revision exactly if it refused it on the way. -/
theorem Revised.refused (h : Revised py before r after) (policy : Option PolicyContext)
    (c : CandidateFact) :
    rejectedByPass py policy after.candidates
        (settle py r.policy (before.candidates.map (confirmed r.call)) c) =
      rejectedByPass py policy (before.candidates.map (confirmed r.call)) c := by
  apply rejectedByPass_congr
  · simp [CandidateFact.span]
  · simp
  · rw [h.span, map_span_confirmed]

theorem updatedFact_given (c : CandidateFact) :
    (updatedFact (confirmationCall m body) c).verificationStatus =
      givenStatus body.action false := by
  unfold givenStatus updatedFact confirmationCall
  cases body.action <;> rfl

theorem givenStatus_cases (action : ConfirmationAction) (refused : Bool) :
    givenStatus action refused = .humanConfirmed ∨ givenStatus action refused = .rejected := by
  unfold givenStatus
  split_ifs
  · exact Or.inr rfl
  · exact Or.inl rfl

theorem settle_updatedFact (policy : Option PolicyContext) (candidates : List CandidateFact)
    (c : CandidateFact) :
    (settle py policy candidates (updatedFact (confirmationCall m body) c)).verificationStatus =
      givenStatus body.action
        (rejectedByPass py policy candidates (updatedFact (confirmationCall m body) c)) := by
  have hsettled := givenStatus_cases body.action false
  rw [← updatedFact_given (m := m) c] at hsettled
  rw [settle_status, verifyCandidate_settled hsettled, updatedFact_given]
  unfold givenStatus
  by_cases hreject : body.action = .reject
  · simp [hreject]
  · simp [hreject]

/-- A confirmation takes effect. -/
theorem Revised.effective
    (h : Revised py before ⟨confirmationCall m body, m.policy, m.today⟩ after) :
    Effective py m body after := by
  obtain ⟨c, hc, hid⟩ := h.present
  constructor
  · refine ⟨_, h.candidates ▸ List.mem_map_of_mem hc, ?_⟩
    rw [settle_factId, confirmed_factId]
    exact hid
  · intro c' hc' hid'
    rw [h.candidates] at hc'
    obtain ⟨c, hc, rfl⟩ := List.mem_map.mp hc'
    rw [settle_factId, confirmed_factId] at hid'
    rw [h.refused]
    have hconfirmed : confirmed (confirmationCall m body) c =
        updatedFact (confirmationCall m body) c := if_pos hid'
    dsimp only
    rw [hconfirmed, settle_confirmedBy, settle_updatedFact]
    exact ⟨rfl, rfl⟩

/-- The revision of another fact leaves the effect, where its verification refuses no fact that a
person has confirmed. -/
theorem Revised.keeps_effective (h : Revised py before r after)
    (hother : r.call.factId ≠ body.factId)
    (hkept : ∀ c ∈ before.candidates, c.factId ≠ r.call.factId →
      c.verificationStatus = .humanConfirmed →
      rejectedByPass py r.policy before.candidates c = false)
    (heffective : Effective py m body before) : Effective py m body after := by
  obtain ⟨c, hc, hid⟩ := heffective.present
  constructor
  · refine ⟨_, h.candidates ▸ List.mem_map_of_mem hc, ?_⟩
    rw [settle_factId, confirmed_factId]
    exact hid
  · intro c' hc' hid'
    rw [h.candidates] at hc'
    obtain ⟨c, hc, rfl⟩ := List.mem_map.mp hc'
    rw [settle_factId, confirmed_factId] at hid'
    have hne : c.factId ≠ r.call.factId := fun hsame => hother (hsame ▸ hid')
    have hunchanged : confirmed r.call c = c := if_neg hne
    obtain ⟨hactor, hstatus⟩ := heffective.given c hc hid'
    have hrefused : ∀ policy,
        rejectedByPass py policy (before.candidates.map (confirmed r.call)) c =
          rejectedByPass py policy before.candidates c := fun policy =>
      rejectedByPass_congr rfl rfl (map_span_confirmed r.call before.candidates)
    rw [h.refused, hunchanged, hrefused, settle_confirmedBy, settle_status, hrefused, ← hstatus]
    refine ⟨hactor, ?_⟩
    have hgiven := givenStatus_cases body.action (rejectedByPass py m.policy before.candidates c)
    rw [← hstatus] at hgiven
    rw [verifyCandidate_settled hgiven]
    rcases hgiven with hhuman | hrejected
    · rw [hkept c hc hne hhuman]
      simp
    · simp [hrejected]

end Effects

/-! ## Requests that have loaded -/

section Loaded

variable {py : Interpreter} {f : Flight}

/-- A stage that a request reaches after its load has found out the plan. -/
def Stage.Follows (plan : Planned) : Stage → Prop
  | .planned plan' => plan' = plan
  | .drafted record document key digest => plan = .compiled record document key digest
  | .settled record _ key digest => ∃ document, plan = .compiled record document key digest

/-- A request that goes on from what it has found at its load. -/
def Flight.Loaded (py : Interpreter) (f : Flight) : Prop :=
  ∃ s plan, f.request.load py s = .ok plan ∧
    f.found = s.intakes.get f.request.moment.tenant f.request.intakeId ∧ f.stage.Follows plan

theorem Flight.Loaded.goesOn (h : f.Loaded py) {b : Backend} {s s' : IntakeStore} {stage : Stage}
    (htakes : Takes b py f.request s f.stage (.goesOn stage) s') :
    Flight.Loaded py { f with stage := stage } := by
  obtain ⟨s₀, plan, hload, hfound, hfollows⟩ := h
  obtain ⟨r, found, stage'⟩ := f
  refine ⟨s₀, plan, hload, hfound, ?_⟩
  dsimp only at htakes hfollows ⊢
  cases htakes with
  | found record document existing key digest known => exact ⟨document, hfollows.symm⟩
  | missing record document key digest unknown => exact hfollows.symm
  | created record document key digest decisions stored => exact ⟨document, hfollows⟩

/-- What a request that is about to save its plan has found and saves. -/
inductive Saving (py : Interpreter) : Flight → IntakeWrite → Prop
  | create (m : Moment) (body : IntakeRequestBody) (verification : VerificationReport)
      (key digest : String) (verified : verify py m.policy m.today
        (QuoteExtractor.extract py body.rawInput body.locale.value body.intakeId) =
          .ok verification) :
      Saving py ⟨.create m body, none,
        .planned (.saved (createdWrite py m body verification key digest))⟩
        (createdWrite py m body verification key digest)
  | confirm (m : Moment) (intakeId : String) (body : IntakeConfirmationBody)
      (record : IntakeRecord) (updated : VerificationReport) (confirmation : HumanConfirmation)
      (key digest : String)
      (report : confirmedReport py m body record = .ok (updated, confirmation))
      (move : moveStatus record.status (targetStatus updated.ready) updated.ready = .ok ()) :
      Saving py ⟨.confirm m intakeId body, some record, .planned (.saved
          (confirmedWrite py m intakeId body record updated confirmation key digest))⟩
        (confirmedWrite py m intakeId body record updated confirmation key digest)
  | compile (m : Moment) (intakeId : String) (record : IntakeRecord) (decision : DecisionFile)
      (key digest : String) (ready : record.status = .ready) :
      Saving py ⟨.compile m intakeId, some record, .settled record decision key digest⟩
        (compiledWrite py m intakeId record decision key digest)

theorem Flight.Loaded.saved (h : f.Loaded py) {w : IntakeWrite}
    (hstage : f.stage = .planned (.saved w)) : Saving py f w := by
  obtain ⟨s, plan, hload, hfound, hfollows⟩ := h
  obtain ⟨r, found, stage⟩ := f
  dsimp only at hstage hload hfound hfollows
  subst hstage
  obtain rfl : Planned.saved w = plan := hfollows
  cases r with
  | create m body =>
    rcases loadCreate_cases hload with ⟨response, hplan⟩ | ⟨record, key, digest, hplan⟩ |
      ⟨verification, key, digest, hplan, hget, hverify⟩
    · cases hplan
    · cases hplan
    · cases hplan
      rw [hfound.trans hget]
      exact Saving.create m body verification key digest hverify
  | confirm m intakeId body =>
    rcases loadConfirm_cases hload with ⟨response, hplan⟩ |
      ⟨record, updated, confirmation, key, digest, hplan, hconfirmed⟩
    · cases hplan
    · cases hplan
      rw [hfound.trans hconfirmed.stored]
      exact Saving.confirm m intakeId body record updated confirmation key digest
        hconfirmed.report hconfirmed.move
  | compile m intakeId =>
    rcases loadCompile_cases hload with ⟨response, hplan, -⟩ | ⟨record, decision, write, hplan, -⟩ |
      ⟨record, document, key, digest, hplan, -⟩
    · cases hplan
    · cases hplan
    · cases hplan

theorem Flight.Loaded.settled (h : f.Loaded py) {record : IntakeRecord} {decision : DecisionFile}
    {key digest : String} (hstage : f.stage = .settled record decision key digest) :
    Saving py f
      (compiledWrite py f.request.moment f.request.intakeId record decision key digest) := by
  obtain ⟨s, plan, hload, hfound, hfollows⟩ := h
  obtain ⟨r, found, stage⟩ := f
  dsimp only at hstage hload hfound hfollows
  subst hstage
  obtain ⟨document, rfl⟩ := hfollows
  cases r with
  | create m body =>
    rcases loadCreate_cases hload with ⟨response, hplan⟩ | ⟨record, key, digest, hplan⟩ |
      ⟨verification, key, digest, hplan, -⟩
    · cases hplan
    · cases hplan
    · cases hplan
  | confirm m intakeId body =>
    rcases loadConfirm_cases hload with ⟨response, hplan⟩ |
      ⟨record, updated, confirmation, key, digest, hplan, -⟩
    · cases hplan
    · cases hplan
  | compile m intakeId =>
    rcases loadCompile_cases hload with ⟨response, hplan, -⟩ | ⟨record, decision, write, hplan, -⟩ |
      ⟨record, document, key, digest, hplan, hdrafted⟩
    · cases hplan
    · cases hplan
    · cases hplan
      rw [hfound.trans hdrafted.stored]
      exact Saving.compile m intakeId record decision key digest hdrafted.ready

/-- A compilation that ends without a save has found the record compiled. -/
theorem Flight.Loaded.finished (h : f.Loaded py) {write : IntakeIdempotencyWrite}
    (hstage : f.stage = .planned (.finished write)) :
    (∃ m body, f.request = .create m body) ∨ ∃ m intakeId record,
      f.request = .compile m intakeId ∧ f.found = some record ∧
        record.compiledDecisionId.isSome := by
  obtain ⟨s, plan, hload, hfound, hfollows⟩ := h
  obtain ⟨r, found, stage⟩ := f
  dsimp only at hstage hload hfound hfollows
  subst hstage
  obtain rfl : Planned.finished write = plan := hfollows
  cases r with
  | create m body => exact Or.inl ⟨m, body, rfl⟩
  | confirm m intakeId body =>
    rcases loadConfirm_cases hload with ⟨response, hplan⟩ |
      ⟨record, updated, confirmation, key, digest, hplan, -⟩
    · cases hplan
    · cases hplan
  | compile m intakeId =>
    rcases loadCompile_cases hload with ⟨response, hplan, -⟩ |
      ⟨record, decision, write, hplan, hget, hstored, -⟩ | ⟨record, document, key, digest, hplan, -⟩
    · cases hplan
    · refine Or.inr ⟨m, intakeId, record, rfl, hfound.trans hget, ?_⟩
      obtain ⟨id, hid, -⟩ := Option.bind_eq_some_iff.mp hstored
      unfold truthy at hid
      split at hid
      · cases hid
      · rw [hid]
        rfl
    · cases hplan

theorem Saving.continues {w : IntakeWrite} (h : Saving py f w) :
    Continues py f.request.intakeId f.found w := by
  cases h with
  | create m body verification key digest verified =>
    exact createdWrite_continues body verification key digest
  | confirm m intakeId body record updated confirmation key digest report move =>
    exact confirmedWrite_continues move
  | compile m intakeId record decision key digest ready => exact compiledWrite_continues ready

end Loaded

/-! ## Requests that are not disturbed -/

/-- The stored record of an intake. -/
def IntakeStore.recordOf (k : IntakeKey) (s : IntakeStore) : Option IntakeRecord :=
  (lookup RecordRow.key k s.intakes.records).map RecordRow.record

/-- The next step of the request saves a record. -/
def Flight.saves (f : Flight) : Bool :=
  match f.stage with
  | .planned (.saved _) => true
  | .settled _ _ _ _ => true
  | _ => false

/-- A confirmation that has its id for itself, and after which no pass refuses another fact that a
person has confirmed. -/
def Flight.Apart (py : Interpreter) (f : Flight) : Prop :=
  match f.request, f.stage, f.found with
  | .confirm m _ body, .planned (.saved w), some record =>
    (∀ c ∈ w.confirmation, ∀ c' ∈ record.confirmations,
      c'.confirmationId = c.confirmationId → c' = c) ∧
    ∀ c ∈ record.verification.candidates, c.factId ≠ body.factId →
      c.verificationStatus = .humanConfirmed →
      rejectedByPass py m.policy record.verification.candidates c = false
  | _, _, _ => True

/-- A step that saves a record of the intake finds the one its request has loaded, and none erases
the intake. -/
def Undisturbed (py : Interpreter) (k : IntakeKey) (x : Runs.Transition World Act) : Prop :=
  match x.label with
  | .load _ _ | .decision _ => True
  | .erase tenant decisionId => k ∉ x.before.store.intakes.intakesOf tenant decisionId
  | .advance client => ∀ f ∈ x.before.flights client, f.request.intake = k → f.saves = true →
    x.before.store.recordOf k = f.found ∧ f.Apart py

/-- A step ends a request of the intake with success, and not by the answer of an earlier one. -/
structure Succeeds (b : Backend) (py : Interpreter) (k : IntakeKey)
    (x : Runs.Transition World Act) (f : Flight) : Prop where
  steps : ∃ client, x.label = .advance client ∧ x.before.flights client = some f
  intake : f.request.intake = k
  answer : ∃ response, x.before.reply b py x.label = some (f.request, .ok response)
  own : ∀ response, f.stage ≠ .planned (.answered response)

/-- A step confirms a fact of the intake with success. -/
def ConfirmsFact (b : Backend) (py : Interpreter) (k : IntakeKey) (x : Runs.Transition World Act)
    (factId : String) : Prop :=
  ∃ f m intakeId body, Succeeds b py k x f ∧ f.request = .confirm m intakeId body ∧
    body.factId = factId

/-! ## How the record of an intake grows -/

section Growth

variable {py : Interpreter} {k : IntakeKey} {s s' : IntakeStore}

/-- What stays of a record; `confirmed` are the facts that are confirmed on the way. -/
structure Extends (py : Interpreter) (confirmed : String → Prop) (r r' : IntakeRecord) : Prop where
  confirmations : ∀ c ∈ r.confirmations, c ∈ r'.confirmations
  events : ∀ e ∈ r.auditEvents, e ∈ r'.auditEvents
  compiled : r.status = .compiled → r' = r
  effects : ∀ m body, ¬confirmed body.factId → Effective py m body r.verification →
    Effective py m body r'.verification

theorem Extends.refl (confirmed : String → Prop) (r : IntakeRecord) : Extends py confirmed r r :=
  ⟨fun _ hc => hc, fun _ he => he, fun _ => rfl, fun _ _ _ h => h⟩

def Evolves (py : Interpreter) (k : IntakeKey) (confirmed : String → Prop) (s s' : IntakeStore) :
    Prop :=
  ∀ r, s.recordOf k = some r → ∃ r', s'.recordOf k = some r' ∧ Extends py confirmed r r'

/-- The record of an intake is in step with the rest of the tables. -/
structure Kept (py : Interpreter) (k : IntakeKey) (s : IntakeStore) : Prop where
  sound : SoundAt py s.intakes k
  distinct : ∀ r, s.recordOf k = some r → (r.verification.candidates.map CandidateFact.factId).Nodup
  compiled : ∀ r, s.recordOf k = some r → r.compiledDecisionId.isSome →
    r.status = .compiled ∧ ∃ e ∈ r.auditEvents, e.eventType = "intake.compiled"

theorem kept_empty : Kept py k .empty := by
  refine ⟨soundAt_empty k, ?_, ?_⟩
  · intro r hr
    cases hr
  · intro r hr
    cases hr

theorem Kept.congr (hs : Kept py k s)
    (hrecords : lookup RecordRow.key k s'.intakes.records =
      lookup RecordRow.key k s.intakes.records)
    (hrows : s'.intakes.rowsOf k = s.intakes.rowsOf k) : Kept py k s' := by
  have hrecord : s'.recordOf k = s.recordOf k := congrArg (Option.map RecordRow.record) hrecords
  refine ⟨hs.sound.congr hrecords hrows, ?_, ?_⟩
  · rw [hrecord]
    exact hs.distinct
  · rw [hrecord]
    exact hs.compiled

theorem evolves_of_records (confirmed : String → Prop)
    (hrecords : lookup RecordRow.key k s'.intakes.records =
      lookup RecordRow.key k s.intakes.records) : Evolves py k confirmed s s' := by
  intro r hr
  refine ⟨r, ?_, Extends.refl confirmed r⟩
  unfold IntakeStore.recordOf
  rw [hrecords]
  exact hr

theorem mem_withConfirmation {confirmations : List HumanConfirmation} {c c' : HumanConfirmation}
    (h : c' ∈ confirmations) : c' ∈ withConfirmation confirmations c := by
  unfold withConfirmation
  split_ifs
  · exact h
  · exact List.mem_append_left _ h

theorem mem_withConfirmation_self {confirmations : List HumanConfirmation} {c : HumanConfirmation}
    (h : ∀ c' ∈ confirmations, c'.confirmationId = c.confirmationId → c' = c) :
    c ∈ withConfirmation confirmations c := by
  unfold withConfirmation
  split_ifs with hknown
  · obtain ⟨c', hc', hid⟩ := List.any_eq_true.mp hknown
    rw [← h c' hc' (of_decide_eq_true hid)]
    exact hc'
  · exact List.mem_append_right _ (List.mem_singleton_self c)

variable {f : Flight} {w : IntakeWrite}

/-- A save goes on from the record it has found. -/
theorem Saving.extends (h : Saving py f w) (hapart : f.Apart py) {r : IntakeRecord}
    (hfound : f.found = some r)
    (hnodup : (r.verification.candidates.map CandidateFact.factId).Nodup) :
    Extends py (fun factId => ∃ m intakeId body, f.request = .confirm m intakeId body ∧
      body.factId = factId) r w.record := by
  have hcontinues := h.continues
  have hunfinished : r.status = .compiled → w.record = r := fun hdone =>
    absurd hdone (hcontinues.unfinished r hfound)
  have hevents : ∀ e ∈ r.auditEvents, e ∈ w.record.auditEvents := by
    intro e he
    rw [hcontinues.events, hfound]
    exact List.mem_append_left _ he
  cases h with
  | create m body verification key digest verified => cases hfound
  | confirm m intakeId body record updated confirmation key digest report move =>
    cases hfound
    obtain ⟨hfree, hkept⟩ := hapart
    refine ⟨fun c hc => mem_withConfirmation hc, hevents, hunfinished, ?_⟩
    intro m' body' hother heffective
    have hrevised := (confirmedReport_revises report).revised hnodup
    apply hrevised.keeps_effective _ hkept heffective
    exact fun hsame => hother ⟨m, intakeId, body, rfl, hsame⟩
  | compile m intakeId record decision key digest ready =>
    cases hfound
    exact ⟨fun c hc => hc, hevents, hunfinished, fun m' body' _ heffective => heffective⟩

theorem nodup_verified {m : Moment} {body : IntakeRequestBody} {verification : VerificationReport}
    (h : verify py m.policy m.today
      (QuoteExtractor.extract py body.rawInput body.locale.value body.intakeId) =
        .ok verification) :
    (verification.candidates.map CandidateFact.factId).Nodup := by
  rw [(buildReport_ok h).2.1, verifyCandidates_eq_map, List.map_map]
  simpa [Function.comp_def] using nodup_extract

theorem Saving.kept (h : Saving py f w) (hs : Kept py f.request.intake s)
    (hfound : s.recordOf f.request.intake = f.found) {db : IntakeDatabase}
    (hsaved : IntakeDatabase.Saved f.request.moment.tenant w s.intakes db) :
    Kept py f.request.intake ⟨db, s.decisions⟩ := by
  have hcontinues := h.continues
  have hintake := hcontinues.intake
  have hrecord : IntakeStore.recordOf f.request.intake ⟨db, s.decisions⟩ = some w.record := by
    have hget := hsaved.get
    rw [hintake] at hget
    exact hget
  have hsound : SoundAt py db f.request.intake := by
    have hbefore : f.found = s.intakes.get f.request.moment.tenant w.intakeId := by
      rw [hintake]
      exact hfound.symm
    rw [hbefore, ← hintake] at hcontinues
    have hkey : f.request.intake = (f.request.moment.tenant.tenantId, w.intakeId) := by
      rw [hintake]
      rfl
    rw [hkey] at hs ⊢
    exact hs.sound.saved hcontinues hsaved
  refine ⟨hsound, ?_, ?_⟩
  · intro r hr
    obtain rfl : w.record = r := Option.some.inj (hrecord.symm.trans hr)
    cases h with
    | create m body verification key digest verified => exact nodup_verified verified
    | confirm m intakeId body record updated confirmation key digest report move =>
      have hnodup := hs.distinct record hfound
      exact ((confirmedReport_revises report).revised hnodup).nodup hnodup
    | compile m intakeId record decision key digest ready => exact hs.distinct record hfound
  · intro r hr hcompiled
    obtain rfl : w.record = r := Option.some.inj (hrecord.symm.trans hr)
    cases h with
    | create m body verification key digest verified => cases hcompiled
    | confirm m intakeId body record updated confirmation key digest report move =>
      exact absurd (hs.compiled record hfound hcompiled).1 (hcontinues.unfinished record rfl)
    | compile m intakeId record decision key digest ready =>
      exact ⟨rfl, _, List.mem_append_right _ (List.mem_singleton_self _), rfl⟩

theorem Extends.mono {P Q : String → Prop} {r r' : IntakeRecord} (h : Extends py P r r')
    (hPQ : ∀ factId, P factId → Q factId) : Extends py Q r r' :=
  ⟨h.confirmations, h.events, h.compiled, fun m body hQ => h.effects m body fun hP => hQ (hPQ _ hP)⟩

/-- In sound tables the audit rows of an intake are the events of its record. -/
theorem Kept.listAudit (hs : Kept py k s) {r : IntakeRecord} (h : s.recordOf k = some r) :
    s.intakes.listAudit k = r.auditEvents := by
  obtain ⟨row, hrow, rfl⟩ := Option.map_eq_some_iff.mp h
  have hstored := (hs.sound.row row hrow).stored
  rw [key_of_lookup hrow] at hstored
  exact IntakeDatabase.listAudit_of_rowsOf hstored

end Growth

/-! ## What a request that succeeds leaves -/

section Results

variable {b : Backend} {py : Interpreter} {k : IntakeKey} {s s' : IntakeStore} {f : Flight}

/-- The confirmation and the audit event of a request that confirms a fact. -/
structure ConfirmationOf (py : Interpreter) (f : Flight) (m : Moment)
    (body : IntakeConfirmationBody) (c : HumanConfirmation) (e : IntakeAuditEvent) : Prop where
  written : ∃ w, f.stage = .planned (.saved w) ∧ w.confirmation = some c ∧ w.events = [e]
  fact : c.factId = body.factId
  action : c.action = body.action.value
  actor : c.actorId = m.caller.identity.actorId
  value : c.newValue = body.newValue
  reason : c.reason = body.reason
  event : e.eventType = body.action.eventType ∧ e.actorId = m.caller.identity.actorId ∧
    e.payloadHash = payloadHash py.toPlatform c.toJson

/-- What the store holds of a request that has succeeded; `later` are the steps after it. -/
structure Result (b : Backend) (py : Interpreter) (k : IntakeKey) (f : Flight) (later : Steps)
    (s : IntakeStore) : Prop where
  confirm : ∀ m intakeId body, f.request = .confirm m intakeId body → ∃ r c e,
    s.recordOf k = some r ∧ ConfirmationOf py f m body c e ∧ c ∈ r.confirmations ∧
      e ∈ r.auditEvents ∧ e ∈ s.intakes.listAudit k ∧
      ((∃ y ∈ later, ConfirmsFact b py k y body.factId) ∨ Effective py m body r.verification)
  compile : ∀ m intakeId, f.request = .compile m intakeId → ∃ r e,
    s.recordOf k = some r ∧ r.status = .compiled ∧ e.eventType = "intake.compiled" ∧
      e ∈ r.auditEvents ∧ e ∈ s.intakes.listAudit k ∧
      ∀ record decision key digest, f.stage = .settled record decision key digest →
        e.actorId = m.caller.identity.actorId ∧ r.compiledDecisionId = some decision.decisionId

/-- What the store holds of a request stays, but for the facts that are confirmed again. -/
theorem Result.step {later : Steps} (h : Result b py k f later s) (hs' : Kept py k s')
    {x : Runs.Transition World Act} (hevolves : Evolves py k (ConfirmsFact b py k x) s s') :
    Result b py k f (later ++ [x]) s' := by
  have hlast : x ∈ later ++ [x] := List.mem_append_right _ (List.mem_singleton_self x)
  constructor
  · intro m intakeId body hrequest
    obtain ⟨r, c, e, hr, hof, hc, he, -, heffect⟩ := h.confirm m intakeId body hrequest
    obtain ⟨r', hr', hextends⟩ := hevolves r hr
    have he' := hextends.events e he
    refine ⟨r', c, e, hr', hof, hextends.confirmations c hc, he', hs'.listAudit hr' ▸ he', ?_⟩
    rcases heffect with ⟨y, hy, hconfirms⟩ | heffective
    · exact Or.inl ⟨y, List.mem_append_left _ hy, hconfirms⟩
    · by_cases hagain : ConfirmsFact b py k x body.factId
      · exact Or.inl ⟨x, hlast, hagain⟩
      · exact Or.inr (hextends.effects m body hagain heffective)
  · intro m intakeId hrequest
    obtain ⟨r, e, hr, hdone, htype, he, -, hown⟩ := h.compile m intakeId hrequest
    obtain ⟨r', hr', hextends⟩ := hevolves r hr
    obtain rfl := hextends.compiled hdone
    exact ⟨r', e, hr', hdone, htype, he, hs'.listAudit hr' ▸ he, hown⟩

theorem confirmationOf_report {m : Moment} {intakeId : String} {body : IntakeConfirmationBody}
    {record : IntakeRecord} {updated : VerificationReport} {confirmation : HumanConfirmation}
    {key digest : String} {found : Option IntakeRecord}
    (h : confirmedReport py m body record = .ok (updated, confirmation)) :
    ConfirmationOf py ⟨.confirm m intakeId body, found, .planned (.saved
        (confirmedWrite py m intakeId body record updated confirmation key digest))⟩
      m body confirmation (confirmedEvent py m intakeId body record updated confirmation) := by
  obtain ⟨⟨reported, c⟩, hconfirm, h⟩ := bind_ok_cases h
  obtain ⟨updated, hreverify, h⟩ := bind_ok_cases h
  cases h
  obtain ⟨⟨⟩, -, hconfirm⟩ := bind_ok_cases hconfirm
  obtain ⟨current, -, hconfirm⟩ := bind_ok_cases hconfirm
  cases hconfirm
  exact ⟨⟨_, rfl, rfl, rfl⟩, rfl, rfl, rfl, rfl, rfl, rfl, rfl, rfl⟩

/-- What a save leaves of its request. -/
theorem Saving.result {w : IntakeWrite} (h : Saving py f w) (hapart : f.Apart py)
    (hnodup : ∀ r, f.found = some r → (r.verification.candidates.map CandidateFact.factId).Nodup)
    (hs' : Kept py k s') (hrecord : s'.recordOf k = some w.record) : Result b py k f [] s' := by
  have hevents : ∀ e ∈ w.events, e ∈ w.record.auditEvents := by
    intro e he
    rw [h.continues.events]
    exact List.mem_append_right _ he
  cases h with
  | create m body verification key digest verified =>
    constructor
    · rintro _ _ _ ⟨⟩
    · rintro _ _ ⟨⟩
  | confirm m intakeId body record updated confirmation key digest report move =>
    constructor
    · rintro _ _ _ ⟨⟩
      have he := hevents _ (List.mem_singleton_self _)
      have hrevised := (confirmedReport_revises report).revised (hnodup record rfl)
      exact ⟨_, confirmation, _, hrecord, confirmationOf_report report,
        mem_withConfirmation_self (hapart.1 confirmation rfl), he, hs'.listAudit hrecord ▸ he,
        Or.inr hrevised.effective⟩
    · rintro _ _ ⟨⟩
  | compile m intakeId record decision key digest ready =>
    constructor
    · rintro _ _ _ ⟨⟩
    · rintro _ _ ⟨⟩
      have he := hevents _ (List.mem_singleton_self _)
      refine ⟨_, _, hrecord, rfl, rfl, he, hs'.listAudit hrecord ▸ he, ?_⟩
      rintro _ _ _ _ ⟨⟩
      exact ⟨rfl, rfl⟩

end Results

/-! ## Steps -/

section Steps

variable {b : Backend} {py : Interpreter} {k : IntakeKey} {w : World} {s : IntakeStore}

/-- The store, and the requests under way: one that has found the intake compiled still does. -/
structure WorldKept (py : Interpreter) (k : IntakeKey) (w : World) : Prop where
  store : Kept py k w.store
  flights : ∀ client f, w.flights client = some f → f.Loaded py ∧ (f.request.intake = k →
    ∀ r, f.found = some r → r.compiledDecisionId.isSome → w.store.recordOf k = some r)

/-- What a step leaves of the store and of the requests that have succeeded. -/
structure Moved (b : Backend) (py : Interpreter) (k : IntakeKey) (x : Runs.Transition World Act)
    (s : IntakeStore) : Prop where
  store : Kept py k s
  evolves : Evolves py k (ConfirmsFact b py k x) x.before.store s
  result : ∀ f, Succeeds b py k x f → Result b py k f [] s

/-- The record of a compiled intake stays. -/
theorem Moved.compiled {x : Runs.Transition World Act} (h : Moved b py k x s)
    (hs : Kept py k x.before.store) {r : IntakeRecord} (hr : x.before.store.recordOf k = some r)
    (hcompiled : r.compiledDecisionId.isSome) : s.recordOf k = some r := by
  obtain ⟨r', hr', hextends⟩ := h.evolves r hr
  obtain rfl := hextends.compiled (hs.compiled r hr hcompiled).1
  exact hr'

/-- A step that leaves the rows of the intake and ends no request of it with success. -/
theorem moved_of_same {x : Runs.Transition World Act} (hs : Kept py k x.before.store)
    (hrecords : lookup RecordRow.key k s.intakes.records =
      lookup RecordRow.key k x.before.store.intakes.records)
    (hrows : s.intakes.rowsOf k = x.before.store.intakes.rowsOf k)
    (hresult : ∀ f, Succeeds b py k x f → Result b py k f [] s) : Moved b py k x s :=
  ⟨hs.congr hrecords hrows, evolves_of_records _ hrecords, hresult⟩

/-- A save of a request. -/
theorem WorldKept.saved (hw : WorldKept py k w) {client : ℕ} {f : Flight} {w' : World}
    {write : IntakeWrite} {db : IntakeDatabase} {response : IntakeResponse}
    (hf : w.flights client = some f) (hsaving : Saving py f write) (hsaves : f.saves = true)
    (hund : Undisturbed py k ⟨w, .advance client, w'⟩)
    (hstored : IntakeDatabase.Saved f.request.moment.tenant write w.store.intakes db)
    (hreply : w.reply b py (.advance client) = some (f.request, .ok response)) :
    Moved b py k ⟨w, .advance client, w'⟩ ⟨db, w.store.decisions⟩ := by
  have hintake := hsaving.continues.intake
  have hflight : ∀ g, Succeeds b py k ⟨w, .advance client, w'⟩ g → g = f := by
    rintro g ⟨⟨_, ⟨⟩, hg⟩, -, -, -⟩
    exact Option.some.inj (hg.symm.trans hf)
  by_cases hk : f.request.intake = k
  · subst hk
    obtain ⟨hfound, hapart⟩ := hund f hf rfl hsaves
    have hnodup : ∀ r, f.found = some r →
        (r.verification.candidates.map CandidateFact.factId).Nodup := fun r hr =>
      hw.store.distinct r (hfound.trans hr)
    have hkept := hsaving.kept hw.store hfound hstored
    have hrecord : IntakeStore.recordOf f.request.intake ⟨db, w.store.decisions⟩ =
        some write.record := by
      have hget := hstored.get
      rw [hintake] at hget
      exact hget
    have hsucceeds : Succeeds b py f.request.intake ⟨w, .advance client, w'⟩ f := by
      refine ⟨⟨client, rfl, hf⟩, rfl, ⟨response, hreply⟩, fun answered hstage => ?_⟩
      unfold Flight.saves at hsaves
      rw [hstage] at hsaves
      cases hsaves
    refine ⟨hkept, fun r hr => ⟨write.record, hrecord, ?_⟩, fun g hg => ?_⟩
    · have hr' := hfound.symm.trans hr
      apply (hsaving.extends hapart hr' (hnodup r hr')).mono
      rintro factId ⟨m, intakeId, body, hrequest, hid⟩
      exact ⟨f, m, intakeId, body, hsucceeds, hrequest, hid⟩
    · rw [hflight g hg]
      exact hsaving.result hapart hnodup hkept hrecord
  · have hother : k ≠ (f.request.moment.tenant.tenantId, write.intakeId) := by
      rw [hintake]
      exact fun hsame => hk hsame.symm
    apply moved_of_same hw.store
    · change lookup RecordRow.key k db.records = _
      rw [hstored.records, lookup_upsert]
      exact if_neg fun hsame => hother hsame.symm
    · exact hstored.others k hother
    · intro g hg
      rw [hflight g hg] at hg
      exact absurd hg.intake hk

theorem WorldKept.advanced (hw : WorldKept py k w) {client : ℕ} {f : Flight} {w' : World}
    {progress : Progress} (hf : w.flights client = some f)
    (htakes : Takes b py f.request w.store f.stage progress s)
    (hund : Undisturbed py k ⟨w, .advance client, w'⟩)
    (hreply : w.reply b py (.advance client) =
      progress.answer.map fun answer => (f.request, answer)) :
    Moved b py k ⟨w, .advance client, w'⟩ s := by
  obtain ⟨hloaded, hcompiled⟩ := hw.flights client f hf
  have hsame : (∀ response, progress = .ends (.ok response) →
        f.stage = .planned (.answered response)) →
      Moved b py k ⟨w, .advance client, w'⟩ w.store := by
    intro hanswered
    apply moved_of_same hw.store rfl rfl
    rintro g ⟨⟨_, ⟨⟩, hg⟩, -, ⟨response, hresponse⟩, hown⟩
    obtain rfl : f = g := Option.some.inj (hf.symm.trans hg)
    refine absurd (hanswered response ?_) (hown response)
    change w.reply b py (.advance client) = _ at hresponse
    rw [hreply] at hresponse
    cases progress with
    | goesOn stage => cases hresponse
    | ends answer =>
      cases hresponse
      rfl
  obtain ⟨r, found, stage⟩ := f
  dsimp only at htakes
  cases htakes with
  | failed stage e =>
    apply hsame
    rintro _ ⟨⟩
  | answered response =>
    apply hsame
    rintro _ ⟨⟩
    rfl
  | finished write db stored =>
    obtain rfl := IntakeDatabase.storeIdempotency_ok stored
    refine moved_of_same hw.store ?_ ?_ ?_
    · rfl
    · rfl
    rintro g ⟨⟨_, ⟨⟩, hg⟩, hintake, -, -⟩
    obtain rfl := Option.some.inj (hf.symm.trans hg)
    rcases hloaded.finished rfl with ⟨m, body, hrequest⟩ |
      ⟨m, intakeId, record, hrequest, hfound, hdone⟩
    · cases hrequest
      constructor
      · rintro _ _ _ ⟨⟩
      · rintro _ _ ⟨⟩
    · cases hrequest
      constructor
      · rintro _ _ _ ⟨⟩
      · rintro _ _ ⟨⟩
        have hrecord := hcompiled hintake record hfound hdone
        obtain ⟨hstatus, e, he, htype⟩ := hw.store.compiled record hrecord hdone
        refine ⟨record, e, hrecord, hstatus, htype, he, ?_, ?_⟩
        · exact hw.store.listAudit hrecord ▸ he
        · rintro _ _ _ _ ⟨⟩
  | saved write db stored => exact hw.saved hf (hloaded.saved rfl) rfl hund stored hreply
  | found record document existing key digest known =>
    apply hsame
    rintro _ ⟨⟩
  | missing record document key digest unknown =>
    apply hsame
    rintro _ ⟨⟩
  | created record document key digest decisions stored =>
    refine moved_of_same hw.store ?_ ?_ ?_
    · rfl
    · rfl
    rintro g ⟨⟨_, ⟨⟩, hg⟩, -, ⟨response, hresponse⟩, -⟩
    change w.reply b py (.advance client) = _ at hresponse
    rw [hreply] at hresponse
    cases hresponse
  | settled record decision key digest db stored =>
    exact hw.saved hf (hloaded.settled rfl) rfl hund stored hreply

/-- An erasure leaves the intakes alone that it does not find. -/
theorem eraseCase_other {db : IntakeDatabase} {tenant : TenantContext} {decisionId : String}
    (h : k ∉ db.intakesOf tenant decisionId) :
    lookup RecordRow.key k (db.eraseCase tenant decisionId).records =
        lookup RecordRow.key k db.records ∧
      (db.eraseCase tenant decisionId).rowsOf k = db.rowsOf k := by
  unfold IntakeDatabase.eraseCase
  dsimp only
  split_ifs
  · exact ⟨rfl, rfl⟩
  · constructor
    · apply lookup_deleteWhere
      intro r _ hk
      rw [hk]
      exact decide_eq_false h
    · unfold IntakeDatabase.rowsOf deleteWhere
      rw [List.filter_filter]
      apply List.filter_congr
      intro r _
      by_cases hk : r.intake = k
      · simp [hk, h]
      · simp [hk]

theorem WorldKept.moved (hw : WorldKept py k w) {a : Act}
    (hund : Undisturbed py k ⟨w, a, w.next b py a⟩) :
    Moved b py k ⟨w, a, w.next b py a⟩ (w.next b py a).store := by
  have hquiet : ∀ s : IntakeStore, (∀ client, a ≠ .advance client) →
      lookup RecordRow.key k s.intakes.records = lookup RecordRow.key k w.store.intakes.records →
      s.intakes.rowsOf k = w.store.intakes.rowsOf k →
      Moved b py k ⟨w, a, w.next b py a⟩ s := by
    intro s hadvance hrecords hrows
    apply moved_of_same hw.store hrecords hrows
    rintro f ⟨⟨client, hlabel, -⟩, -, -, -⟩
    exact absurd hlabel (hadvance client)
  cases a with
  | load client r =>
    have hstore : (w.next b py (.load client r)).store = w.store := by
      unfold World.next
      dsimp only
      split_ifs
      · rfl
      · split <;> rfl
    rw [hstore]
    exact hquiet w.store (fun _ h => Act.noConfusion h) rfl rfl
  | advance client =>
    cases hf : w.flights client with
    | none =>
      have hnext : w.next b py (.advance client) = w := by simp [World.next, hf]
      rw [hnext]
      apply moved_of_same hw.store rfl rfl
      rintro f ⟨⟨_, ⟨⟩, hflight⟩, -, -, -⟩
      exact absurd (hflight.symm.trans hf) (by simp)
    | some f =>
      obtain ⟨progress, s, htakes, hnext, hreply⟩ := @next_takes b py _ _ _ hf
      have hmoved := hw.advanced hf htakes hund hreply
      rw [hnext] at hmoved ⊢
      exact hmoved
  | decision r => exact hquiet _ (fun _ h => Act.noConfusion h) rfl rfl
  | erase tenant decisionId =>
    change Moved b py k _ (w.store.eraseCase tenant decisionId)
    unfold IntakeStore.eraseCase
    split_ifs
    · exact hquiet _ (fun _ h => Act.noConfusion h) rfl rfl
    · obtain ⟨hrecords, hrows⟩ := eraseCase_other hund
      exact hquiet _ (fun _ h => Act.noConfusion h) hrecords hrows

/-- A request that is under way after a step was under way before it, or has just loaded. -/
theorem flights_next {a : Act} {client : ℕ} {f : Flight}
    (hf : (w.next b py a).flights client = some f) :
    (w.flights client = some f) ∨
      (∃ g stage progress s, w.flights client = some g ∧ f = { g with stage := stage } ∧
        progress = .goesOn stage ∧ Takes b py g.request w.store g.stage progress s) ∨
      ∃ (r : IntakeRequest) (plan : Planned),
        r.load py w.store = .ok plan ∧ f = r.flight w.store plan := by
  cases a with
  | load other r =>
    unfold World.next at hf
    dsimp only at hf
    split_ifs at hf
    · exact Or.inl hf
    · cases hload : r.load py w.store with
      | error e =>
        rw [hload] at hf
        exact Or.inl hf
      | ok plan =>
        rw [hload] at hf
        by_cases hclient : client = other
        · subst hclient
          simp only [Function.update_self, Option.some.injEq] at hf
          exact Or.inr (Or.inr ⟨r, plan, hload, hf.symm⟩)
        · simp only [Function.update_of_ne hclient] at hf
          exact Or.inl hf
  | advance other =>
    cases hg : w.flights other with
    | none =>
      have hnext : w.next b py (.advance other) = w := by simp [World.next, hg]
      rw [hnext] at hf
      exact Or.inl hf
    | some g =>
      obtain ⟨progress, s, htakes, hnext, -⟩ := @next_takes b py _ _ _ hg
      rw [hnext] at hf
      by_cases hclient : client = other
      · subst hclient
        simp only [Function.update_self] at hf
        cases progress with
        | goesOn stage =>
          exact Or.inr (Or.inl ⟨g, stage, _, s, hg, (Option.some.inj hf).symm, rfl, htakes⟩)
        | ends answer => cases hf
      · simp only [Function.update_of_ne hclient] at hf
        exact Or.inl hf
  | decision r => exact Or.inl hf
  | erase tenant decisionId => exact Or.inl hf

theorem WorldKept.next (hw : WorldKept py k w) {a : Act}
    (hund : Undisturbed py k ⟨w, a, w.next b py a⟩) : WorldKept py k (w.next b py a) := by
  have hmoved := hw.moved hund
  refine ⟨hmoved.store, fun client f hf => ?_⟩
  rcases flights_next hf with hold | ⟨g, stage, progress, s, hg, rfl, rfl, htakes⟩ |
    ⟨r, plan, hload, rfl⟩
  · obtain ⟨hloaded, hcompiled⟩ := hw.flights client f hold
    exact ⟨hloaded, fun hk r hr hdone => hmoved.compiled hw.store (hcompiled hk r hr hdone) hdone⟩
  · obtain ⟨hloaded, hcompiled⟩ := hw.flights client g hg
    exact ⟨hloaded.goesOn htakes,
      fun hk r hr hdone => hmoved.compiled hw.store (hcompiled hk r hr hdone) hdone⟩
  · refine ⟨⟨w.store, plan, hload, rfl, rfl⟩, fun hk r' hr hdone => ?_⟩
    apply hmoved.compiled hw.store _ hdone
    rw [← hk]
    exact hr

end Steps

/-! ## Runs -/

section Runs

variable {b : Backend} {py : Interpreter} {k : IntakeKey}

structure RunKept (b : Backend) (py : Interpreter) (k : IntakeKey) (tr : Steps) (w : World) :
    Prop where
  world : WorldKept py k w
  results : ∀ pre x post, tr = pre ++ x :: post → ∀ f, Succeeds b py k x f →
    Result b py k f post w.store

theorem runKept_empty : RunKept b py k [] (.idle .empty) := by
  refine ⟨⟨kept_empty, ?_⟩, ?_⟩
  · intro client f hf
    cases hf
  · intro pre x post hsplit
    exact absurd hsplit.symm (by simp)

theorem RunKept.snoc {tr : Steps} {w : World} (h : RunKept b py k tr w) {a : Act}
    (hund : Undisturbed py k ⟨w, a, w.next b py a⟩) :
    RunKept b py k (tr ++ [⟨w, a, w.next b py a⟩]) (w.next b py a) := by
  have hmoved := h.world.moved hund
  refine ⟨h.world.next hund, fun pre x post hsplit f hf => ?_⟩
  rcases List.eq_nil_or_concat post with rfl | ⟨post', y, rfl⟩
  · obtain ⟨rfl, hx⟩ := List.append_inj' hsplit rfl
    cases hx
    exact hmoved.result f hf
  · rw [List.concat_eq_append, ← List.cons_append, ← List.append_assoc] at hsplit
    obtain ⟨rfl, hy⟩ := List.append_inj' hsplit rfl
    cases hy
    rw [List.concat_eq_append]
    exact (h.results pre x post' rfl f hf).step hmoved.store hmoved.evolves

/-- Where every step that saves a record of an intake finds the one its request has loaded, the
store holds what every request that has succeeded has done. -/
theorem results_kept (b : Backend) (py : Interpreter) (k : IntakeKey) (acts : List Act)
    (hund : ∀ x ∈ steps b py acts, Undisturbed py k x) (pre post : Steps)
    (x : Runs.Transition World Act) (hx : steps b py acts = pre ++ x :: post) (f : Flight)
    (hf : Succeeds b py k x f) :
    Result b py k f post (acts.foldl (World.next b py) (.idle .empty)).store := by
  have hrun : RunKept b py k (steps b py acts) (acts.foldl (World.next b py) (.idle .empty)) := by
    apply (run_steps b py acts).invariant_of_steps _ (RunKept b py k) runKept_empty _ hund
    rintro tr w a _ - h rfl hu
    exact h.snoc hu
  exact hrun.results pre x post hx f hf

end Runs

/-! ## Two confirmations of a quote -/

section Quote

/-- `Apart` as a test, which asks for an id that no other confirmation has. -/
def Flight.apart (py : Interpreter) (f : Flight) : Bool :=
  match f.request, f.stage, f.found with
  | .confirm m _ body, .planned (.saved w), some record =>
    (w.confirmation.all fun c => record.confirmations.all fun c' =>
      c'.confirmationId ≠ c.confirmationId) &&
    record.verification.candidates.all fun c => c.factId = body.factId ∨
      c.verificationStatus ≠ .humanConfirmed ∨
      rejectedByPass py m.policy record.verification.candidates c = false
  | _, _, _ => true

theorem Flight.apart_sound {py : Interpreter} {f : Flight} (h : f.apart py = true) :
    f.Apart py := by
  unfold apart at h
  unfold Apart
  split
  · rename_i m intakeId body w record hrequest hstage hfound
    simp only [hrequest, hstage, hfound, Bool.and_eq_true, List.all_eq_true, Option.all_eq_true,
      decide_eq_true_eq] at h
    refine ⟨fun c hc c' hc' hid => ?_, fun c hc hne hhuman => ?_⟩
    · exact absurd hid (h.1 c hc c' hc')
    · rcases h.2 c hc with hsame | hother | hkept
      · exact absurd hsame hne
      · exact absurd hhuman hother
      · exact hkept
  · trivial

/-- The store still has the record that the request of the client has loaded. -/
def Fresh (client : ℕ) (w : World) : Prop :=
  ∀ f ∈ w.flights client, w.store.recordOf f.request.intake = f.found

section Turns

variable {b : Backend} {py : Interpreter} {w w' : World} {client : ℕ}

theorem fresh_load {r : IntakeRequest} (hidle : (w.flights client).isNone = true) :
    Fresh client (w.next b py (.load client r)) := by
  intro f hf
  have hnone : w.flights client = none := Option.isNone_iff_eq_none.mp hidle
  simp only [World.next, hnone] at hf ⊢
  cases hload : r.load py w.store with
  | error e => simp [hload, hnone] at hf
  | ok plan =>
    simp only [hload, Option.isSome_none, Bool.false_eq_true, if_false, Function.update_self,
      Option.mem_def, Option.some.injEq] at hf ⊢
    subst hf
    rfl

theorem intakes_advance {f : Flight} {s : IntakeStore} {next : Stage}
    (hnext : (f.advance b py s).1 = .goesOn next) :
    (f.advance b py s).2.intakes = s.intakes := by
  obtain ⟨r, found, stage⟩ := f
  unfold Flight.advance at hnext ⊢
  cases stage with
  | planned plan =>
    cases plan with
    | answered response => rfl
    | finished write => cases hnext
    | saved write => cases hnext
    | compiled record document key digest =>
      dsimp only
      split <;> rfl
  | drafted record document key digest =>
    dsimp only at hnext ⊢
    split <;> rfl
  | settled record decision key digest => cases hnext

/-- A request that goes on has left the records as they are. -/
theorem fresh_advance (h : Fresh client w) : Fresh client (w.next b py (.advance client)) := by
  intro f' hf'
  cases hf : w.flights client with
  | none => simp [World.next, hf] at hf'
  | some f =>
    simp only [World.next, hf, Function.update_self] at hf' ⊢
    cases hprogress : (f.advance b py w.store).1 with
    | ends answer => simp [hprogress, Flight.after] at hf'
    | goesOn stage =>
      rw [hprogress] at hf'
      cases hf'
      have hintakes := intakes_advance hprogress
      rw [← h f hf, IntakeStore.recordOf, hintakes]
      rfl

/-- Every request ends before another client loads. -/
def inTurn : Option ℕ → List Act → Bool
  | _, [] => true
  | _, .load client _ :: acts => inTurn (some client) acts
  | turn, .advance client :: acts => turn = some client && inTurn turn acts
  | _, _ => false

/-- The client that loads is idle, and what is advanced is apart. -/
def passes (py : Interpreter) (x : Runs.Transition World Act) : Bool :=
  match x.label with
  | .load client _ => (x.before.flights client).isNone
  | .advance client => (x.before.flights client).all (Flight.apart py)
  | _ => true

theorem undisturbed_inTurn {acts : List Act} {turn : Option ℕ} (hturn : inTurn turn acts = true)
    (hfresh : ∀ client, turn = some client → Fresh client w)
    (hpasses : (Runs.execute (World.next b py) w acts).all (passes py) = true) (k : IntakeKey) :
    ∀ x ∈ Runs.execute (World.next b py) w acts, Undisturbed py k x := by
  induction acts generalizing w turn with
  | nil => exact fun x hx => absurd hx List.not_mem_nil
  | cons a acts ih =>
    rw [Runs.execute, List.all_cons, Bool.and_eq_true] at hpasses
    rw [Runs.execute, List.forall_mem_cons]
    cases a with
    | load client r =>
      refine ⟨trivial, ih hturn ?_ hpasses.2⟩
      rintro _ ⟨⟩
      exact fresh_load hpasses.1
    | advance client =>
      rw [inTurn, Bool.and_eq_true, decide_eq_true_eq] at hturn
      have hown := hfresh client hturn.1
      refine ⟨?_, ih hturn.2 ?_ hpasses.2⟩
      · rintro f hf rfl -
        exact ⟨hown f hf, Flight.apart_sound ((Option.all_eq_true _ _).mp hpasses.1 f hf)⟩
      · rw [hturn.1]
        rintro _ ⟨⟩
        exact fresh_advance hown
    | decision r => cases hturn
    | erase tenant decisionId => cases hturn

end Turns

/-- The request of an intake that a step ends with its save. -/
def successOf (b : Backend) (py : Interpreter) (k : IntakeKey) (x : Runs.Transition World Act) :
    Option Flight :=
  match x.label with
  | .advance client => (x.before.flights client).filter fun f => f.request.intake = k ∧ f.saves ∧
    (x.before.reply b py x.label).any fun reply => reply.2.isOk
  | _ => none

theorem succeeds_of_successOf {b : Backend} {py : Interpreter} {k : IntakeKey}
    {x : Runs.Transition World Act} {f : Flight} (h : successOf b py k x = some f) :
    Succeeds b py k x f := by
  obtain ⟨before, label, after⟩ := x
  cases label with
  | load client r => cases h
  | decision r => cases h
  | erase tenant decisionId => cases h
  | advance client =>
    obtain ⟨hf, hsuccess⟩ := Option.filter_eq_some_iff.mp h
    obtain ⟨hk, hsaves, hok⟩ := of_decide_eq_true hsuccess
    obtain ⟨progress, s, -, -, hreply⟩ := @next_takes b py _ _ _ hf
    refine ⟨⟨client, rfl, hf⟩, hk, ?_, fun response hstage => ?_⟩
    · dsimp only at hok ⊢
      rw [hreply] at hok ⊢
      obtain ⟨⟨r, answer⟩, hanswer, hok⟩ := (Option.any_eq_true _ _).mp hok
      cases answer with
      | error e => cases hok
      | ok response =>
        obtain ⟨answer, hanswer, hpair⟩ := Option.map_eq_some_iff.mp hanswer
        cases hpair
        exact ⟨response, by rw [hanswer]; rfl⟩
    · unfold Flight.saves at hsaves
      rw [hstage] at hsaves
      cases hsaves

/-- A digest of the first characters tells the confirmations apart. -/
def leadingInterpreter : Interpreter :=
  { asciiInterpreter with sha256 := fun text => lastDigits text.reverse }

def secondValidator : Identity := { quoteValidator with
  actorId := "validator-2"
  named := by decide }

/-- A fact of the quote is confirmed. -/
def confirmQuote (identity : Identity) (factId : String) : IntakeRequest :=
  .confirm (momentOf identity) "quote" ⟨factId, .confirm, none, "checked"⟩

def createQuote : List Act :=
  [.load 0 (.create (momentOf authorIdentity) quoteBody), .advance 0]

/-- Two validators each confirm a fact, and the quote is compiled. -/
def confirmInTurn : List Act :=
  createQuote ++ [.load 0 (confirmQuote quoteValidator "quote:fact:1"), .advance 0,
    .load 1 (confirmQuote secondValidator "quote:fact:2"), .advance 1,
    .load 0 (.compile (momentOf quoteValidator) "quote"), .advance 0, .advance 0, .advance 0]

/-- A second validator loads the record before the first one saves it. -/
def confirmAtOnce : List Act :=
  createQuote ++ [.load 0 (confirmQuote quoteValidator "quote:fact:1"),
    .load 1 (confirmQuote secondValidator "quote:fact:2"), .advance 0, .advance 1]

def isConfirmationBy (identity : Identity) : IntakeRequest → Bool
  | .confirm m _ _ => m.caller.identity = identity
  | _ => false

def isCompilation : IntakeRequest → Bool
  | .compile _ _ => true
  | _ => false

/-- A step that ends a request of this kind with success. -/
def endsOne (kind : IntakeRequest → Bool) (x : Runs.Transition World Act) : Bool :=
  (successOf .sqlite leadingInterpreter quoteKey x).any fun f => kind f.request

theorem endsOne_ok {kind : IntakeRequest → Bool} {x : Runs.Transition World Act}
    (h : endsOne kind x = true) :
    ∃ f, Succeeds .sqlite leadingInterpreter quoteKey x f ∧ kind f.request = true := by
  obtain ⟨f, hf, hkind⟩ := (Option.any_eq_true _ _).mp h
  exact ⟨f, succeeds_of_successOf hf, hkind⟩

/-- A request of this kind ends with success, and its result is in the store at the end. -/
def KeptInTurn (kind : IntakeRequest → Bool) : Prop :=
  ∃ pre post x f, steps .sqlite leadingInterpreter confirmInTurn = pre ++ x :: post ∧
    kind f.request = true ∧ Result .sqlite leadingInterpreter quoteKey f post
      (confirmInTurn.foldl (World.next .sqlite leadingInterpreter) (.idle .empty)).store

theorem results_kept_quote : KeptInTurn (isConfirmationBy quoteValidator) ∧
    KeptInTurn (isConfirmationBy secondValidator) ∧ KeptInTurn isCompilation := by
  have hfacts : [isConfirmationBy quoteValidator, isConfirmationBy secondValidator,
      isCompilation].all (fun kind =>
        (steps .sqlite leadingInterpreter confirmInTurn).any (endsOne kind)) = true ∧
      (steps .sqlite leadingInterpreter confirmInTurn).all (passes leadingInterpreter) = true := by
    decide +kernel
  obtain ⟨hends, hpasses⟩ := hfacts
  have hidle : ∀ client, none = some client → Fresh client (World.idle .empty) :=
    fun _ h => nomatch h
  have hund := undisturbed_inTurn rfl hidle hpasses quoteKey
  have hkept : ∀ kind ∈ [isConfirmationBy quoteValidator, isConfirmationBy secondValidator,
      isCompilation], KeptInTurn kind := by
    intro kind hkind
    obtain ⟨x, hx, hone⟩ := List.any_eq_true.mp (List.all_eq_true.mp hends kind hkind)
    obtain ⟨f, hf, hrequest⟩ := endsOne_ok hone
    obtain ⟨pre, post, hsplit⟩ := List.append_of_mem hx
    exact ⟨pre, post, x, f, hsplit, hrequest, results_kept .sqlite leadingInterpreter quoteKey
      confirmInTurn hund pre post x hsplit f hf⟩
  exact ⟨hkept _ (by simp), hkept _ (by simp), hkept _ (by simp)⟩

/-- The actor and the key with which an act begins a request. -/
def Act.begins : Act → Option (String × Option String)
  | .load _ r => some (r.moment.caller.identity.actorId, r.moment.caller.idempotencyKey)
  | _ => none

/-- Requests of different actors run side by side, and the later save takes back what the earlier
one has confirmed. -/
theorem lost_confirmation : ¬∀ (b : Backend) (py : Interpreter) (k : IntakeKey) (acts : List Act),
    (acts.filterMap Act.begins).Nodup → ∀ (pre post : Steps) (x : Runs.Transition World Act),
    steps b py acts = pre ++ x :: post → ∀ f, Succeeds b py k x f →
    Result b py k f post (acts.foldl (World.next b py) (.idle .empty)).store := by
  intro h
  have hfacts : (steps .sqlite leadingInterpreter confirmAtOnce).any
      (endsOne (isConfirmationBy quoteValidator)) = true ∧
      ((confirmAtOnce.foldl (World.next .sqlite leadingInterpreter)
        (.idle .empty)).store.recordOf quoteKey).all (fun r =>
          r.confirmations.all fun c => c.actorId ≠ quoteValidator.actorId) = true := by
    decide +kernel
  obtain ⟨hfirst, hlost⟩ := hfacts
  obtain ⟨x, hx, hends⟩ := List.any_eq_true.mp hfirst
  obtain ⟨f, hf, hkind⟩ := endsOne_ok hends
  unfold isConfirmationBy at hkind
  split at hkind
  rotate_left
  · cases hkind
  rename_i m intakeId body hrequest
  have hidentity : m.caller.identity = quoteValidator := of_decide_eq_true hkind
  obtain ⟨pre, post, hsplit⟩ := List.append_of_mem hx
  obtain ⟨r, c, e, hr, hof, hc, -⟩ := (h .sqlite leadingInterpreter quoteKey confirmAtOnce
    (by decide) pre post x hsplit f hf).confirm m intakeId body hrequest
  have hother := List.all_eq_true.mp ((Option.all_eq_true _ _).mp hlost r hr) c hc
  refine of_decide_eq_true hother ?_
  rw [hof.actor, hidentity]

end Quote

end DecisionAssurance.Intake
