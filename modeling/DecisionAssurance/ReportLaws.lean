import DecisionAssurance.IntakeSteps

/-!
# What every verified report of an intake has

A property that the verification of a new intake establishes and a confirmation keeps holds of the
report of every record, stored or under way, in any interleaving of requests. Compilations leave
the report as it is.
-/

namespace DecisionAssurance.Intake

open Tables DecisionFileCompiler

section Laws

variable (py : Interpreter) (P : IntakeKey → VerificationReport → Prop)

/-- New intakes have the property, and confirmations keep it. -/
structure ReportLaw : Prop where
  verified : ∀ (m : Moment) (body : IntakeRequestBody) (report : VerificationReport),
    verify py m.policy m.today
      (QuoteExtractor.extract py body.rawInput body.locale.value body.intakeId) = .ok report →
    P (m.tenant.tenantId, body.intakeId) report
  confirmed : ∀ (m : Moment) (intakeId : String) (body : IntakeConfirmationBody)
    (record : IntakeRecord) (updated : VerificationReport) (confirmation : HumanConfirmation),
    P (m.tenant.tenantId, intakeId) record.verification →
    confirmedReport py m body record = .ok (updated, confirmation) →
    P (m.tenant.tenantId, intakeId) updated

/-- A request has compiled the report of the record it has loaded. -/
def Drafts (r : IntakeRequest) (record : IntakeRecord) (d : DecisionFile) : Prop :=
  ∃ policy, r.moment.policy = some policy ∧
    compile py record.verification policy intakeCompiler .ready r.moment.caller.now = .ok d

def StageKeeps (r : IntakeRequest) : Stage → Prop
  | .planned (.answered _) | .planned (.finished _) => True
  | .planned (.saved write) => write.intakeId = r.intakeId ∧ P r.intake write.record.verification
  | .planned (.compiled record d _ _) | .drafted record d _ _ =>
    P r.intake record.verification ∧ Drafts py r record d
  | .settled record _ _ _ => P r.intake record.verification

/-- Every report has the property, stored or under way. -/
structure Keeps (w : World) : Prop where
  records : ∀ row ∈ w.store.intakes.records, P row.key row.record.verification
  flights : ∀ client f, w.flights client = some f → StageKeeps py P f.request f.stage

end Laws

section Steps

variable {b : Backend} {py : Interpreter} {P : IntakeKey → VerificationReport → Prop} {w : World}
  {s : IntakeStore} {client : ℕ}

theorem keeps_empty : Keeps py P (.idle .empty) := by
  constructor
  · exact fun row hrow => absurd hrow List.not_mem_nil
  · intro client f hf
    cases hf

theorem Keeps.get (hw : Keeps py P w) {m : Moment} {intakeId : String} {record : IntakeRecord}
    (h : w.store.intakes.get m.tenant intakeId = some record) :
    P (m.tenant.tenantId, intakeId) record.verification := by
  obtain ⟨row, hrow, rfl⟩ := Option.map_eq_some_iff.mp h
  have hkept := hw.records row (mem_of_lookup hrow)
  rwa [key_of_lookup hrow] at hkept

/-- What a request loads has the property. -/
theorem Keeps.load (hlaw : ReportLaw py P) (hw : Keeps py P w) {r : IntakeRequest} {plan : Planned}
    (h : r.load py w.store = .ok plan) : StageKeeps py P r (.planned plan) := by
  cases r with
  | create m body =>
    rcases loadCreate_cases h with ⟨response, rfl⟩ | ⟨record, key, digest, rfl⟩ |
      ⟨verification, key, digest, rfl, -, hverify⟩
    · exact trivial
    · exact trivial
    · exact ⟨rfl, hlaw.verified m body verification hverify⟩
  | confirm m intakeId body =>
    rcases loadConfirm_cases h with ⟨response, rfl⟩ |
      ⟨record, updated, confirmation, key, digest, rfl, hconfirmed⟩
    · exact trivial
    · exact ⟨rfl, hlaw.confirmed m intakeId body record updated confirmation
        (hw.get hconfirmed.stored) hconfirmed.report⟩
  | compile m intakeId =>
    rcases loadCompile_cases h with ⟨response, rfl, -⟩ | ⟨record, decision, write, rfl, -⟩ |
      ⟨record, document, key, digest, rfl, hdrafted⟩
    · exact trivial
    · exact trivial
    · exact ⟨hw.get hdrafted.stored, hdrafted.compiled⟩

/-- A write of records that replaces one row by a row with the property. -/
theorem keeps_saved {tenant : TenantContext} {write : IntakeWrite} {db db' : IntakeDatabase}
    (hrecords : ∀ row ∈ db.records, P row.key row.record.verification)
    (hsaved : IntakeDatabase.Saved tenant write db db')
    (hwrite : P (tenant.tenantId, write.intakeId) write.record.verification) :
    ∀ row ∈ db'.records, P row.key row.record.verification := by
  intro row hrow
  rw [hsaved.records] at hrow
  rcases mem_upsert hrow with rfl | hrow
  · exact hwrite
  · exact hrecords row hrow

/-- A step of a request that has loaded. -/
theorem StageKeeps.takes {r : IntakeRequest} {stage : Stage} {progress : Progress}
    (hstage : StageKeeps py P r stage)
    (hrecords : ∀ row ∈ w.store.intakes.records, P row.key row.record.verification)
    (h : Takes b py r w.store stage progress s) :
    (∀ row ∈ s.intakes.records, P row.key row.record.verification) ∧
      ∀ stage', progress = .goesOn stage' → StageKeeps py P r stage' := by
  cases h with
  | failed stage e =>
    refine ⟨hrecords, ?_⟩
    rintro _ ⟨⟩
  | answered response =>
    refine ⟨hrecords, ?_⟩
    rintro _ ⟨⟩
  | finished write db stored =>
    obtain rfl := IntakeDatabase.storeIdempotency_ok stored
    refine ⟨hrecords, ?_⟩
    rintro _ ⟨⟩
  | saved write db stored =>
    refine ⟨keeps_saved hrecords stored ?_, ?_⟩
    · rw [hstage.1]
      exact hstage.2
    · rintro _ ⟨⟩
  | found record document existing key digest known =>
    refine ⟨hrecords, ?_⟩
    rintro _ ⟨⟩
    exact hstage.1
  | missing record document key digest unknown =>
    refine ⟨hrecords, ?_⟩
    rintro _ ⟨⟩
    exact hstage
  | created record document key digest decisions stored =>
    refine ⟨hrecords, ?_⟩
    rintro _ ⟨⟩
    exact hstage.1
  | settled record decision key digest db stored =>
    refine ⟨keeps_saved hrecords stored hstage, ?_⟩
    rintro _ ⟨⟩

theorem Keeps.after (hw : Keeps py P w) {f : Flight} (progress : Progress)
    (hrecords : ∀ row ∈ s.intakes.records, P row.key row.record.verification)
    (hprogress : ∀ stage, progress = .goesOn stage → StageKeeps py P f.request stage) :
    Keeps py P ⟨s, Function.update w.flights client (f.after progress)⟩ := by
  refine ⟨hrecords, fun other g hg => ?_⟩
  by_cases hother : other = client
  · subst hother
    change Function.update w.flights other (f.after progress) other = some g at hg
    rw [Function.update_self] at hg
    cases progress with
    | goesOn stage =>
      cases hg
      exact hprogress stage rfl
    | ends answer => cases hg
  · change Function.update w.flights client (f.after progress) other = some g at hg
    rw [Function.update_of_ne hother] at hg
    exact hw.flights other g hg

theorem Keeps.next (hlaw : ReportLaw py P) (hw : Keeps py P w) (a : Act) :
    Keeps py P (w.next b py a) := by
  cases a with
  | load client r =>
    by_cases hbusy : (w.flights client).isSome
    · rwa [World.next, if_pos hbusy]
    · cases hload : r.load py w.store with
      | error e => simpa [World.next, hbusy, hload] using hw
      | ok plan =>
        have hnext : w.next b py (.load client r) =
            ⟨w.store, Function.update w.flights client (some (r.flight w.store plan))⟩ := by
          simp [World.next, hbusy, hload]
        rw [hnext]
        apply hw.after (f := r.flight w.store plan) (.goesOn (.planned plan)) hw.records
        rintro _ ⟨⟩
        exact hw.load hlaw hload
  | advance client =>
    cases hf : w.flights client with
    | none => simpa [World.next, hf] using hw
    | some f =>
      obtain ⟨progress, s, htakes, hnext, -⟩ := @next_takes b py _ _ _ hf
      obtain ⟨hrecords, hprogress⟩ := (hw.flights client f hf).takes hw.records htakes
      rw [hnext]
      exact hw.after progress hrecords hprogress
  | decision r => exact ⟨hw.records, hw.flights⟩
  | erase tenant decisionId =>
    refine ⟨?_, hw.flights⟩
    change ∀ row ∈ (w.store.eraseCase tenant decisionId).intakes.records, _
    unfold IntakeStore.eraseCase
    split_ifs
    · exact hw.records
    · obtain ⟨hrecords, -⟩ := IntakeDatabase.mem_eraseCase tenant decisionId w.store.intakes
      exact fun row hrow => hw.records row (hrecords row hrow)

/-- Every report that a run stores or has under way has the property. -/
theorem keeps_steps (hlaw : ReportLaw py P) (acts : List Act) {x : Runs.Transition World Act}
    (hx : x ∈ steps b py acts) : Keeps py P x.before ∧ Keeps py P x.after :=
  Runs.execute_invariant (Keeps py P) (fun _ => True) (fun _ a hw _ => hw.next hlaw a) keeps_empty
    (fun _ _ => trivial) x hx

end Steps

end DecisionAssurance.Intake
