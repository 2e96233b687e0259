import DecisionAssurance.DecisionLedger
import DecisionAssurance.IntakeSteps

/-!
# The decision tables that runs reach

In a run decision requests are served, compilations create their documents and cases are erased.
What each of these keeps holds of the tables after every run.
-/

namespace DecisionAssurance

open Tables Intake DecisionFileCompiler

section Reached

variable {b : Backend} {py : Interpreter} {P : DecisionTables → Prop}

/-- The tables of the decisions after the acts of a run. -/
def decisionsAfter (b : Backend) (py : Interpreter) (acts : List Act) : DecisionTables :=
  (acts.foldl (World.next b py) (.idle .empty)).store.decisions

/-- A document as a compilation writes it. -/
def CompiledDocument (py : Interpreter) (d : DecisionFile) : Prop :=
  ∃ report policy timestamp verified,
    d = compiledDecision py report policy intakeCompiler timestamp verified

/-- The document that a request under way has still to create. -/
def Intake.Stage.Drafts (d : DecisionFile) : Stage → Prop
  | .planned (.compiled _ document _ _) => document = d
  | .drafted _ document _ _ => document = d
  | _ => False

/-- A property of tables that every write keeps. -/
structure KeptByWrites (b : Backend) (py : Interpreter) (P : DecisionTables → Prop) : Prop where
  empty : P .empty
  served : ∀ t r, t.Sound → P t → P (served b py.toPlatform t r)
  compiled : ∀ t t' tenant d, t.Sound → P t → CompiledDocument py d →
    t.createDecision b tenant d d.auditEvents none = .ok t' → P t'
  erased : ∀ t tenant decisionId, t.Sound → P t → P (t.eraseCase tenant decisionId)

theorem compiledDocument_of_load {r : IntakeRequest} {s : IntakeStore} {record : IntakeRecord}
    {d : DecisionFile} {key digest : String}
    (h : r.load py s = .ok (.compiled record d key digest)) : CompiledDocument py d := by
  cases r with
  | create m body =>
    rcases loadCreate_cases h with ⟨_, hplan⟩ | ⟨_, _, _, hplan⟩ | ⟨_, _, _, hplan, -⟩
    · cases hplan
    · cases hplan
    · cases hplan
  | confirm m intakeId body =>
    rcases loadConfirm_cases h with ⟨_, hplan⟩ | ⟨_, _, _, _, _, hplan, -⟩
    · cases hplan
    · cases hplan
  | compile m intakeId =>
    rcases loadCompile_cases h with ⟨_, hplan, -⟩ | ⟨_, _, _, hplan, -⟩ |
      ⟨_, document, _, _, hplan, hdrafted⟩
    · cases hplan
    · cases hplan
    · cases hplan
      obtain ⟨policy, -, hcompile⟩ := hdrafted.compiled
      obtain ⟨-, -, rfl⟩ := compile_ok hcompile
      exact ⟨_, _, _, _, rfl⟩

/-- What holds between the acts of a run. -/
structure Reached (py : Interpreter) (P : DecisionTables → Prop) (w : World) : Prop where
  sound : w.store.decisions.Sound
  kept : P w.store.decisions
  flights : ∀ client f, w.flights client = some f → ∀ d, f.stage.Drafts d → CompiledDocument py d

theorem Reached.update {w : World} (h : Reached py P w) {s : IntakeStore} {client : ℕ}
    {flight : Option Flight} (hsound : s.decisions.Sound) (hkept : P s.decisions)
    (hflight : ∀ f, flight = some f → ∀ d, f.stage.Drafts d → CompiledDocument py d) :
    Reached py P ⟨s, Function.update w.flights client flight⟩ := by
  refine ⟨hsound, hkept, ?_⟩
  intro other f hf
  by_cases hother : other = client
  · subst hother
    apply hflight f
    simpa using hf
  · apply h.flights other f
    simpa [hother] using hf

theorem Reached.advance (hP : KeptByWrites b py P) {w : World} (h : Reached py P w) {client : ℕ}
    {f : Flight} (hf : w.flights client = some f) :
    Reached py P (w.next b py (.advance client)) := by
  have hdrafts := h.flights client f hf
  rw [next_advance hf]
  have htakes := @Flight.takes b py f w.store
  generalize (f.advance b py w.store).1 = progress at htakes ⊢
  generalize (f.advance b py w.store).2 = s at htakes ⊢
  obtain ⟨r, found, stage⟩ := f
  cases htakes with
  | failed _ e =>
    apply h.update h.sound h.kept
    rintro _ ⟨⟩
  | answered response =>
    apply h.update h.sound h.kept
    rintro _ ⟨⟩
  | finished write db stored =>
    apply h.update (s := ⟨db, w.store.decisions⟩) h.sound h.kept
    rintro _ ⟨⟩
  | saved write db stored =>
    apply h.update (s := ⟨db, w.store.decisions⟩) h.sound h.kept
    rintro _ ⟨⟩
  | found record document existing key digest known =>
    apply h.update h.sound h.kept
    rintro _ ⟨⟩ _ ⟨⟩
  | missing record document key digest unknown =>
    apply h.update h.sound h.kept
    rintro _ ⟨⟩ _ ⟨⟩
    exact hdrafts document rfl
  | created record document key digest decisions stored =>
    obtain ⟨-, -, -, -, -, hsound⟩ := DecisionTables.createDecision_cases stored
    apply h.update (s := ⟨w.store.intakes, decisions⟩) (hsound h.sound)
    · exact hP.compiled _ _ _ _ h.sound h.kept (hdrafts document rfl) stored
    · rintro _ ⟨⟩ _ ⟨⟩
  | settled record decision key digest db stored =>
    apply h.update (s := ⟨db, w.store.decisions⟩) h.sound h.kept
    rintro _ ⟨⟩

theorem Reached.next (hP : KeptByWrites b py P) {w : World} (h : Reached py P w) (a : Act) :
    Reached py P (w.next b py a) := by
  cases a with
  | load client r =>
    simp only [World.next]
    by_cases hbusy : (w.flights client).isSome
    · rw [if_pos hbusy]
      exact h
    · rw [if_neg hbusy]
      cases hload : r.load py w.store with
      | error e => exact h
      | ok plan =>
        apply h.update h.sound h.kept
        rintro _ ⟨⟩ d hdrafts
        cases plan with
        | compiled record document key digest =>
          obtain rfl : document = d := hdrafts
          exact compiledDocument_of_load hload
        | answered response => cases hdrafts
        | finished write => cases hdrafts
        | saved write => cases hdrafts
  | advance client =>
    cases hf : w.flights client with
    | none =>
      have hsame : w.next b py (.advance client) = w := by simp [World.next, hf]
      rw [hsame]
      exact h
    | some f => exact h.advance hP hf
  | decision r =>
    exact ⟨sound_served h.sound r, hP.served _ r h.sound h.kept, h.flights⟩
  | erase tenant decisionId =>
    refine ⟨?_, ?_, h.flights⟩
    · change (w.store.eraseCase tenant decisionId).decisions.Sound
      unfold IntakeStore.eraseCase
      split_ifs
      · exact h.sound
      · exact h.sound.eraseCase tenant decisionId
    · change P (w.store.eraseCase tenant decisionId).decisions
      unfold IntakeStore.eraseCase
      split_ifs
      · exact h.kept
      · exact hP.erased _ tenant decisionId h.sound h.kept

theorem reached_after (hP : KeptByWrites b py P) (acts : List Act) :
    Reached py P (acts.foldl (World.next b py) (.idle .empty)) := by
  apply (run_steps b py acts).invariant_state (Reached py P)
  · exact ⟨DecisionTables.sound_empty, hP.empty, by rintro _ _ ⟨⟩⟩
  · rintro w a _ h rfl
    exact h.next hP a

theorem keptByWrites_sound : KeptByWrites b py DecisionTables.Sound where
  empty := DecisionTables.sound_empty
  served _ r hs _ := sound_served hs r
  compiled _ _ _ _ hs _ _ hcreate :=
    (DecisionTables.createDecision_cases hcreate).2.2.2.2.2 hs
  erased _ tenant decisionId hs _ := hs.eraseCase tenant decisionId

/-- The tables are sound after every run. -/
theorem sound_decisionsAfter (acts : List Act) : (decisionsAfter b py acts).Sound :=
  (reached_after keptByWrites_sound acts).sound

theorem kept_decisionsAfter (hP : KeptByWrites b py P) (acts : List Act) :
    P (decisionsAfter b py acts) := (reached_after hP acts).kept

end Reached

end DecisionAssurance
