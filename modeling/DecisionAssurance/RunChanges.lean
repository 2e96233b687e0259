import DecisionAssurance.PersistedRuns

/-!
# The changes of a run

What an orchestrator does to the run in hand, change by change: an attempt that is reserved ends
before the next one, an error that asks to wait comes with the failure of its attempt, and a
snapshot is gathered once for its content. Every run that is stored has come by such changes from
the run that was last seen in the store.
-/

namespace DecisionAssurance.Research

open Interactions Interaction ResearchStatus ResearchOrchestrator

/-! ## What is supplied -/

/-- What the calls of an orchestrator answer: the snapshots that the content of a source is
normalised to, the cached ones, and whether an answer may raise `StopIteration`. -/
structure Supply where
  normalized : SourceCandidate → SourceSnapshot → Prop
  cached : SourceSnapshot → Prop
  stops : Prop

def Supply.any : Supply := ⟨fun _ _ => True, fun _ => True, True⟩

/-- A snapshot that is obtained for a candidate. -/
def Supply.Delivers (supply : Supply) (c : Candidate) (snapshot : SourceSnapshot) : Prop :=
  supply.normalized c.1 snapshot ∨
    ∃ cached, supply.cached cached ∧ snapshot = cachedSnapshot c cached

/-- The exception that an answer raises. -/
def raisedIn : ResearchEvent → Option ResearchException
  | ⟨.createOrGet _ _, .error e⟩ | ⟨.getRun _ _, .error e⟩ | ⟨.save _ _, .error e⟩
  | ⟨.record _ _, .error e⟩ | ⟨.getSnapshot _ _ _, .error e⟩ | ⟨.reserveBudget _ _ _, .error e⟩
  | ⟨.beforeCall _ _, .error e⟩ | ⟨.recordSuccess _ _, .error e⟩ | ⟨.recordFailure _ _ _, .error e⟩
  | ⟨.validateUrl _ _, .error e⟩ | ⟨.encodeUrl _, .error e⟩ | ⟨.normalize _ _, .error e⟩
  | ⟨.assess _ _ _ _, .error e⟩ | ⟨.attach _ _ _ _, .error e⟩ => some e
  | _ => none

/-- An answer that is as supplied. -/
structure Supply.Allows (supply : Supply) (x : ResearchEvent) : Prop where
  normalized : ∀ source content snapshot, x = ⟨.normalize source content, .ok snapshot⟩ →
    supply.normalized source snapshot
  cached : ∀ tenant url now snapshot, x = ⟨.getSnapshot tenant url now, .ok (some snapshot)⟩ →
    supply.cached snapshot
  stops : raisedIn x = some .stopIteration → supply.stops

theorem Supply.allows_any {x : ResearchEvent} : Supply.any.Allows x :=
  ⟨fun _ _ _ _ => trivial, fun _ _ _ _ _ => trivial, fun _ => trivial⟩

/-! ## Changes -/

/-- The last attempt of a run is under way. -/
def Pending (run : ResearchRun) : Prop :=
  ∃ a, run.attempts.getLast? = some a ∧ a.status = "STARTED"

/-- Runs with the same sources, by id, and the same snapshots and evidence. -/
structure SameFindings (run run' : ResearchRun) : Prop where
  sources : run'.sources.map SourceCandidate.sourceId = run.sources.map SourceCandidate.sourceId
  snapshots : run'.snapshots = run.snapshots
  evidence : run'.evidence = run.evidence

/-- Runs with the same findings and attempts. -/
structure SameWork (run run' : ResearchRun) : Prop extends SameFindings run run' where
  attempts : run'.attempts = run.attempts

/-- Runs that differ in their description only. -/
structure SameRecord (run run' : ResearchRun) : Prop where
  id : run'.researchRunId = run.researchRunId
  tenant : run'.tenantId = run.tenantId
  request : run'.request = run.request
  status : run'.status = run.status
  events : run'.auditEvents = run.auditEvents
  errors : run'.errors = run.errors
  attempts : run'.attempts = run.attempts
  sources : run'.sources = run.sources
  snapshots : run'.snapshots = run.snapshots
  evidence : run'.evidence = run.evidence

def retryReason : String := "RESEARCH_RETRY_STARTED"

/-- A change of the run in hand. -/
inductive Change (o : ResearchOrchestrator) (supply : Supply) (tenant : TenantContext) :
    ResearchRun → ResearchRun → Prop
  | moved {run : ResearchRun} {target : ResearchStatus} {retry : Bool}
      (occurredAt actorId : String) (reasonCodes : List String) (payload : Json) :
      transition run.status target retry = .ok () →
      (retry = true → reasonCodes = [retryReason]) →
      Change o supply tenant run (run.moved o.pf target occurredAt actorId reasonCodes payload)
  | recorded (run : ResearchRun) (d : EgressDecision) :
      Change o supply tenant run (appendEgressDecision o.pf run d)
  | reserved {run : ResearchRun} {operation : String} {sourceId : Option String}
      (providerId occurredAt : String) (used : ℕ) :
      o.canAttempt run operation sourceId = true →
      Change o supply tenant run { run with
        providerCostUnits := used
        attempts := run.attempts ++ [attemptOf run providerId operation occurredAt sourceId] }
  | succeeded {run : ResearchRun} : Pending run → Change o supply tenant run (succeedAttempt run)
  | failed {run : ResearchRun} (error : ProviderError) (sourceId : Option String) : Pending run →
      Change o supply tenant run (recordError (failAttempt run error) error sourceId)
  | refused (run : ResearchRun) {error : ProviderError} (sourceId : Option String) :
      error.retryAfterSeconds = none →
      Change o supply tenant run (recordError run error sourceId)
  | noted (run : ResearchRun) (reason : String) :
      Change o supply tenant run { run with errors := run.errors ++ [⟨reason, none, none⟩] }
  | discovered (run : ResearchRun) (source : SourceCandidate) :
      Change o supply tenant run (addSource run source)
  | relabelled {run : ResearchRun} {sources : List SourceCandidate} :
      sources.map SourceCandidate.sourceId = run.sources.map SourceCandidate.sourceId →
      Change o supply tenant run { run with sources := sources }
  | gathered {run : ResearchRun} {c : Candidate} {snapshot : SourceSnapshot}
      (assessment : EvidenceAssessment) : supply.Delivers c snapshot →
      snapshot.contentHash ∉ run.snapshots.map SourceSnapshot.contentHash →
      c.1.sourceId ∈ run.sources.map SourceCandidate.sourceId →
      Change o supply tenant run (o.addSnapshot tenant run c snapshot assessment)
  | marked (run : ResearchRun) :
      Change o supply tenant run (markConflictingEvidence o.lib.casefold run)
  | described {run run' : ResearchRun} : SameRecord run run' → Change o supply tenant run run'

/-- A run comes from another by changes. -/
abbrev Changes (o : ResearchOrchestrator) (supply : Supply) (tenant : TenantContext) :
    ResearchRun → ResearchRun → Prop :=
  Relation.ReflTransGen (Change o supply tenant)

variable {o : ResearchOrchestrator} {supply : Supply} {tenant : TenantContext}
  {base last run run' run'' : ResearchRun} {t t' t'' : ResearchLog} {x : ResearchEvent}

/-- What every change preserves, changes preserve. -/
theorem Changes.invariant {I : ResearchRun → Prop} (h : Changes o supply tenant base run)
    (hI : ∀ run run', I run → Change o supply tenant run run' → I run') (hbase : I base) :
    I run := by
  induction h with
  | refl => exact hbase
  | tail _ hstep ih => exact hI _ _ ih hstep

theorem Change.identity (h : Change o supply tenant run run') :
    run'.researchRunId = run.researchRunId ∧ run'.tenantId = run.tenantId := by
  cases h with
  | described h => exact ⟨h.id, h.tenant⟩
  | _ => exact ⟨rfl, rfl⟩

theorem Changes.id (h : Changes o supply tenant base run) :
    run.researchRunId = base.researchRunId := by
  apply h.invariant (I := fun run => run.researchRunId = base.researchRunId)
  · exact fun _ _ hrun hstep => hstep.identity.1.trans hrun
  · rfl

theorem SameFindings.refl (run : ResearchRun) : SameFindings run run := ⟨rfl, rfl, rfl⟩

theorem SameFindings.trans (h : SameFindings run run') (h' : SameFindings run' run'') :
    SameFindings run run'' :=
  ⟨h'.sources.trans h.sources, h'.snapshots.trans h.snapshots, h'.evidence.trans h.evidence⟩

theorem SameWork.refl (run : ResearchRun) : SameWork run run := ⟨.refl run, rfl⟩

theorem SameWork.trans (h : SameWork run run') (h' : SameWork run' run'') : SameWork run run'' :=
  ⟨h.toSameFindings.trans h'.toSameFindings, h'.attempts.trans h.attempts⟩

theorem SameWork.pending (h : SameWork run run') (hrun : Pending run) : Pending run' := by
  unfold Pending at hrun ⊢
  rwa [h.attempts]

/-! ## Logs -/

/-- The run that a log has read. -/
def runRead (t : ResearchLog) : Option ResearchRun := t.findSome? answeredIn

/-- A unit of the budget has been reserved. -/
def reserves : ResearchEvent → Bool
  | ⟨.reserveBudget _ _ _, .ok _⟩ => true
  | _ => false

/-- A provider has been called. -/
def spends : ResearchEvent → Bool
  | ⟨.search _, _⟩ | ⟨.extract _, _⟩ => true
  | _ => false

/-- Every call of a provider has its unit. -/
def Covered (t : ResearchLog) : Prop := t.countP spends ≤ t.countP reserves

/-- A log that has read no other run and is covered. -/
structure Carries (t t' : ResearchLog) : Prop where
  runRead : runRead t' = runRead t
  covered : Covered t'

/-- A log that, besides, has seen no other run in the store. -/
structure Idles (t t' : ResearchLog) : Prop extends Carries t t' where
  seen : lastSeen t' = lastSeen t

theorem Carries.refl (ht : Covered t) : Carries t t := ⟨rfl, ht⟩

theorem Carries.trans (h : Carries t t') (h' : Carries t' t'') : Carries t t'' :=
  ⟨h'.runRead.trans h.runRead, h'.covered⟩

theorem Idles.refl (ht : Covered t) : Idles t t := ⟨.refl ht, rfl⟩

theorem Idles.trans (h : Idles t t') (h' : Idles t' t'') : Idles t t'' :=
  ⟨h.toCarries.trans h'.toCarries, h'.seen.trans h.seen⟩

theorem runRead_snoc : runRead (t ++ [x]) = (runRead t).or (answeredIn x) := by
  rw [runRead, List.findSome?_append, List.findSome?_singleton, runRead]

/-- An event that reads no run, and calls no provider unless there is a unit for it. -/
theorem carries_snoc (ht : Covered t) (hx : answeredIn x = none)
    (hspends : spends x = true → t.countP spends < t.countP reserves) :
    Carries t (t ++ [x]) := by
  refine ⟨by rw [runRead_snoc, hx, Option.or_none], ?_⟩
  unfold Covered at ht ⊢
  rw [List.countP_append, List.countP_append, List.countP_singleton, List.countP_singleton]
  by_cases hx' : spends x = true
  · have hlt := hspends hx'
    rw [if_pos hx']
    omega
  · rw [if_neg hx']
    omega

theorem answered_of_unseen (hx : seenIn x = none) : answeredIn x = none := by
  rw [seenIn, Option.or_eq_none_iff] at hx
  exact hx.1

theorem idles_snoc (ht : Covered t) (hx : seenIn x = none)
    (hspends : spends x = true → t.countP spends < t.countP reserves) : Idles t (t ++ [x]) := by
  refine ⟨carries_snoc ht (answered_of_unseen hx) hspends, ?_⟩
  rw [lastSeen_snoc, hx, Option.none_or]

/-- The run in hand has come by changes from the one last seen in the store, and that one from the
one read. -/
structure Underway (o : ResearchOrchestrator) (supply : Supply) (tenant : TenantContext)
    (t : ResearchLog) (run : ResearchRun) : Prop where
  changes : ∃ base last, runRead t = some base ∧ base.tenantId = tenant.tenantId ∧
    lastSeen t = some last ∧ Changes o supply tenant base last ∧ Changes o supply tenant last run
  covered : Covered t

theorem Underway.step (h : Underway o supply tenant t run)
    (hstep : Change o supply tenant run run') : Underway o supply tenant t run' := by
  obtain ⟨base, last, hbase, htenant, hlast, hstored, hrun⟩ := h.changes
  exact ⟨⟨base, last, hbase, htenant, hlast, hstored, hrun.tail hstep⟩, h.covered⟩

theorem Underway.idle (h : Underway o supply tenant t run) (ht : Idles t t') :
    Underway o supply tenant t' run := by
  refine ⟨?_, ht.covered⟩
  rw [ht.runRead, ht.seen]
  exact h.changes

/-- A run in hand that the store has taken. -/
theorem Underway.stored (h : Underway o supply tenant t run) (hx : writtenIn x = some run)
    (hspends : spends x = false) : Underway o supply tenant (t ++ [x]) run := by
  obtain ⟨base, last, hbase, htenant, hlast, hstored, hrun⟩ := h.changes
  have hanswered := answered_of_written hx
  have hcarries : Carries t (t ++ [x]) :=
    carries_snoc h.covered hanswered fun h => nomatch hspends.symm.trans h
  refine ⟨⟨base, run, hcarries.runRead.trans hbase, htenant, ?_, hstored.trans hrun, .refl⟩,
    hcarries.covered⟩
  rw [lastSeen_snoc, seenIn, hanswered, hx]
  rfl

/-- A run just read is in hand. -/
theorem underway_read (hunread : runRead t = none) (ht : Covered t) (hx : answeredIn x = some run)
    (hspends : spends x = false) (htenant : run.tenantId = tenant.tenantId) :
    Underway o supply tenant (t ++ [x]) run := by
  refine ⟨⟨run, run, ?_, htenant, ?_, .refl, .refl⟩, ?_⟩
  · rw [runRead_snoc, hunread, Option.none_or, hx]
  · rw [lastSeen_snoc, seenIn, hx]
    rfl
  · unfold Covered at ht ⊢
    rw [List.countP_append, List.countP_append, List.countP_singleton, hspends]
    simp only [Bool.false_eq_true, if_false]
    omega

/-- `StopIteration` is raised by an answer, by the library, or by the compilation of a run that has
come from the one read. -/
def Stops (o : ResearchOrchestrator) (supply : Supply) (tenant : TenantContext)
    (t : ResearchLog) : Prop :=
  supply.stops ∨ (∃ delay, o.lib.timedelta delay = .error .stopIteration) ∨
    ∃ base run, runRead t = some base ∧ Changes o supply tenant base run ∧
      ResearchEvidenceCompiler.compile run = none

theorem Underway.stops (h : Underway o supply tenant t run)
    (hcompile : ResearchEvidenceCompiler.compile run = none) : Stops o supply tenant t := by
  obtain ⟨base, last, hbase, -, -, hstored, hrun⟩ := h.changes
  exact .inr (.inr ⟨base, run, hbase, hstored.trans hrun, hcompile⟩)

namespace ResearchOrchestrator

/-! ## The terms of a chronicle -/

/-- An answered run is one of the tenant asked for. -/
def Owned : ResearchEvent → Prop
  | ⟨.createOrGet tenant _, .ok run⟩ | ⟨.getRun tenant _, .ok (some run)⟩ =>
    run.tenantId = tenant.tenantId
  | _ => True

/-- A run is read once, for the tenant; every run that is stored is in hand, units are reserved for
it under the limit of the policy, every call of a provider has its unit, and what is attached to a
document is what the run in hand has compiled for it. The answers are as supplied. -/
def chronicle (o : ResearchOrchestrator) (supply : Supply) (tenant : TenantContext) :
    Terms researchCalls where
  may t
    | .createOrGet tenant' run => tenant' = tenant ∧ runRead t = none ∧ Proposes o tenant run
    | .getRun tenant' _ => tenant' = tenant ∧ runRead t = none
    | .save tenant' run | .record tenant' run => tenant' = tenant ∧ Underway o supply tenant t run
    | .reserveBudget tenant' runId limit => tenant' = tenant ∧ limit = o.policy.providerBudget ∧
        ∃ run, Underway o supply tenant t run ∧ run.researchRunId = runId
    | .search _ | .extract _ => t.countP spends < t.countP reserves
    | .attach tenant' decisionFileId hash evidence => tenant' = tenant ∧ evidence ≠ [] ∧
        ∃ run, Underway o supply tenant t run ∧
          ResearchEvidenceCompiler.compile run = some evidence ∧
          run.request.decisionFileId = decisionFileId ∧ run.expectedDocumentHash = hash
    | _ => True
  given _ x := Owned x ∧ supply.Allows x

variable {α β : Type} {p : Program α} {P : ResearchLog → α → Prop} {Q : ResearchLog → β → Prop}

/-- A result of a program that keeps to the chronicle: its value is as it should be. -/
structure Arrives (o : ResearchOrchestrator) (supply : Supply) (tenant : TenantContext)
    (P : ResearchLog → α → Prop) (t : ResearchLog) (r : Raises α) (t' : ResearchLog) : Prop where
  carries : Carries t t'
  value : ∀ a, r = .ok a → P t' a
  stops : r = .error .stopIteration → Stops o supply tenant t'

abbrev Proceeds (o : ResearchOrchestrator) (supply : Supply) (tenant : TenantContext)
    (p : Program α) (P : ResearchLog → α → Prop) (t : ResearchLog) : Prop :=
  p.Ensures (o.chronicle supply tenant) (Arrives o supply tenant P t) t

/-- What a program ensures after a log that carries on another. -/
theorem Proceeds.after (h : o.Proceeds supply tenant p P t') (ht : Carries t t') :
    p.Ensures (o.chronicle supply tenant) (Arrives o supply tenant P t) t' :=
  h.mono fun _ _ hr => ⟨ht.trans hr.carries, hr.value, hr.stops⟩

theorem Proceeds.bind {q : α → Program β} (h : o.Proceeds supply tenant p P t)
    (hq : ∀ a t', Carries t t' → P t' a → o.Proceeds supply tenant (q a) Q t') :
    o.Proceeds supply tenant (p >>= q) Q t := by
  apply Ensures.bind h
  · intro a t' ha
    exact (hq a t' ha.carries (ha.value a rfl)).after ha.carries
  · intro e t' he
    refine ⟨he.carries, fun _ h => (nomatch h), fun h => ?_⟩
    cases h
    exact he.stops rfl

theorem Proceeds.mono {P' : ResearchLog → α → Prop} (h : o.Proceeds supply tenant p P t)
    (hP : ∀ t' a, Carries t t' → P t' a → P' t' a) : o.Proceeds supply tenant p P' t :=
  Ensures.mono h fun _ t' hr =>
    ⟨hr.carries, fun a ha => hP t' a hr.carries (hr.value a ha), hr.stops⟩

theorem proceeds_pure {a : α} (ht : Covered t) (ha : P t a) :
    o.Proceeds supply tenant (pure a) P t := by
  refine ⟨.refl ht, fun b hb => ?_, nofun⟩
  cases hb
  exact ha

theorem proceeds_raise {e : ResearchException} (ht : Covered t)
    (he : e = .stopIteration → Stops o supply tenant t) :
    o.Proceeds supply tenant (raise e) P t := by
  refine ⟨.refl ht, fun _ h => (nomatch h), fun h => he ?_⟩
  cases h
  rfl

theorem proceeds_lift {r : Raises α} (ht : Covered t) (hr : ∀ a, r = .ok a → P t a)
    (he : r = .error .stopIteration → Stops o supply tenant t) :
    o.Proceeds supply tenant (lift r) P t := ⟨.refl ht, hr, he⟩

theorem proceeds_lift_bind {r : Raises α} {q : α → Program β} (ht : Covered t)
    (hq : ∀ a, r = .ok a → o.Proceeds supply tenant (q a) Q t)
    (he : r = .error .stopIteration → Stops o supply tenant t) :
    o.Proceeds supply tenant (lift r >>= q) Q t := by
  cases r with
  | ok a => exact hq a rfl
  | error e => exact proceeds_raise ht fun h => he (h ▸ rfl)

/-- A call that sees no run and calls no provider. -/
theorem proceeds_call {c : ResearchCall} {q : c.Answer → Program β} (ht : Covered t)
    (hmay : (o.chronicle supply tenant).may t c)
    (hplain : ∀ a, seenIn ⟨c, a⟩ = none ∧ spends ⟨c, a⟩ = false)
    (hq : ∀ a t', supply.Allows ⟨c, a⟩ → Idles t t' → o.Proceeds supply tenant (q a) Q t') :
    o.Proceeds supply tenant (perform c >>= q) Q t := by
  refine ensures_ask_bind.mpr ⟨hmay, fun a ha => ?_⟩
  have hidles := idles_snoc ht (hplain a).1 fun hx => nomatch (hplain a).2.symm.trans hx
  exact (hq a _ ha.2 hidles).after hidles.toCarries

/-- A program that sees no run. -/
abbrev Passes (o : ResearchOrchestrator) (supply : Supply) (tenant : TenantContext)
    (p : Program α) (t : ResearchLog) : Prop :=
  o.Proceeds supply tenant p (fun t' _ => Idles t t') t

theorem ensureActive_passes (ht : Covered t) : o.Passes supply tenant ensureActive t := by
  refine proceeds_call ht trivial (fun _ => ⟨rfl, rfl⟩) fun cancelled t' _ hidles => ?_
  cases cancelled with
  | true => exact proceeds_raise hidles.covered nofun
  | false => exact proceeds_pure hidles.covered hidles

theorem time_passes (ht : Covered t) : o.Passes supply tenant o.time t :=
  proceeds_call ht trivial (fun _ => ⟨rfl, rfl⟩) fun _ _ _ hidles =>
    proceeds_pure hidles.covered hidles

theorem save_proceeds (hrun : Underway o supply tenant t run) : o.Proceeds supply tenant
    (save tenant run) (fun t' _ => Underway o supply tenant t' run) t := by
  refine ensures_ask_bind.mpr ⟨⟨rfl, hrun⟩, fun saved hsaved => ?_⟩
  have hcarries : Carries t (t ++ [(⟨.save tenant run, saved⟩ : ResearchEvent)]) := by
    apply carries_snoc hrun.covered
    · cases saved <;> rfl
    · exact nofun
  refine ⟨hcarries, fun _ h => ?_, fun h => ?_⟩
  · cases h
    exact hrun.stored rfl rfl
  · cases h
    exact .inl (hsaved.2.stops rfl)

theorem transition_ne_stops {target : ResearchStatus} {retry : Bool} :
    transition run.status target retry ≠ .error .stopIteration := by
  unfold transition
  split_ifs <;> exact nofun

theorem advance_proceeds {target : ResearchStatus} {actorId : String} {reasonCodes : List String}
    {payload : Json} {retry : Bool} (hrun : Underway o supply tenant t run)
    (hretry : retry = true → reasonCodes = [retryReason]) :
    o.Proceeds supply tenant (o.advance run target actorId reasonCodes payload retry)
      (Underway o supply tenant) t := by
  apply (time_passes hrun.covered).bind
  intro occurredAt t' _ hidles
  apply proceeds_lift hidles.covered
  · intro moved hmoved
    obtain ⟨_, hallowed, hpure⟩ := bind_ok_cases hmoved
    cases hpure
    exact (hrun.idle hidles).step (.moved occurredAt actorId reasonCodes payload hallowed hretry)
  · intro hstops
    rcases bind_error_cases hstops with h | ⟨_, _, h⟩
    · exact absurd h transition_ne_stops
    · cases h

theorem move_proceeds {target : ResearchStatus} {actorId : String} {reasonCodes : List String}
    {payload : Json} (hrun : Underway o supply tenant t run) :
    o.Proceeds supply tenant (o.advance run target actorId reasonCodes payload false)
      (Underway o supply tenant) t :=
  advance_proceeds hrun nofun

/-- A last change of status, saved. -/
theorem finish_proceeds {target : ResearchStatus} {actorId reasonCode : String} {payload : Json}
    (hrun : Underway o supply tenant t run) :
    o.Proceeds supply tenant (o.finish tenant run target actorId reasonCode payload)
      (Underway o supply tenant) t :=
  (move_proceeds hrun).bind fun _ _ _ hmoved => (save_proceeds hmoved).bind fun _ _ _ hsaved =>
    proceeds_pure hsaved.covered hsaved

theorem failRun_proceeds {actorId reasonCode : String} (hrun : Underway o supply tenant t run) :
    o.Proceeds supply tenant (o.failRun tenant run actorId reasonCode) (Underway o supply tenant)
      t :=
  (move_proceeds hrun).bind fun _ _ _ hmoved => (save_proceeds hmoved).bind fun _ _ _ hsaved =>
    proceeds_pure hsaved.covered hsaved

/-! ## Attempts -/

theorem appendEgress_sameWork {d : EgressDecision} :
    SameWork run (appendEgressDecision o.pf run d) := ⟨⟨rfl, rfl, rfl⟩, rfl⟩

/-- A run in hand with an attempt under way and a unit of the budget that no call has used. -/
structure Reserved (o : ResearchOrchestrator) (supply : Supply) (tenant : TenantContext)
    (t : ResearchLog) (run : ResearchRun) : Prop extends Underway o supply tenant t run where
  pending : Pending run
  unused : t.countP spends < t.countP reserves

theorem unused_snoc (hunused : t.countP spends < t.countP reserves) (hx : spends x = false) :
    (t ++ [x]).countP spends < (t ++ [x]).countP reserves := by
  rw [List.countP_append, List.countP_append, List.countP_singleton, hx]
  simp only [Bool.false_eq_true, if_false]
  omega

/-- A reservation that sees no run, with its result. -/
structure Reserves (o : ResearchOrchestrator) (supply : Supply) (tenant : TenantContext)
    (run : ResearchRun) (t : ResearchLog) (r : Raises ResearchRun) (t' : ResearchLog) : Prop where
  idles : Idles t t'
  value : ∀ run', r = .ok run' → Reserved o supply tenant t' run' ∧ SameFindings run run'
  stops : r = .error .stopIteration → Stops o supply tenant t'

theorem reserve_ensures_chronicle {providerId operation : String} {sourceId : Option String}
    (hrun : Underway o supply tenant t run)
    (hattempt : o.canAttempt run operation sourceId = true) :
    (o.reserve tenant run providerId operation sourceId).Ensures (o.chronicle supply tenant)
      (Reserves o supply tenant run t) t := by
  refine ensures_ask_bind.mpr ⟨⟨rfl, rfl, run, hrun, rfl⟩, fun reserved hreserved => ?_⟩
  have hidles := idles_snoc (t := t)
    (x := ⟨.reserveBudget tenant run.researchRunId o.policy.providerBudget, reserved⟩) hrun.covered
    rfl nofun
  cases reserved with
  | error e =>
    refine ⟨hidles, fun _ h => (nomatch h), fun h => ?_⟩
    cases h
    exact .inl (hreserved.2.stops rfl)
  | ok used =>
    refine ensures_bind.mpr (ensures_ask_bind.mpr ⟨trivial, fun now _ => ?_⟩)
    have hunused : (t ++ [(⟨.reserveBudget tenant run.researchRunId o.policy.providerBudget,
        .ok used⟩ : ResearchEvent)]).countP spends < (t ++ [(⟨.reserveBudget tenant
          run.researchRunId o.policy.providerBudget, .ok used⟩ : ResearchEvent)]).countP
            reserves := by
      have hcovered := hrun.covered
      unfold Covered at hcovered
      rw [List.countP_append, List.countP_append]
      change _ + 0 < _ + 1
      omega
    have htimed := hidles.trans (idles_snoc (x := ⟨.clock, now⟩) hidles.covered rfl nofun)
    refine ⟨htimed, fun run' h => ?_, nofun⟩
    cases h
    have hstep := (hrun.idle htimed).step
      (.reserved providerId (o.lib.isoformat now) used hattempt)
    exact ⟨⟨hstep, ⟨_, List.getLast?_concat, rfl⟩, unused_snoc hunused rfl⟩, rfl, rfl, rfl⟩

theorem reserveCall_proceeds {providerId operation : String} {sourceId : Option String}
    (hrun : Underway o supply tenant t run)
    (hattempt : o.canAttempt run operation sourceId = true) :
    o.Proceeds supply tenant (o.reserveCall tenant run providerId operation sourceId)
      (fun t' reserved => match reserved with
        | none => Underway o supply tenant t' run
        | some run' => Reserved o supply tenant t' run' ∧ SameFindings run run') t := by
  have hreserve : (do ensureActive; o.reserve tenant run providerId operation sourceId :
      Program ResearchRun).Ensures (o.chronicle supply tenant) (Reserves o supply tenant run t)
        t := by
    refine ensures_bind.mpr (ensures_ask_bind.mpr ⟨trivial, fun cancelled _ => ?_⟩)
    have hidles := idles_snoc (x := ⟨.cancelled, cancelled⟩) hrun.covered rfl nofun
    cases cancelled with
    | true => exact ⟨hidles, fun _ h => (nomatch h), nofun⟩
    | false =>
      exact (reserve_ensures_chronicle (hrun.idle hidles) hattempt).mono fun r t' hr =>
        ⟨hidles.trans hr.idles, hr.value, hr.stops⟩
  refine ensures_bind.mpr (ensures_attempt.mpr (hreserve.mono fun r t' hr => ?_))
  cases r with
  | ok run' =>
    refine ⟨hr.idles.toCarries, fun reserved h => ?_, nofun⟩
    cases h
    exact hr.value run' rfl
  | error e =>
    dsimp only
    split_ifs with hbudget
    · refine ⟨hr.idles.toCarries, fun reserved h => ?_, nofun⟩
      cases h
      exact hrun.idle hr.idles
    · refine ⟨hr.idles.toCarries, fun _ h => (nomatch h), fun h => hr.stops ?_⟩
      cases h
      rfl

/-! ## Calls of a provider -/

theorem beforeCall_passes {providerId : String} (ht : Covered t) :
    o.Passes supply tenant (beforeCall tenant providerId) t := by
  refine proceeds_call ht trivial (fun _ => ⟨rfl, rfl⟩) fun called t' hcalled hidles => ?_
  rcases called with e | u
  · cases e with
    | circuitOpen => exact proceeds_pure hidles.covered hidles
    | stopIteration => exact proceeds_raise hidles.covered fun _ => .inl (hcalled.stops rfl)
    | _ => exact proceeds_raise hidles.covered nofun
  · exact proceeds_pure hidles.covered hidles

theorem recordFailure_passes {providerId : String} {retryable : Bool} (ht : Covered t) :
    o.Passes supply tenant (recordFailure tenant providerId retryable) t :=
  proceeds_call ht trivial (fun _ => ⟨rfl, rfl⟩) fun _ _ hrecorded hidles =>
    proceeds_lift hidles.covered (fun _ _ => hidles) fun h => by
      subst h
      exact .inl (hrecorded.stops rfl)

theorem recordSuccess_passes {providerId : String} (ht : Covered t) :
    o.Passes supply tenant (recordSuccess tenant providerId) t :=
  proceeds_call ht trivial (fun _ => ⟨rfl, rfl⟩) fun _ _ hrecorded hidles =>
    proceeds_lift hidles.covered (fun _ _ => hidles) fun h => by
      subst h
      exact .inl (hrecorded.stops rfl)

/-- A run in hand on which the same work has been done. -/
abbrev Works (o : ResearchOrchestrator) (supply : Supply) (tenant : TenantContext)
    (run : ResearchRun) (t' : ResearchLog) (run' : ResearchRun) : Prop :=
  Underway o supply tenant t' run' ∧ SameWork run run'

theorem recordDecisions_proceeds (ds : List EgressDecision)
    (hrun : Underway o supply tenant t run) : o.Proceeds supply tenant
      (o.recordDecisions tenant run ds) (fun t' a => Works o supply tenant run t' a.1) t := by
  induction ds generalizing run t with
  | nil => exact proceeds_pure hrun.covered ⟨hrun, .refl run⟩
  | cons d ds ih =>
    have hstep := hrun.step (.recorded run d)
    refine ensures_ask_bind.mpr ⟨⟨rfl, hstep⟩, fun recorded _ => ?_⟩
    have hcarries : Carries t (t ++ [(⟨.record tenant (appendEgressDecision o.pf run d), recorded⟩ :
        ResearchEvent)]) := by
      apply carries_snoc hrun.covered
      · cases recorded <;> rfl
      · exact nofun
    rcases recorded with e | u
    · have hidles := idles_snoc (x := ⟨.record tenant (appendEgressDecision o.pf run d), .error e⟩)
        hrun.covered rfl nofun
      exact (proceeds_pure hidles.covered ⟨hstep.idle hidles, appendEgress_sameWork⟩).after hcarries
    · have hstored := hstep.stored
        (x := ⟨.record tenant (appendEgressDecision o.pf run d), .ok ()⟩) rfl rfl
      refine ((ih hstored).mono fun t' a _ ha => ?_).after hcarries
      exact ⟨ha.1, appendEgress_sameWork.trans ha.2⟩

theorem replied_proceeds {reply : ProviderReply α} (hrun : Underway o supply tenant t run) :
    o.Proceeds supply tenant (o.replied tenant run reply)
      (fun t' a => Works o supply tenant run t' a.1) t := by
  refine (recordDecisions_proceeds reply.decisions hrun).bind fun ⟨run', refusal⟩ t' _ hrun' => ?_
  cases refusal with
  | none => exact proceeds_pure hrun'.1.covered hrun'
  | some e => exact proceeds_pure hrun'.1.covered hrun'

/-- A call of a provider for the unit in hand. -/
theorem provide_proceeds {c : ResearchCall} {q : c.Answer → Program β}
    (hrun : Underway o supply tenant t run) (hunused : t.countP spends < t.countP reserves)
    (hmay : (o.chronicle supply tenant).may t c) (hc : ∀ a, seenIn ⟨c, a⟩ = none)
    (hq : ∀ a t', Underway o supply tenant t' run → o.Proceeds supply tenant (q a) Q t') :
    o.Proceeds supply tenant (perform c >>= q) Q t := by
  refine ensures_ask_bind.mpr ⟨hmay, fun a _ => ?_⟩
  have hidles := idles_snoc hrun.covered (hc a) fun _ => hunused
  exact (hq a _ (hrun.idle hidles)).after hidles.toCarries

theorem searchOutcome_proceeds (hrun : Reserved o supply tenant t run) :
    o.Proceeds supply tenant (o.searchOutcome tenant run)
      (fun t' a => Works o supply tenant run t' a.1) t := by
  refine ensures_ask_bind.mpr ⟨trivial, fun cancelled _ => ?_⟩
  have hidles := idles_snoc (x := ⟨.cancelled, cancelled⟩) hrun.covered rfl nofun
  have hnext := hrun.toUnderway.idle hidles
  have hunused := unused_snoc (x := ⟨.cancelled, cancelled⟩) hrun.unused rfl
  cases cancelled with
  | true => exact (proceeds_pure hnext.covered ⟨hnext, .refl run⟩).after hidles.toCarries
  | false =>
    exact (provide_proceeds (c := .search (searchQuery run)) hnext hunused hunused
      (fun _ => rfl) fun _ _ hrun' => replied_proceeds hrun').after hidles.toCarries

theorem extractOutcome_proceeds {c : Candidate} (hrun : Reserved o supply tenant t run) :
    o.Proceeds supply tenant (o.extractOutcome tenant run c)
      (fun t' a => Works o supply tenant run t' a.1) t := by
  refine ensures_ask_bind.mpr ⟨trivial, fun cancelled _ => ?_⟩
  have hidles := idles_snoc (x := ⟨.cancelled, cancelled⟩) hrun.covered rfl nofun
  have hnext := hrun.toUnderway.idle hidles
  have hunused := unused_snoc (x := ⟨.cancelled, cancelled⟩) hrun.unused rfl
  cases cancelled with
  | true => exact (proceeds_pure hnext.covered ⟨hnext, .refl run⟩).after hidles.toCarries
  | false =>
    exact (provide_proceeds (c := .extract (o.extractionRequest run c)) hnext hunused hunused
      (fun _ => rfl) fun _ _ hrun' => replied_proceeds hrun').after hidles.toCarries

/-! ## Discovery -/

theorem normalizeDomain_ne_stops {lib : UrlLibrary} {value : String} :
    normalizeDomain lib value ≠ .error .stopIteration := by
  unfold normalizeDomain
  dsimp only
  split_ifs
  · exact nofun
  · intro h
    cases (orRaise_error.mp h).2

theorem forDomains_ne_stops {lib : UrlLibrary} {allowed blocked : List String} :
    forDomains lib allowed blocked ≠ .error .stopIteration := by
  intro h
  rcases bind_error_cases h with h | ⟨_, -, h⟩
  · obtain ⟨_, -, hdomain⟩ := mapM_error_cases h
    exact normalizeDomain_ne_stops hdomain
  · rcases bind_error_cases h with h | ⟨_, -, h⟩
    · obtain ⟨_, -, hdomain⟩ := mapM_error_cases h
      exact normalizeDomain_ne_stops hdomain
    · cases h

theorem storeSource_proceeds (source : SourceCandidate)
    (hrun : Underway o supply tenant t run) :
    o.Proceeds supply tenant (storeSource run source) (Underway o supply tenant) t := by
  refine proceeds_call hrun.covered trivial (fun _ => ⟨rfl, rfl⟩) fun encoded t' hencoded hidles => ?_
  have hrun' := hrun.idle hidles
  cases encoded with
  | ok _ =>
    have hadded := hrun'.step (.discovered run source)
    exact proceeds_pure hadded.covered hadded
  | error e => exact proceeds_raise hrun'.covered fun he => .inl (hencoded.stops (congrArg some he))

theorem storeResults_proceeds {policy : PublicUrlPolicy} {response : SearchResponse}
    (results : List SearchResult) {seen : List String} (hrun : Underway o supply tenant t run) :
    o.Proceeds supply tenant (o.storeResults policy response run seen results)
      (Underway o supply tenant) t := by
  induction results generalizing run seen t with
  | nil => exact proceeds_pure hrun.covered hrun
  | cons result rest ih =>
    refine proceeds_call hrun.covered trivial (fun _ => ⟨rfl, rfl⟩)
      fun validated t' hvalidated hidles => ?_
    have hrun' := hrun.idle hidles
    rcases validated with e | safe
    · cases e with
      | urlRejected reason => exact (storeSource_proceeds _ hrun').bind fun _ _ _ => ih
      | stopIteration =>
        exact proceeds_raise hrun'.covered fun _ => .inl (hvalidated.stops rfl)
      | _ => exact proceeds_raise hrun'.covered nofun
    · dsimp only
      split_ifs
      · exact ih hrun'
      · exact (storeSource_proceeds _ hrun').bind fun _ _ _ => ih

theorem storeDiscovery_proceeds {response : SearchResponse}
    (hrun : Underway o supply tenant t run) : o.Proceeds supply tenant
      (o.storeDiscovery run response) (Underway o supply tenant) t := by
  refine proceeds_lift_bind hrun.covered (fun policy _ => ?_) fun h =>
    absurd h forDomains_ne_stops
  exact storeResults_proceeds _
    (hrun.step (.described ⟨rfl, rfl, rfl, rfl, rfl, rfl, rfl, rfl, rfl, rfl⟩))

theorem failDiscovery_proceeds {actorId : String} {error : ProviderError}
    (hrun : Underway o supply tenant t (recordError run error none)) :
    o.Proceeds supply tenant (o.failDiscovery tenant run actorId error)
      (fun t' a => Underway o supply tenant t' a.1) t :=
  (failRun_proceeds hrun).bind fun _ _ _ hrun' => proceeds_pure hrun'.covered hrun'

theorem failSearch_proceeds {actorId : String} {error : ProviderError}
    (hrun : Underway o supply tenant t run) (hpending : Pending run) :
    o.Proceeds supply tenant (o.failSearch tenant run actorId error)
      (fun t' a => Underway o supply tenant t' a.1) t :=
  (ensureActive_passes hrun.covered).bind fun _ _ _ hactive =>
    (recordFailure_passes hactive.covered).bind fun _ _ _ hrecorded =>
      failDiscovery_proceeds
        ((hrun.idle (hactive.trans hrecorded)).step (.failed error none hpending))

theorem succeedSearch_proceeds {actorId : String} {response : SearchResponse}
    (hrun : Underway o supply tenant t run) (hpending : Pending run) :
    o.Proceeds supply tenant (o.succeedSearch tenant run actorId response)
      (fun t' a => Underway o supply tenant t' a.1) t := by
  refine (ensureActive_passes hrun.covered).bind fun _ _ _ hactive => ?_
  refine (recordSuccess_passes hactive.covered).bind fun _ _ _ hrecorded => ?_
  have hrun' := (hrun.idle (hactive.trans hrecorded)).step (.succeeded hpending)
  refine (storeDiscovery_proceeds hrun').bind fun _ _ _ hstored => ?_
  refine (move_proceeds hstored).bind fun _ _ _ hmoved => ?_
  exact (save_proceeds hmoved).bind fun _ _ _ hsaved => proceeds_pure hsaved.covered hsaved

theorem discover_proceeds {actorId : String} (hrun : Underway o supply tenant t run) :
    o.Proceeds supply tenant (o.discover tenant run actorId)
      (fun t' a => Underway o supply tenant t' a.1) t := by
  refine (ensureActive_passes hrun.covered).bind fun _ t₁ _ hidles => ?_
  have hactive := hrun.idle hidles
  by_cases hattempt : o.canAttempt run "search" none = true
  · rw [hattempt]
    refine (beforeCall_passes hactive.covered).bind fun closed t₂ _ hcalled => ?_
    have hclosed := hactive.idle hcalled
    cases closed with
    | false => exact failDiscovery_proceeds (hclosed.step (.refused run none rfl))
    | true =>
      refine (reserveCall_proceeds hclosed hattempt).bind fun reserved t₃ _ hreserved => ?_
      cases reserved with
      | none => exact failDiscovery_proceeds (Underway.step hreserved (.refused run none rfl))
      | some run' =>
        refine (searchOutcome_proceeds hreserved.1).bind fun ⟨run'', outcome⟩ t₄ _ hrun'' => ?_
        have hpending := hrun''.2.pending hreserved.1.pending
        rcases outcome with e | response
        · cases e with
          | requestFailed error => exact failSearch_proceeds hrun''.1 hpending
          | _ => exact failSearch_proceeds hrun''.1 hpending
        · exact succeedSearch_proceeds hrun''.1 hpending
  · rw [Bool.not_eq_true] at hattempt
    rw [hattempt]
    exact failDiscovery_proceeds (hactive.step (.refused run none rfl))

/-! ## Extraction -/

theorem relabel_sources {i : ℕ} {f : SourceCandidate → SourceCandidate}
    (hf : ∀ s, (f s).sourceId = s.sourceId) (sources : List SourceCandidate) :
    (sources.modify i f).map SourceCandidate.sourceId = sources.map SourceCandidate.sourceId := by
  refine List.ext_getElem? fun j => ?_
  rw [List.getElem?_map, List.getElem?_map, List.getElem?_modify]
  cases sources[j]? with
  | none => rfl
  | some s =>
    simp only [Option.map_eq_map, Option.map_some, Option.some.injEq]
    split_ifs
    · exact hf s
    · rfl

theorem changeSource_sameFindings {c : Candidate} {f : SourceCandidate → SourceCandidate}
    (hf : ∀ s, (f s).sourceId = s.sourceId) : SameFindings run (changeSource run c f) :=
  ⟨relabel_sources hf run.sources, rfl, rfl⟩

theorem relabel_underway {c : Candidate} {f : SourceCandidate → SourceCandidate}
    (hrun : Underway o supply tenant t run) (hf : ∀ s, (f s).sourceId = s.sourceId) :
    Underway o supply tenant t (changeSource run c f) :=
  hrun.step (.relabelled (relabel_sources hf run.sources))

/-- A source that is given up for an error that asks for no wait. -/
theorem giveUp_underway {c : Candidate} {error : ProviderError}
    (hrun : Underway o supply tenant t run) (herror : error.retryAfterSeconds = none) :
    Underway o supply tenant t (giveUp run c error) :=
  (relabel_underway (c := c) (f := withStatus "CITATION_ONLY"
    ["SEARCH_CITATION_ONLY", error.reasonCode]) hrun fun _ => rfl).step
      (.refused _ (some c.1.sourceId) herror)

/-- A source that is given up with its attempt. -/
theorem failAttempt_underway {c : Candidate} {error : ProviderError}
    (hrun : Underway o supply tenant t run) (hpending : Pending run) :
    Underway o supply tenant t (giveUp (failAttempt run error) c error) :=
  (relabel_underway (c := c) (f := withStatus "CITATION_ONLY"
    ["SEARCH_CITATION_ONLY", error.reasonCode]) hrun fun _ => rfl).step
      (.failed error (some c.1.sourceId) hpending)

theorem giveUp_sameFindings {c : Candidate} {error : ProviderError} :
    SameFindings run (giveUp run c error) :=
  ⟨relabel_sources (f := withStatus "CITATION_ONLY" ["SEARCH_CITATION_ONLY", error.reasonCode])
    (fun _ => rfl) run.sources, rfl, rfl⟩

theorem failAttempt_sameFindings {error : ProviderError} :
    SameFindings run (failAttempt run error) := ⟨rfl, rfl, rfl⟩

/-- A run in hand with the same findings, and a snapshot that may have been delivered. -/
structure Obtained (o : ResearchOrchestrator) (supply : Supply) (tenant : TenantContext)
    (run : ResearchRun) (c : Candidate) (t' : ResearchLog)
    (a : ResearchRun × Option SourceSnapshot) : Prop where
  underway : Underway o supply tenant t' a.1
  findings : SameFindings run a.1
  delivers : ∀ snapshot, a.2 = some snapshot → supply.Delivers c snapshot

theorem acceptContent_proceeds {policy : PublicUrlPolicy} {c : Candidate}
    {content : ExtractedContent} (ht : Covered t) :
    (acceptContent policy c content).Ensures (o.chronicle supply tenant) (fun r t' => Idles t t' ∧
      (∀ snapshot, r = .ok snapshot → supply.normalized c.1 snapshot) ∧
      (r = .error .stopIteration → supply.stops)) t := by
  refine ensures_ask_bind.mpr ⟨trivial, fun validated hvalidated => ?_⟩
  have hidles := idles_snoc (x := ⟨.validateUrl policy content.canonicalUrl, validated⟩) ht rfl
    nofun
  rcases validated with e | final
  · refine ⟨hidles, fun _ h => (nomatch h), fun h => ?_⟩
    cases h
    exact hvalidated.2.stops rfl
  · change (if final.domain ≠ c.1.domain then raise (.urlRejected "CROSS_DOMAIN_REDIRECT") else _ :
      Program SourceSnapshot).Ensures _ _ _
    split_ifs
    · exact ⟨hidles, fun _ h => (nomatch h), nofun⟩
    · refine ensures_ask_bind.mpr ⟨trivial, fun normalized hnormalized => ?_⟩
      have hnext := hidles.trans (idles_snoc (x := ⟨.normalize c.1 content, normalized⟩)
        hidles.covered rfl nofun)
      refine ⟨hnext, fun snapshot h => ?_, fun h => ?_⟩
      · cases h
        exact hnormalized.2.normalized _ _ _ rfl
      · cases h
        exact hnormalized.2.stops rfl

theorem failExtraction_proceeds {c : Candidate} {error : ProviderError}
    (hrun : Underway o supply tenant t run) (hpending : Pending run) :
    o.Proceeds supply tenant (o.failExtraction tenant run c error)
      (Obtained o supply tenant run c) t :=
  (recordFailure_passes hrun.covered).bind fun _ _ _ hrecorded =>
    proceeds_pure hrecorded.covered
      ⟨failAttempt_underway (hrun.idle hrecorded) hpending,
        failAttempt_sameFindings.trans giveUp_sameFindings, fun _ h => (nomatch h)⟩

theorem useContent_proceeds {policy : PublicUrlPolicy} {c : Candidate}
    {content : ExtractedContent} (hrun : Underway o supply tenant t run)
    (hpending : Pending run) : o.Proceeds supply tenant
      (o.useContent tenant run policy c content) (Obtained o supply tenant run c) t := by
  refine ensures_bind.mpr (ensures_attempt.mpr
    ((acceptContent_proceeds hrun.covered).mono fun accepted t' haccepted => ?_))
  obtain ⟨hidles, hnormalized, hstops⟩ := haccepted
  have hrun' := hrun.idle hidles
  have hgiveUp (error : ProviderError) :
      (pure (giveUp (failAttempt run error) c error, none) :
        Program (ResearchRun × Option SourceSnapshot)).Ensures (o.chronicle supply tenant)
          (Arrives o supply tenant (Obtained o supply tenant run c) t) t' := by
    have hgiven : Obtained o supply tenant run c t'
        (giveUp (failAttempt run error) c error, none) :=
      ⟨failAttempt_underway hrun' hpending, failAttempt_sameFindings.trans giveUp_sameFindings,
        fun _ h => (nomatch h)⟩
    exact (proceeds_pure hrun'.covered hgiven).after hidles.toCarries
  rcases accepted with e | snapshot
  · have hraise : (raise e : Program (ResearchRun × Option SourceSnapshot)).Ensures
        (o.chronicle supply tenant)
          (Arrives o supply tenant (Obtained o supply tenant run c) t) t' := by
      refine (proceeds_raise hrun'.covered fun he => ?_).after hidles.toCarries
      exact .inl (hstops (congrArg Except.error he))
    cases e with
    | urlRejected reason => exact hgiveUp (providerError "normalizer" reason false)
    | normalizationRejected reason => exact hgiveUp (providerError "normalizer" reason false)
    | _ => exact hraise
  · refine ((recordSuccess_passes (o := o) hrun'.covered).bind fun _ t₂ _ hrecorded => ?_).after
      hidles.toCarries
    refine proceeds_pure hrecorded.covered
      ⟨(hrun'.idle hrecorded).step (.succeeded hpending), ⟨rfl, rfl, rfl⟩, fun s hs => ?_⟩
    cases hs
    exact .inl (hnormalized snapshot rfl)

theorem extractContent_proceeds {policy : PublicUrlPolicy} {c : Candidate}
    (hrun : Reserved o supply tenant t run) : o.Proceeds supply tenant
      (o.extractContent tenant run policy c) (Obtained o supply tenant run c) t := by
  refine (extractOutcome_proceeds hrun).bind fun ⟨run', outcome⟩ t₁ _ hrun' => ?_
  refine (ensureActive_passes hrun'.1.covered).bind fun _ t₂ _ hidles => ?_
  have hactive := hrun'.1.idle hidles
  have hpending := hrun'.2.pending hrun.pending
  have hobtained {p : Program (ResearchRun × Option SourceSnapshot)}
      (hp : o.Proceeds supply tenant p (Obtained o supply tenant run' c) t₂) :
      o.Proceeds supply tenant p (Obtained o supply tenant run c) t₂ :=
    hp.mono fun _ _ _ ha => ⟨ha.underway, hrun'.2.toSameFindings.trans ha.findings, ha.delivers⟩
  rcases outcome with e | extraction
  · exact hobtained (failExtraction_proceeds hactive hpending)
  · dsimp only
    split
    · exact hobtained (failExtraction_proceeds hactive hpending)
    · exact hobtained (failExtraction_proceeds hactive hpending)
    · exact hobtained (useContent_proceeds hactive hpending)

theorem cachedContent_proceeds {c : Candidate} (ht : Covered t) :
    o.Proceeds supply tenant (o.cachedContent tenant run c) (fun t' found => Idles t t' ∧
      ∀ cached, found = some cached → supply.cached cached) t := by
  unfold cachedContent
  split_ifs
  · exact proceeds_pure ht ⟨.refl ht, fun _ h => (nomatch h)⟩
  · refine (time_passes ht).bind fun currentTime t₁ _ htimed => ?_
    refine proceeds_call htimed.covered trivial (fun a => ⟨?_, rfl⟩)
      fun found t₂ hfound hidles => ?_
    · cases a <;> rfl
    · refine proceeds_lift hidles.covered (fun a ha => ⟨htimed.trans hidles, fun cached h => ?_⟩)
        fun h => ?_
      · subst ha
        subst h
        exact hfound.cached _ _ _ _ rfl
      · subst h
        exact .inl (hfound.stops rfl)

theorem obtainSnapshot_proceeds {policy : PublicUrlPolicy} {c : Candidate}
    (hrun : Underway o supply tenant t run) : o.Proceeds supply tenant
      (o.obtainSnapshot tenant run policy c) (Obtained o supply tenant run c) t := by
  refine (ensureActive_passes hrun.covered).bind fun _ t₁ _ hidles => ?_
  let selected := changeSource run c fun s =>
    { s with status := "SELECTED", artifactType := "SELECTED_SOURCE",
             reasonCodes := ["SOURCE_SELECTED"] }
  have hselected : Underway o supply tenant t₁ selected :=
    relabel_underway (hrun.idle hidles) fun _ => rfl
  have hfindings : SameFindings run selected := changeSource_sameFindings fun _ => rfl
  have hlookup : o.Proceeds supply tenant (o.cachedContent tenant selected c) _ t₁ :=
    cachedContent_proceeds hselected.covered
  refine hlookup.bind fun cached t₂ _ hcached => ?_
  have hcachedRun := hselected.idle hcached.1
  have hrefused {t' : ResearchLog} {error : ProviderError}
      (hrun' : Underway o supply tenant t' selected) (herror : error.retryAfterSeconds = none) :
      o.Proceeds supply tenant (pure (giveUp selected c error, none))
        (Obtained o supply tenant run c) t' :=
    proceeds_pure hrun'.covered
      ⟨giveUp_underway hrun' herror, hfindings.trans giveUp_sameFindings, fun _ h => (nomatch h)⟩
  cases cached with
  | some snapshot =>
    refine proceeds_pure hcachedRun.covered ⟨hcachedRun, hfindings, fun s hs => ?_⟩
    cases hs
    exact .inr ⟨snapshot, hcached.2 snapshot rfl, rfl⟩
  | none =>
    dsimp only
    split_ifs with hattempt
    · exact hrefused hcachedRun rfl
    · rw [Bool.not_eq_true, Bool.not_eq_false'] at hattempt
      refine (beforeCall_passes hcachedRun.covered).bind fun closed t₃ _ hcalled => ?_
      have hclosed := hcachedRun.idle hcalled
      split_ifs
      · exact hrefused hclosed rfl
      · refine (reserveCall_proceeds hclosed hattempt).bind fun reserved t₄ _ hreserved => ?_
        cases reserved with
        | none => exact hrefused hreserved rfl
        | some run' =>
          refine (extractContent_proceeds hreserved.1).mono fun _ _ _ ha => ?_
          exact ⟨ha.underway, hfindings.trans (hreserved.2.trans ha.findings), ha.delivers⟩

/-! ## Evidence -/

/-- A run in hand with the same sources, whose contents have all been seen. -/
structure Gathered (o : ResearchOrchestrator) (supply : Supply) (tenant : TenantContext)
    (run : ResearchRun) (t' : ResearchLog) (a : ResearchRun × List String) : Prop where
  underway : Underway o supply tenant t' a.1
  sources : a.1.sources.map SourceCandidate.sourceId = run.sources.map SourceCandidate.sourceId
  seen : a.1.snapshots.map SourceSnapshot.contentHash ⊆ a.2

theorem addSnapshot_sources {c : Candidate} {snapshot : SourceSnapshot}
    {assessment : EvidenceAssessment} :
    (o.addSnapshot tenant run c snapshot assessment).sources.map SourceCandidate.sourceId =
      run.sources.map SourceCandidate.sourceId :=
  relabel_sources (f := fun s => { s with
    status := if assessment.usableForDecision then "EXTRACTED" else "REVIEW_REQUIRED" })
    (fun _ => rfl) run.sources

theorem useSnapshot_proceeds {seen : List String} {c : Candidate} {snapshot : SourceSnapshot}
    (hrun : Underway o supply tenant t run) (hsnapshot : supply.Delivers c snapshot)
    (hsource : c.1.sourceId ∈ run.sources.map SourceCandidate.sourceId)
    (hseen : run.snapshots.map SourceSnapshot.contentHash ⊆ seen) :
    o.Proceeds supply tenant (o.useSnapshot tenant run seen c snapshot)
      (Gathered o supply tenant run) t := by
  refine (ensureActive_passes hrun.covered).bind fun _ t₁ _ hidles => ?_
  have hactive := hrun.idle hidles
  split_ifs with hduplicate
  · have hsame : SameFindings run (duplicateContent run c) :=
      changeSource_sameFindings fun _ => rfl
    refine proceeds_pure hactive.covered
      ⟨relabel_underway hactive fun _ => rfl, hsame.sources, ?_⟩
    rw [hsame.snapshots]
    exact hseen
  · refine proceeds_call hactive.covered trivial (fun _ => ⟨rfl, rfl⟩) fun now t₂ _ hnow => ?_
    refine proceeds_call hnow.covered trivial (fun _ => ⟨rfl, rfl⟩)
      fun assessed t₃ hallowed hassessed => ?_
    refine proceeds_lift_bind hassessed.covered (fun assessment h => ?_) fun h => ?_
    · have hgathered := (hactive.idle (hnow.trans hassessed)).step (.gathered assessment hsnapshot
        (fun hmem => hduplicate (hseen hmem)) hsource)
      refine proceeds_pure hgathered.covered ⟨hgathered, addSnapshot_sources, ?_⟩
      intro hash hhash
      obtain ⟨s, hs, rfl⟩ := List.mem_map.mp hhash
      rcases List.mem_append.mp hs with hs | hs
      · exact List.mem_cons_of_mem _ (hseen (List.mem_map_of_mem hs))
      · rw [List.mem_singleton.mp hs]
        exact List.mem_cons_self
    · subst h
      exact .inl (hallowed.stops rfl)

theorem extractAll_proceeds {policy : PublicUrlPolicy} (selected : List Candidate)
    {seen : List String} (hrun : Underway o supply tenant t run)
    (hsources : ∀ c ∈ selected, c.1.sourceId ∈ run.sources.map SourceCandidate.sourceId)
    (hseen : run.snapshots.map SourceSnapshot.contentHash ⊆ seen) :
    o.Proceeds supply tenant (o.extractAll tenant policy run seen selected)
      (Underway o supply tenant) t := by
  induction selected generalizing run seen t with
  | nil => exact proceeds_pure hrun.covered hrun
  | cons c rest ih =>
    refine (ensureActive_passes hrun.covered).bind fun _ t₁ _ hidles => ?_
    refine (obtainSnapshot_proceeds (hrun.idle hidles)).bind fun ⟨run', snapshot⟩ t₂ _ h => ?_
    have hseen' : run'.snapshots.map SourceSnapshot.contentHash ⊆ seen := by
      rw [h.findings.snapshots]
      exact hseen
    rw [← h.findings.sources] at hsources
    cases snapshot with
    | none => exact ih h.underway (fun c hc => hsources c (List.mem_cons_of_mem _ hc)) hseen'
    | some snapshot =>
      refine (useSnapshot_proceeds h.underway (h.delivers snapshot rfl)
        (hsources c List.mem_cons_self) hseen').bind fun ⟨run'', seen'⟩ t₃ _ hgathered => ?_
      refine ih hgathered.underway (fun c hc => ?_) hgathered.seen
      rw [hgathered.sources]
      exact hsources c (List.mem_cons_of_mem _ hc)

/-! ## The end of an attempt -/

theorem deliver_proceeds {compiled : List DecisionEvidence} (hrun : Underway o supply tenant t run)
    (hcompile : ResearchEvidenceCompiler.compile run = some compiled) :
    o.Proceeds supply tenant (o.deliver tenant run compiled)
      (fun t' a => Underway o supply tenant t' a.1) t := by
  unfold deliver
  split_ifs with hempty
  · exact proceeds_pure hrun.covered hrun
  · rw [List.isEmpty_iff] at hempty
    refine (ensureActive_passes hrun.covered).bind fun _ t₁ _ hidles => ?_
    have hactive := hrun.idle hidles
    refine proceeds_call hactive.covered ⟨rfl, hempty, run, hactive, hcompile, rfl, rfl⟩
      (fun _ => ⟨rfl, rfl⟩) fun attached t₂ hallowed hattached => ?_
    have hrun' := hactive.idle hattached
    rcases attached with e | updated
    · dsimp only
      split_ifs
      · exact proceeds_pure hrun'.covered (hrun'.step (.noted run (handoffReason e)))
      · refine proceeds_raise hrun'.covered fun he => ?_
        subst he
        exact .inl (hallowed.stops rfl)
    · exact proceeds_pure hrun'.covered
        (hrun'.step (.described ⟨rfl, rfl, rfl, rfl, rfl, rfl, rfl, rfl, rfl, rfl⟩))

theorem compileEvidence_proceeds {actorId : String} (hrun : Underway o supply tenant t run) :
    o.Proceeds supply tenant (o.compileEvidence tenant run actorId) (Underway o supply tenant)
      t := by
  refine (move_proceeds hrun).bind fun moved t₁ _ hmoved => ?_
  have hmarked := hmoved.step (.marked moved)
  refine proceeds_lift_bind hmarked.covered (fun compiled hcompile => ?_) fun h =>
    hmarked.stops (orRaise_error.mp h).1
  refine (deliver_proceeds hmarked (orRaise_ok.mp hcompile)).bind
    fun ⟨delivered, hasFailed⟩ t₃ _ hdelivered => ?_
  exact (ensureActive_passes (Underway.covered hdelivered)).bind fun _ t₄ _ hidles =>
    finish_proceeds (Underway.idle hdelivered hidles)

theorem finalize_proceeds {actorId : String} (hrun : Underway o supply tenant t run) :
    o.Proceeds supply tenant (o.finalize tenant run actorId) (Underway o supply tenant) t := by
  refine (ensureActive_passes hrun.covered).bind fun _ t₁ _ hidles => ?_
  have hactive := hrun.idle hidles
  split_ifs
  · exact compileEvidence_proceeds hactive
  · exact finish_proceeds hactive
  · exact failRun_proceeds hactive

theorem startExtraction_proceeds {actorId : String} {retry : Bool}
    (hrun : Underway o supply tenant t run) :
    o.Proceeds supply tenant (o.startExtraction tenant run actorId retry)
      (Underway o supply tenant) t := by
  have hadvance : o.Proceeds supply tenant (o.advance run extracting actorId
      [if retry then "RESEARCH_RETRY_STARTED" else "EXTRACTION_STARTED"]
      (.obj [("limit", .int run.request.maxSourcesToExtract)]) retry)
        (Underway o supply tenant) t := by
    refine advance_proceeds hrun fun hretry => ?_
    rw [if_pos hretry]
    rfl
  exact Proceeds.bind hadvance fun _ _ _ hmoved =>
    (save_proceeds hmoved).bind fun _ _ _ hsaved => proceeds_pure hsaved.covered hsaved

theorem mem_candidates {retryOnly : Bool} {c : Candidate} (hc : c ∈ candidates run retryOnly) :
    c.1.sourceId ∈ run.sources.map SourceCandidate.sourceId := by
  obtain ⟨i, -, hi⟩ := List.mem_filterMap.mp hc
  obtain ⟨s, hs, rfl⟩ := Option.map_eq_some_iff.mp hi
  exact List.mem_map_of_mem (List.mem_of_getElem? hs)

theorem skipUnselected_sources (selected : List Candidate) :
    (skipUnselected run selected).sources.map SourceCandidate.sourceId =
      run.sources.map SourceCandidate.sourceId := by
  unfold skipUnselected
  rw [List.map_map]
  refine List.map_congr_left fun s _ => ?_
  simp only [Function.comp_apply]
  split_ifs <;> rfl

theorem extractAndFinalize_proceeds {actorId : String} {retryOnly : Bool}
    (hrun : Underway o supply tenant t run) :
    o.Proceeds supply tenant (o.extractAndFinalize tenant run actorId retryOnly)
      (Underway o supply tenant) t := by
  refine (ensureActive_passes hrun.covered).bind fun _ t₁ _ hidles => ?_
  have hactive := hrun.idle hidles
  refine proceeds_lift_bind hactive.covered (fun policy _ => ?_) fun h =>
    absurd h forDomains_ne_stops
  have hselected : Underway o supply tenant t₁ (if retryOnly then run else
      skipUnselected run (candidates run retryOnly)) := by
    split_ifs
    · exact hactive
    · exact hactive.step (.relabelled (skipUnselected_sources _))
  refine (extractAll_proceeds (candidates run retryOnly) hselected (fun c hc => ?_)
    (List.Subset.refl _)).bind fun _ _ _ hextracted => finalize_proceeds hextracted
  split_ifs
  · exact mem_candidates hc
  · rw [skipUnselected_sources]
    exact mem_candidates hc

/-! ## Operations -/

theorem continueSearch_proceeds {actorId : String} (hrun : Underway o supply tenant t run) :
    o.Proceeds supply tenant (o.continueSearch tenant run actorId) (Underway o supply tenant)
      t := by
  refine (save_proceeds hrun).bind fun _ t₁ _ hsaved => ?_
  refine (discover_proceeds hsaved).bind fun ⟨run', isFound⟩ t₂ _ hrun' => ?_
  cases isFound with
  | false => exact proceeds_pure (Underway.covered hrun') hrun'
  | true =>
    refine (ensureActive_passes (Underway.covered hrun')).bind fun _ t₃ _ hidles => ?_
    exact (startExtraction_proceeds (Underway.idle hrun' hidles)).bind fun _ _ _ hstarted =>
      extractAndFinalize_proceeds hstarted

theorem executeRun_proceeds {actorId query : String} (hrun : Underway o supply tenant t run) :
    o.Proceeds supply tenant (o.executeRun tenant run actorId query) (Underway o supply tenant) t :=
  (ensureActive_passes hrun.covered).bind fun _ _ _ hidles =>
    (move_proceeds (hrun.idle hidles)).bind fun _ _ _ hmoved => continueSearch_proceeds hmoved

theorem retryRun_proceeds {actorId : String} (hrun : Underway o supply tenant t run) :
    o.Proceeds supply tenant (o.retryRun tenant run actorId) (Underway o supply tenant) t := by
  unfold retryRun
  split_ifs
  · exact Proceeds.bind (advance_proceeds hrun fun _ => rfl) fun _ _ _ hmoved =>
      continueSearch_proceeds hmoved
  · exact (startExtraction_proceeds hrun).bind fun _ _ _ hstarted =>
      extractAndFinalize_proceeds hstarted

/-- The result of a program that may have read a run. -/
structure Leaves (o : ResearchOrchestrator) (supply : Supply) (tenant : TenantContext)
    (r : Raises ResearchRun) (t : ResearchLog) : Prop where
  value : ∀ run, r = .ok run → Underway o supply tenant t run
  stops : r = .error .stopIteration → Stops o supply tenant t

/-- What a program that reads a run ensures. -/
abbrev Opens (o : ResearchOrchestrator) (supply : Supply) (tenant : TenantContext)
    (p : Program ResearchRun) (t : ResearchLog) : Prop :=
  p.Ensures (o.chronicle supply tenant) (Leaves o supply tenant) t

theorem Opens.bind {p : Program ResearchRun} {q : ResearchRun → Program ResearchRun}
    (h : o.Opens supply tenant p t) (hq : ∀ run t', Underway o supply tenant t' run →
      o.Proceeds supply tenant (q run) (Underway o supply tenant) t') :
    o.Opens supply tenant (p >>= q) t := by
  apply Ensures.bind h
  · intro run t₁ hrun
    exact Ensures.mono (hq run t₁ (hrun.value run rfl)) fun _ _ hr => ⟨hr.value, hr.stops⟩
  · intro e t₁ he
    refine ⟨fun _ h => (nomatch h), fun h => ?_⟩
    cases h
    exact he.stops rfl

theorem opens_active {p : Program ResearchRun} (hunread : runRead t = none) (ht : Covered t)
    (hp : ∀ t', runRead t' = none → Covered t' → o.Opens supply tenant p t') :
    o.Opens supply tenant (ensureActive >>= fun _ => p) t := by
  refine ensures_bind.mpr (ensures_ask_bind.mpr ⟨trivial, fun cancelled _ => ?_⟩)
  have hidles := idles_snoc (x := ⟨.cancelled, cancelled⟩) ht rfl nofun
  cases cancelled with
  | true => exact ⟨fun _ h => (nomatch h), nofun⟩
  | false => exact hp _ (hidles.runRead.trans hunread) hidles.covered

theorem proposedFingerprint_ne_stops {pf : Platform} {lib : ResearchLibrary}
    {policy : ResearchPolicy} {tenantId documentHash : String} {request : ResearchRequest}
    {refreshGeneration : Option String} :
    proposedFingerprint pf lib policy tenantId request documentHash refreshGeneration ≠
      .error .stopIteration := by
  intro h
  rcases bind_error_cases h with h | ⟨_, -, h⟩
  · unfold ResearchPolicy.checkLimits at h
    split_ifs at h <;> cases h
  · rcases bind_error_cases h with h | ⟨_, -, h⟩
    · exact forDomains_ne_stops h
    · cases h

theorem prepare_opens {actorId documentHash correlationId : String} {request : ResearchRequest}
    {refreshGeneration : Option String} (hunread : runRead t = none) (ht : Covered t) :
    o.Opens supply tenant
      (o.prepare tenant actorId request documentHash correlationId refreshGeneration) t := by
  refine ensures_bind.mpr (ensures_bind.mpr (ensures_lift.mpr ?_))
  cases hfingerprint : proposedFingerprint o.pf o.lib o.policy tenant.tenantId request
      documentHash refreshGeneration with
  | error e =>
    refine ⟨fun _ h => (nomatch h), fun h => ?_⟩
    cases h
    exact absurd hfingerprint proposedFingerprint_ne_stops
  | ok fingerprint =>
    refine ensures_bind.mpr (ensures_ask_bind.mpr ⟨trivial, fun now _ => ?_⟩)
    have hidles := idles_snoc (x := ⟨.clock, now⟩) ht rfl nofun
    have hunread' := hidles.runRead.trans hunread
    refine ensures_ask_bind.mpr ⟨⟨rfl, hunread', _, _, _, _, _, _, _, hfingerprint, rfl⟩,
      fun stored hstored => ?_⟩
    rcases stored with e | stored
    · refine ⟨fun _ h => (nomatch h), fun h => ?_⟩
      cases h
      exact .inl (hstored.2.stops rfl)
    · refine ⟨fun run hrun => ?_, nofun⟩
      cases hrun
      exact underway_read hunread' hidles.covered rfl rfl hstored.1

theorem execute_opens {actorId documentHash correlationId : String} {request : ResearchRequest}
    {refreshGeneration : Option String} : o.Opens supply tenant
      (o.execute tenant actorId request documentHash correlationId refreshGeneration) [] := by
  refine opens_active rfl (Nat.le_refl 0) fun t hunread ht => ?_
  refine Opens.bind (prepare_opens hunread ht) fun run t₁ hrun => ?_
  split_ifs
  · exact proceeds_pure hrun.covered hrun
  · exact executeRun_proceeds hrun

theorem required_opens {runId : String} (hunread : runRead t = none) (ht : Covered t) :
    o.Opens supply tenant (required tenant runId) t := by
  refine ensures_ask_bind.mpr ⟨⟨rfl, hunread⟩, fun found hfound => ?_⟩
  rcases found with e | _ | run
  · refine ⟨fun _ h => (nomatch h), fun h => ?_⟩
    cases h
    exact .inl (hfound.2.stops rfl)
  · exact ⟨fun _ h => (nomatch h), nofun⟩
  · refine ⟨fun run' hrun => ?_, nofun⟩
    cases hrun
    exact underway_read hunread ht rfl rfl hfound.1

theorem inTimeRange_ne_stops {i : Jobs.Instant} : inTimeRange i ≠ .error .stopIteration := by
  unfold inTimeRange
  split_ifs <;> exact nofun

theorem retryAt_stops (h : o.retryAt run = .error .stopIteration) :
    ∃ delay, o.lib.timedelta delay = .error .stopIteration := by
  unfold retryAt at h
  split at h
  · cases h
  · rename_i delay _
    split at h
    · cases h
    · rcases bind_error_cases h with h | ⟨_, -, h⟩
      · cases (orRaise_error.mp h).2
      · rcases bind_error_cases h with h | ⟨_, -, h⟩
        · exact ⟨delay, h⟩
        · rcases bind_error_cases h with h | ⟨_, -, h⟩
          · exact absurd h inTimeRange_ne_stops
          · rcases bind_error_cases h with h | ⟨_, -, h⟩
            · exact absurd h inTimeRange_ne_stops
            · cases h

theorem enforceRetryWindow_passes (ht : Covered t) :
    o.Passes supply tenant (o.enforceRetryWindow run) t := by
  refine proceeds_lift_bind ht (fun window _ => ?_) fun h => .inr (.inl (retryAt_stops h))
  cases window with
  | none => exact proceeds_pure ht (.refl ht)
  | some opensAt =>
    refine proceeds_call ht trivial (fun _ => ⟨rfl, rfl⟩) fun now t₂ _ hidles => ?_
    split_ifs
    · exact proceeds_raise hidles.covered nofun
    · exact proceeds_pure hidles.covered hidles

theorem validateRetry_opens {runId : String} (hunread : runRead t = none) (ht : Covered t) :
    o.Opens supply tenant (o.validateRetry tenant runId) t := by
  refine Opens.bind (required_opens hunread ht) fun run t₁ hrun => ?_
  split_ifs
  · exact proceeds_raise hrun.covered nofun
  · exact (enforceRetryWindow_passes hrun.covered).bind fun _ _ _ hidles =>
      proceeds_pure hidles.covered (hrun.idle hidles)

theorem named_sameRecord {actorId correlationId : String} :
    SameRecord run { run with actorId := actorId, correlationId := correlationId } :=
  ⟨rfl, rfl, rfl, rfl, rfl, rfl, rfl, rfl, rfl, rfl⟩

theorem retry_opens {actorId runId correlationId : String} :
    o.Opens supply tenant (o.retry tenant actorId runId correlationId) [] := by
  refine opens_active rfl (Nat.le_refl 0) fun t hunread ht => ?_
  exact Opens.bind (validateRetry_opens hunread ht) fun run t₁ hrun =>
    retryRun_proceeds (hrun.step (.described named_sameRecord))

theorem cancel_opens {actorId runId correlationId : String} :
    o.Opens supply tenant (o.cancel tenant actorId runId correlationId) [] := by
  refine Opens.bind (required_opens rfl (Nat.le_refl 0)) fun run t hrun => ?_
  split_ifs
  · exact proceeds_pure hrun.covered hrun
  · exact finish_proceeds (hrun.step (.described named_sameRecord))

theorem handoff_opens {actorId runId correlationId : String} :
    o.Opens supply tenant (o.handoff tenant actorId runId correlationId) [] := by
  refine Opens.bind (required_opens rfl (Nat.le_refl 0)) fun run t hrun => ?_
  split_ifs
  · exact proceeds_pure hrun.covered hrun
  · exact proceeds_raise hrun.covered nofun
  · refine proceeds_lift_bind hrun.covered (fun compiled hcompile => ?_) fun h =>
      hrun.stops (orRaise_error.mp h).1
    split_ifs with hempty
    · exact proceeds_raise hrun.covered nofun
    · rw [List.isEmpty_iff] at hempty
      refine proceeds_call hrun.covered ⟨rfl, hempty, run, hrun, orRaise_ok.mp hcompile, rfl, rfl⟩
        (fun _ => ⟨rfl, rfl⟩) fun attached t₂ hallowed hidles => ?_
      refine proceeds_lift_bind hidles.covered (fun updated _ => ?_) fun h => ?_
      · have hhanded : Underway o supply tenant t₂ (o.handedOff
            { run with actorId := actorId, correlationId := correlationId } updated) :=
          (hrun.idle hidles).step (.described ⟨rfl, rfl, rfl, rfl, rfl, rfl, rfl, rfl, rfl, rfl⟩)
        exact (save_proceeds hhanded).bind fun _ _ _ hsaved => proceeds_pure hsaved.covered hsaved
      · subst h
        exact .inl (hallowed.stops rfl)

end ResearchOrchestrator

/-- An operation reads one run, changes it in hand and returns it. -/
theorem Operation.opens {p : Program ResearchRun} (h : Operation o p) :
    ∃ tenant, ∀ supply, o.Opens supply tenant p [] := by
  cases h with
  | execute tenant => exact ⟨tenant, fun _ => execute_opens⟩
  | retry tenant => exact ⟨tenant, fun _ => retry_opens⟩
  | cancel tenant => exact ⟨tenant, fun _ => cancel_opens⟩
  | handoff tenant => exact ⟨tenant, fun _ => handoff_opens⟩

end DecisionAssurance.Research
