import DecisionAssurance.ExecutionOutcomes

/-!
# The runs a store can hold

Runs are proposed, and saved by the operations of orchestrators on runs that they have read.
Every operation keeps to the terms of the orchestrator, so every run in a store is sound.
-/

namespace DecisionAssurance.Research

open Interactions Interaction ResearchStatus

variable {o : ResearchOrchestrator} {tenant : TenantContext} {run run' : ResearchRun}
  {t t' : ResearchLog}

namespace ResearchOrchestrator

/-! ## What a log shows first -/

theorem findSome_snoc {α : Type} {f : ResearchEvent → Option α} {x : ResearchEvent}
    (h : t.findSome? f = none) : (t ++ [x]).findSome? f = f x := by
  rw [List.findSome?_append, h, Option.none_or, List.findSome?_singleton]

theorem findSome_mono {α : Type} {f : ResearchEvent → Option α} {a : α}
    (h : t.findSome? f = some a) (ht : t <+: t') : t'.findSome? f = some a := by
  obtain ⟨rest, rfl⟩ := ht
  rw [List.findSome?_append, h, Option.some_or]

theorem findSome_skip {α : Type} {f : ResearchEvent → Option α} {x : ResearchEvent}
    (h : f x = none) : (t ++ [x]).findSome? f = t.findSome? f := by
  rw [List.findSome?_append, List.findSome?_singleton, h, Option.or_none]

/-- The run that the store answered to `create_or_get`. -/
def preparedIn : ResearchEvent → Option ResearchRun
  | ⟨.createOrGet _ _, .ok run⟩ => some run
  | _ => none

def prepared (t : ResearchLog) : Option ResearchRun := t.findSome? preparedIn

/-- The run that the store answered to `get`. -/
def readIn : ResearchEvent → Option ResearchRun
  | ⟨.getRun _ _, .ok found⟩ => found
  | _ => none

def readRun (t : ResearchLog) : Option ResearchRun := t.findSome? readIn

def clockIn : ResearchEvent → Option Jobs.Instant
  | ⟨.clock, now⟩ => some now
  | _ => none

def firstClock (t : ResearchLog) : Option Jobs.Instant := t.findSome? clockIn

/-! ## Operations -/

theorem propose_ensures {actorId documentHash correlationId : String} {request : ResearchRequest}
    {refreshGeneration : Option String} (ht : Unfaulted t) :
    (o.propose tenant actorId request documentHash correlationId refreshGeneration).Ensures
      o.terms (fun r t' => prepared t' = prepared t ∧
        ∀ run, r = .ok run → Unfaulted t' ∧ Quiet t t' ∧ Proposes o tenant run) t := by
  refine ensures_bind.mpr (ensures_lift.mpr ?_)
  cases hfingerprint : proposedFingerprint o.pf o.lib o.policy tenant.tenantId request
      documentHash refreshGeneration with
  | error e => exact ⟨rfl, fun _ h => nomatch h⟩
  | ok fingerprint =>
    refine ensures_bind.mpr (ensures_ask_bind.mpr ⟨trivial, fun now _ => ?_⟩)
    refine ⟨findSome_skip rfl, fun run hrun => ?_⟩
    cases hrun
    exact ⟨clean_snoc ht fun _ => id, quiet_snoc rfl id, _, _, _, _, _, _, _, hfingerprint, rfl⟩

theorem prepare_ensures {actorId documentHash correlationId : String} {request : ResearchRequest}
    {refreshGeneration : Option String} (ht : Unfaulted t) (hunseen : lastSeen t = none) :
    (o.prepare tenant actorId request documentHash correlationId refreshGeneration).Ensures
      o.terms (fun r t' => match r with
        | .ok run => Unfaulted t' ∧ Stored o run ∧ lastSeen t' = some run ∧
          (Found t' ↔ Found t) ∧ prepared t' = (prepared t).or (some run)
        | .error _ => prepared t' = prepared t) t := by
  refine (propose_ensures ht).bind (fun proposed t₁ h => ?_) fun e t₁ h => h.1
  obtain ⟨ht₁, hquiet, hproposed⟩ := h.2 proposed rfl
  refine ensures_ask_bind.mpr ⟨⟨hquiet.seen.trans hunseen, hproposed⟩, fun stored hstored => ?_⟩
  cases stored with
  | error e => exact (findSome_skip rfl).trans h.1
  | ok run =>
    refine ⟨clean_snoc ht₁ fun _ => id, hstored, by rw [lastSeen_snoc]; rfl, ?_, ?_⟩
    · exact (found_snoc.trans (or_iff_left id)).trans hquiet.found
    · rw [prepared, List.findSome?_append, ← prepared, h.1]
      rfl

/-- `execute` keeps to its terms, and is exact for a run that has only been created. -/
theorem execute_ensures {actorId documentHash correlationId : String} {request : ResearchRequest}
    {refreshGeneration : Option String} :
    (o.execute tenant actorId request documentHash correlationId refreshGeneration).Ensures
      o.terms (fun r t => ∀ run, prepared t = some run → run.status = .created →
        Exact Calm Faulty (fun run t => Settles tenant (¬ Found t) run t) r t) [] := by
  refine ensures_bind.mpr (ensures_ask_bind.mpr ⟨trivial, fun cancelled _ => ?_⟩)
  cases cancelled with
  | true => exact fun _ h => nomatch h
  | false =>
    have hclean : Unfaulted [⟨.cancelled, false⟩] := clean_snoc clean_nil fun _ => id
    refine (prepare_ensures hclean rfl).bind (fun run t₁ h => ?_) fun e t₁ h run hrun => ?_
    · obtain ⟨ht₁, hstored, hseen, hfound, hprepared⟩ := h
      have hquiet : ¬ Found t₁ := by
        rw [hfound]
        exact fun ⟨x, hx, hxa⟩ => by rwa [List.mem_singleton.mp hx] at hxa
      split_ifs with hreplay
      · intro run' hrun' hstatus
        rw [hprepared] at hrun'
        cases hrun'
        rw [(hstored.pristine hstatus).events, hstatus] at hreplay
        exact Bool.noConfusion hreplay
      · have hcreated : run.status = .created := by
          by_contra hne
          exact hreplay (by simp only [hne, ne_eq, not_false_eq_true, decide_true, Bool.or_true])
        exact (executeRun_contains ht₁ hstored hseen hcreated hquiet).mono fun r t' h _ _ _ => h
    · rw [h] at hrun
      cases hrun

/-- The time from which a run may be retried can be told and has come at the first reading of
the clock. -/
def WindowOpen (o : ResearchOrchestrator) (run : ResearchRun) (t : ResearchLog) : Prop :=
  match o.retryAt run with
  | .ok none => True
  | .ok (some opensAt) => ∀ now, firstClock t = some now → opensAt ≤ now
  | .error _ => False

def Retryable (o : ResearchOrchestrator) (run : ResearchRun) (t : ResearchLog) : Prop :=
  (run.status = .failed ∨ run.status = .partiallyCompleted) ∧ WindowOpen o run t

theorem enforceRetryWindow_ensures (ht : Unfaulted t) (hclock : firstClock t = none) :
    (o.enforceRetryWindow run).Ensures o.terms (fun r t' => match r with
      | .ok () => Unfaulted t' ∧ Quiet t t' ∧ readRun t' = readRun t ∧
        ∀ t'', t' <+: t'' → WindowOpen o run t''
      | .error _ => readRun t' = readRun t ∧ ¬ WindowOpen o run t') t := by
  refine ensures_bind.mpr (ensures_lift.mpr ?_)
  cases hwindow : o.retryAt run with
  | error e => exact ⟨rfl, by rw [WindowOpen, hwindow]; exact id⟩
  | ok window =>
    cases window with
    | none =>
      exact ⟨ht, Quiet.refl t, rfl, fun t'' _ => by rw [WindowOpen, hwindow]; trivial⟩
    | some opensAt =>
      refine ensures_ask_bind.mpr ⟨trivial, fun now _ => ?_⟩
      have hnow : firstClock (t ++ [⟨.clock, now⟩]) = some now := findSome_snoc hclock
      have hread : readRun (t ++ [⟨.clock, now⟩]) = readRun t := findSome_skip rfl
      split_ifs with hearly
      · refine ⟨hread, ?_⟩
        rw [WindowOpen, hwindow]
        exact fun hopen => absurd hearly (not_lt.mpr (hopen now hnow))
      · refine ⟨clean_snoc ht fun _ => id, quiet_snoc rfl id, hread, fun t'' ht'' => ?_⟩
        rw [WindowOpen, hwindow]
        intro now' hnow'
        have heq := Option.some.inj ((findSome_mono hnow ht'').symm.trans hnow')
        exact heq ▸ not_lt.mp hearly

/-- A run read from the store, or an exception without one. -/
theorem required_ensures {runId : String} (ht : Unfaulted t) (hunseen : lastSeen t = none)
    (hread : readRun t = none) :
    (required tenant runId).Ensures o.terms (fun r t' => match r with
      | .ok run => Unfaulted t' ∧ Stored o run ∧ lastSeen t' = some run ∧
        (Found t' ↔ Found t) ∧ readRun t' = some run ∧ firstClock t' = firstClock t
      | .error _ => readRun t' = none) t := by
  refine ensures_ask_bind.mpr ⟨hunseen, fun found hfound => ?_⟩
  rcases found with e | _ | run
  · exact (findSome_skip rfl).trans hread
  · exact (findSome_skip rfl).trans hread
  · exact ⟨clean_snoc ht fun _ => id, hfound, by rw [lastSeen_snoc]; rfl,
      found_snoc.trans (or_iff_left id), findSome_snoc hread, findSome_skip rfl⟩

theorem validateRetry_ensures {runId : String} (ht : Unfaulted t) (hunseen : lastSeen t = none)
    (hread : readRun t = none) (hclock : firstClock t = none) :
    (o.validateRetry tenant runId).Ensures o.terms (fun r t' => match r with
      | .ok run => Unfaulted t' ∧ Stored o run ∧ lastSeen t' = some run ∧ (Found t' ↔ Found t) ∧
        readRun t' = some run ∧ (run.status = .failed ∨ run.status = .partiallyCompleted) ∧
        ∀ t'', t' <+: t'' → WindowOpen o run t''
      | .error _ => ∀ run, readRun t' = some run → ¬ Retryable o run t') t := by
  refine (required_ensures ht hunseen hread).bind (fun run t₁ h => ?_) fun e t₁ h run hrun => ?_
  · obtain ⟨ht₁, hstored, hseen, hfound, hread₁, hclock₁⟩ := h
    split_ifs with hstatus
    · intro run' hrun' hretry
      rw [hread₁] at hrun'
      cases hrun'
      rcases hretry.1 with h | h
      · exact hstatus.1 h
      · exact hstatus.2 h
    · rw [not_and_or, not_not, not_not] at hstatus
      refine (enforceRetryWindow_ensures ht₁ (hclock₁.trans hclock)).bind
        (fun _ t₂ h => ?_) fun e t₂ h run' hrun' hretry => ?_
      · obtain ⟨ht₂, hquiet, hread₂, hopen⟩ := h
        exact ⟨ht₂, hstored, hquiet.seen.trans hseen, hquiet.found.trans hfound,
          hread₂.trans hread₁, hstatus, hopen⟩
      · rw [h.1, hread₁] at hrun'
        cases hrun'
        exact h.2 hretry.2
  · rw [h] at hrun
    cases hrun

/-- `retry` keeps to its terms, and is exact for a run that may be retried. -/
theorem retry_ensures {actorId runId correlationId : String} :
    (o.retry tenant actorId runId correlationId).Ensures o.terms (fun r t =>
      ∀ run, readRun t = some run →
        (Retryable o run t →
          Exact Calm Faulty (fun run' t => Settles tenant (Unproductive run t) run' t) r t) ∧
        (¬ Retryable o run t → ∃ e, r = .error e)) [] := by
  refine ensures_bind.mpr (ensures_ask_bind.mpr ⟨trivial, fun cancelled _ => ?_⟩)
  cases cancelled with
  | true => exact fun _ h => nomatch h
  | false =>
    have hclean : Unfaulted [⟨.cancelled, false⟩] := clean_snoc clean_nil fun _ => id
    refine (validateRetry_ensures hclean rfl rfl rfl).bind (fun run t₁ h => ?_)
      fun e t₁ h run hrun => ?_
    · obtain ⟨ht₁, hstored, hseen, hfound, hread, hstatus, hopen⟩ := h
      have hquiet : ¬ Found t₁ := by
        rw [hfound]
        exact fun ⟨x, hx, hxa⟩ => by rwa [List.mem_singleton.mp hx] at hxa
      have hcurrent : Current o t₁ { run with actorId := actorId, correlationId := correlationId } :=
        current_of_keeps (Current.of_seen hstored.toSound hseen) ⟨rfl, rfl, rfl, rfl, rfl⟩ rfl rfl
          rfl
      refine (retryRun_contains ht₁ hcurrent hstatus hquiet).grows.mono fun r t' h run' hrun' => ?_
      rw [readRun, findSome_mono hread h.2] at hrun'
      cases hrun'
      exact ⟨fun _ => h.1, fun hnot => absurd ⟨hstatus, hopen t' h.2⟩ hnot⟩
    · exact ⟨fun hretry => absurd hretry (h run hrun), fun _ => ⟨e, rfl⟩⟩

theorem finish_refused {target : ResearchStatus} {actorId reasonCode : String} {payload : Json}
    {e : ResearchException} (hrefused : transition run.status target false = .error e) :
    (o.finish tenant run target actorId reasonCode payload).Ensures o.terms (fun _ _ => True) t := by
  have hadvance : (o.advance run target actorId [reasonCode] payload false).Ensures o.terms
      (fun r _ => ∃ e, r = .error e) t := by
    refine ensures_bind.mpr (ensures_ask_bind.mpr ⟨trivial, fun now _ => ?_⟩)
    rw [ensures_pure]
    dsimp only
    rw [ensures_lift, applyTransition, hrefused]
    exact ⟨e, rfl⟩
  refine hadvance.bind ?_ fun _ _ _ => trivial
  rintro _ _ ⟨_, ⟨⟩⟩

theorem cancel_ensures {actorId runId correlationId : String} :
    (o.cancel tenant actorId runId correlationId).Ensures o.terms (fun _ _ => True) [] := by
  refine (required_ensures clean_nil rfl rfl).bind (fun run t₁ h => ?_) fun _ _ _ => trivial
  obtain ⟨ht₁, hstored, hseen, -⟩ := h
  split_ifs with hcancelled
  · trivial
  · have hcurrent : Current o t₁ { run with actorId := actorId, correlationId := correlationId } :=
      current_of_keeps (Current.of_seen hstored.toSound hseen) ⟨rfl, rfl, rfl, rfl, rfl⟩ rfl rfl rfl
    cases hallowed : transition run.status .cancelled false with
    | error e => exact finish_refused hallowed
    | ok u => exact (finish_contains ht₁ hcurrent hallowed nofun nofun).mono fun _ _ _ => trivial

theorem handoff_ensures {actorId runId correlationId : String} :
    (o.handoff tenant actorId runId correlationId).Ensures o.terms (fun _ _ => True) [] := by
  refine (required_ensures clean_nil rfl rfl).bind (fun run t₁ h => ?_) fun _ _ _ => trivial
  obtain ⟨ht₁, hstored, hseen, -⟩ := h
  split_ifs with hcompiled hstatus
  · trivial
  · trivial
  · refine ensures_bind.mpr (ensures_lift.mpr ?_)
    cases ResearchEvidenceCompiler.compile run with
    | none => trivial
    | some compiled =>
      change (if compiled.isEmpty then raise (.valueError "NO_USABLE_EVIDENCE") else _ :
        Program ResearchRun).Ensures _ _ _
      split_ifs with hempty
      · trivial
      · refine ensures_ask_bind.mpr ⟨trivial, fun attached _ => ?_⟩
        cases attached with
        | error e => trivial
        | ok updated =>
          let delivered := o.handedOff
            { run with actorId := actorId, correlationId := correlationId } updated
          have hquiet := Tracks.quiet (Current.of_seen hstored.toSound hseen) (quiet_snoc
            (x := ⟨.attach tenant run.request.decisionFileId run.expectedDocumentHash compiled,
              .ok updated⟩) rfl id)
          have hcurrent : Current o _ delivered :=
            current_of_keeps hquiet.current ⟨rfl, rfl, rfl, rfl, rfl⟩ rfl rfl rfl
          have hstarted : delivered.status ≠ created := by
            intro hcreated
            change run.status = created at hcreated
            simp only [hcreated, ne_eq, reduceCtorEq, not_false_eq_true, and_self,
              not_true_eq_false] at hstatus
          exact ((save_contains (clean_snoc ht₁ fun _ => id) hcurrent hstarted).bind
            (fun _ _ _ => trivial) fun _ _ _ => trivial)

end ResearchOrchestrator

/-! ## Stored runs -/

/-- The operations on a research run. -/
inductive Operation (o : ResearchOrchestrator) : Program ResearchRun → Prop
  | execute (tenant : TenantContext) (actorId : String) (request : ResearchRequest)
      (documentHash correlationId : String) (refreshGeneration : Option String) :
      Operation o (o.execute tenant actorId request documentHash correlationId refreshGeneration)
  | retry (tenant : TenantContext) (actorId runId correlationId : String) :
      Operation o (o.retry tenant actorId runId correlationId)
  | cancel (tenant : TenantContext) (actorId runId correlationId : String) :
      Operation o (o.cancel tenant actorId runId correlationId)
  | handoff (tenant : TenantContext) (actorId runId correlationId : String) :
      Operation o (o.handoff tenant actorId runId correlationId)

theorem Operation.ensures {p : Program ResearchRun} (h : Operation o p) :
    p.Ensures o.terms (fun _ _ => True) [] := by
  cases h with
  | execute => exact ResearchOrchestrator.execute_ensures.mono fun _ _ _ => trivial
  | retry => exact ResearchOrchestrator.retry_ensures.mono fun _ _ _ => trivial
  | cancel => exact ResearchOrchestrator.cancel_ensures
  | handoff => exact ResearchOrchestrator.handoff_ensures

/-- The runs in a store: a proposed run, or one that an operation saved after it had read such
runs only. The configuration may change from operation to operation. -/
inductive Persisted (lib : ResearchLibrary) : ResearchRun → Prop
  | proposed {pf : Platform} {policy : ResearchPolicy} {tenantId : String}
      {request : ResearchRequest} {documentHash fingerprint : String}
      {refreshGeneration : Option String} (actorId correlationId now : String) :
      proposedFingerprint pf lib policy tenantId request documentHash refreshGeneration =
        .ok fingerprint →
      Persisted lib
        (proposedRun lib tenantId actorId request documentHash fingerprint correlationId now)
  | saved {o : ResearchOrchestrator} {p q : Program ResearchRun} {t : ResearchLog}
      {x : ResearchEvent} {run : ResearchRun} : o.lib = lib → Operation o p → p.Follows t q →
      (∀ y ∈ t, ∀ run, answeredIn y = some run → Persisted lib run) → x ∈ t →
      writtenIn x = some run → Persisted lib run

theorem stored_proposed {pf : Platform} {lib : ResearchLibrary} {policy : ResearchPolicy}
    {tenantId actorId documentHash fingerprint correlationId now : String}
    {request : ResearchRequest} {refreshGeneration : Option String} (hlib : o.lib = lib)
    (h : proposedFingerprint pf lib policy tenantId request documentHash refreshGeneration =
      .ok fingerprint) :
    Stored o (proposedRun lib tenantId actorId request documentHash fingerprint correlationId
      now) where
  domains := by
    obtain ⟨_, -, h⟩ := bind_ok_cases h
    obtain ⟨policy, hpolicy, -⟩ := bind_ok_cases h
    exact ⟨policy, by rw [ResearchOrchestrator.urlPolicy, hlib]; exact hpolicy⟩
  sourced _ := rfl
  supported _ he := absurd he List.not_mem_nil
  partly := nofun
  pristine _ := ⟨rfl, rfl, rfl, rfl⟩

theorem Sound.congr {o' : ResearchOrchestrator} (h : Sound o run) (hlib : o'.lib = o.lib) :
    Sound o' run :=
  ⟨by rw [ResearchOrchestrator.urlPolicy, hlib]; exact h.domains, h.sourced, h.supported, h.partly⟩

theorem grants_of_answered (h : ∀ x ∈ t', ∀ run, answeredIn x = some run → Stored o run) :
    o.terms.Grants t t' := by
  rintro pre ⟨c, a⟩ post rfl
  have hx := h ⟨c, a⟩ (List.mem_append_right _ List.mem_cons_self)
  cases c with
  | createOrGet =>
    rcases a with e | run
    · trivial
    · exact hx run rfl
  | getRun =>
    rcases a with e | _ | run
    · trivial
    · trivial
    · exact hx run rfl
  | _ => trivial

theorem Operation.permitted {p q : Program ResearchRun} {pre post : ResearchLog}
    {x : ResearchEvent} (h : Operation o p) (hp : p.Follows (pre ++ x :: post) q)
    (hstored : ∀ y ∈ pre, ∀ run, answeredIn y = some run → Stored o run) :
    o.terms.may pre x.1 := h.ensures.permitted hp (grants_of_answered hstored)

/-- What an operation writes is the run in hand, and started. -/
theorem Operation.writes {p q : Program ResearchRun} {pre post : ResearchLog} {x : ResearchEvent}
    (h : Operation o p) (hp : p.Follows (pre ++ x :: post) q)
    (hstored : ∀ y ∈ pre, ∀ run, answeredIn y = some run → Stored o run)
    (hx : writtenIn x = some run) : Current o pre run ∧ run.status ≠ .created := by
  have hmay := h.permitted hp hstored
  obtain ⟨c, a⟩ := x
  cases c with
  | save =>
    rcases a with e | u
    · cases hx
    · cases hx
      exact hmay
  | record =>
    rcases a with e | u
    · cases hx
    · cases hx
      exact hmay
  | _ => cases hx

/-- Every run in a store is sound, and pristine until it is started. -/
theorem Persisted.stored {lib : ResearchLibrary} (h : Persisted lib run) (hlib : o.lib = lib) :
    Stored o run := by
  induction h generalizing o with
  | proposed actorId correlationId now hfingerprint => exact stored_proposed hlib hfingerprint
  | saved hlib' hoperation hp _ hx hwritten ih =>
    obtain ⟨pre, post, rfl⟩ := List.append_of_mem hx
    obtain ⟨hcurrent, hstarted⟩ := hoperation.writes hp
      (fun y hy run hrun => ih y (List.mem_append_left _ hy) run hrun hlib') hwritten
    exact ⟨hcurrent.sound.congr (hlib.trans hlib'.symm), fun hcreated => absurd hcreated hstarted⟩

end DecisionAssurance.Research
