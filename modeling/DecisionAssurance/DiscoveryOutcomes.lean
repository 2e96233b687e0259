import DecisionAssurance.RunTracking

/-!
# Outcomes of a discovery

The bookkeeping of attempts leaves a run's findings as they are. A discovery ends with a failed
run, or with one that has a discovered source if and only if a URL was accepted.
-/

namespace DecisionAssurance.Research

open Interactions Interaction ResearchStatus

namespace ResearchOrchestrator

variable {o : ResearchOrchestrator} {tenant : TenantContext} {run run' : ResearchRun}
  {t t' : ResearchLog}

/-- The status and the findings of a run are those of another. -/
abbrev Keeps (run run' : ResearchRun) : Prop := Moves run run' run.status

theorem Keeps.refl (run : ResearchRun) : Keeps run run := ⟨rfl, rfl, rfl, rfl, rfl⟩

theorem Moves.of_keeps {run'' : ResearchRun} {target : ResearchStatus} (h : Keeps run run')
    (h' : Moves run' run'' target) : Moves run run'' target where
  status := h'.status
  request := h'.request.trans h.request
  sources := h'.sources.trans h.sources
  snapshots := h'.snapshots.trans h.snapshots
  evidence := h'.evidence.trans h.evidence

theorem Keeps.trans {run'' : ResearchRun} (h : Keeps run run') (h' : Keeps run' run'') :
    Keeps run run'' := Moves.of_keeps h (h.status ▸ h')

theorem sound_of_keeps (h : Sound o run) (hkeeps : Keeps run run') : Sound o run' where
  domains := by
    obtain ⟨policy, hpolicy⟩ := h.domains
    exact ⟨policy, by rw [← hpolicy, urlPolicy, urlPolicy, hkeeps.request]⟩
  sourced hs := hkeeps.snapshots.trans (h.sourced (hkeeps.sources.symm.trans hs))
  supported := by
    rw [hkeeps.evidence, hkeeps.snapshots]
    exact h.supported
  partly hp := by
    rw [hkeeps.sources]
    exact h.partly (hkeeps.status.symm.trans hp)

theorem current_of_keeps (h : Current o t run) (hkeeps : Keeps run run')
    (hid : run'.researchRunId = run.researchRunId) (htenant : run'.tenantId = run.tenantId)
    (hevents : run'.auditEvents = run.auditEvents) : Current o t run' := by
  obtain ⟨base, hseen, hbase⟩ := h.continues
  exact ⟨⟨base, hseen, hbase.same hid htenant hkeeps.request hevents hkeeps.status⟩,
    sound_of_keeps h.sound hkeeps⟩

/-! ## Attempts -/

/-- What bookkeeping does: the log shows nothing new and the findings are kept. -/
structure Tracks (o : ResearchOrchestrator) (run : ResearchRun) (t : ResearchLog)
    (run' : ResearchRun) (t' : ResearchLog) : Prop where
  current : Current o t' run'
  keeps : Keeps run run'
  found : Found t' ↔ Found t

theorem Tracks.trans {run'' : ResearchRun} {t'' : ResearchLog} (h : Tracks o run t run' t')
    (h' : Tracks o run' t' run'' t'') : Tracks o run t run'' t'' :=
  ⟨h'.current, h.keeps.trans h'.keeps, h'.found.trans h.found⟩

theorem Tracks.quiet (h : Current o t run) (ht : Quiet t t') : Tracks o run t run t' :=
  ⟨h.quiet ht, Keeps.refl run, ht.found⟩

theorem recordError_tracks (error : ProviderError) (sourceId : Option String)
    (h : Current o t run) : Tracks o run t (recordError run error sourceId) t :=
  ⟨current_of_keeps h ⟨rfl, rfl, rfl, rfl, rfl⟩ rfl rfl rfl, ⟨rfl, rfl, rfl, rfl, rfl⟩, Iff.rfl⟩

theorem succeedAttempt_tracks (h : Current o t run) : Tracks o run t (succeedAttempt run) t :=
  ⟨current_of_keeps h ⟨rfl, rfl, rfl, rfl, rfl⟩ rfl rfl rfl, ⟨rfl, rfl, rfl, rfl, rfl⟩, Iff.rfl⟩

theorem failAttempt_tracks (error : ProviderError) (h : Current o t run) :
    Tracks o run t (failAttempt run error) t :=
  ⟨current_of_keeps h ⟨rfl, rfl, rfl, rfl, rfl⟩ rfl rfl rfl, ⟨rfl, rfl, rfl, rfl, rfl⟩, Iff.rfl⟩

/-- A reservation; its exception of the budget leaves the log clean, any other stains it. -/
theorem reserve_ensures {providerId operation : String} {sourceId : Option String}
    (ht : Unfaulted t) (hrun : Current o t run) :
    (o.reserve tenant run providerId operation sourceId).Ensures o.terms
      (fun r t' => match r with
        | .ok run' => Unfaulted t' ∧ Tracks o run t run' t'
        | .error e =>
          if e.isValueError && e.message = "BUDGET_EXCEEDED" then Unfaulted t' ∧ Quiet t t'
          else Stained Calm Faulty t') t := by
  refine ensures_ask_bind.mpr ⟨trivial, fun reserved _ => ?_⟩
  have hquiet := quiet_snoc (t := t)
    (x := ⟨.reserveBudget tenant run.researchRunId o.policy.providerBudget, reserved⟩) rfl id
  cases reserved with
  | error e =>
    change if e.isValueError && e.message = "BUDGET_EXCEEDED" then _ else _
    split_ifs with hbudget
    · exact ⟨clean_snoc ht fun _ hf => by simp only [Faulty, hbudget, reduceCtorEq] at hf, hquiet⟩
    · exact stained_snoc fun _ => by simpa only [Faulty, Bool.not_eq_true] using hbudget
  | ok used =>
    refine ensures_bind.mpr (ensures_ask_bind.mpr ⟨trivial, fun now _ => ?_⟩)
    have hall := hquiet.trans (quiet_snoc (x := ⟨.clock, now⟩) rfl id)
    refine ⟨clean_snoc (clean_snoc ht fun _ => id) fun _ => id, ?_⟩
    exact ⟨current_of_keeps (hrun.quiet hall) ⟨rfl, rfl, rfl, rfl, rfl⟩ rfl rfl rfl,
      ⟨rfl, rfl, rfl, rfl, rfl⟩, hall.found⟩

theorem reserveCall_contains {providerId operation : String} {sourceId : Option String}
    (ht : Unfaulted t) (hrun : Current o t run) :
    o.Contains (o.reserveCall tenant run providerId operation sourceId)
      (fun reserved t' => Tracks o run t (reserved.getD run) t') t := by
  refine ensures_bind.mpr (ensures_attempt.mpr (ensures_bind.mpr (ensures_ask_bind.mpr
    ⟨trivial, fun cancelled _ => ?_⟩)))
  have hquiet := quiet_snoc (t := t) (x := ⟨.cancelled, cancelled⟩) rfl id
  cases cancelled with
  | true => exact stained_snoc nofun
  | false =>
    have hfirst := Tracks.quiet hrun hquiet
    refine (reserve_ensures (clean_snoc ht fun _ => id) hfirst.current).mono fun r t' hr => ?_
    cases r with
    | ok run' => exact ⟨hr.1, hfirst.trans hr.2⟩
    | error e =>
      dsimp only at hr ⊢
      split_ifs at hr ⊢ with hbudget
      · exact ⟨hr.1, hfirst.trans (Tracks.quiet hfirst.current hr.2)⟩
      · exact hr

/-! ## Calls of a provider -/

theorem beforeCall_contains {providerId : String} (ht : Unfaulted t) :
    o.Contains (beforeCall tenant providerId) (fun _ t' => Quiet t t') t := by
  refine ensures_ask_bind.mpr ⟨trivial, fun called _ => ?_⟩
  have hquiet := quiet_snoc (t := t)
    (x := ⟨.beforeCall tenant.tenantId providerId, called⟩) rfl id
  rcases called with e | u
  · by_cases he : e = .circuitOpen
    · subst he
      exact ⟨clean_snoc ht fun _ hf => hf rfl, hquiet⟩
    · cases e with
      | circuitOpen => exact absurd rfl he
      | _ => exact stained_snoc fun _ => he
  · exact ⟨clean_snoc ht fun _ => id, hquiet⟩

theorem recordFailure_contains {providerId : String} {retryable : Bool} (ht : Unfaulted t) :
    o.Contains (recordFailure tenant providerId retryable) (fun _ t' => Quiet t t') t := by
  refine ensures_ask_bind.mpr ⟨trivial, fun recorded _ => ?_⟩
  cases recorded with
  | error e => exact stained_snoc fun _ => trivial
  | ok u => exact ⟨clean_snoc ht fun _ => id, quiet_snoc rfl id⟩

theorem recordSuccess_contains {providerId : String} (ht : Unfaulted t) :
    o.Contains (recordSuccess tenant providerId) (fun _ t' => Quiet t t') t := by
  refine ensures_ask_bind.mpr ⟨trivial, fun recorded _ => ?_⟩
  cases recorded with
  | error e => exact stained_snoc fun _ => trivial
  | ok u => exact ⟨clean_snoc ht fun _ => id, quiet_snoc rfl id⟩

theorem appendEgressDecision_tracks {d : EgressDecision} (h : Current o t run) :
    Tracks o run t (appendEgressDecision o.pf run d) t := by
  have hkeeps : Keeps run (appendEgressDecision o.pf run d) := ⟨rfl, rfl, rfl, rfl, rfl⟩
  obtain ⟨base, hseen, hbase⟩ := h.continues
  refine ⟨⟨⟨base, hseen, ?_⟩, sound_of_keeps h.sound hkeeps⟩, hkeeps, Iff.rfl⟩
  exact hbase.append rfl rfl rfl rfl ResearchRun.egressEvent_id id

/-- The records of residency decisions never raise: what refuses one is the provider's to meet. -/
theorem recordDecisions_contains {decisions : List EgressDecision} (ht : Unfaulted t)
    (hrun : Current o t run) (hstatus : run.status ≠ created) :
    o.Contains (o.recordDecisions tenant run decisions) (fun p t' => Tracks o run t p.1 t') t := by
  induction decisions generalizing run t with
  | nil => exact ⟨ht, Tracks.quiet hrun (Quiet.refl t)⟩
  | cons d ds ih =>
    have happend := appendEgressDecision_tracks (d := d) hrun
    have hstarted : (appendEgressDecision o.pf run d).status ≠ created := hstatus
    refine ensures_ask_bind.mpr ⟨⟨happend.current, hstarted⟩, fun recorded _ => ?_⟩
    cases recorded with
    | error e =>
      exact ⟨clean_snoc ht fun _ => id, happend.trans (Tracks.quiet happend.current
        (quiet_snoc rfl id))⟩
    | ok u =>
      have hrecord : Tracks o (appendEgressDecision o.pf run d) t (appendEgressDecision o.pf run d)
          (t ++ [⟨.record tenant (appendEgressDecision o.pf run d), .ok ()⟩]) :=
        ⟨Current.of_seen happend.current.sound (by rw [lastSeen_snoc]; rfl), Keeps.refl _,
          found_snoc.trans (or_iff_left id)⟩
      refine (ih (clean_snoc ht fun _ => id) hrecord.current hstarted).exact_mono fun p t' hp => ?_
      exact (happend.trans hrecord).trans hp

theorem replied_contains {α : Type} {reply : ProviderReply α} (ht : Unfaulted t)
    (hrun : Current o t run) (hstatus : run.status ≠ created) :
    o.Contains (o.replied tenant run reply) (fun p t' => Tracks o run t p.1 t') t := by
  refine (recordDecisions_contains ht hrun hstatus).exact_bind fun p t' ht' hp => ?_
  obtain ⟨run', refusal⟩ := p
  cases refusal with
  | none => exact ⟨ht', hp⟩
  | some e => exact ⟨ht', hp⟩

theorem searchOutcome_contains (ht : Unfaulted t) (hrun : Current o t run)
    (hstatus : run.status ≠ created) :
    o.Contains (o.searchOutcome tenant run) (fun p t' => Tracks o run t p.1 t') t := by
  refine ensures_ask_bind.mpr ⟨trivial, fun cancelled _ => ?_⟩
  have hfirst := Tracks.quiet hrun (quiet_snoc (x := ⟨.cancelled, cancelled⟩) rfl id)
  cases cancelled with
  | true => exact ⟨clean_snoc ht fun _ => id, hfirst⟩
  | false =>
    refine ensures_ask_bind.mpr ⟨trivial, fun reply _ => ?_⟩
    have hsecond := hfirst.trans (Tracks.quiet hfirst.current
      (quiet_snoc (x := ⟨.search (searchQuery run), reply⟩) rfl id))
    refine (replied_contains (clean_snoc (clean_snoc ht fun _ => id) fun _ => id)
      hsecond.current hstatus).exact_mono fun p t' hp => hsecond.trans hp

/-! ## Sources -/

/-- The sources of a discovery: blocked, or discovered where a URL was accepted. -/
structure Surveyed (run : ResearchRun) (t : ResearchLog) : Prop where
  statuses : ∀ s ∈ run.sources, s.status = "BLOCKED" ∨ s.status = "DISCOVERED"
  discovered : (∃ s ∈ run.sources, s.status = "DISCOVERED") ↔ Found t

theorem surveyed_nil (hsources : run.sources = []) (ht : ¬ Found t) : Surveyed run t := by
  constructor
  · simp only [hsources, List.not_mem_nil, false_implies, implies_true]
  · simp only [hsources, List.not_mem_nil, false_and, exists_false, ht]

theorem Surveyed.keeps (h : Surveyed run t) (hsources : run'.sources = run.sources)
    (ht : Found t' ↔ Found t) : Surveyed run' t' := by
  constructor
  · rw [hsources]
    exact h.statuses
  · rw [hsources, ht]
    exact h.discovered

theorem Surveyed.add {x : ResearchEvent} {s : SourceCandidate} (h : Surveyed run t)
    (hs : s.status = "BLOCKED" ∧ ¬ Accepts x ∨ s.status = "DISCOVERED" ∧ Accepts x) :
    Surveyed (addSource run s) (t ++ [x]) := by
  constructor
  · intro s' hs'
    rcases List.mem_append.mp hs' with hs' | hs'
    · exact h.statuses s' hs'
    · rw [List.mem_singleton.mp hs']
      exact hs.imp And.left And.left
  · rw [found_snoc, ← h.discovered]
    simp only [addSource, List.mem_append, List.mem_singleton, or_and_right, exists_or,
      exists_eq_left]
    rcases hs with ⟨hs, hx⟩ | ⟨hs, hx⟩
    · simp only [hs, hx, or_false, show ("BLOCKED" = "DISCOVERED") = False by decide]
    · simp only [hs, hx, or_true]

theorem addSource_current {s : SourceCandidate} (h : Current o t run) :
    Current o t (addSource run s) := by
  obtain ⟨base, hseen, hbase⟩ := h.continues
  have hsources : (addSource run s).sources ≠ [] := List.append_ne_nil_of_right_ne_nil _ nofun
  exact ⟨⟨base, hseen, hbase.same rfl rfl rfl rfl rfl⟩,
    ⟨h.sound.domains, fun hs => absurd hs hsources, h.sound.supported, fun _ => hsources⟩⟩

theorem storeSource_contains {s : SourceCandidate} (ht : Unfaulted t) (hrun : Current o t run)
    (hsurvey : Surveyed (addSource run s) t) :
    o.Contains (storeSource run s) (fun run' t' => run' = addSource run s ∧ Current o t' run' ∧
      Surveyed run' t' ∧ (Found t' ↔ Found t)) t := by
  refine ensures_ask_bind.mpr ⟨trivial, fun encoded _ => ?_⟩
  have hquiet := quiet_snoc (t := t) (x := ⟨.encodeUrl s.canonicalUrl, encoded⟩) rfl id
  cases encoded with
  | error e => exact stained_snoc fun _ => trivial
  | ok _ =>
    exact ⟨clean_snoc ht fun _ => id, rfl, addSource_current (hrun.quiet hquiet),
      hsurvey.keeps rfl hquiet.found, hquiet.found⟩

/-- A discovery changes nothing but the sources. -/
structure Discovers (o : ResearchOrchestrator) (run run' : ResearchRun) (t' : ResearchLog) :
    Prop where
  current : Current o t' run'
  surveyed : Surveyed run' t'
  status : run'.status = run.status
  request : run'.request = run.request
  snapshots : run'.snapshots = run.snapshots

theorem storeResults_contains {policy : PublicUrlPolicy} {response : SearchResponse}
    {seen : List String} {results : List SearchResult} (ht : Unfaulted t)
    (hrun : Current o t run) (hsurvey : Surveyed run t) (hseen : seen ≠ [] → Found t) :
    o.Contains (o.storeResults policy response run seen results)
      (fun run' t' => Discovers o run run' t') t := by
  induction results generalizing run seen t with
  | nil => exact ⟨ht, hrun, hsurvey, rfl, rfl, rfl⟩
  | cons result rest ih =>
    refine ensures_ask_bind.mpr ⟨trivial, fun validated _ => ?_⟩
    have hquiet : lastSeen (t ++ [⟨.validateUrl policy result.url, validated⟩]) = lastSeen t := by
      rw [lastSeen_snoc]
      rfl
    have hnext : Current o (t ++ [⟨.validateUrl policy result.url, validated⟩]) run :=
      ⟨by rw [hquiet]; exact hrun.continues, hrun.sound⟩
    cases validated with
    | error e =>
      cases e with
      | urlRejected reason =>
        have hclean : Unfaulted (t ++ [⟨.validateUrl policy result.url,
            .error (.urlRejected reason)⟩]) := clean_snoc ht fun _ hf => hf reason rfl
        refine (storeSource_contains hclean hnext (hsurvey.add (.inl ⟨rfl, id⟩))).exact_bind
          fun run' t' ht' h' => ?_
        obtain ⟨rfl, hcurrent, hsurveyed, hsame⟩ := h'
        refine (ih ht' hcurrent hsurveyed fun hs =>
          hsame.mpr (found_snoc.mpr (.inl (hseen hs)))).exact_mono ?_
        exact fun run' t' h => ⟨h.current, h.surveyed, h.status, h.request, h.snapshots⟩
      | _ => exact stained_snoc nofun
    | ok safe =>
      have hfound : Found (t ++ [⟨.validateUrl policy result.url, .ok safe⟩]) :=
        found_snoc.mpr (.inr trivial)
      dsimp only
      split_ifs with hdup
      · have hdiscovered := hsurvey.discovered.mpr (hseen (List.ne_nil_of_mem hdup))
        have hsame : Surveyed run (t ++ [⟨.validateUrl policy result.url, .ok safe⟩]) :=
          ⟨hsurvey.statuses, iff_of_true hdiscovered hfound⟩
        exact ih (clean_snoc ht fun _ => id) hnext hsame fun _ => hfound
      · refine (storeSource_contains (clean_snoc ht fun _ => id) hnext
          (hsurvey.add (.inr ⟨rfl, trivial⟩))).exact_bind fun run' t' ht' h' => ?_
        obtain ⟨rfl, hcurrent, hsurveyed, hsame⟩ := h'
        refine (ih ht' hcurrent hsurveyed fun _ => hsame.mpr hfound).exact_mono ?_
        exact fun run' t' h => ⟨h.current, h.surveyed, h.status, h.request, h.snapshots⟩

theorem storeDiscovery_contains {response : SearchResponse} (ht : Unfaulted t)
    (hrun : Current o t run) (hsources : run.sources = []) (hfound : ¬ Found t) :
    o.Contains (o.storeDiscovery run response) (fun run' t' => Discovers o run run' t') t := by
  obtain ⟨policy, hpolicy⟩ := hrun.sound.domains
  rw [Contains, storeDiscovery, hpolicy]
  change o.Contains (o.storeResults policy response _ [] _) _ t
  refine (storeResults_contains ht ?_ (surveyed_nil ?_ hfound) (absurd rfl)).exact_mono ?_
  · exact current_of_keeps hrun ⟨rfl, rfl, rfl, rfl, rfl⟩ rfl rfl rfl
  · exact hsources
  · exact fun run' t' h => ⟨h.current, h.surveyed, h.status, h.request, h.snapshots⟩

/-! ## Discoveries -/

/-- A run that failed and was saved. -/
structure Failed (tenant : TenantContext) (run : ResearchRun) (t t' : ResearchLog) : Prop where
  status : run.status = .failed
  saved : Saved tenant run t'
  found : Found t' ↔ Found t

theorem failRun_contains {actorId reasonCode : String} (ht : Unfaulted t)
    (hrun : Current o t run) (hallowed : transition run.status failed false = .ok ()) :
    o.Contains (o.failRun tenant run actorId reasonCode)
      (fun run' t' => Failed tenant run' t t') t := by
  refine (advance_contains ht hrun hallowed nofun).exact_bind fun run' t' ht' hrun' => ?_
  obtain ⟨hcurrent, hmoves, hquiet⟩ := hrun'
  have hstarted : run'.status ≠ created := by
    rw [hmoves.status]
    exact nofun
  refine (save_contains ht' hcurrent hstarted).exact_bind fun _ t'' ht'' hsaved => ?_
  exact ⟨ht'', hmoves.status, hsaved.2.1, hsaved.2.2.trans hquiet.found⟩

/-- How a discovery ends: with sources, or with a failed run. -/
def Discovered (o : ResearchOrchestrator) (tenant : TenantContext) (run : ResearchRun)
    (t : ResearchLog) (p : ResearchRun × Bool) (t' : ResearchLog) : Prop :=
  if p.2 then Current o t' p.1 ∧ Surveyed p.1 t' ∧ p.1.status = .sourcesDiscovered ∧
    p.1.request = run.request ∧ p.1.snapshots = run.snapshots
  else Failed tenant p.1 t t'

theorem failDiscovery_contains {actorId : String} {error : ProviderError} (ht : Unfaulted t)
    (hrun : Current o t run) (hstatus : run.status = .searching) :
    o.Contains (o.failDiscovery tenant run actorId error)
      (fun p t' => Discovered o tenant run t p t') t := by
  have herror := recordError_tracks error none hrun
  have hallowed : transition (recordError run error none).status failed false = .ok () := by
    rw [herror.keeps.status, hstatus]
    rfl
  refine (failRun_contains ht herror.current hallowed).exact_bind fun run' t' ht' hfailed => ?_
  exact ⟨ht', hfailed⟩

theorem Failed.of_found {t₀ : ResearchLog} (h : Failed tenant run t t') (ht : Found t ↔ Found t₀) :
    Failed tenant run t₀ t' := ⟨h.status, h.saved, h.found.trans ht⟩

/-- The end of a discovery does not depend on the bookkeeping before it. -/
theorem Discovered.of_tracks {p : ResearchRun × Bool} {t'' : ResearchLog}
    (htracks : Tracks o run t run' t') (h : Discovered o tenant run' t' p t'') :
    Discovered o tenant run t p t'' := by
  unfold Discovered at h ⊢
  split_ifs at h ⊢
  · obtain ⟨hcurrent, hsurvey, hstatus, hrequest, hsnapshots⟩ := h
    exact ⟨hcurrent, hsurvey, hstatus, hrequest.trans htracks.keeps.request,
      hsnapshots.trans htracks.keeps.snapshots⟩
  · exact h.of_found htracks.found

theorem failSearch_contains {actorId : String} {error : ProviderError} (ht : Unfaulted t)
    (hrun : Current o t run) (hstatus : run.status = .searching) :
    o.Contains (o.failSearch tenant run actorId error)
      (fun p t' => Discovered o tenant run t p t') t := by
  refine (ensureActive_contains ht).exact_bind fun _ t₁ ht₁ hactive => ?_
  refine (recordFailure_contains ht₁).exact_bind fun _ t₂ ht₂ hrecord => ?_
  have hquiet := Tracks.quiet hrun (hactive.trans hrecord)
  have hfail := failAttempt_tracks error hquiet.current
  refine (failDiscovery_contains ht₂ hfail.current hstatus).exact_mono fun p t' hp => ?_
  exact hp.of_tracks (hquiet.trans hfail)

theorem succeedSearch_contains {actorId : String} {response : SearchResponse}
    (ht : Unfaulted t) (hrun : Current o t run) (hstatus : run.status = .searching)
    (hsources : run.sources = []) (hfound : ¬ Found t) :
    o.Contains (o.succeedSearch tenant run actorId response)
      (fun p t' => Discovered o tenant run t p t') t := by
  refine (ensureActive_contains ht).exact_bind fun _ t₁ ht₁ hactive => ?_
  refine (recordSuccess_contains ht₁).exact_bind fun _ t₂ ht₂ hrecord => ?_
  have hquiet := Tracks.quiet hrun (hactive.trans hrecord)
  have hsucceed := succeedAttempt_tracks hquiet.current
  refine (storeDiscovery_contains ht₂ hsucceed.current hsources
    (mt hquiet.found.mp hfound)).exact_bind fun run₃ t₃ ht₃ h₃ => ?_
  have hallowed : transition run₃.status sourcesDiscovered false = .ok () := by
    rw [h₃.status]
    exact hstatus ▸ rfl
  refine (advance_contains ht₃ h₃.current hallowed nofun).exact_bind fun run₄ t₄ ht₄ h₄ => ?_
  obtain ⟨hcurrent, hmoves, hclock⟩ := h₄
  have hstarted : run₄.status ≠ created := by
    rw [hmoves.status]
    exact nofun
  refine (save_contains ht₄ hcurrent hstarted).exact_bind fun _ t₅ ht₅ h₅ => ?_
  exact ⟨ht₅, h₅.1, h₃.surveyed.keeps hmoves.sources (h₅.2.2.trans hclock.found), hmoves.status,
    hmoves.request.trans h₃.request, hmoves.snapshots.trans h₃.snapshots⟩

theorem discover_contains {actorId : String} (ht : Unfaulted t) (hrun : Current o t run)
    (hstatus : run.status = .searching) (hsources : run.sources = []) (hfound : ¬ Found t) :
    o.Contains (o.discover tenant run actorId) (fun p t' => Discovered o tenant run t p t') t := by
  have hstarted : run.status ≠ created := by
    rw [hstatus]
    exact nofun
  refine (ensureActive_contains ht).exact_bind fun _ t₁ ht₁ hactive => ?_
  have h₁ := Tracks.quiet hrun hactive
  split_ifs with hlimit
  · exact (failDiscovery_contains ht₁ h₁.current hstatus).exact_mono fun p t' => .of_tracks h₁
  refine (beforeCall_contains ht₁).exact_bind fun closed t₂ ht₂ hclosed => ?_
  have h₂ := Tracks.quiet hrun (hactive.trans hclosed)
  split_ifs with hopen
  · exact (failDiscovery_contains ht₂ h₂.current hstatus).exact_mono fun p t' => .of_tracks h₂
  refine (reserveCall_contains ht₂ h₂.current).exact_bind fun reserved t₃ ht₃ h₃ => ?_
  cases reserved with
  | none =>
    exact (failDiscovery_contains ht₃ (h₂.trans h₃).current hstatus).exact_mono
      fun p t' => .of_tracks (h₂.trans h₃)
  | some run₃ =>
    have hkeeps₃ := (h₂.trans h₃).keeps
    refine (searchOutcome_contains ht₃ h₃.current (hkeeps₃.status ▸ hstarted)).exact_bind
      fun p t₄ ht₄ h₄ => ?_
    obtain ⟨run₄, outcome⟩ := p
    have hall := (h₂.trans h₃).trans h₄
    have hsearching := hall.keeps.status.trans hstatus
    cases outcome with
    | error e =>
      cases e <;> exact (failSearch_contains ht₄ hall.current hsearching).exact_mono
        fun p t' => .of_tracks hall
    | ok response =>
      exact (succeedSearch_contains ht₄ hall.current hsearching (hall.keeps.sources.trans hsources)
        (mt hall.found.mp hfound)).exact_mono fun p t' => .of_tracks hall

end ResearchOrchestrator

end DecisionAssurance.Research
