import DecisionAssurance.ExtractionOutcomes

/-!
# Outcomes of an execution

An execution or a retry that no call interrupts saves its run in a final status. The run has
failed if and only if neither a snapshot nor a citation was found for it.
-/

namespace DecisionAssurance.Research

open Interactions Interaction ResearchStatus

variable {o : ResearchOrchestrator} {tenant : TenantContext} {run run' : ResearchRun}
  {t t' : ResearchLog}

/-! ## Candidates -/

theorem selectSources_lt {sources : List SourceCandidate} {limit : ℕ} {statuses : List String}
    {i : ℕ} (h : i ∈ selectSources sources limit statuses) : i < sources.length := by
  have hmem := List.mem_of_mem_take h
  obtain ⟨⟨s, j⟩, hs, rfl⟩ := List.mem_map.mp hmem
  rw [List.mem_insertionSort, List.mem_filter] at hs
  have hlt := List.snd_lt_of_mem_zipIdx hs.1
  omega

theorem selectSources_nodup (sources : List SourceCandidate) (limit : ℕ) (statuses : List String) :
    (selectSources sources limit statuses).Nodup := by
  refine List.Nodup.sublist (List.take_sublist _ _) ?_
  have hperm := (List.perm_insertionSort (fun a b => rankLe a.1 b.1)
    (sources.zipIdx.filter fun s => s.1.status ∈ statuses)).map Prod.snd
  refine hperm.nodup_iff.mpr (List.Nodup.sublist (List.filter_sublist.map Prod.snd) ?_)
  rw [List.zipIdx_map_snd]
  exact List.nodup_range' ..

theorem selectSources_eq_nil {sources : List SourceCandidate} {limit : ℕ} {statuses : List String}
    (hlimit : 1 ≤ limit) :
    selectSources sources limit statuses = [] ↔ ∀ s ∈ sources, s.status ∉ statuses := by
  have hsort : ∀ l : List (SourceCandidate × ℕ),
      l.insertionSort (fun a b => rankLe a.1 b.1) = [] ↔ l = [] := fun l => by
    rw [← List.length_eq_zero_iff, List.length_insertionSort, List.length_eq_zero_iff]
  rw [selectSources, List.take_eq_nil_iff, or_iff_right (by omega), List.map_eq_nil_iff, hsort,
    List.filter_eq_nil_iff]
  constructor
  · intro h s hs
    obtain ⟨i, hi, rfl⟩ := List.mem_iff_getElem.mp hs
    simpa using h (sources[i], i) (List.mk_mem_zipIdx_iff_getElem?.mpr (by simp))
  · rintro h ⟨s, i⟩ hs
    simpa using h s (List.fst_mem_of_mem_zipIdx hs)

theorem ResearchRequest.one_le_maxSources (r : ResearchRequest) : 1 ≤ r.maxSourcesToExtract := by
  obtain ⟨-, -, -, -, -, -, -, hextract, -⟩ := RequestFields.error_eq_none r.valid
  rw [Bool.or_eq_true, decide_eq_true_eq, not_or] at hextract
  omega

namespace ResearchOrchestrator

theorem candidates_map_snd (run : ResearchRun) (retryOnly : Bool) :
    (candidates run retryOnly).map Prod.snd = selectSources run.sources
      run.request.maxSourcesToExtract
      (if retryOnly then ["FAILED", "CITATION_ONLY"] else ["DISCOVERED"]) := by
  have hkeep : ∀ l : List ℕ, (∀ i ∈ l, i < run.sources.length) →
      (l.filterMap fun i => run.sources[i]?.map fun s => (s, i)).map Prod.snd = l := by
    intro l hl
    induction l with
    | nil => rfl
    | cons i l ih =>
      have hi := hl i List.mem_cons_self
      simp only [List.filterMap_cons, List.getElem?_eq_getElem hi, Option.map_some, List.map_cons,
        ih fun j hj => hl j (List.mem_cons_of_mem _ hj)]
  exact hkeep _ fun i => selectSources_lt

theorem candidates_lt {retryOnly : Bool} {c : Candidate} (hc : c ∈ candidates run retryOnly) :
    c.2 < run.sources.length := by
  have hmem := List.mem_map_of_mem (f := Prod.snd) hc
  rw [candidates_map_snd] at hmem
  exact selectSources_lt hmem

theorem candidates_nodup (run : ResearchRun) (retryOnly : Bool) :
    ((candidates run retryOnly).map Prod.snd).Nodup := by
  rw [candidates_map_snd]
  exact selectSources_nodup ..

theorem candidates_eq_nil {retryOnly : Bool} : candidates run retryOnly = [] ↔
    ∀ s ∈ run.sources, s.status ∉ if retryOnly then ["FAILED", "CITATION_ONLY"]
      else ["DISCOVERED"] := by
  rw [← List.map_eq_nil_iff (f := Prod.snd), candidates_map_snd,
    selectSources_eq_nil run.request.one_le_maxSources]

theorem skipUnselected_current {selected : List Candidate} (h : Current o t run) :
    Current o t (skipUnselected run selected) := by
  obtain ⟨base, hseen, hbase⟩ := h.continues
  have hnil : (skipUnselected run selected).sources = [] ↔ run.sources = [] := List.map_eq_nil_iff
  exact ⟨⟨base, hseen, hbase.same rfl rfl rfl rfl rfl⟩, ⟨h.sound.domains,
    fun hs => h.sound.sourced (hnil.mp hs), h.sound.supported,
    fun hp => mt hnil.mp (h.sound.partly hp)⟩⟩

theorem skipUnselected_uncited {selected : List Candidate}
    (h : ∀ s ∈ run.sources, s.status ≠ "CITATION_ONLY") :
    ∀ s ∈ (skipUnselected run selected).sources, s.status ≠ "CITATION_ONLY" := by
  intro s hs
  obtain ⟨s', hs', rfl⟩ := List.mem_map.mp hs
  split_ifs
  · exact fun hc => absurd hc (by decide : "SKIPPED_LIMIT" ≠ "CITATION_ONLY")
  · exact h s' hs'

/-! ## Evidence -/

theorem markConflictingEvidence_current (casefold : String → String) (h : Current o t run) :
    Current o t (markConflictingEvidence casefold run) := by
  obtain ⟨base, hseen, hbase⟩ := h.continues
  have hnil : (markConflictingEvidence casefold run).sources = [] ↔ run.sources = [] :=
    List.map_eq_nil_iff
  refine ⟨⟨base, hseen, hbase.same rfl rfl rfl rfl rfl⟩, ⟨h.sound.domains,
    fun hs => h.sound.sourced (hnil.mp hs), fun e he => ?_,
    fun hp => mt hnil.mp (h.sound.partly hp)⟩⟩
  obtain ⟨e', he', rfl⟩ := List.mem_map.mp he
  obtain ⟨s, hs, hid⟩ := h.sound.supported e' he'
  refine ⟨s, hs, ?_⟩
  split_ifs <;> exact hid

theorem mapM_isSome {α β : Type} {f : α → Option β} {l : List α} (h : ∀ a ∈ l, ∃ b, f a = some b) :
    ∃ bs, l.mapM f = some bs := by
  induction l with
  | nil => exact ⟨[], rfl⟩
  | cons a l ih =>
    obtain ⟨b, hb⟩ := h a List.mem_cons_self
    obtain ⟨bs, hbs⟩ := ih fun a' ha' => h a' (List.mem_cons_of_mem _ ha')
    exact ⟨b :: bs, by simp only [List.mapM_cons, hb, hbs]; rfl⟩

/-- Where all evidence has its snapshot, the compilation raises nothing. -/
theorem compile_of_supported
    (h : ∀ e ∈ run.evidence, ∃ s ∈ run.snapshots, s.snapshotId = e.snapshotId) :
    ∃ compiled, ResearchEvidenceCompiler.compile run = some compiled := by
  refine mapM_isSome fun e he => ?_
  obtain ⟨s, hs, hid⟩ := h e (List.mem_filter.mp he).1
  cases hfind : run.snapshots.find? fun s => s.snapshotId = e.snapshotId with
  | none => exact absurd (decide_eq_true hid) (List.find?_eq_none.mp hfind s hs)
  | some snapshot => exact ⟨_, by rw [ResearchEvidenceCompiler.compileCandidate, hfind]; rfl⟩

theorem compile_isSome (h : Sound o run) :
    ∃ compiled, ResearchEvidenceCompiler.compile run = some compiled :=
  compile_of_supported h.supported

theorem deliver_contains {compiled : List DecisionEvidence} (ht : Unfaulted t)
    (hrun : Current o t run) :
    o.Contains (o.deliver tenant run compiled) (fun p t' => Tracks o run t p.1 t') t := by
  unfold deliver
  split_ifs with hempty
  · exact ⟨ht, Tracks.quiet hrun (Quiet.refl t)⟩
  refine (ensureActive_contains ht).exact_bind fun _ t₁ ht₁ hactive => ?_
  refine ensures_ask_bind.mpr ⟨trivial, fun attached _ => ?_⟩
  let delivery : ResearchEvent := ⟨.attach tenant run.request.decisionFileId
    run.expectedDocumentHash compiled, attached⟩
  have hquiet := Tracks.quiet hrun (hactive.trans (quiet_snoc (x := delivery) rfl id))
  have hclean : (Calm delivery → ¬ Faulty delivery) → Unfaulted (t₁ ++ [delivery]) :=
    clean_snoc ht₁
  cases attached with
  | ok updated =>
    refine ⟨hclean fun _ => id, hquiet.trans ⟨?_, ⟨rfl, rfl, rfl, rfl, rfl⟩, Iff.rfl⟩⟩
    exact current_of_keeps hquiet.current ⟨rfl, rfl, rfl, rfl, rfl⟩ rfl rfl rfl
  | error e =>
    dsimp only
    split_ifs with hvalue
    · refine ⟨hclean fun _ hf => ?_, hquiet.trans ⟨?_, ⟨rfl, rfl, rfl, rfl, rfl⟩, Iff.rfl⟩⟩
      · exact Bool.noConfusion (hvalue.symm.trans hf)
      · exact current_of_keeps hquiet.current ⟨rfl, rfl, rfl, rfl, rfl⟩ rfl rfl rfl
    · exact stained_snoc fun _ => Bool.eq_false_iff.mpr hvalue

/-! ## The end of an attempt -/

theorem finish_contains {target : ResearchStatus} {actorId reasonCode : String} {payload : Json}
    (ht : Unfaulted t) (hrun : Current o t run)
    (hallowed : transition run.status target false = .ok ())
    (hpartly : target = partiallyCompleted → run.sources ≠ []) (htarget : target ≠ created) :
    o.Contains (o.finish tenant run target actorId reasonCode payload)
      (fun run' t' => run'.status = target ∧ Saved tenant run' t') t := by
  refine (advance_contains ht hrun hallowed hpartly).exact_bind fun run' t' ht' h => ?_
  obtain ⟨hcurrent, hmoves, -⟩ := h
  have hstarted : run'.status ≠ created := by rwa [hmoves.status]
  refine (save_contains ht' hcurrent hstarted).exact_bind fun _ t'' ht'' hsaved => ?_
  exact ⟨ht'', hmoves.status, hsaved.2.1⟩

/-- A run with snapshots ends as completed or partially completed. -/
theorem compileEvidence_contains {actorId : String} (ht : Unfaulted t) (hrun : Current o t run)
    (hstatus : run.status = .extracting) (hsnapshots : run.snapshots ≠ []) :
    o.Contains (o.compileEvidence tenant run actorId)
      (fun run' t' => (run'.status = .completed ∨ run'.status = .partiallyCompleted) ∧
        Saved tenant run' t') t := by
  have hallowed : transition run.status evidenceCompiled false = .ok () := hstatus ▸ rfl
  refine (advance_contains ht hrun hallowed nofun).exact_bind fun run₁ t₁ ht₁ h₁ => ?_
  obtain ⟨hcurrent₁, hmoves₁, -⟩ := h₁
  have hmarked := markConflictingEvidence_current o.lib.casefold hcurrent₁
  obtain ⟨compiled, hcompiled⟩ := compile_isSome hmarked.sound
  refine ensures_bind.mpr (ensures_lift.mpr ?_)
  rw [hcompiled]
  refine (deliver_contains ht₁ hmarked).exact_bind fun p t₂ ht₂ h₂ => ?_
  obtain ⟨run₂, failed⟩ := p
  refine (ensureActive_contains ht₂).exact_bind fun _ t₃ ht₃ hactive => ?_
  have hstatus₂ : run₂.status = .evidenceCompiled := h₂.keeps.status.trans hmoves₁.status
  have hsources : run₂.sources ≠ [] := by
    intro hs
    have hnone := h₂.current.sound.sourced hs
    rw [h₂.keeps.snapshots] at hnone
    exact hsnapshots (hmoves₁.snapshots.symm.trans hnone)
  refine (finish_contains ht₃ (h₂.current.quiet hactive) ?_ (fun _ => hsources) ?_).exact_mono
    fun run' t' h => ⟨?_, h.2⟩
  · rw [hstatus₂]
    split_ifs <;> rfl
  · split_ifs <;> exact nofun
  · rw [h.1]
    split_ifs
    · exact .inr rfl
    · exact .inl rfl

/-- How an attempt ends: it is saved in a final status, failed or not. -/
structure Settles (tenant : TenantContext) (failed : Prop) (run' : ResearchRun)
    (t' : ResearchLog) : Prop where
  final : run'.status.isFinal = true
  saved : Saved tenant run' t'
  failed_iff : run'.status = .failed ↔ failed

theorem finalize_contains {actorId : String} (ht : Unfaulted t) (hrun : Current o t run)
    (hstatus : run.status = .extracting) :
    o.Contains (o.finalize tenant run actorId)
      (fun run' t' => Settles tenant
        (run.snapshots = [] ∧ ∀ s ∈ run.sources, s.status ≠ "CITATION_ONLY") run' t' ∧
        (run'.status = .failed → (Found t' ↔ Found t))) t := by
  refine (ensureActive_contains ht).exact_bind fun _ t₁ ht₁ hactive => ?_
  have hcurrent := hrun.quiet hactive
  split_ifs with hsnapshots hcited
  · have hsome : run.snapshots ≠ [] := by simpa using hsnapshots
    refine (compileEvidence_contains ht₁ hcurrent hstatus hsome).exact_mono fun run' t' h => ?_
    have hne : run'.status ≠ .failed := by rcases h.1 with h | h <;> rw [h] <;> exact nofun
    refine ⟨⟨?_, h.2, iff_of_false hne fun hnone => hsome hnone.1⟩, fun hf => absurd hf hne⟩
    rcases h.1 with h | h <;> rw [h] <;> rfl
  · obtain ⟨s, hs, hc⟩ := List.any_eq_true.mp hcited
    have hallowed : transition run.status partiallyCompleted false = .ok () := hstatus ▸ rfl
    refine (finish_contains ht₁ hcurrent hallowed (fun _ => List.ne_nil_of_mem hs) nofun
      ).exact_mono fun run' t' h => ?_
    have hne : run'.status ≠ .failed := by
      rw [h.1]
      exact nofun
    refine ⟨⟨by rw [h.1]; rfl, h.2, iff_of_false hne fun hnone => ?_⟩, fun hf => absurd hf hne⟩
    exact hnone.2 s hs (of_decide_eq_true hc)
  · have hallowed : transition run.status failed false = .ok () := hstatus ▸ rfl
    refine (failRun_contains ht₁ hcurrent hallowed).exact_mono fun run' t' h => ?_
    refine ⟨⟨by rw [h.status]; rfl, h.saved, iff_of_true h.status ⟨?_, ?_⟩⟩,
      fun _ => h.found.trans hactive.found⟩
    · simpa using hsnapshots
    · simpa using hcited

/-! ## Attempts -/

theorem Settles.congr {p q : Prop} (h : Settles tenant p run' t') (hpq : p ↔ q) :
    Settles tenant q run' t' := ⟨h.final, h.saved, h.failed_iff.trans hpq⟩

theorem startExtraction_contains {actorId : String} {retry : Bool} (ht : Unfaulted t)
    (hrun : Current o t run) (hallowed : transition run.status extracting retry = .ok ()) :
    o.Contains (o.startExtraction tenant run actorId retry)
      (fun run' t' => Current o t' run' ∧ Moves run run' .extracting ∧ (Found t' ↔ Found t)) t := by
  refine (advance_contains ht hrun hallowed nofun).exact_bind fun run₁ t₁ ht₁ h₁ => ?_
  obtain ⟨hcurrent, hmoves, hquiet⟩ := h₁
  have hstarted : run₁.status ≠ created := by
    rw [hmoves.status]
    exact nofun
  refine (save_contains ht₁ hcurrent hstarted).exact_bind fun _ t₂ ht₂ h₂ => ?_
  exact ⟨ht₂, h₂.1, hmoves, h₂.2.2.trans hquiet.found⟩

/-- An extraction fails if and only if there was no snapshot and no candidate. -/
theorem extractAndFinalize_contains {actorId : String} {retryOnly : Bool} (ht : Unfaulted t)
    (hrun : Current o t run) (hstatus : run.status = .extracting)
    (huncited : candidates run retryOnly = [] → ∀ s ∈ run.sources, s.status ≠ "CITATION_ONLY") :
    o.Contains (o.extractAndFinalize tenant run actorId retryOnly)
      (fun run' t' => Settles tenant (run.snapshots = [] ∧ candidates run retryOnly = []) run' t' ∧
        (run'.status = .failed → (Found t' ↔ Found t))) t := by
  refine (ensureActive_contains ht).exact_bind fun _ t₁ ht₁ hactive => ?_
  obtain ⟨policy, hpolicy⟩ := hrun.sound.domains
  refine ensures_bind.mpr (ensures_lift.mpr ?_)
  rw [hpolicy]
  have hcurrent := hrun.quiet hactive
  generalize hselected : candidates run retryOnly = selected at huncited ⊢
  let start := if retryOnly then run else skipUnselected run selected
  have hstart : Current o t₁ start := by
    cases retryOnly with
    | true => exact hcurrent
    | false => exact skipUnselected_current hcurrent
  have hstartStatus : start.status = .extracting := by cases retryOnly <;> exact hstatus
  have hstartSnapshots : start.snapshots = run.snapshots := by cases retryOnly <;> rfl
  have hlength : start.sources.length = run.sources.length := by
    cases retryOnly with
    | true => rfl
    | false => exact List.length_map _
  have hstartUncited : selected = [] → ∀ s ∈ start.sources, s.status ≠ "CITATION_ONLY" := by
    cases retryOnly with
    | true => exact huncited
    | false => exact fun hnone => skipUnselected_uncited (huncited hnone)
  have hstarted : start.status ≠ created := by
    rw [hstartStatus]
    exact nofun
  change o.Contains (o.extractAll tenant policy start (start.snapshots.map _) selected >>= _) _ t₁
  cases hcases : selected with
  | nil =>
    refine (finalize_contains ht₁ hstart hstartStatus).exact_mono fun run' t' h => ⟨?_, ?_⟩
    · refine h.1.congr ?_
      rw [hstartSnapshots]
      exact and_congr_right fun _ => iff_of_true (hstartUncited hcases) rfl
    · exact fun hfailed => (h.2 hfailed).trans hactive.found
  | cons c rest =>
    rw [← hcases]
    refine (extractAll_contains ht₁ hstart hstarted (mt fun hs => by rw [hs]; rfl)
      (fun c hc => hlength ▸ candidates_lt (hselected ▸ hc))
      (hselected ▸ candidates_nodup run retryOnly)).exact_bind fun run₂ t₂ ht₂ h₂ => ?_
    have hsome : selected ≠ [] := by
      rw [hcases]
      exact nofun
    have hproductive : ¬ (run₂.snapshots = [] ∧ ∀ s ∈ run₂.sources, s.status ≠ "CITATION_ONLY") := by
      rintro ⟨hnone, hall⟩
      rcases h₂.productive hsome with hs | ⟨i, s, hs, hcited⟩
      · exact hs hnone
      · exact hall s (List.mem_of_getElem? hs) hcited
    refine (finalize_contains ht₂ h₂.current (h₂.status.trans hstartStatus)).exact_mono
      fun run' t' h => ⟨?_, fun hfailed => absurd (h.1.failed_iff.mp hfailed) hproductive⟩
    exact h.1.congr (iff_of_false hproductive fun hnone => hsome hnone.2)

theorem found_mono (h : Found t) (ht : t <+: t') : Found t' := by
  obtain ⟨x, hx, haccepts⟩ := h
  exact ⟨x, ht.subset hx, haccepts⟩

/-- A search and its extraction fail if and only if no URL was accepted. -/
theorem continueSearch_contains {actorId : String} (ht : Unfaulted t) (hrun : Current o t run)
    (hstatus : run.status = .searching) (hsources : run.sources = []) (hfound : ¬ Found t) :
    o.Contains (o.continueSearch tenant run actorId)
      (fun run' t' => Settles tenant (¬ Found t') run' t') t := by
  have hstarted : run.status ≠ created := by
    rw [hstatus]
    exact nofun
  refine (save_contains ht hrun hstarted).exact_bind fun _ t₁ ht₁ h₁ => ?_
  have hfound₁ := mt h₁.2.2.mp hfound
  refine (discover_contains ht₁ h₁.1 hstatus hsources hfound₁).exact_bind fun p t₂ ht₂ h₂ => ?_
  obtain ⟨run₂, found⟩ := p
  cases found with
  | false =>
    exact ⟨ht₂, by rw [h₂.status]; rfl, h₂.saved, iff_of_true h₂.status (mt h₂.found.mp hfound₁)⟩
  | true =>
    obtain ⟨hcurrent₂, hsurvey, hstatus₂, -, hsnapshots₂⟩ := h₂
    refine (ensureActive_contains ht₂).exact_bind fun _ t₃ ht₃ hactive => ?_
    have hallowed : transition run₂.status extracting false = .ok () := by
      rw [hstatus₂]
      rfl
    refine (startExtraction_contains ht₃ (hcurrent₂.quiet hactive) hallowed).exact_bind
      fun run₄ t₄ ht₄ h₄ => ?_
    obtain ⟨hcurrent₄, hmoves, hfound₄⟩ := h₄
    have hsurvey₄ := hsurvey.keeps hmoves.sources (hfound₄.trans hactive.found)
    have hnone : candidates run₄ false = [] ↔ ¬ Found t₄ := by
      rw [candidates_eq_nil, ← hsurvey₄.discovered]
      simp only [Bool.false_eq_true, if_false, List.mem_singleton, not_exists, not_and]
    have hsnapshots₄ : run₄.snapshots = [] :=
      (hmoves.snapshots.trans hsnapshots₂).trans (hrun.sound.sourced hsources)
    refine (extractAndFinalize_contains ht₄ hcurrent₄ hmoves.status ?_).exact_grows.exact_mono
      fun run' t' h => ?_
    · intro _ s hs hcited
      rcases hsurvey₄.statuses s hs with h | h
      · exact absurd (hcited.symm.trans h) (by decide)
      · exact absurd (hcited.symm.trans h) (by decide)
    · obtain ⟨⟨hsettles, hfailed⟩, hgrows⟩ := h
      refine ⟨hsettles.final, hsettles.saved, ?_⟩
      constructor
      · intro hf
        exact mt (hfailed hf).mp (hnone.mp (hsettles.failed_iff.mp hf).2)
      · intro hnot
        exact hsettles.failed_iff.mpr ⟨hsnapshots₄, hnone.mpr fun h => hnot (found_mono h hgrows)⟩

/-- An execution of a run that was only created. -/
theorem executeRun_contains {actorId query : String} (ht : Unfaulted t) (hrun : Stored o run)
    (hseen : lastSeen t = some run) (hstatus : run.status = .created) (hfound : ¬ Found t) :
    o.Contains (o.executeRun tenant run actorId query)
      (fun run' t' => Settles tenant (¬ Found t') run' t') t := by
  refine (ensureActive_contains ht).exact_bind fun _ t₁ ht₁ hactive => ?_
  have hcurrent := (Current.of_seen hrun.toSound hseen).quiet hactive
  have hallowed : transition run.status searching false = .ok () := by
    rw [hstatus]
    rfl
  refine (advance_contains ht₁ hcurrent hallowed nofun).exact_bind fun run₂ t₂ ht₂ h₂ => ?_
  obtain ⟨hcurrent₂, hmoves, hquiet⟩ := h₂
  exact continueSearch_contains ht₂ hcurrent₂ hmoves.status
    (hmoves.sources.trans (hrun.pristine hstatus).sources)
    (mt (hactive.trans hquiet).found.mp hfound)

/-- What a run has to offer for another attempt: nothing found yet, or something to extract. -/
def Unproductive (run : ResearchRun) (t : ResearchLog) : Prop :=
  if run.sources = [] then ¬ Found t
  else run.snapshots = [] ∧ ∀ s ∈ run.sources, s.status ∉ ["FAILED", "CITATION_ONLY"]

/-- A retry of a failed or partially completed run. -/
theorem retryRun_contains {actorId : String} (ht : Unfaulted t) (hrun : Current o t run)
    (hstatus : run.status = .failed ∨ run.status = .partiallyCompleted) (hfound : ¬ Found t) :
    o.Contains (o.retryRun tenant run actorId)
      (fun run' t' => Settles tenant (Unproductive run t') run' t') t := by
  unfold retryRun
  split_ifs with hsources
  · rw [List.isEmpty_iff] at hsources
    have hfailed : run.status = .failed :=
      hstatus.resolve_right fun hp => hrun.sound.partly hp hsources
    have hallowed : transition run.status searching true = .ok () := by
      rw [hfailed]
      rfl
    refine (advance_contains ht hrun hallowed nofun).exact_bind fun run₁ t₁ ht₁ h₁ => ?_
    obtain ⟨hcurrent, hmoves, hquiet⟩ := h₁
    refine (continueSearch_contains ht₁ hcurrent hmoves.status (hmoves.sources.trans hsources)
      (mt hquiet.found.mp hfound)).exact_mono fun run' t' h => ?_
    exact h.congr (by rw [Unproductive, if_pos hsources])
  · rw [List.isEmpty_iff] at hsources
    have hallowed : transition run.status extracting true = .ok () := by
      rcases hstatus with h | h <;> rw [h] <;> rfl
    refine (startExtraction_contains ht hrun hallowed).exact_bind fun run₁ t₁ ht₁ h₁ => ?_
    obtain ⟨hcurrent, hmoves, -⟩ := h₁
    have hnone : candidates run₁ true = [] ↔
        ∀ s ∈ run.sources, s.status ∉ ["FAILED", "CITATION_ONLY"] := by
      rw [candidates_eq_nil, hmoves.sources, if_pos rfl]
    refine (extractAndFinalize_contains ht₁ hcurrent hmoves.status fun h s hs hcited => ?_
      ).exact_mono fun run' t' h => h.1.congr ?_
    · rw [hmoves.sources] at hs
      exact hnone.mp h s hs (hcited ▸ List.mem_cons_of_mem _ (List.mem_singleton_self _))
    · rw [Unproductive, if_neg hsources, hmoves.snapshots, hnone]

end ResearchOrchestrator

end DecisionAssurance.Research
