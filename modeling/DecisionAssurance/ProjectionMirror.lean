import DecisionAssurance.ResearchTables
import DecisionAssurance.RunLedger
import DecisionAssurance.SavedRuns
import DecisionAssurance.StatusPropagation

/-!
# Tables that mirror a run

The parts of a run only grow from save to save, and every save writes all of them. Its rows are
then its parts, unless two sources or two snapshots share an id or an attempt has changed after it
was first written: attempts are inserted once and never updated.
-/

namespace DecisionAssurance.Research

open Interactions Interaction Tables PostgresResearchRepository ResearchOrchestrator
open Jobs (JobDatabase JobBackend RunRow)

variable {o : ResearchOrchestrator} {supply : Supply} {tenant : TenantContext}
  {base last run run' run'' : ResearchRun}

/-! ## Growing runs -/

/-- The parts of a run stay in another, under their ids; snapshots and events as they are. -/
structure Grows (run run' : ResearchRun) : Prop where
  sources : run.sources.map SourceCandidate.sourceId <+:
    run'.sources.map SourceCandidate.sourceId
  snapshots : run.snapshots <+: run'.snapshots
  evidence : run.evidence.map EvidenceCandidate.evidenceId <+:
    run'.evidence.map EvidenceCandidate.evidenceId
  attempts : run.attempts.map ResearchAttempt.attemptId <+:
    run'.attempts.map ResearchAttempt.attemptId
  events : run.auditEvents <+: run'.auditEvents

theorem Grows.refl (run : ResearchRun) : Grows run run :=
  ⟨List.prefix_refl _, List.prefix_refl _, List.prefix_refl _, List.prefix_refl _,
    List.prefix_refl _⟩

theorem Grows.trans (h : Grows run run') (h' : Grows run' run'') : Grows run run'' :=
  ⟨h.sources.trans h'.sources, h.snapshots.trans h'.snapshots, h.evidence.trans h'.evidence,
    h.attempts.trans h'.attempts, h.events.trans h'.events⟩

theorem changeLast_ids (change : ResearchAttempt → ResearchAttempt)
    (hchange : ∀ a, (change a).attemptId = a.attemptId) (attempts : List ResearchAttempt) :
    (changeLast change attempts).map ResearchAttempt.attemptId =
      attempts.map ResearchAttempt.attemptId := by
  apply List.ext_getElem?
  intro i
  unfold changeLast
  rw [List.getElem?_map, List.getElem?_map, List.getElem?_modify]
  cases attempts[i]? with
  | none => rfl
  | some a =>
    simp only [Option.map_eq_map, Option.map_some, Option.some.injEq]
    split_ifs
    · exact hchange a
    · rfl

theorem succeedAttempt_ids : (succeedAttempt run).attempts.map ResearchAttempt.attemptId =
    run.attempts.map ResearchAttempt.attemptId := by
  apply changeLast_ids
  exact fun _ => rfl

theorem failAttempt_ids {error : ProviderError} :
    (failAttempt run error).attempts.map ResearchAttempt.attemptId =
      run.attempts.map ResearchAttempt.attemptId := by
  apply changeLast_ids
  exact fun _ => rfl

theorem changeSource_ids {c : Candidate} {f : SourceCandidate → SourceCandidate}
    (hf : ∀ s, (f s).sourceId = s.sourceId) :
    (changeSource run c f).sources.map SourceCandidate.sourceId =
      run.sources.map SourceCandidate.sourceId := by
  apply List.ext_getElem?
  intro i
  unfold changeSource
  rw [List.getElem?_map, List.getElem?_map, List.getElem?_modify]
  cases run.sources[i]? with
  | none => rfl
  | some s =>
    simp only [Option.map_eq_map, Option.map_some, Option.some.injEq]
    split_ifs
    · exact hf s
    · rfl

/-- Parts of which some are changed keep their ids. -/
theorem map_ids_ite {α β : Type} {ident : α → β} {p : α → Prop} [DecidablePred p] {f : α → α}
    (hf : ∀ a, ident (f a) = ident a) (parts : List α) :
    (parts.map fun a => if p a then f a else a).map ident = parts.map ident := by
  rw [List.map_map]
  apply List.map_congr_left
  intro a _
  rw [Function.comp_apply]
  split_ifs
  · exact hf a
  · rfl

theorem markConflictingEvidence_sources (casefold : String → String) :
    (markConflictingEvidence casefold run).sources.map SourceCandidate.sourceId =
      run.sources.map SourceCandidate.sourceId :=
  map_ids_ite (f := SourceCandidate.markConflicting) (fun _ => rfl) run.sources

theorem markConflictingEvidence_evidence (casefold : String → String) :
    (markConflictingEvidence casefold run).evidence.map EvidenceCandidate.evidenceId =
      run.evidence.map EvidenceCandidate.evidenceId :=
  map_ids_ite (f := EvidenceCandidate.markConflicting) (fun _ => rfl) run.evidence

theorem addSnapshot_ids {c : Candidate} {snapshot : SourceSnapshot}
    {assessment : EvidenceAssessment} :
    (o.addSnapshot tenant run c snapshot assessment).sources.map SourceCandidate.sourceId =
      run.sources.map SourceCandidate.sourceId := changeSource_ids fun _ => rfl

theorem addSnapshot_evidence {c : Candidate} {snapshot : SourceSnapshot}
    {assessment : EvidenceAssessment} :
    (o.addSnapshot tenant run c snapshot assessment).evidence = run.evidence ∨
      (o.addSnapshot tenant run c snapshot assessment).evidence =
        run.evidence ++ [o.evidenceOf tenant run c snapshot assessment] ∧
      o.evidenceId run snapshot ∉ run.evidence.map EvidenceCandidate.evidenceId := by
  unfold addSnapshot changeSource
  dsimp only
  split_ifs with hknown
  · exact .inl rfl
  · refine .inr ⟨rfl, fun hmem => hknown ?_⟩
    obtain ⟨e, he, hid⟩ := List.mem_map.mp hmem
    exact List.any_eq_true.mpr ⟨e, he, decide_eq_true hid⟩

theorem Change.grows (h : Change o supply tenant run run') : Grows run run' := by
  cases h with
  | moved => exact { Grows.refl run with events := List.prefix_append _ _ }
  | recorded d => exact { Grows.refl run with events := List.prefix_append _ _ }
  | reserved =>
    refine { Grows.refl run with attempts := ?_ }
    rw [List.map_append]
    exact List.prefix_append _ _
  | succeeded =>
    refine { Grows.refl run with attempts := ?_ }
    rw [succeedAttempt_ids]
  | failed error =>
    refine { Grows.refl run with attempts := ?_ }
    change _ <+: (failAttempt run error).attempts.map ResearchAttempt.attemptId
    rw [failAttempt_ids]
  | discovered =>
    refine { Grows.refl run with sources := ?_ }
    unfold addSource
    rw [List.map_append]
    exact List.prefix_append _ _
  | relabelled hsources =>
    refine { Grows.refl run with sources := ?_ }
    exact hsources ▸ List.prefix_refl _
  | gathered =>
    refine { Grows.refl run with sources := ?_, snapshots := ?_, evidence := ?_ }
    · rw [addSnapshot_ids]
    · exact List.prefix_append _ _
    · rcases addSnapshot_evidence with hsame | ⟨hmore, -⟩
      · rw [hsame]
      · rw [hmore, List.map_append]
        exact List.prefix_append _ _
  | marked =>
    refine { Grows.refl run with sources := ?_, evidence := ?_ }
    · rw [markConflictingEvidence_sources]
    · rw [markConflictingEvidence_evidence]
  | described h =>
    exact ⟨h.sources ▸ List.prefix_refl _, h.snapshots ▸ List.prefix_refl _,
      h.evidence ▸ List.prefix_refl _, h.attempts ▸ List.prefix_refl _,
      h.events ▸ List.prefix_refl _⟩
  | _ => exact ⟨List.prefix_refl _, List.prefix_refl _, List.prefix_refl _, List.prefix_refl _,
      List.prefix_refl _⟩

theorem Changes.grows (h : Changes o supply tenant base run) : Grows base run :=
  h.invariant (I := fun run => Grows base run) (fun _ _ hrun hstep => hrun.trans hstep.grows)
    (Grows.refl base)

/-! ## Distinct ids -/

/-- The id of an attempt by its number. -/
def attemptIdOf (runId : String) (number : ℕ) : String := s!"{runId}:attempt:{toString number}"

/-- A run's evidence has different ids, its attempts and events have ids by their numbers. -/
structure Itemised (run : ResearchRun) : Prop where
  evidence : (run.evidence.map EvidenceCandidate.evidenceId).Nodup
  attempts : ∀ n id, (run.attempts.map ResearchAttempt.attemptId)[n]? = some id →
    id = attemptIdOf run.researchRunId (n + 1)
  events : Numbered run.researchRunId run.auditEvents

theorem attemptIdOf_injective (runId : String) {m n : ℕ}
    (h : attemptIdOf runId m = attemptIdOf runId n) : m = n := by
  have htext : ∀ k, (attemptIdOf runId k).toList =
      runId.toList ++ (":attempt:".toList ++ (Nat.repr k).toList) := by
    intro k
    simp [attemptIdOf, toString, String.toList_append]
  have hchars := congrArg String.toList h
  rw [htext, htext] at hchars
  have hrepr := List.append_cancel_left (List.append_cancel_left hchars)
  exact repr_injective (String.toList_injective hrepr)

theorem Itemised.nodup_attempts (h : Itemised run) :
    (run.attempts.map ResearchAttempt.attemptId).Nodup := by
  rw [List.nodup_iff_getElem?_ne_getElem?]
  intro i j hij hj heq
  have hi := h.attempts i _ (heq.trans (List.getElem?_eq_getElem hj))
  have hj' := h.attempts j _ (List.getElem?_eq_getElem hj)
  have hnumber := attemptIdOf_injective run.researchRunId (hi.symm.trans hj')
  omega

theorem Itemised.proposed (h : o.Proposes tenant run) : Itemised run := by
  obtain ⟨actorId, request, documentHash, correlationId, refreshGeneration, fingerprint, now, -,
    rfl⟩ := h
  refine ⟨List.nodup_nil, fun _ _ h => ?_, fun _ _ h => ?_⟩
  · exact nomatch List.getElem?_nil.symm.trans h
  · exact nomatch List.getElem?_nil.symm.trans h

/-- Runs with the same ids. -/
theorem Itemised.congr (h : Itemised run) (hid : run'.researchRunId = run.researchRunId)
    (hevidence : run'.evidence.map EvidenceCandidate.evidenceId =
      run.evidence.map EvidenceCandidate.evidenceId)
    (hattempts : run'.attempts.map ResearchAttempt.attemptId =
      run.attempts.map ResearchAttempt.attemptId)
    (hevents : run'.auditEvents = run.auditEvents) : Itemised run' := by
  constructor
  · rw [hevidence]
    exact h.evidence
  · rw [hattempts, hid]
    exact h.attempts
  · rw [hevents, hid]
    exact h.events

theorem Itemised.change (h : Itemised run) (hchange : Change o supply tenant run run') :
    Itemised run' := by
  cases hchange with
  | moved =>
    exact ⟨h.evidence, h.attempts, h.events.append ResearchRun.transitionEvent_id⟩
  | recorded d => exact ⟨h.evidence, h.attempts, h.events.append ResearchRun.egressEvent_id⟩
  | reserved =>
    refine ⟨h.evidence, fun n id hid => ?_, h.events⟩
    rw [List.map_append] at hid
    by_cases hlast : n < run.attempts.length
    · rw [List.getElem?_append_left (by rwa [List.length_map])] at hid
      exact h.attempts n id hid
    · rw [List.getElem?_append_right (by rw [List.length_map]; omega), List.length_map,
        List.map_singleton, List.getElem?_singleton] at hid
      split_ifs at hid with hzero
      cases hid
      have hn : n = run.attempts.length := by omega
      rw [hn]
      rfl
  | succeeded => exact h.congr rfl rfl succeedAttempt_ids rfl
  | failed => exact h.congr rfl rfl failAttempt_ids rfl
  | gathered =>
    refine ⟨?_, h.attempts, h.events⟩
    rcases addSnapshot_evidence with hsame | ⟨hmore, hfresh⟩
    · rw [hsame]
      exact h.evidence
    · rw [hmore, List.map_append]
      apply h.evidence.append (List.nodup_singleton _)
      exact List.disjoint_singleton.mpr hfresh
  | marked => exact h.congr rfl (markConflictingEvidence_evidence _) rfl rfl
  | described hsame =>
    exact h.congr hsame.id (congrArg _ hsame.evidence) (congrArg _ hsame.attempts) hsame.events
  | _ => exact h.congr rfl rfl rfl rfl

theorem Changes.itemised (h : Changes o supply tenant base run) (hbase : Itemised base) :
    Itemised run := h.invariant (fun _ _ hrun hstep => hrun.change hstep) hbase

namespace ResearchTables

variable {T T' : ResearchTables} {k : RunKey} {stored : Option ResearchRun}

/-! ## Mirrors -/

/-- The rows of a run are its parts, in any order. -/
structure Mirrors (T : ResearchTables) (run : ResearchRun) : Prop where
  sources : (sourceTable.partsOf run.key T.sources).Perm run.sources
  snapshots : (snapshotTable.partsOf run.key T.snapshots).Perm run.snapshots
  evidence : (evidenceTable.partsOf run.key T.evidence).Perm run.evidence
  attempts : (attemptTable.partsOf run.key T.attempts).Perm run.attempts
  auditEvents : (auditEventTable.partsOf run.key T.auditEvents).Perm (numberedEvents run)

/-- The ids of the sources and of the snapshots tell them apart, and no attempt has changed since
it was first written. -/
structure Steady (T : ResearchTables) (run : ResearchRun) : Prop where
  sources : (run.sources.map SourceCandidate.sourceId).Nodup
  snapshots : (run.snapshots.map SourceSnapshot.snapshotId).Nodup
  attempts : ∀ a ∈ attemptTable.partsOf run.key T.attempts, a ∈ run.attempts

/-- The rows of a key are those of parts of the stored run. -/
structure Within (T : ResearchTables) (k : RunKey) (stored : Option ResearchRun) : Prop where
  sources : ∀ id ∈ (sourceTable.partsOf k T.sources).map SourceCandidate.sourceId,
    ∃ run ∈ stored, id ∈ run.sources.map SourceCandidate.sourceId
  snapshots : ∀ id ∈ (snapshotTable.partsOf k T.snapshots).map SourceSnapshot.snapshotId,
    ∃ run ∈ stored, id ∈ run.snapshots.map SourceSnapshot.snapshotId
  evidence : ∀ id ∈ (evidenceTable.partsOf k T.evidence).map EvidenceCandidate.evidenceId,
    ∃ run ∈ stored, id ∈ run.evidence.map EvidenceCandidate.evidenceId
  attempts : ∀ id ∈ (attemptTable.partsOf k T.attempts).map ResearchAttempt.attemptId,
    ∃ run ∈ stored, id ∈ run.attempts.map ResearchAttempt.attemptId
  auditEvents : ∀ e ∈ auditEventTable.partsOf k T.auditEvents,
    ∃ run ∈ stored, e ∈ numberedEvents run

theorem within_empty : Within empty k stored where
  sources _ h := absurd h List.not_mem_nil
  snapshots _ h := absurd h List.not_mem_nil
  evidence _ h := absurd h List.not_mem_nil
  attempts _ h := absurd h List.not_mem_nil
  auditEvents _ h := absurd h List.not_mem_nil

theorem numberedEvents_grows (h : Grows run run') {e : ResearchAuditEvent × ℕ}
    (he : e ∈ numberedEvents run) : e ∈ numberedEvents run' := by
  obtain ⟨rest, hrest⟩ := h.events
  unfold numberedEvents at he ⊢
  rw [← hrest, List.zipIdx_append]
  exact List.mem_append_left _ he

/-- Rows within a run are within one that it grows to. -/
theorem Within.grows (h : Within T k (some last)) (hgrows : Grows last run) :
    Within T k (some run) := by
  constructor
  · intro id hid
    obtain ⟨_, ⟨⟩, hmem⟩ := h.sources id hid
    exact ⟨run, rfl, hgrows.sources.subset hmem⟩
  · intro id hid
    obtain ⟨_, ⟨⟩, hmem⟩ := h.snapshots id hid
    exact ⟨run, rfl, (hgrows.snapshots.map _).subset hmem⟩
  · intro id hid
    obtain ⟨_, ⟨⟩, hmem⟩ := h.evidence id hid
    exact ⟨run, rfl, hgrows.evidence.subset hmem⟩
  · intro id hid
    obtain ⟨_, ⟨⟩, hmem⟩ := h.attempts id hid
    exact ⟨run, rfl, hgrows.attempts.subset hmem⟩
  · intro e he
    obtain ⟨_, ⟨⟩, hmem⟩ := h.auditEvents e he
    exact ⟨run, rfl, numberedEvents_grows hgrows hmem⟩

theorem nodup_numberedEvents (h : Itemised run) :
    ((numberedEvents run).map auditEventTable.ident).Nodup := by
  have hids : (numberedEvents run).map auditEventTable.ident =
      run.auditEvents.map ResearchAuditEvent.eventId := by
    change (numberedEvents run).map (ResearchAuditEvent.eventId ∘ Prod.fst) = _
    rw [← List.map_map, numberedEvents, List.zipIdx_map_fst]
  rw [hids]
  exact h.events.nodup

/-- A save leaves the rows of other keys as they are. -/
theorem Wrote.frame (h : Wrote T run T') (hk : k ≠ run.key)
    (hwithin : Within T k stored) : Within T' k stored := by
  have hsources := Projection.partsOf_writeAll_of_ne hk h.sources
  have hsnapshots := Projection.partsOf_writeAll_of_ne hk h.snapshots
  have hevidence := Projection.partsOf_writeAll_of_ne hk h.evidence
  have hattempts := Projection.partsOf_writeAll_of_ne hk h.attempts
  have hevents := Projection.partsOf_writeAll_of_ne hk h.auditEvents
  constructor
  · rw [hsources]
    exact hwithin.sources
  · rw [hsnapshots]
    exact hwithin.snapshots
  · rw [hevidence]
    exact hwithin.evidence
  · rw [hattempts]
    exact hwithin.attempts
  · rw [hevents]
    exact hwithin.auditEvents

section Save

variable (hT : T.Labelled) (h : Wrote T run T')
include hT h

/-- After a save the rows of the run's key are within it. -/
theorem Wrote.within (hrun : Itemised run) (hwithin : Within T run.key (some run)) :
    Within T' run.key (some run) := by
  constructor
  · intro id hid
    rcases (Projection.mem_ident_writeAll hT.sources h.sources).mp hid with hid | hid
    · exact hwithin.sources id hid
    · exact ⟨run, rfl, hid⟩
  · intro id hid
    rcases (Projection.mem_ident_writeAll hT.snapshots h.snapshots).mp hid with hid | hid
    · exact hwithin.snapshots id hid
    · exact ⟨run, rfl, hid⟩
  · intro id hid
    rcases (Projection.mem_ident_writeAll hT.evidence h.evidence).mp hid with hid | hid
    · exact hwithin.evidence id hid
    · exact ⟨run, rfl, hid⟩
  · intro id hid
    rcases (Projection.mem_ident_writeAll hT.attempts h.attempts).mp hid with hid | hid
    · exact hwithin.attempts id hid
    · exact ⟨run, rfl, hid⟩
  · intro e he
    rw [Projection.partsOf_writeAll hT.auditEvents h.auditEvents] at he
    rcases (mem_foldl_keep (nodup_numberedEvents hrun)).mp he with he | ⟨he, -⟩
    · exact hwithin.auditEvents e he
    · exact ⟨run, rfl, he⟩

/-- After a save the tables mirror the run exactly if it is steady. -/
theorem Wrote.mirrors_iff (hrun : Itemised run) (hwithin : Within T run.key (some run)) :
    Mirrors T' run ↔ Steady T run := by
  have hsources := Projection.overwritten_perm_iff rfl hT.sources (fun s hs => by
    obtain ⟨_, ⟨⟩, hmem⟩ := hwithin.sources _ (List.mem_map_of_mem hs)
    exact hmem) h.sources
  have hsnapshots := Projection.overwritten_perm_iff rfl hT.snapshots (fun s hs => by
    obtain ⟨_, ⟨⟩, hmem⟩ := hwithin.snapshots _ (List.mem_map_of_mem hs)
    exact hmem) h.snapshots
  have hevidence := Projection.overwritten_perm_iff rfl hT.evidence (fun e he => by
    obtain ⟨_, ⟨⟩, hmem⟩ := hwithin.evidence _ (List.mem_map_of_mem he)
    exact hmem) h.evidence
  have hattempts := Projection.kept_perm_iff rfl hT.attempts h.attempts
  have hinside : ∀ e ∈ auditEventTable.partsOf run.key T.auditEvents, e ∈ numberedEvents run := by
    intro e he
    obtain ⟨_, ⟨⟩, hmem⟩ := hwithin.auditEvents e he
    exact hmem
  have hevents := (Projection.kept_perm_iff rfl hT.auditEvents h.auditEvents).mpr
    ⟨nodup_numberedEvents hrun, hinside⟩
  constructor
  · intro hmirrors
    exact ⟨hsources.mp hmirrors.sources, hsnapshots.mp hmirrors.snapshots,
      (hattempts.mp hmirrors.attempts).2⟩
  · intro hsteady
    exact ⟨hsources.mpr hsteady.sources, hsnapshots.mpr hsteady.snapshots,
      hevidence.mpr hrun.evidence, hattempts.mpr ⟨hrun.nodup_attempts, hsteady.attempts⟩, hevents⟩

end Save

/-! ## Histories -/

/-- The tables and the rows of the runs: the rows of a key are those of parts of its run. -/
structure Attached (rows : List RunRow) (T : ResearchTables) : Prop where
  labelled : T.Labelled
  itemised : ∀ row ∈ rows, Itemised row.run
  within : ∀ k, Within T k ((lookup RunRow.key k rows).map RunRow.run)

theorem attached_empty : Attached [] empty :=
  ⟨labelled_empty, fun _ h => absurd h List.not_mem_nil, fun _ => within_empty⟩

theorem Within.fresh (h : Within T k none) : Within T k stored where
  sources id hid := by
    obtain ⟨_, ⟨⟩, -⟩ := h.sources id hid
  snapshots id hid := by
    obtain ⟨_, ⟨⟩, -⟩ := h.snapshots id hid
  evidence id hid := by
    obtain ⟨_, ⟨⟩, -⟩ := h.evidence id hid
  attempts id hid := by
    obtain ⟨_, ⟨⟩, -⟩ := h.attempts id hid
  auditEvents e he := by
    obtain ⟨_, ⟨⟩, -⟩ := h.auditEvents e he

/-- The run that a save writes is within the tables as the one it has come from. -/
theorem Attached.written {rows : List RunRow} (h : Attached rows T)
    (hlast : (lookup RunRow.key run.key rows).map RunRow.run = some last)
    (hchanges : Changes o supply tenant last run) :
    Itemised run ∧ Within T run.key (some run) := by
  have hwithin := h.within run.key
  rw [hlast] at hwithin
  obtain ⟨row, hrow, rfl⟩ := Option.map_eq_some_iff.mp hlast
  exact ⟨hchanges.itemised (h.itemised row (mem_of_lookup hrow)),
    hwithin.grows hchanges.grows⟩

/-- The run of a key after a run has been written. -/
theorem storedRun_update {rows : List RunRow}
    (hlast : (lookup RunRow.key run.key rows).map RunRow.run = some last) :
    (lookup RunRow.key k (updateWhere (fun r => r.key = run.key) (fun r => { r with run := run })
      rows)).map RunRow.run =
        if run.key = k then some run else (lookup RunRow.key k rows).map RunRow.run := by
  have hupdate : lookup RunRow.key k (updateWhere (fun r => r.key = run.key)
      (fun r => { r with run := run }) rows) = (lookup RunRow.key k rows).map fun r =>
        if decide (r.key = run.key) then { r with run := run } else r :=
    lookup_updateWhere fun _ _ => rfl
  rw [hupdate]
  split_ifs with hk
  · obtain ⟨row, hrow, -⟩ := Option.map_eq_some_iff.mp hlast
    rw [← hk, hrow, Option.map_some, Option.map_some, key_of_lookup hrow,
      if_pos (decide_eq_true rfl)]
  · cases hrow : lookup RunRow.key k rows with
    | none => rfl
    | some row =>
      rw [Option.map_some, Option.map_some, key_of_lookup hrow, decide_eq_false (Ne.symm hk)]
      rfl

/-- The tables take a run. -/
def Saves (T : ResearchTables) (run : ResearchRun) (T' : ResearchTables) : Prop :=
  T.save run = .ok T'

theorem attached_keeps : Keeps o supply Saves Attached where
  inserted := by
    intro rows T tenant run row h hproposed hrow hkey hfresh
    refine ⟨h.labelled, fun r hr => ?_, fun k => ?_⟩
    · rcases List.mem_append.mp hr with hr | hr
      · exact h.itemised r hr
      · rw [List.mem_singleton.mp hr, hrow]
        exact .proposed hproposed
    · by_cases hk : run.key = k
      · have hwithin := h.within run.key
        rw [hfresh] at hwithin
        exact (hk ▸ hwithin).fresh
      · rw [lookup_append_of_ne (by rwa [hkey])]
        exact h.within k
  written := by
    intro rows T tenant last run T' h hlast hchanges hsave
    have hwrote := save_wrote hsave
    obtain ⟨hitemised, hinside⟩ := h.written hlast hchanges
    refine ⟨hwrote.labelled h.labelled, fun r hr => ?_, fun k => ?_⟩
    · obtain ⟨r₀, hr₀, rfl⟩ := mem_updateWhere.mp hr
      split_ifs
      · exact hitemised
      · exact h.itemised r₀ hr₀
    · rw [storedRun_update hlast]
      split_ifs with hk
      · exact hk ▸ hwrote.within h.labelled hitemised hinside
      · exact hwrote.frame (Ne.symm hk) (h.within k)

variable {os : ResearchOrchestrator → Prop} {b : JobBackend} {order : ScanOrder}
  {lib : ResearchLibrary} {limits : List (String × ℕ)} {db db' : JobDatabase}
  {p q : Program ResearchRun} {t : ResearchLog} {ts : List ResearchLog} {x : ResearchEvent}

/-- In every history of operations that starts from empty stores, and wherever one more operation
is, a save leaves tables that mirror the run exactly if its sources and its snapshots have
different ids and no attempt has changed since it was first written. -/
theorem tables_mirror_iff (hos : ∀ o, os o → o.lib = lib)
    (hran : Ran os b order ⟨[], [], [], [], limits⟩ ts db) (ho : os o) (hop : Operation o p)
    (hp : p.Follows (t ++ [x]) q) (hserved : Served (Answers b order) db t db')
    (htaken : Served (Takes Saves) empty (ts.flatten ++ t) T) (hx : writtenIn x = some run)
    (hsave : T.save run = .ok T') : Mirrors T' run ↔ Steady T run := by
  have hempty : Deployed lib ⟨[], [], [], [], limits⟩ := .empty limits
  obtain ⟨hattached, tenant, last, hlast, hchanges⟩ := hran.saving hos
    (fun _ _ => attached_keeps) hempty ho hop hp hserved (fun _ _ => Supply.allows_any) htaken
    attached_empty (savedBy_written hx)
  obtain ⟨hitemised, hinside⟩ := hattached.written hlast hchanges
  exact (save_wrote hsave).mirrors_iff hattached.labelled hitemised hinside

/-- The tables after the runs that a log writes. -/
def takesAll (T : ResearchTables) (t : ResearchLog) : Option ResearchTables :=
  (t.filterMap writtenIn).foldlM (fun T run => toOption (T.save run)) T

theorem takesAll_served (h : takesAll T t = some T') : Served (Takes Saves) T t T' := by
  unfold takesAll at h
  induction t generalizing T with
  | nil =>
    cases h
    exact .nil _
  | cons x t ih =>
    rw [List.filterMap_cons] at h
    cases hx : writtenIn x with
    | none =>
      rw [hx] at h
      exact .cons (by unfold Takes; rw [hx]) (ih h)
    | some run =>
      rw [hx] at h
      dsimp only at h
      rw [List.foldlM_cons] at h
      obtain ⟨T₁, hsave, h⟩ := Option.bind_eq_some_iff.mp h
      exact .cons (by unfold Takes; rw [hx]; exact toOption_eq_some.mp hsave) (ih h)

/-- The run that the last event of a log writes, and the tables before it. -/
def lastSaved (t : ResearchLog) : Option (ResearchTables × ResearchRun) := do
  let T ← takesAll empty t.dropLast
  let x ← t.getLast?
  let run ← writtenIn x
  return (T, run)

theorem lastSaved_cases (h : lastSaved t = some (T, run)) : ∃ x,
    t.dropLast ++ [x] = t ∧ writtenIn x = some run ∧ Served (Takes Saves) empty t.dropLast T := by
  obtain ⟨T₁, htaken, h⟩ := Option.bind_eq_some_iff.mp h
  obtain ⟨x, hlast, h⟩ := Option.bind_eq_some_iff.mp h
  obtain ⟨run₁, hx, h⟩ := Option.bind_eq_some_iff.mp h
  cases h
  exact ⟨x, List.dropLast_append_getLast? x hlast, hx, takesAll_served htaken⟩

/-! ## An execution with two pages -/

/-- A digest of the first characters, which tells the pages apart. -/
def pagesPlatform : Platform :=
  { leadingPlatform with sha256 := fun text => mixedDigits (text.take 48) }

def pagesOrchestrator : ResearchOrchestrator := { permitOrchestrator with pf := pagesPlatform }

/-- Ports that do not fail, with a search that finds both pages. -/
def pagesAnswer : (c : ResearchCall) → c.Answer
  | .attach _ _ _ _ => .ok draftCase
  | .normalize source content =>
    plainCollaborators.normalizer.normalize pagesPlatform permitLibrary.toTextLibrary source content
  | c => permitAnswer (.ok (permitPage "b" "residence permits are valid")) c

def pagesExecution : Program ResearchRun :=
  pagesOrchestrator.execute Jobs.pilotTenant "generator-1" caseRequest caseHash "correlation-1" none

def pagesPlay := pagesExecution.playOn (serveStore plainOrder pagesAnswer) Jobs.emptyJobs

def pagesSaved : Option (ResearchTables × ResearchRun) := lastSaved pagesPlay.2.1

/-- The hashes of the contents of two pages. -/
def pagesHashes : List String :=
  ["sha256:a7b827479e810b412d7c8e6cd5654116c47a5ea78178d128b0bd5cec29591f9f",
    "sha256:0327b8d4ad863259b63ae9e9c987392944a64346ac7b3ab9c07d74eec5d4216d"]

/-- A snapshot that is answered has one of the contents. -/
def answersPages : ResearchEvent → Bool
  | ⟨.normalize _ _, .ok s⟩ => s.contentHash ∈ pagesHashes
  | ⟨.getSnapshot _ _ _, .ok (some s)⟩ => s.contentHash ∈ pagesHashes
  | _ => true

/-- A completed run with the parts of two pages, which its tables admit. -/
def gathersPages (s : ResearchTables × ResearchRun) : Bool :=
  (toOption (s.1.save s.2)).isSome &&
    decide (s.2.researchRunId = "research-57779fbd" ∧ s.2.status = .completed ∧
      s.2.sources.length = 2 ∧ s.2.snapshots.length = 2 ∧ s.2.evidence.length = 2 ∧
      s.2.attempts.length = 3 ∧ (s.2.sources.map SourceCandidate.sourceId).Nodup ∧
      (s.2.snapshots.map SourceSnapshot.snapshotId).Nodup ∧
      ∀ a ∈ attemptTable.partsOf s.2.key s.1.attempts, a ∈ s.2.attempts)

theorem pagesPlay_facts :
    pagesPlay.2.1.all answersPages = true ∧ pagesSaved.any gathersPages = true := by
  -- both are read off one evaluation of the execution
  have hfacts : (pagesPlay.2.1.all answersPages && pagesSaved.any gathersPages) = true := by
    decide +kernel
  exact Bool.and_eq_true_iff.mp hfacts

/-- The execution up to its last save. -/
theorem pagesSaved_cases (h : pagesSaved = some (T, run)) : ∃ x q db,
    pagesExecution.Follows (pagesPlay.2.1.dropLast ++ [x]) q ∧ writtenIn x = some run ∧
      Served (Answers Jobs.plainBackend plainOrder) Jobs.emptyJobs pagesPlay.2.1.dropLast db ∧
      Served (Takes Saves) empty ([].flatten ++ pagesPlay.2.1.dropLast) T := by
  obtain ⟨x, hlog, hx, htaken⟩ := lastSaved_cases h
  obtain ⟨hends, hserved⟩ := playOn_store Jobs.plainBackend plainOrder pagesAnswer pagesExecution
    Jobs.emptyJobs
  change pagesExecution.Ends pagesPlay.2.1 pagesPlay.1 at hends
  change Served _ _ pagesPlay.2.1 _ at hserved
  rw [← hlog] at hends hserved
  obtain ⟨db, hbefore, -⟩ := served_append_cases hserved
  refine ⟨x, _, db, hends, hx, hbefore, ?_⟩
  rw [List.flatten_nil, List.nil_append]
  exact htaken

/-- The completed run of an execution is mirrored. -/
theorem tables_mirror_pages : ∃ T T' run, pagesSaved = some (T, run) ∧ T.save run = .ok T' ∧
    run.status = .completed ∧ run.sources.length = 2 ∧ run.snapshots.length = 2 ∧
    run.evidence.length = 2 ∧ run.attempts.length = 3 ∧ Mirrors T' run := by
  obtain ⟨⟨T, run⟩, hsaved, hfacts⟩ := (Option.any_eq_true _ _).mp pagesPlay_facts.2
  rw [gathersPages, Bool.and_eq_true, decide_eq_true_eq] at hfacts
  obtain ⟨hsave, -, hstatus, hsources, hsnapshots, hevidence, hattempts, hsteady⟩ := hfacts
  obtain ⟨T', hsave⟩ := Option.isSome_iff_exists.mp hsave
  rw [toOption_eq_some] at hsave
  obtain ⟨x, q, db, hfollows, hx, hserved, htaken⟩ := pagesSaved_cases hsaved
  have hlib : ∀ o, pagesOrchestrator = o → o.lib = permitLibrary := by
    rintro o rfl
    rfl
  have hmirrors := (tables_mirror_iff hlib (.nil ⟨[], [], [], [], []⟩) rfl (.execute ..) hfollows
    hserved htaken hx hsave).mpr ⟨hsteady.1, hsteady.2.1, hsteady.2.2⟩
  exact ⟨T, T', run, hsaved, hsave, hstatus, hsources, hsnapshots, hevidence, hattempts, hmirrors⟩

end ResearchTables

end DecisionAssurance.Research
