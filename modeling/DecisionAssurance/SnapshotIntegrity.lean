import DecisionAssurance.ProjectionMirror

/-!
# Snapshots and their evidence

A run gathers a snapshot once for its content, with one piece of evidence, whether the content was
fetched or cached under another source. As far as the digits in the ids tell contents apart, the
snapshots of every run have different ids, its evidence compiles, and the tables of its parts admit
every save.
-/

namespace DecisionAssurance.Research

open Interactions Interaction Tables PostgresResearchRepository ResearchOrchestrator ResearchTables
open Jobs (JobDatabase JobBackend RunRow)

variable {pf : Platform} {lib : ResearchLibrary} {runId : String} {H : String → Prop}
  {o : ResearchOrchestrator} {supply : Supply} {tenant : TenantContext}
  {base last run run' : ResearchRun}

/-- The digest in the id of the evidence for a content. -/
def evidenceDigits (pf : Platform) (runId contentHash : String) : List Char :=
  (pf.sha256 s!"{runId}:{contentHash}".toList).toList.take 24

/-- Contents that the digits in the ids of a run tell apart. -/
structure Discerning (pf : Platform) (runId : String) (H : String → Prop) : Prop where
  digits : ∀ a, H a → (hashPrefix a).toList.length = 16
  prefixes : ∀ a b, H a → H b → hashPrefix a = hashPrefix b → a = b
  digests : ∀ a b, H a → H b → evidenceDigits pf runId a = evidenceDigits pf runId b → a = b

/-- Fetched content is normalised by the evidence normalizer; cached snapshots are any, of the
contents. -/
structure Supplied (pf : Platform) (lib : ResearchLibrary) (H : String → Prop)
    (x : ResearchEvent) : Prop where
  normalized : ∀ source content s, x = ⟨.normalize source content, .ok s⟩ → H s.contentHash ∧
    ∃ n : EvidenceNormalizer, n.normalize pf lib.toTextLibrary source content = .ok s
  cached : ∀ tenant url now s, x = ⟨.getSnapshot tenant url now, .ok (some s)⟩ → H s.contentHash

/-- The id of a snapshot of a source. -/
def snapshotIdOf (sourceId contentHash : String) : String :=
  s!"{sourceId}:snapshot:" ++ hashPrefix contentHash

/-- What the normalizer and the cache supply. -/
def contentSupply (H : String → Prop) : Supply where
  normalized source s := s.sourceId = source.sourceId ∧
    s.snapshotId = snapshotIdOf source.sourceId s.contentHash ∧ H s.contentHash
  cached s := H s.contentHash
  stops := True

theorem normalize_ids {n : EvidenceNormalizer} {tl : TextLibrary} {source : SourceCandidate}
    {content : ExtractedContent} {s : SourceSnapshot}
    (h : n.normalize pf tl source content = .ok s) :
    s.sourceId = source.sourceId ∧ s.snapshotId = snapshotIdOf source.sourceId s.contentHash := by
  unfold EvidenceNormalizer.normalize at h
  obtain ⟨_, -, h⟩ := bind_ok_cases h
  obtain ⟨_, -, h⟩ := bind_ok_cases h
  obtain ⟨_, -, h⟩ := bind_ok_cases h
  obtain ⟨_, -, h⟩ := bind_ok_cases h
  cases h
  exact ⟨rfl, rfl⟩

theorem Supplied.allows {x : ResearchEvent} (h : Supplied pf lib H x) :
    (contentSupply H).Allows x where
  normalized source content s hx := by
    obtain ⟨hs, n, hn⟩ := h.normalized source content s hx
    have hids := normalize_ids hn
    exact ⟨hids.1, hids.2, hs⟩
  cached := h.cached
  stops _ := trivial

/-- A snapshot that is obtained has the ids of its source. -/
theorem delivers_ids {c : Candidate} {s : SourceSnapshot} (h : (contentSupply H).Delivers c s) :
    s.sourceId = c.1.sourceId ∧ s.snapshotId = snapshotIdOf s.sourceId s.contentHash ∧
      H s.contentHash := by
  rcases h with ⟨hsource, hid, hs⟩ | ⟨cached, hs, rfl⟩
  · rw [hsource]
    exact ⟨rfl, hid, hs⟩
  · exact ⟨rfl, rfl, hs⟩

/-! ## Tidy runs -/

/-- The ids of a candidate and of its snapshot, and its content. -/
def EvidenceCandidate.reference (e : EvidenceCandidate) : String × String × String × String :=
  (e.evidenceId, e.snapshotId, e.sourceId, e.contentHash)

def evidenceIdOf (pf : Platform) (runId contentHash : String) : String :=
  "research-" ++ String.ofList (evidenceDigits pf runId contentHash)

/-- The reference of the evidence for a snapshot. -/
def SourceSnapshot.reference (pf : Platform) (runId : String) (s : SourceSnapshot) :
    String × String × String × String :=
  (evidenceIdOf pf runId s.contentHash, s.snapshotId, s.sourceId, s.contentHash)

/-- Snapshots of different contents under the ids of sources of the run, and the evidence for each
of them in turn. -/
structure Tidy (pf : Platform) (H : String → Prop) (run : ResearchRun) : Prop where
  contents : (run.snapshots.map SourceSnapshot.contentHash).Nodup
  known : ∀ s ∈ run.snapshots, H s.contentHash
  named : ∀ s ∈ run.snapshots, s.snapshotId = snapshotIdOf s.sourceId s.contentHash
  sourced : ∀ s ∈ run.snapshots, s.sourceId ∈ run.sources.map SourceCandidate.sourceId
  evidence : run.evidence.map EvidenceCandidate.reference =
    run.snapshots.map (SourceSnapshot.reference pf run.researchRunId)

theorem Tidy.proposed (h : o.Proposes tenant run) : Tidy pf H run := by
  obtain ⟨_, _, _, _, _, _, _, -, rfl⟩ := h
  exact ⟨List.nodup_nil, fun _ h => absurd h List.not_mem_nil,
    fun _ h => absurd h List.not_mem_nil, fun _ h => absurd h List.not_mem_nil, rfl⟩

theorem Tidy.congr (h : Tidy pf H run) (hid : run'.researchRunId = run.researchRunId)
    (hsources : run.sources.map SourceCandidate.sourceId ⊆
      run'.sources.map SourceCandidate.sourceId)
    (hsnapshots : run'.snapshots = run.snapshots)
    (hevidence : run'.evidence.map EvidenceCandidate.reference =
      run.evidence.map EvidenceCandidate.reference) : Tidy pf H run' := by
  constructor
  · rw [hsnapshots]
    exact h.contents
  · rw [hsnapshots]
    exact h.known
  · rw [hsnapshots]
    exact h.named
  · rw [hsnapshots]
    exact fun s hs => hsources (h.sourced s hs)
  · rw [hevidence, hsnapshots, hid]
    exact h.evidence

theorem evidenceIdOf_injective (hH : Discerning pf runId H) {a b : String} (ha : H a) (hb : H b)
    (h : evidenceIdOf pf runId a = evidenceIdOf pf runId b) : a = b := by
  have hchars := congrArg String.toList h
  unfold evidenceIdOf at hchars
  simp only [String.toList_append, String.toList_ofList] at hchars
  exact hH.digests a b ha hb (List.append_cancel_left hchars)

theorem Tidy.gathered (h : Tidy pf H run) (hH : Discerning pf run.researchRunId H)
    (hpf : o.pf = pf) {c : Candidate} {s : SourceSnapshot} {assessment : EvidenceAssessment}
    (hdelivers : (contentSupply H).Delivers c s)
    (hfresh : s.contentHash ∉ run.snapshots.map SourceSnapshot.contentHash)
    (hsource : c.1.sourceId ∈ run.sources.map SourceCandidate.sourceId) :
    Tidy pf H (o.addSnapshot tenant run c s assessment) := by
  obtain ⟨hid, hname, hs⟩ := delivers_ids hdelivers
  have hsnapshots : (o.addSnapshot tenant run c s assessment).snapshots = run.snapshots ++ [s] :=
    rfl
  have hnew : o.evidenceId run s ∉ run.evidence.map EvidenceCandidate.evidenceId := by
    intro hmem
    have hids : run.evidence.map EvidenceCandidate.evidenceId =
        run.snapshots.map fun s' => evidenceIdOf pf run.researchRunId s'.contentHash := by
      have hfirst := congrArg (List.map Prod.fst) h.evidence
      rwa [List.map_map, List.map_map] at hfirst
    rw [hids] at hmem
    obtain ⟨s', hs', hsame⟩ := List.mem_map.mp hmem
    rw [evidenceId, hpf] at hsame
    have hcontent := evidenceIdOf_injective hH (h.known s' hs') hs hsame
    exact hfresh (hcontent ▸ List.mem_map_of_mem hs')
  have hevidence : (o.addSnapshot tenant run c s assessment).evidence =
      run.evidence ++ [o.evidenceOf tenant run c s assessment] := by
    have hcases : (o.addSnapshot tenant run c s assessment).evidence = run.evidence ∨ _ :=
      addSnapshot_evidence
    rcases hcases with hsame | ⟨hmore, -⟩
    · exfalso
      apply hnew
      unfold addSnapshot changeSource at hsame
      dsimp only at hsame
      split_ifs at hsame with hknown
      · obtain ⟨e, he, hsame⟩ := List.any_eq_true.mp hknown
        have hid : e.evidenceId = o.evidenceId run s := of_decide_eq_true hsame
        exact hid ▸ List.mem_map_of_mem he
      · exact absurd hsame (by simp)
    · exact hmore
  constructor
  · rw [hsnapshots, List.map_append]
    exact h.contents.append (List.nodup_singleton _) (List.disjoint_singleton.mpr hfresh)
  · intro s' hs'
    rcases List.mem_append.mp (hsnapshots ▸ hs') with hs' | hs'
    · exact h.known s' hs'
    · exact List.mem_singleton.mp hs' ▸ hs
  · intro s' hs'
    rcases List.mem_append.mp (hsnapshots ▸ hs') with hs' | hs'
    · exact h.named s' hs'
    · exact List.mem_singleton.mp hs' ▸ hname
  · intro s' hs'
    rw [addSnapshot_ids]
    rcases List.mem_append.mp (hsnapshots ▸ hs') with hs' | hs'
    · exact h.sourced s' hs'
    · rw [List.mem_singleton.mp hs', hid]
      exact hsource
  · rw [hevidence, hsnapshots, List.map_append, List.map_append, h.evidence]
    have hreference : (o.evidenceOf tenant run c s assessment).reference =
        s.reference pf run.researchRunId := by
      subst hpf
      exact congrArg (fun id => (evidenceIdOf o.pf run.researchRunId s.contentHash, s.snapshotId,
        id, s.contentHash)) hid.symm
    exact congrArg (fun r => _ ++ [r]) hreference

theorem Tidy.change (h : Tidy pf H run) (hH : Discerning pf run.researchRunId H) (hpf : o.pf = pf)
    (hchange : Change o (contentSupply H) tenant run run') : Tidy pf H run' := by
  cases hchange with
  | discovered =>
    refine h.congr rfl ?_ rfl rfl
    unfold addSource
    rw [List.map_append]
    exact List.subset_append_left _ _
  | relabelled hsources => exact h.congr rfl (hsources ▸ List.Subset.refl _) rfl rfl
  | gathered assessment hdelivers hfresh hsource => exact h.gathered hH hpf hdelivers hfresh hsource
  | marked =>
    refine h.congr rfl ?_ rfl ?_
    · rw [markConflictingEvidence_sources]
      exact List.Subset.refl _
    · exact map_ids_ite (f := EvidenceCandidate.markConflicting) (fun _ => rfl) run.evidence
  | described hsame =>
    refine h.congr hsame.id ?_ hsame.snapshots (congrArg _ hsame.evidence)
    rw [hsame.sources]
    exact List.Subset.refl _
  | _ => exact h.congr rfl (List.Subset.refl _) rfl rfl

theorem tidy_changes (hH : Discerning pf base.researchRunId H) (hpf : o.pf = pf)
    (h : Changes o (contentSupply H) tenant base run) (hbase : Tidy pf H base) : Tidy pf H run := by
  have hrun : run.researchRunId = base.researchRunId ∧ Tidy pf H run := by
    apply h.invariant (I := fun run => run.researchRunId = base.researchRunId ∧ Tidy pf H run)
    · rintro run run' ⟨hid, hrun⟩ hchange
      exact ⟨hchange.identity.1.trans hid, hrun.change (hid ▸ hH) hpf hchange⟩
    · exact ⟨rfl, hbase⟩
  exact hrun.2

/-! ## Intact runs -/

/-- Snapshots of different contents and ids, with one piece of evidence for each, whose references
are found in the run, so that it compiles. -/
structure Intact (run : ResearchRun) : Prop where
  contents : (run.snapshots.map SourceSnapshot.contentHash).Nodup
  ids : (run.snapshots.map SourceSnapshot.snapshotId).Nodup
  evidenceIds : (run.evidence.map EvidenceCandidate.evidenceId).Nodup
  evidence : run.evidence.map (fun e => (e.snapshotId, e.sourceId, e.contentHash)) =
    run.snapshots.map fun s => (s.snapshotId, s.sourceId, s.contentHash)
  sourced : ∀ s ∈ run.snapshots, s.sourceId ∈ run.sources.map SourceCandidate.sourceId
  compiled : ∃ compiled, ResearchEvidenceCompiler.compile run = some compiled

/-- The digits at the end of an id tell the content. -/
theorem snapshotIdOf_content (hH : Discerning pf runId H) {sourceId sourceId' a b : String} (ha : H a)
    (hb : H b) (h : snapshotIdOf sourceId a = snapshotIdOf sourceId' b) : a = b := by
  have hchars := congrArg String.toList h
  simp only [snapshotIdOf, String.toList_append] at hchars
  have hdigits := List.append_inj_right' hchars ((hH.digits a ha).trans (hH.digits b hb).symm)
  exact hH.prefixes a b ha hb (String.toList_injective hdigits)

theorem Tidy.eq_of_content (h : Tidy pf H run) {s s' : SourceSnapshot} (hs : s ∈ run.snapshots)
    (hs' : s' ∈ run.snapshots) (hsame : s.contentHash = s'.contentHash) : s = s' :=
  List.inj_on_of_nodup_map h.contents hs hs' hsame

theorem Tidy.nodup_ids (h : Tidy pf H run) (hH : Discerning pf runId H) :
    (run.snapshots.map SourceSnapshot.snapshotId).Nodup := by
  apply h.contents.of_map.map_on
  intro s hs s' hs' hsame
  rw [h.named s hs, h.named s' hs'] at hsame
  exact h.eq_of_content hs hs' (snapshotIdOf_content hH (h.known s hs) (h.known s' hs') hsame)

/-- The snapshot of a candidate. -/
theorem Tidy.snapshot (h : Tidy pf H run) {e : EvidenceCandidate} (he : e ∈ run.evidence) :
    ∃ s ∈ run.snapshots, s.reference pf run.researchRunId = e.reference := by
  have hmem : e.reference ∈ run.evidence.map EvidenceCandidate.reference :=
    List.mem_map_of_mem he
  rw [h.evidence] at hmem
  exact List.mem_map.mp hmem

theorem Tidy.intact (h : Tidy pf H run) (hH : Discerning pf runId H) (hrun : Itemised run) :
    Intact run where
  contents := h.contents
  ids := h.nodup_ids hH
  evidenceIds := hrun.evidence
  evidence := by
    have hrest := congrArg (List.map Prod.snd) h.evidence
    rwa [List.map_map, List.map_map] at hrest
  sourced := h.sourced
  compiled := by
    apply compile_of_supported
    intro e he
    obtain ⟨s, hs, hsame⟩ := h.snapshot he
    exact ⟨s, hs, congrArg (fun r => r.2.1) hsame⟩

/-! ## Admitted saves -/

namespace ResearchTables

variable {T T' : ResearchTables} {k : RunKey} {stored : Option ResearchRun}

/-- The columns of a key's rows on which there are constraints are those of its run. -/
structure Columned (T : ResearchTables) (k : RunKey) (stored : Option ResearchRun) : Prop where
  snapshots : ∀ r ∈ T.snapshots, (snapshotTable.key r).1 = k → ∃ run ∈ stored,
    (r.snapshotId, r.contentHash) ∈ run.snapshots.map fun s => (s.snapshotId, s.contentHash)
  evidence : ∀ r ∈ T.evidence, (evidenceTable.key r).1 = k → ∃ run ∈ stored,
    (r.evidenceId, r.contentHash) ∈ run.evidence.map fun e => (e.evidenceId, e.contentHash)

theorem columned_empty : Columned empty k stored :=
  ⟨fun _ h => absurd h List.not_mem_nil, fun _ h => absurd h List.not_mem_nil⟩

theorem Columned.fresh (h : Columned T k none) : Columned T k stored where
  snapshots r hr hk := by
    obtain ⟨_, ⟨⟩, -⟩ := h.snapshots r hr hk
  evidence r hr hk := by
    obtain ⟨_, ⟨⟩, -⟩ := h.evidence r hr hk

/-- Every source of a run has a row after its sources are written. -/
theorem hasSource_written (hT : sourceTable.Labelled T.sources) {sources : List SourceRow}
    (h : sourceTable.writeAll k (fun _ _ => true) T.sources run.sources = some sources)
    {id : String} (hid : id ∈ run.sources.map SourceCandidate.sourceId) :
    hasSource sources k id = true := by
  have hmem := (Projection.mem_ident_writeAll hT h).mpr (.inr hid)
  obtain ⟨s, hs, rfl⟩ := List.mem_map.mp hmem
  obtain ⟨r, hr, hk, rfl⟩ := Projection.mem_partsOf.mp hs
  refine List.any_eq_true.mpr ⟨r, hr, decide_eq_true ?_⟩
  exact Prod.ext hk ((hT.writeAll h).named r hr).symm

theorem hasSnapshot_written {admits : List SnapshotRow → SourceSnapshot → Bool}
    (hT : snapshotTable.Labelled T.snapshots) {snapshots : List SnapshotRow}
    (h : snapshotTable.writeAll k admits T.snapshots run.snapshots = some snapshots)
    {id : String} (hid : id ∈ run.snapshots.map SourceSnapshot.snapshotId) :
    hasSnapshot snapshots k id = true := by
  have hmem := (Projection.mem_ident_writeAll hT h).mpr (.inr hid)
  obtain ⟨s, hs, rfl⟩ := List.mem_map.mp hmem
  obtain ⟨r, hr, hk, rfl⟩ := Projection.mem_partsOf.mp hs
  refine List.any_eq_true.mpr ⟨r, hr, decide_eq_true ?_⟩
  exact Prod.ext hk ((hT.writeAll h).named r hr).symm

/-- Every snapshot of a tidy run is admitted. -/
theorem snapshots_written (hrun : Tidy pf H run) (hT : T.Labelled)
    (hcolumned : Columned T run.key (some run)) {sources : List SourceRow}
    (hsources : sourceTable.writeAll run.key (fun _ _ => true) T.sources run.sources =
      some sources) : ∃ snapshots, snapshotTable.writeAll run.key
        (admitsSnapshot sources run.key) T.snapshots run.snapshots = some snapshots := by
  apply Projection.writeAll_isSome (I := fun rows => ∀ r ∈ rows,
    (snapshotTable.key r).1 = run.key → (r.snapshotId, r.contentHash) ∈
      run.snapshots.map fun s => (s.snapshotId, s.contentHash))
  · intro rows s rows' hs h hw
    exact Projection.write_columns (fun _ => rfl) (fun _ _ => rfl)
      (fun _ => List.mem_map_of_mem hs) h hw
  · intro rows s hs h hfresh
    unfold admitsSnapshot
    rw [Bool.and_eq_true, Bool.not_eq_true', List.any_eq_false]
    refine ⟨fun r hr hsame => ?_, hasSource_written hT.sources hsources (hrun.sourced s hs)⟩
    rw [Bool.and_eq_true, decide_eq_true_eq, decide_eq_true_eq] at hsame
    obtain ⟨s', hs', hpair⟩ := List.mem_map.mp (h r hr hsame.1)
    obtain ⟨hid, hcontent⟩ := Prod.mk.inj hpair
    obtain rfl := hrun.eq_of_content hs' hs (hcontent.trans hsame.2)
    exact lookup_eq_none.mp hfresh r hr (Prod.ext hsame.1 hid.symm)
  · intro r hr hk
    obtain ⟨_, ⟨⟩, hmem⟩ := hcolumned.snapshots r hr hk
    exact hmem

/-- Every piece of evidence of a tidy run is admitted. -/
theorem evidence_written (hrun : Tidy pf H run) (hT : T.Labelled)
    (hcolumned : Columned T run.key (some run)) {sources : List SourceRow}
    {snapshots : List SnapshotRow}
    (hsources : sourceTable.writeAll run.key (fun _ _ => true) T.sources run.sources =
      some sources)
    (hsnapshots : snapshotTable.writeAll run.key (admitsSnapshot sources run.key) T.snapshots
      run.snapshots = some snapshots) : ∃ evidence, evidenceTable.writeAll run.key
        (admitsEvidence sources snapshots run.key) T.evidence run.evidence = some evidence := by
  apply Projection.writeAll_isSome (I := fun rows => ∀ r ∈ rows,
    (evidenceTable.key r).1 = run.key → (r.evidenceId, r.contentHash) ∈
      run.evidence.map fun e => (e.evidenceId, e.contentHash))
  · intro rows e rows' he h hw
    exact Projection.write_columns (fun _ => rfl) (fun _ _ => rfl)
      (fun _ => List.mem_map_of_mem he) h hw
  · intro rows e he h hfresh
    obtain ⟨s, hs, hsame⟩ := hrun.snapshot he
    have hsource : s.sourceId = e.sourceId := congrArg (fun r => r.2.2.1) hsame
    have hsnapshot : s.snapshotId = e.snapshotId := congrArg (fun r => r.2.1) hsame
    unfold admitsEvidence
    rw [Bool.and_eq_true, Bool.and_eq_true, Bool.not_eq_true', List.any_eq_false]
    refine ⟨⟨fun r hr hkept => ?_, ?_⟩, ?_⟩
    · rw [Bool.and_eq_true, decide_eq_true_eq, decide_eq_true_eq] at hkept
      obtain ⟨e', he', hpair⟩ := List.mem_map.mp (h r hr hkept.1)
      obtain ⟨hid, hcontent⟩ := Prod.mk.inj hpair
      obtain ⟨s', hs', hsame'⟩ := hrun.snapshot he'
      have hcontents : s'.contentHash = s.contentHash :=
        (congrArg (fun r => r.2.2.2) hsame').trans (hcontent.trans (hkept.2.trans
          (congrArg (fun r => r.2.2.2) hsame).symm))
      obtain rfl := hrun.eq_of_content hs' hs hcontents
      have hids : e'.evidenceId = e.evidenceId := congrArg Prod.fst (hsame'.symm.trans hsame)
      exact lookup_eq_none.mp hfresh r hr (Prod.ext hkept.1 (hid.symm.trans hids))
    · exact hasSource_written hT.sources hsources (hsource ▸ hrun.sourced s hs)
    · exact hasSnapshot_written hT.snapshots hsnapshots
        (hsnapshot ▸ List.mem_map_of_mem hs)
  · intro r hr hk
    obtain ⟨_, ⟨⟩, hmem⟩ := hcolumned.evidence r hr hk
    exact hmem

variable (T run k) in
theorem attempts_written : ∃ attempts, attemptTable.writeAll k (fun _ _ => true) T.attempts
    run.attempts = some attempts :=
  Projection.writeAll_isSome (I := fun _ => True) (fun _ _ _ _ _ _ => trivial)
    (fun _ _ _ _ _ => rfl) trivial

variable (T run k) in
theorem sources_written : ∃ sources, sourceTable.writeAll k (fun _ _ => true) T.sources
    run.sources = some sources :=
  Projection.writeAll_isSome (I := fun _ => True) (fun _ _ _ _ _ _ => trivial)
    (fun _ _ _ _ _ => rfl) trivial

/-! ### Events -/

theorem numberedEvents_eq {e e' : ResearchAuditEvent × ℕ} (he : e ∈ numberedEvents run)
    (he' : e' ∈ numberedEvents run) (h : e.2 = e'.2) : e = e' := by
  have hfirst := (List.mem_zipIdx_iff_le_and_getElem?_sub.mp he).2
  have hsecond := (List.mem_zipIdx_iff_le_and_getElem?_sub.mp he').2
  rw [h, hsecond] at hfirst
  exact Prod.ext (Option.some.inj hfirst).symm h

/-- Every event of a run whose rows hold events of it is saved. -/
theorem events_written (hrun : Itemised run) {events : List (ResearchAuditEvent × ℕ)}
    (hevents : ∀ e ∈ events, e ∈ numberedEvents run) {rows : List AuditEventRow}
    (hT : auditEventTable.Labelled rows)
    (hinside : ∀ r ∈ rows, (auditEventTable.key r).1 = run.key →
      (r.event, r.sequence) ∈ numberedEvents run) :
    ∃ rows', events.foldlM (saveEvent run.key) rows = .ok rows' := by
  induction events generalizing rows with
  | nil => exact ⟨rows, rfl⟩
  | cons e events ih =>
    have he := hevents e List.mem_cons_self
    have hagrees : agrees run.key rows e = true := by
      unfold agrees
      split
      · rename_i row hrow
        have hkey := key_of_lookup hrow
        have hmem := mem_of_lookup hrow
        have hid : row.event.eventId = e.1.eventId :=
          (hT.named row hmem).trans (congrArg Prod.snd hkey)
        have hsame := List.inj_on_of_nodup_map (nodup_numberedEvents hrun)
          (hinside row hmem (congrArg Prod.fst hkey)) he hid
        exact decide_eq_true (congrArg Prod.fst hsame)
      · rfl
    obtain ⟨rows₁, hwrite⟩ : ∃ rows₁, auditEventTable.write run.key (admitsEvent run.key) rows e =
        some rows₁ := by
      unfold Projection.write
      split_ifs with hfound hadmitted
      · exact ⟨_, rfl⟩
      · exact ⟨_, rfl⟩
      · exfalso
        apply hadmitted
        have hfresh := Option.not_isSome_iff_eq_none.mp hfound
        unfold admitsEvent
        rw [Bool.not_eq_true', List.any_eq_false]
        intro r hr hkept
        rw [Bool.and_eq_true, decide_eq_true_eq, decide_eq_true_eq] at hkept
        have hsame := numberedEvents_eq (hinside r hr hkept.1) he hkept.2
        have hid := (hT.named r hr).symm.trans (congrArg (fun e => e.1.eventId) hsame)
        exact lookup_eq_none.mp hfresh r hr (Prod.ext hkept.1 hid)
    have hstep : saveEvent run.key rows e = .ok rows₁ := by
      unfold saveEvent constrained
      rw [hagrees, hwrite]
      rfl
    rw [List.foldlM_cons, hstep]
    apply ih (fun e he => hevents e (List.mem_cons_of_mem _ he)) (hT.write hwrite)
    exact Projection.write_columns (S := fun e => e ∈ numberedEvents run) (fun _ => rfl)
      (fun _ _ => rfl) (fun _ => he) hinside hwrite

/-- The tables admit a save of a tidy run. -/
theorem save_admitted (hrun : Tidy pf H run) (hitemised : Itemised run) (hT : T.Labelled)
    (hwithin : Within T run.key (some run)) (hcolumned : Columned T run.key (some run)) :
    ∃ T', T.save run = .ok T' := by
  obtain ⟨sources, hsources⟩ := sources_written run T run.key
  obtain ⟨snapshots, hsnapshots⟩ := snapshots_written hrun hT hcolumned hsources
  obtain ⟨evidence, hevidence⟩ := evidence_written hrun hT hcolumned hsources hsnapshots
  obtain ⟨attempts, hattempts⟩ := attempts_written run T run.key
  obtain ⟨events, hevents⟩ := events_written hitemised (fun _ he => he) hT.auditEvents
    fun r hr hk => by
      obtain ⟨_, ⟨⟩, hmem⟩ := hwithin.auditEvents (r.event, r.sequence)
        (Projection.mem_partsOf.mpr ⟨r, hr, hk, rfl⟩)
      exact hmem
  refine ⟨⟨sources, snapshots, evidence, attempts, events⟩, ?_⟩
  unfold save constrained
  dsimp only
  rw [hsources, orRaise, ok_bind, hsnapshots, orRaise, ok_bind, hevidence, orRaise, ok_bind,
    hattempts, orRaise, ok_bind, hevents, ok_bind]
  rfl

/-- A save leaves the columns of a key's rows those of its run. -/
theorem Wrote.columned (h : Wrote T run T') (hstored : k = run.key → stored = some run)
    (hcolumned : Columned T k stored) : Columned T' k stored where
  snapshots := Projection.writeAll_columns (S := fun c => ∃ run ∈ stored,
    c ∈ run.snapshots.map fun s => (s.snapshotId, s.contentHash)) (fun _ => rfl) (fun _ _ => rfl)
    (fun _ hs hk => ⟨run, hstored hk, List.mem_map_of_mem hs⟩) hcolumned.snapshots h.snapshots
  evidence := Projection.writeAll_columns (S := fun c => ∃ run ∈ stored,
    c ∈ run.evidence.map fun e => (e.evidenceId, e.contentHash)) (fun _ => rfl) (fun _ _ => rfl)
    (fun _ he hk => ⟨run, hstored hk, List.mem_map_of_mem he⟩) hcolumned.evidence h.evidence

end ResearchTables

/-! ## Histories -/

/-- Columns within a run are within one that it comes to by changes. -/
theorem ResearchTables.Columned.changes {T : ResearchTables} {k : RunKey}
    (h : T.Columned k (some last)) (hchanges : Changes o supply tenant last run)
    (hlast : Tidy pf H last) (hrun : Tidy pf H run) : T.Columned k (some run) := by
  have hid := hchanges.id
  obtain ⟨rest, hrest⟩ := hchanges.grows.snapshots
  constructor
  · intro r hr hk
    obtain ⟨_, ⟨⟩, hmem⟩ := h.snapshots r hr hk
    refine ⟨run, rfl, ?_⟩
    rw [← hrest, List.map_append]
    exact List.mem_append_left _ hmem
  · intro r hr hk
    obtain ⟨_, ⟨⟩, hmem⟩ := h.evidence r hr hk
    refine ⟨run, rfl, ?_⟩
    obtain ⟨e, he, hpair⟩ := List.mem_map.mp hmem
    have hreferences : e.reference ∈ run.evidence.map EvidenceCandidate.reference := by
      rw [hrun.evidence, ← hrest, hid, List.map_append, ← hlast.evidence]
      exact List.mem_append_left _ (List.mem_map_of_mem he)
    obtain ⟨e', he', hsame⟩ := List.mem_map.mp hreferences
    refine List.mem_map.mpr ⟨e', he', ?_⟩
    rw [← hpair]
    exact congrArg (fun r => (r.1, r.2.2.2)) hsame

/-- The tables of a run that is tidy. -/
structure Orderly (pf : Platform) (runId : String) (H : String → Prop) (rows : List RunRow)
    (T : ResearchTables) : Prop extends Attached rows T where
  tidy : ∀ row ∈ rows, row.run.researchRunId = runId → Tidy pf H row.run
  columned : ∀ k : RunKey, k.2 = runId → T.Columned k ((lookup RunRow.key k rows).map RunRow.run)

theorem orderly_empty : Orderly pf runId H [] ResearchTables.empty :=
  ⟨attached_empty, fun _ h => absurd h List.not_mem_nil, fun _ _ => columned_empty⟩

/-- The run that a save writes is tidy, and the columns are within it. -/
theorem Orderly.written {rows : List RunRow} {T : ResearchTables}
    (h : Orderly pf run.researchRunId H rows T) (hH : Discerning pf run.researchRunId H)
    (hpf : o.pf = pf) (hlast : (lookup RunRow.key run.key rows).map RunRow.run = some last)
    (hchanges : Changes o (contentSupply H) tenant last run) :
    Tidy pf H run ∧ T.Columned run.key (some run) := by
  have hid := hchanges.id
  have hcolumned := h.columned run.key rfl
  rw [hlast] at hcolumned
  obtain ⟨row, hrow, rfl⟩ := Option.map_eq_some_iff.mp hlast
  have htidy := h.tidy row (mem_of_lookup hrow) hid.symm
  have hrun := tidy_changes (hid ▸ hH) hpf hchanges htidy
  exact ⟨hrun, hcolumned.changes hchanges htidy hrun⟩

theorem orderly_keeps (hH : Discerning pf runId H) (hpf : o.pf = pf) :
    Keeps o (contentSupply H) Saves (Orderly pf runId H) where
  inserted := by
    intro rows T tenant run row h hproposed hrow hkey hfresh
    have hattached : Keeps o (contentSupply H) Saves Attached := attached_keeps
    refine ⟨hattached.inserted _ _ _ _ _ h.toAttached hproposed hrow hkey hfresh,
      fun r hr hid => ?_, fun k hid => ?_⟩
    · rcases List.mem_append.mp hr with hr | hr
      · exact h.tidy r hr hid
      · rw [List.mem_singleton.mp hr, hrow]
        exact .proposed hproposed
    · by_cases hk : run.key = k
      · subst hk
        have hcolumned := h.columned run.key hid
        rw [hfresh] at hcolumned
        exact hcolumned.fresh
      · rw [lookup_append_of_ne (by rwa [hkey])]
        exact h.columned k hid
  written := by
    intro rows T tenant last run T' h hlast hchanges hsave
    have hwrote := save_wrote hsave
    refine ⟨attached_keeps.written _ _ _ _ _ _ h.toAttached hlast hchanges hsave,
      fun r hr hid => ?_, fun k hid => ?_⟩
    · obtain ⟨r₀, hr₀, rfl⟩ := mem_updateWhere.mp hr
      split_ifs at hid ⊢
      · subst hid
        exact (h.written hH hpf hlast hchanges).1
      · exact h.tidy r₀ hr₀ hid
    · rw [storedRun_update hlast]
      split_ifs with hk
      · subst hk
        subst hid
        exact hwrote.columned (fun _ => rfl) (h.written hH hpf hlast hchanges).2
      · exact hwrote.columned (fun hsame => absurd hsame.symm hk) (h.columned k hid)

variable {os : ResearchOrchestrator → Prop} {b : JobBackend} {order : ScanOrder}
  {limits : List (String × ℕ)} {db db' : JobDatabase} {p q : Program ResearchRun}
  {t : ResearchLog} {ts : List ResearchLog} {x : ResearchEvent} {T : ResearchTables}

/-- In every history of operations that starts from empty stores, with any providers and any cache,
a run that is saved is intact, and the tables of its parts admit it, as far as the digits in the ids
of the run tell the contents of the history apart. -/
theorem saves_intact (hos : ∀ o, os o → o.pf = pf ∧ o.lib = lib)
    (hH : Discerning pf run.researchRunId H)
    (hran : Ran os b order ⟨[], [], [], [], limits⟩ ts db) (ho : os o) (hop : Operation o p)
    (hp : p.Follows (t ++ [x]) q) (hserved : Served (Answers b order) db t db')
    (hsupply : ∀ y ∈ ts.flatten ++ t, Supplied pf lib H y)
    (htaken : Served (Takes Saves) ResearchTables.empty (ts.flatten ++ t) T)
    (hx : savedBy x.1 = some run) : Intact run ∧ ∃ T', T.save run = .ok T' := by
  have hempty : Deployed lib ⟨[], [], [], [], limits⟩ := .empty limits
  obtain ⟨horderly, tenant, last, hlast, hchanges⟩ := hran.saving (fun o ho => (hos o ho).2)
    (fun o ho => orderly_keeps hH (hos o ho).1) hempty ho hop hp hserved
    (fun y hy => (hsupply y hy).allows) htaken orderly_empty hx
  obtain ⟨htidy, hcolumned⟩ := horderly.written hH (hos o ho).1 hlast hchanges
  obtain ⟨hitemised, hinside⟩ := horderly.toAttached.written hlast hchanges
  exact ⟨htidy.intact hH hitemised,
    save_admitted htidy hitemised horderly.labelled hinside hcolumned⟩

theorem pagesHashes_discerning :
    Discerning pagesPlatform "research-57779fbd" (· ∈ pagesHashes) where
  digits := by decide +kernel
  prefixes := by
    have hprefixes : ∀ a ∈ pagesHashes, ∀ b ∈ pagesHashes, hashPrefix a = hashPrefix b → a = b := by
      decide +kernel
    exact fun a b ha hb => hprefixes a ha b hb
  digests := by
    have hdigests : ∀ a ∈ pagesHashes, ∀ b ∈ pagesHashes,
        evidenceDigits pagesPlatform "research-57779fbd" a =
          evidenceDigits pagesPlatform "research-57779fbd" b → a = b := by
      decide +kernel
    exact fun a b ha hb => hdigests a ha b hb

theorem pagesPlay_supplied : ∀ y ∈ pagesPlay.2.1,
    Supplied pagesPlatform permitLibrary (· ∈ pagesHashes) y := by
  intro y hy
  have hcontents := List.all_eq_true.mp pagesPlay_facts.1 y hy
  have hplayed : ∀ y ∈ pagesPlay.2.1, ∃ db, y.2 = (serveStore plainOrder pagesAnswer db y.1).1 :=
    playOn_answers _ _ _
  obtain ⟨db, hserved⟩ := hplayed y hy
  constructor
  · rintro source content s rfl
    exact ⟨of_decide_eq_true hcontents, plainCollaborators.normalizer, hserved.symm⟩
  · rintro tenant url now s rfl
    exact of_decide_eq_true hcontents

/-- The save of a completed run with two pages is admitted. -/
theorem saves_intact_pages : ∃ T run, pagesSaved = some (T, run) ∧ run.status = .completed ∧
    run.snapshots.length = 2 ∧ run.evidence.length = 2 ∧ Intact run ∧
    ∃ T', T.save run = .ok T' := by
  obtain ⟨⟨T, run⟩, hsaved, hfacts⟩ := (Option.any_eq_true _ _).mp pagesPlay_facts.2
  rw [gathersPages, Bool.and_eq_true, decide_eq_true_eq] at hfacts
  obtain ⟨-, hid, hstatus, -, hsnapshots, hevidence, -⟩ := hfacts
  obtain ⟨x, q, db, hfollows, hx, hserved, htaken⟩ := pagesSaved_cases hsaved
  have hos : ∀ o, pagesOrchestrator = o → o.pf = pagesPlatform ∧ o.lib = permitLibrary := by
    rintro o rfl
    exact ⟨rfl, rfl⟩
  have hsupply : ∀ y ∈ [].flatten ++ pagesPlay.2.1.dropLast,
      Supplied pagesPlatform permitLibrary (· ∈ pagesHashes) y :=
    fun y hy => pagesPlay_supplied y (List.mem_of_mem_dropLast hy)
  have hintact := saves_intact hos (hid ▸ pagesHashes_discerning) (.nil ⟨[], [], [], [], []⟩) rfl
    (.execute ..) hfollows hserved hsupply htaken (savedBy_written hx)
  exact ⟨T, run, hsaved, hstatus, hsnapshots, hevidence, hintact⟩

end DecisionAssurance.Research
