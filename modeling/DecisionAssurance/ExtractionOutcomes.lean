import DecisionAssurance.DiscoveryOutcomes

/-!
# Outcomes of an extraction

Every candidate of an extraction leaves a snapshot in the run, or its source as a citation.
-/

namespace DecisionAssurance.Research

open Interactions Interaction ResearchStatus

namespace ResearchOrchestrator

variable {o : ResearchOrchestrator} {tenant : TenantContext} {run run' : ResearchRun}
  {t t' : ResearchLog} {c : Candidate} {i : ℕ}

/-! ## Sources under way -/

/-- The source at an index is kept as a citation. -/
def Cited (i : ℕ) (run : ResearchRun) : Prop :=
  ∃ s, run.sources[i]? = some s ∧ s.status = "CITATION_ONLY"

theorem changeSource_length {f : SourceCandidate → SourceCandidate} :
    (changeSource run c f).sources.length = run.sources.length := List.length_modify ..

theorem changeSource_others {f : SourceCandidate → SourceCandidate} {j : ℕ} (h : j ≠ c.2) :
    (changeSource run c f).sources[j]? = run.sources[j]? := by
  simp only [changeSource, List.getElem?_modify, if_neg h.symm, Option.map_eq_map, Option.map_id']

theorem changeSource_self {f : SourceCandidate → SourceCandidate}
    (h : c.2 < run.sources.length) :
    ∃ s, (changeSource run c f).sources[c.2]? = some (f s) := by
  refine ⟨run.sources[c.2], ?_⟩
  simp only [changeSource, List.getElem?_modify, if_true, List.getElem?_eq_getElem h,
    Option.map_eq_map, Option.map_some]

theorem changeSource_current {f : SourceCandidate → SourceCandidate} (h : Current o t run) :
    Current o t (changeSource run c f) := by
  obtain ⟨base, hseen, hbase⟩ := h.continues
  have hnil : (changeSource run c f).sources = [] ↔ run.sources = [] := by
    rw [← List.length_eq_zero_iff, changeSource_length, List.length_eq_zero_iff]
  exact ⟨⟨base, hseen, hbase.same rfl rfl rfl rfl rfl⟩, ⟨h.sound.domains,
    fun hs => h.sound.sourced (hnil.mp hs), h.sound.supported,
    fun hp => mt hnil.mp (h.sound.partly hp)⟩⟩

/-- What becomes of a candidate: a snapshot, or a citation; other sources stay as they are. -/
structure Obtains (o : ResearchOrchestrator) (run : ResearchRun) (i : ℕ)
    (p : ResearchRun × Option SourceSnapshot) (t' : ResearchLog) : Prop where
  current : Current o t' p.1
  status : p.1.status = run.status
  request : p.1.request = run.request
  snapshots : p.1.snapshots = run.snapshots
  length : p.1.sources.length = run.sources.length
  others : ∀ j ≠ i, p.1.sources[j]? = run.sources[j]?
  cited : p.2 = none → Cited i p.1

/-- A run whose sources differ from another's at one index only. -/
structure Selects (o : ResearchOrchestrator) (run : ResearchRun) (i : ℕ) (run' : ResearchRun)
    (t' : ResearchLog) : Prop where
  current : Current o t' run'
  status : run'.status = run.status
  request : run'.request = run.request
  snapshots : run'.snapshots = run.snapshots
  length : run'.sources.length = run.sources.length
  others : ∀ j ≠ i, run'.sources[j]? = run.sources[j]?

theorem Selects.obtains {p : ResearchRun × Option SourceSnapshot} (h : Selects o run i run' t)
    (h' : Obtains o run' i p t') : Obtains o run i p t' where
  current := h'.current
  status := h'.status.trans h.status
  request := h'.request.trans h.request
  snapshots := h'.snapshots.trans h.snapshots
  length := h'.length.trans h.length
  others j hj := (h'.others j hj).trans (h.others j hj)
  cited := h'.cited

theorem Selects.of_keeps (hcurrent : Current o t' run') (hkeeps : Keeps run run') :
    Selects o run i run' t' where
  current := hcurrent
  status := hkeeps.status
  request := hkeeps.request
  snapshots := hkeeps.snapshots
  length := congrArg List.length hkeeps.sources
  others j _ := congrArg (fun sources => sources[j]?) hkeeps.sources

theorem Selects.trans {run'' : ResearchRun} {t'' : ResearchLog} (h : Selects o run i run' t')
    (h' : Selects o run' i run'' t'') : Selects o run i run'' t'' where
  current := h'.current
  status := h'.status.trans h.status
  request := h'.request.trans h.request
  snapshots := h'.snapshots.trans h.snapshots
  length := h'.length.trans h.length
  others j hj := (h'.others j hj).trans (h.others j hj)

theorem Selects.found (h : Selects o run i run' t') (snapshot : SourceSnapshot) :
    Obtains o run i (run', some snapshot) t' where
  current := h.current
  status := h.status
  request := h.request
  snapshots := h.snapshots
  length := h.length
  others := h.others
  cited := nofun

theorem changeSource_selects {f : SourceCandidate → SourceCandidate} (h : Current o t run) :
    Selects o run c.2 (changeSource run c f) t where
  current := changeSource_current h
  status := rfl
  request := rfl
  snapshots := rfl
  length := changeSource_length
  others _ hj := changeSource_others hj

theorem giveUp_obtains {error : ProviderError} (h : Current o t run)
    (hc : c.2 < run.sources.length) : Obtains o run c.2 (giveUp run c error, none) t := by
  have hchange := changeSource_selects (c := c)
    (f := withStatus "CITATION_ONLY" ["SEARCH_CITATION_ONLY", error.reasonCode]) h
  have herror := recordError_tracks error (some c.1.sourceId) hchange.current
  have hall := hchange.trans (Selects.of_keeps herror.current herror.keeps)
  refine ⟨hall.current, hall.status, hall.request, hall.snapshots, hall.length, hall.others,
    fun _ => ?_⟩
  obtain ⟨s, hs⟩ := changeSource_self
    (f := withStatus "CITATION_ONLY" ["SEARCH_CITATION_ONLY", error.reasonCode]) hc
  exact ⟨_, hs, rfl⟩

/-! ## Contents -/

theorem extractOutcome_contains (ht : Unfaulted t) (hrun : Current o t run)
    (hstatus : run.status ≠ created) :
    o.Contains (o.extractOutcome tenant run c) (fun p t' => Tracks o run t p.1 t') t := by
  refine ensures_ask_bind.mpr ⟨trivial, fun cancelled _ => ?_⟩
  have hfirst := Tracks.quiet hrun (quiet_snoc (x := ⟨.cancelled, cancelled⟩) rfl id)
  cases cancelled with
  | true => exact ⟨clean_snoc ht fun _ => id, hfirst⟩
  | false =>
    refine ensures_ask_bind.mpr ⟨trivial, fun reply _ => ?_⟩
    have hsecond := hfirst.trans (Tracks.quiet hfirst.current
      (quiet_snoc (x := ⟨.extract (o.extractionRequest run c), reply⟩) rfl id))
    refine (replied_contains (clean_snoc (clean_snoc ht fun _ => id) fun _ => id)
      hsecond.current hstatus).exact_mono fun p t' hp => hsecond.trans hp

/-- The check of a content: its rejections leave the log clean, other exceptions stain it. -/
theorem acceptContent_ensures {policy : PublicUrlPolicy} {content : ExtractedContent}
    (ht : Unfaulted t) :
    (acceptContent policy c content).Ensures o.terms
      (fun r t' => match r with
        | .ok _ | .error (.urlRejected _) | .error (.normalizationRejected _) =>
          Unfaulted t' ∧ lastSeen t' = lastSeen t
        | .error _ => Stained Calm Faulty t') t := by
  refine ensures_ask_bind.mpr ⟨trivial, fun validated _ => ?_⟩
  have hseen : lastSeen (t ++ [⟨.validateUrl policy content.canonicalUrl, validated⟩]) =
      lastSeen t := by
    rw [lastSeen_snoc]
    rfl
  cases validated with
  | error e =>
    cases e with
    | urlRejected reason =>
      have hclean : Unfaulted (t ++ [⟨.validateUrl policy content.canonicalUrl,
          .error (.urlRejected reason)⟩]) := clean_snoc ht fun _ hf => hf reason rfl
      exact ⟨hclean, hseen⟩
    | normalizationRejected reason => exact ⟨clean_snoc ht nofun, hseen⟩
    | _ => exact stained_snoc nofun
  | ok safe =>
    have hclean : Unfaulted (t ++ [⟨.validateUrl policy content.canonicalUrl, .ok safe⟩]) :=
      clean_snoc ht fun _ => id
    change (if safe.domain ≠ c.1.domain then raise (.urlRejected "CROSS_DOMAIN_REDIRECT")
      else _ : Program SourceSnapshot).Ensures o.terms _ _
    split_ifs with hdomain
    · exact ⟨hclean, hseen⟩
    · refine ensures_ask_bind.mpr ⟨trivial, fun normalized _ => ?_⟩
      have hseen' : lastSeen (t ++ [⟨.validateUrl policy content.canonicalUrl, .ok safe⟩] ++
          [⟨.normalize c.1 content, normalized⟩]) = lastSeen t := by
        rw [lastSeen_snoc]
        exact hseen
      cases normalized with
      | ok snapshot => exact ⟨clean_snoc hclean fun _ => id, hseen'⟩
      | error e =>
        cases e with
        | urlRejected reason =>
          exact ⟨clean_snoc hclean fun _ hf => (hf reason).1 rfl, hseen'⟩
        | normalizationRejected reason =>
          exact ⟨clean_snoc hclean fun _ hf => (hf reason).2 rfl, hseen'⟩
        | _ => exact stained_snoc fun _ reason => ⟨nofun, nofun⟩

theorem failExtraction_contains {error : ProviderError} (ht : Unfaulted t)
    (hrun : Current o t run) (hc : c.2 < run.sources.length) :
    o.Contains (o.failExtraction tenant run c error) (fun p t' => Obtains o run c.2 p t') t := by
  refine (recordFailure_contains ht).exact_bind fun _ t₁ ht₁ hrecord => ?_
  have hquiet := Tracks.quiet hrun hrecord
  have hfail := hquiet.trans (failAttempt_tracks error hquiet.current)
  exact ⟨ht₁, (Selects.of_keeps hfail.current hfail.keeps).obtains (giveUp_obtains hfail.current hc)⟩

theorem useContent_contains {policy : PublicUrlPolicy} {content : ExtractedContent}
    (ht : Unfaulted t) (hrun : Current o t run) (hc : c.2 < run.sources.length) :
    o.Contains (o.useContent tenant run policy c content)
      (fun p t' => Obtains o run c.2 p t') t := by
  refine ensures_bind.mpr (ensures_attempt.mpr ((acceptContent_ensures ht).mono fun r t₁ hr => ?_))
  have hgive : Unfaulted t₁ ∧ lastSeen t₁ = lastSeen t → ∀ error, Unfaulted t₁ ∧
      Obtains o run c.2 (giveUp (failAttempt run error) c error, none) t₁ := by
    rintro ⟨ht₁, hseen⟩ error
    have hcurrent : Current o t₁ run := ⟨by rw [hseen]; exact hrun.continues, hrun.sound⟩
    have hfail := failAttempt_tracks error hcurrent
    exact ⟨ht₁, (Selects.of_keeps hfail.current hfail.keeps).obtains
      (giveUp_obtains hfail.current hc)⟩
  cases r with
  | ok snapshot =>
    obtain ⟨ht₁, hseen⟩ := hr
    have hcurrent : Current o t₁ run := ⟨by rw [hseen]; exact hrun.continues, hrun.sound⟩
    refine (recordSuccess_contains ht₁).exact_bind fun _ t₂ ht₂ hrecord => ?_
    have hquiet := Tracks.quiet hcurrent hrecord
    have hsucceed := hquiet.trans (succeedAttempt_tracks hquiet.current)
    exact ⟨ht₂, (Selects.of_keeps hsucceed.current hsucceed.keeps).found snapshot⟩
  | error e =>
    cases e with
    | urlRejected reason => exact hgive hr _
    | normalizationRejected reason => exact hgive hr _
    | _ => exact hr

theorem extractContent_contains {policy : PublicUrlPolicy} (ht : Unfaulted t)
    (hrun : Current o t run) (hstatus : run.status ≠ created) (hc : c.2 < run.sources.length) :
    o.Contains (o.extractContent tenant run policy c) (fun p t' => Obtains o run c.2 p t') t := by
  refine (extractOutcome_contains ht hrun hstatus).exact_bind fun p t₁ ht₁ h₁ => ?_
  obtain ⟨run₁, outcome⟩ := p
  refine (ensureActive_contains ht₁).exact_bind fun _ t₂ ht₂ hactive => ?_
  have h₂ := h₁.trans (Tracks.quiet h₁.current hactive)
  have hkept : Selects o run c.2 run₁ t₂ := .of_keeps h₂.current h₂.keeps
  have hc₂ : c.2 < run₁.sources.length := hkept.length ▸ hc
  have hfail : ∀ error, o.Contains (o.failExtraction tenant run₁ c error)
      (fun p t' => Obtains o run c.2 p t') t₂ := fun error =>
    (failExtraction_contains ht₂ h₂.current hc₂).exact_mono fun p t' => hkept.obtains
  cases outcome with
  | error e => exact hfail _
  | ok extraction =>
    obtain ⟨content, error, valid⟩ := extraction
    cases error with
    | some error => exact hfail _
    | none =>
      cases content with
      | none => exact hfail _
      | some content =>
        exact (useContent_contains ht₂ h₂.current hc₂).exact_mono fun p t' => hkept.obtains

/-! ## Snapshots -/

theorem cachedContent_contains (ht : Unfaulted t) :
    o.Contains (o.cachedContent tenant run c) (fun _ t' => Quiet t t') t := by
  unfold cachedContent
  split_ifs with hrefresh
  · exact ⟨ht, Quiet.refl t⟩
  · refine (time_contains ht).exact_bind fun currentTime t₁ ht₁ hclock => ?_
    refine ensures_ask_bind.mpr ⟨trivial, fun found _ => ?_⟩
    cases found with
    | error e => exact stained_snoc fun _ => trivial
    | ok cached => exact ⟨clean_snoc ht₁ fun _ => id, hclock.trans (quiet_snoc rfl id)⟩

theorem obtainSnapshot_contains {policy : PublicUrlPolicy} (ht : Unfaulted t)
    (hrun : Current o t run) (hstatus : run.status ≠ created) (hc : c.2 < run.sources.length) :
    o.Contains (o.obtainSnapshot tenant run policy c) (fun p t' => Obtains o run c.2 p t') t := by
  refine (ensureActive_contains ht).exact_bind fun _ t₁ ht₁ hactive => ?_
  have hselect := changeSource_selects (c := c) (f := fun s => { s with
    status := "SELECTED", artifactType := "SELECTED_SOURCE", reasonCodes := ["SOURCE_SELECTED"] })
    (hrun.quiet hactive)
  refine (cachedContent_contains ht₁).exact_bind fun cached t₂ ht₂ hcached => ?_
  have h₂ := hselect.trans (.of_keeps (hselect.current.quiet hcached) (Keeps.refl _))
  have hc₂ := h₂.length ▸ hc
  cases cached with
  | some cached => exact ⟨ht₂, h₂.found _⟩
  | none =>
    dsimp only
    split_ifs with hlimit
    · exact ⟨ht₂, h₂.obtains (giveUp_obtains h₂.current hc₂)⟩
    refine (beforeCall_contains ht₂).exact_bind fun closed t₃ ht₃ hclosed => ?_
    have h₃ := h₂.trans (.of_keeps (h₂.current.quiet hclosed) (Keeps.refl _))
    split_ifs with hopen
    · exact ⟨ht₃, h₃.obtains (giveUp_obtains h₃.current hc₂)⟩
    refine (reserveCall_contains ht₃ h₃.current).exact_bind fun reserved t₄ ht₄ hreserved => ?_
    have h₄ := h₃.trans (.of_keeps hreserved.current hreserved.keeps)
    have hc₄ := h₄.length ▸ hc
    cases reserved with
    | none => exact ⟨ht₄, h₄.obtains (giveUp_obtains h₄.current hc₄)⟩
    | some run₄ =>
      have hstarted : run₄.status ≠ created := h₄.status ▸ hstatus
      exact (extractContent_contains ht₄ h₄.current hstarted hc₄).exact_mono
        fun p t' => h₄.obtains

theorem addSnapshot_supported {snapshot : SourceSnapshot} {assessment : EvidenceAssessment}
    (h : Sound o run) : ∀ e ∈ (o.addSnapshot tenant run c snapshot assessment).evidence,
      ∃ s ∈ (o.addSnapshot tenant run c snapshot assessment).snapshots,
        s.snapshotId = e.snapshotId := by
  have hold : ∀ e ∈ run.evidence, ∃ s ∈ run.snapshots ++ [snapshot],
      s.snapshotId = e.snapshotId := by
    intro e he
    obtain ⟨s, hs, hid⟩ := h.supported e he
    exact ⟨s, List.mem_append_left _ hs, hid⟩
  intro e he
  simp only [addSnapshot, changeSource] at he ⊢
  split_ifs at he with hknown
  · exact hold e he
  · rcases List.mem_append.mp he with he | he
    · exact hold e he
    · rw [List.mem_singleton.mp he]
      exact ⟨snapshot, List.mem_append_right _ (List.mem_singleton_self _), rfl⟩

theorem addSnapshot_current {snapshot : SourceSnapshot} {assessment : EvidenceAssessment}
    (h : Current o t run) (hc : c.2 < run.sources.length) :
    Current o t (o.addSnapshot tenant run c snapshot assessment) := by
  obtain ⟨base, hseen, hbase⟩ := h.continues
  have hlength : (o.addSnapshot tenant run c snapshot assessment).sources.length =
      run.sources.length := changeSource_length
  have hsources : (o.addSnapshot tenant run c snapshot assessment).sources ≠ [] := by
    apply List.ne_nil_of_length_pos
    omega
  exact ⟨⟨base, hseen, hbase.same rfl rfl rfl rfl rfl⟩, ⟨h.sound.domains,
    fun hs => absurd hs hsources, addSnapshot_supported h.sound, fun _ => hsources⟩⟩

/-- A run with a snapshot whose sources differ from another's at one index only. -/
structure Uses (o : ResearchOrchestrator) (run : ResearchRun) (i : ℕ) (run' : ResearchRun)
    (t' : ResearchLog) : Prop where
  current : Current o t' run'
  status : run'.status = run.status
  request : run'.request = run.request
  snapshots : run'.snapshots ≠ []
  length : run'.sources.length = run.sources.length
  others : ∀ j ≠ i, run'.sources[j]? = run.sources[j]?

theorem useSnapshot_contains {seen : List String} {snapshot : SourceSnapshot} (ht : Unfaulted t)
    (hrun : Current o t run) (hc : c.2 < run.sources.length)
    (hseen : seen ≠ [] → run.snapshots ≠ []) :
    o.Contains (o.useSnapshot tenant run seen c snapshot) (fun p t' => Uses o run c.2 p.1 t')
      t := by
  refine (ensureActive_contains ht).exact_bind fun _ t₁ ht₁ hactive => ?_
  have hcurrent := hrun.quiet hactive
  split_ifs with hdup
  · have hchange := changeSource_selects (c := c)
      (f := withStatus "DUPLICATE_CONTENT" ["CONTENT_DUPLICATE"]) hcurrent
    exact ⟨ht₁, hchange.current, rfl, rfl, hseen (List.ne_nil_of_mem hdup), hchange.length,
      hchange.others⟩
  · refine ensures_ask_bind.mpr ⟨trivial, fun now _ => ?_⟩
    refine ensures_ask_bind.mpr ⟨trivial, fun assessed _ => ?_⟩
    cases assessed with
    | error e => exact stained_snoc fun _ => trivial
    | ok assessment =>
      have hquiet := (quiet_snoc (t := t₁) (x := ⟨.clock, now⟩) rfl id).trans (quiet_snoc
        (x := ⟨.assess snapshot c.1 run.request.freshness.maximumAgeDays now, .ok assessment⟩)
        rfl id)
      refine ⟨clean_snoc (clean_snoc ht₁ fun _ => id) fun _ => id,
        addSnapshot_current (hcurrent.quiet hquiet) hc, rfl, rfl, ?_, changeSource_length,
        fun j hj => changeSource_others hj⟩
      exact List.append_ne_nil_of_right_ne_nil _ nofun

/-! ## The loop -/

/-- What the extraction of candidates leaves: snapshots are kept, and so are the sources that
are no candidates. -/
structure Extracted (o : ResearchOrchestrator) (run : ResearchRun) (cs : List Candidate)
    (run' : ResearchRun) (t' : ResearchLog) : Prop where
  current : Current o t' run'
  status : run'.status = run.status
  request : run'.request = run.request
  snapshots : run.snapshots ≠ [] → run'.snapshots ≠ []
  others : ∀ j ∉ cs.map Prod.snd, run'.sources[j]? = run.sources[j]?
  productive : cs ≠ [] → run'.snapshots ≠ [] ∨ ∃ i, Cited i run'

/-- A candidate before the others: what it yields outlasts them. -/
theorem Extracted.cons {rest : List Candidate} {run₁ : ResearchRun}
    (h : Extracted o run₁ rest run' t') (hc : c.2 ∉ rest.map Prod.snd)
    (hstatus : run₁.status = run.status) (hrequest : run₁.request = run.request)
    (hsnapshots : run.snapshots ≠ [] → run₁.snapshots ≠ [])
    (hothers : ∀ j ≠ c.2, run₁.sources[j]? = run.sources[j]?)
    (hproductive : run₁.snapshots ≠ [] ∨ Cited c.2 run₁) :
    Extracted o run (c :: rest) run' t' where
  current := h.current
  status := h.status.trans hstatus
  request := h.request.trans hrequest
  snapshots hs := h.snapshots (hsnapshots hs)
  others j hj := by
    rw [List.map_cons, List.mem_cons, not_or] at hj
    exact (h.others j hj.2).trans (hothers j hj.1)
  productive _ := by
    rcases hproductive with hs | ⟨s, hs, hcited⟩
    · exact .inl (h.snapshots hs)
    · exact .inr ⟨c.2, s, (h.others c.2 hc).trans hs, hcited⟩

theorem extractAll_contains {policy : PublicUrlPolicy} {seen : List String} {cs : List Candidate}
    (ht : Unfaulted t) (hrun : Current o t run) (hstatus : run.status ≠ created)
    (hseen : seen ≠ [] → run.snapshots ≠ []) (hcs : ∀ c ∈ cs, c.2 < run.sources.length)
    (hnodup : (cs.map Prod.snd).Nodup) :
    o.Contains (o.extractAll tenant policy run seen cs)
      (fun run' t' => Extracted o run cs run' t') t := by
  induction cs generalizing run seen t with
  | nil => exact ⟨ht, hrun, rfl, rfl, id, fun _ _ => rfl, absurd rfl⟩
  | cons c rest ih =>
    have hc := hcs c List.mem_cons_self
    rw [List.map_cons, List.nodup_cons] at hnodup
    have hrest : ∀ run₁ : ResearchRun, run₁.sources.length = run.sources.length →
        ∀ c' ∈ rest, c'.2 < run₁.sources.length := fun run₁ hlength c' hc' =>
      hlength ▸ hcs c' (List.mem_cons_of_mem _ hc')
    refine (ensureActive_contains ht).exact_bind fun _ t₁ ht₁ hactive => ?_
    refine (obtainSnapshot_contains ht₁ (hrun.quiet hactive) hstatus hc).exact_bind
      fun p t₂ ht₂ h₂ => ?_
    obtain ⟨run₂, snapshot⟩ := p
    have hstarted : run₂.status ≠ created := h₂.status ▸ hstatus
    have hkept : run.snapshots ≠ [] → run₂.snapshots ≠ [] := fun hs => by rwa [h₂.snapshots]
    cases snapshot with
    | none =>
      refine (ih ht₂ h₂.current hstarted (fun hs => hkept (hseen hs)) (hrest run₂ h₂.length)
        hnodup.2).exact_mono fun run' t' h => ?_
      exact h.cons hnodup.1 h₂.status h₂.request hkept h₂.others (.inr (h₂.cited rfl))
    | some snapshot =>
      have hc₂ : c.2 < run₂.sources.length := h₂.length ▸ hc
      refine (useSnapshot_contains ht₂ h₂.current hc₂ fun hs => hkept (hseen hs)).exact_bind
        fun p t₃ ht₃ h₃ => ?_
      obtain ⟨run₃, seen₃⟩ := p
      refine (ih ht₃ h₃.current (h₃.status ▸ hstarted) (fun _ => h₃.snapshots)
        (hrest run₃ (h₃.length.trans h₂.length)) hnodup.2).exact_mono fun run' t' h => ?_
      exact h.cons hnodup.1 (h₃.status.trans h₂.status) (h₃.request.trans h₂.request)
        (fun _ => h₃.snapshots) (fun j hj => (h₃.others j hj).trans (h₂.others j hj))
        (.inl h₃.snapshots)

end ResearchOrchestrator

end DecisionAssurance.Research
