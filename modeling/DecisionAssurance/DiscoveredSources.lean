import DecisionAssurance.JobRuns
import DecisionAssurance.ResearchOrchestrator

/-!
# Discovered sources

A discovery stores one source for every canonical URL that is accepted, and one for every result
that is rejected. The ids of the sources come from these URLs, so they are distinct unless a
rejected URL comes twice or two URLs share the digits of their digests.
-/

namespace DecisionAssurance.Research

open Interactions Interaction

/-- A search result with the verdict on its URL: the reason of a refusal, or the URL as accepted. -/
structure Judged where
  result : SearchResult
  verdict : Except String SafeUrl

namespace Judged

/-- The URL that names the source of a result. -/
def url (j : Judged) : String :=
  match j.verdict with
  | .error _ => j.result.url
  | .ok safe => safe.canonicalUrl

def accepted (j : Judged) : Bool := j.verdict.isOk

/-- Two results for one accepted page. -/
structure SamePage (a b : Judged) : Prop where
  first : a.accepted = true
  second : b.accepted = true
  url : a.url = b.url

theorem SamePage.symm {a b : Judged} (h : a.SamePage b) : b.SamePage a :=
  ⟨h.second, h.first, h.url.symm⟩

theorem SamePage.trans {a b c : Judged} (h : a.SamePage b) (h' : b.SamePage c) : a.SamePage c :=
  ⟨h.first, h'.second, h.url.trans h'.url⟩

/-- A result is skipped where its page has been seen. -/
def Skipped (seen : List String) (j : Judged) : Prop := j.accepted = true ∧ j.url ∈ seen

/-- The canonical URLs seen after a result. -/
def note (seen : List String) (j : Judged) : List String :=
  if j.accepted then j.url :: seen else seen

end Judged

/-- The verdict that the URL policy answered. -/
def verdictIn : ResearchEvent → Option (Except String SafeUrl)
  | ⟨.validateUrl _ _, .ok safe⟩ => some (.ok safe)
  | ⟨.validateUrl _ _, .error (.urlRejected reason)⟩ => some (.error reason)
  | _ => none

namespace ResearchOrchestrator

variable (o : ResearchOrchestrator)

/-- The results that a discovery looks at, with the verdicts in its log. -/
def judgedResults (run : ResearchRun) (response : SearchResponse) (t : ResearchLog) :
    List Judged :=
  List.zipWith Judged.mk (response.results.take run.request.maxSearchResults)
    (t.filterMap verdictIn)

/-- The sources that a discovery adds, where some canonical URLs have been seen. -/
def addedSources (run : ResearchRun) (response : SearchResponse) :
    List String → List Judged → List SourceCandidate
  | _, [] => []
  | seen, j :: js =>
    match j.verdict with
    | .error reason => o.blockedSource run response j.result reason ::
        addedSources run response seen js
    | .ok safe =>
      if safe.canonicalUrl ∈ seen then addedSources run response seen js
      else o.discoveredSource run response j.result safe ::
        addedSources run response (safe.canonicalUrl :: seen) js

/-- What is asked of the sources after a discovery: distinct ids, no more sources than results may
be looked at, and exactly one source for each of these results. -/
structure Distinct (run run' : ResearchRun) (js : List Judged) : Prop where
  ids : (run'.sources.map SourceCandidate.sourceId).Nodup
  bounded : run'.sources.length ≤ run.request.maxSearchResults
  represented : ∀ j ∈ js, run'.sources.countP (fun s =>
    s.sourceId = o.sourceId run.researchRunId j.url && s.canonicalUrl = j.url) = 1

/-- Results whose URLs give one id are of one accepted page. -/
def Separate (run : ResearchRun) (js : List Judged) : Prop :=
  js.Pairwise fun a b => o.sourceId run.researchRunId a.url = o.sourceId run.researchRunId b.url →
    a.SamePage b

variable {o} {run run' : ResearchRun} {response : SearchResponse} {policy : PublicUrlPolicy}
  {t : ResearchLog} {seen : List String} {js : List Judged}

/-! ## The loop -/

/-- The sources of a run are named after it. -/
theorem addedSources_congr {run₁ run₂ : ResearchRun}
    (h : run₁.researchRunId = run₂.researchRunId) :
    o.addedSources run₁ response seen js = o.addedSources run₂ response seen js := by
  induction js generalizing seen with
  | nil => rfl
  | cons j js ih =>
    unfold addedSources blockedSource discoveredSource
    rw [h]
    split
    · exact congrArg (List.cons _) ih
    · split_ifs
      · exact ih
      · exact congrArg (List.cons _) ih

/-- A source is added after its URL has been encoded. -/
theorem storeSource_bind_ends {source : SourceCandidate} {q : ResearchRun → Program ResearchRun}
    (h : (storeSource run source >>= q).Ends t (.ok run')) :
    ∃ t', t = ⟨.encodeUrl source.canonicalUrl, .ok ()⟩ :: t' ∧
      (q (addSource run source)).Ends t' (.ok run') := by
  obtain ⟨encoded, t', rfl, hrest⟩ := ends_ask_bind_cases h
  cases encoded with
  | ok _ => exact ⟨t', rfl, hrest⟩
  | error e => cases (follows_done_cases hrest).2

/-- The loop looks at every result once, in order, and adds the sources for what was answered. -/
theorem storeResults_ends {results : List SearchResult}
    (h : (o.storeResults policy response run seen results).Ends t (.ok run')) :
    ∃ js : List Judged, js.map Judged.result = results ∧
      t.filterMap verdictIn = js.map Judged.verdict ∧
      run'.sources = run.sources ++ o.addedSources run response seen js := by
  induction results generalizing run seen t with
  | nil =>
    obtain ⟨rfl, hrun⟩ := follows_done_cases h
    cases hrun
    exact ⟨[], rfl, rfl, (List.append_nil _).symm⟩
  | cons result rest ih =>
    obtain ⟨verdict, t', rfl, hrest⟩ := ends_ask_bind_cases h
    have hadd (source : SourceCandidate) (js : List Judged) (seen : List String) :
        o.addedSources (addSource run source) response seen js =
          o.addedSources run response seen js := addedSources_congr rfl
    rcases verdict with e | safe
    · cases e with
      | urlRejected reason =>
        obtain ⟨t', rfl, hnext⟩ := storeSource_bind_ends hrest
        obtain ⟨js, hresults, hverdicts, hsources⟩ := ih hnext
        refine ⟨⟨result, .error reason⟩ :: js, congrArg (List.cons result) hresults,
          congrArg (List.cons _) hverdicts, ?_⟩
        rw [hsources, hadd]
        exact List.append_assoc run.sources [_] _
      | _ => cases (follows_done_cases hrest).2
    · dsimp only at hrest
      by_cases hseen : safe.canonicalUrl ∈ seen
      · rw [if_pos hseen] at hrest
        obtain ⟨js, hresults, hverdicts, hsources⟩ := ih hrest
        refine ⟨⟨result, .ok safe⟩ :: js, congrArg (List.cons result) hresults,
          congrArg (List.cons _) hverdicts, ?_⟩
        rw [hsources]
        exact congrArg (run.sources ++ ·) (if_pos hseen).symm
      · rw [if_neg hseen] at hrest
        obtain ⟨t', rfl, hnext⟩ := storeSource_bind_ends hrest
        obtain ⟨js, hresults, hverdicts, hsources⟩ := ih hnext
        refine ⟨⟨result, .ok safe⟩ :: js, congrArg (List.cons result) hresults,
          congrArg (List.cons _) hverdicts, ?_⟩
        rw [hsources, hadd]
        have hadded : o.addedSources run response seen (⟨result, .ok safe⟩ :: js) =
            o.discoveredSource run response result safe ::
              o.addedSources run response (safe.canonicalUrl :: seen) js := if_neg hseen
        rw [hadded]
        exact List.append_assoc run.sources [_] _

/-- A discovery adds the sources of the results that it may look at. -/
theorem storeDiscovery_ends (h : (o.storeDiscovery run response).Ends t (.ok run')) :
    (judgedResults run response t).map Judged.result =
        response.results.take run.request.maxSearchResults ∧
      run'.sources = run.sources ++
        o.addedSources run response [] (judgedResults run response t) := by
  rcases ends_bind_cases h with ⟨_, _, herror⟩ | ⟨t₁, t₂, policy, rfl, hpolicy, hstore⟩
  · cases herror
  · obtain ⟨rfl, -⟩ := follows_done_cases hpolicy
    obtain ⟨js, hresults, hverdicts, hsources⟩ := storeResults_ends hstore
    have hjudged : judgedResults run response ([] ++ t₂) = js := by
      rw [List.nil_append, judgedResults, ← hresults, hverdicts, List.zipWith_map,
        List.zipWith_self]
      exact List.map_id js
    rw [hjudged, hsources]
    exact ⟨hresults, congrArg (run.sources ++ ·) (addedSources_congr rfl)⟩

/-! ## One source a page -/

theorem skipped_note {j b : Judged} :
    b.Skipped (j.note seen) ↔ b.Skipped seen ∨ j.SamePage b := by
  unfold Judged.Skipped Judged.note
  by_cases hj : j.accepted = true
  · rw [if_pos hj, List.mem_cons]
    constructor
    · rintro ⟨hb, hurl | hmem⟩
      · exact .inr ⟨hj, hb, hurl.symm⟩
      · exact .inl ⟨hb, hmem⟩
    · rintro (⟨hb, hmem⟩ | hsame)
      · exact ⟨hb, .inr hmem⟩
      · exact ⟨hsame.second, .inl hsame.url.symm⟩
  · rw [if_neg hj]
    exact ⟨.inl, fun h => h.resolve_right fun hsame => hj hsame.first⟩

theorem addedSources_skipped {j : Judged} (h : j.Skipped seen) :
    o.addedSources run response seen (j :: js) = o.addedSources run response seen js := by
  obtain ⟨result, verdict⟩ := j
  cases verdict with
  | error reason => cases h.1
  | ok safe => exact if_pos h.2

variable (o run response js) in
theorem addedSources_kept {j : Judged} (h : ¬ j.Skipped seen) :
    ∃ source : SourceCandidate, source.sourceId = o.sourceId run.researchRunId j.url ∧
      source.canonicalUrl = j.url ∧ o.addedSources run response seen (j :: js) =
        source :: o.addedSources run response (j.note seen) js := by
  obtain ⟨result, verdict⟩ := j
  cases verdict with
  | error reason => exact ⟨o.blockedSource run response result reason, rfl, rfl, rfl⟩
  | ok safe =>
    have hfresh : safe.canonicalUrl ∉ seen := fun hseen => h ⟨rfl, hseen⟩
    exact ⟨o.discoveredSource run response result safe, rfl, rfl, if_neg hfresh⟩

/-- The ids of the sources added are those of the results that are not skipped. -/
theorem mem_ids {id : String} :
    id ∈ (o.addedSources run response seen js).map SourceCandidate.sourceId ↔
      ∃ j ∈ js, ¬ j.Skipped seen ∧ o.sourceId run.researchRunId j.url = id := by
  induction js generalizing seen with
  | nil => simp [addedSources]
  | cons j js ih =>
    by_cases hj : j.Skipped seen
    · rw [addedSources_skipped hj, ih]
      simp [hj]
    · obtain ⟨source, hid, -, hadded⟩ := addedSources_kept o run response js hj
      rw [hadded, List.map_cons, List.mem_cons, hid, ih]
      constructor
      · rintro (rfl | ⟨b, hb, hkept, rfl⟩)
        · exact ⟨j, List.mem_cons_self, hj, rfl⟩
        · exact ⟨b, List.mem_cons_of_mem _ hb, fun h => hkept (skipped_note.mpr (.inl h)), rfl⟩
      · rintro ⟨b, hb, hkept, rfl⟩
        rcases List.mem_cons.mp hb with rfl | hb
        · exact .inl rfl
        · by_cases hnote : b.Skipped (j.note seen)
          · have hsame := (skipped_note.mp hnote).resolve_left hkept
            exact .inl (congrArg _ hsame.url.symm)
          · exact .inr ⟨b, hb, hnote, rfl⟩

/-- The ids of the sources added are distinct where the results that are not skipped are
separate. -/
theorem nodup_ids_iff :
    ((o.addedSources run response seen js).map SourceCandidate.sourceId).Nodup ↔
      js.Pairwise fun a b => ¬ a.Skipped seen → ¬ b.Skipped seen →
        o.sourceId run.researchRunId a.url = o.sourceId run.researchRunId b.url → a.SamePage b := by
  induction js generalizing seen with
  | nil => simp [addedSources]
  | cons j js ih =>
    rw [List.pairwise_cons]
    by_cases hj : j.Skipped seen
    · rw [addedSources_skipped hj, ih]
      exact ⟨fun h => ⟨fun _ _ hkept => absurd hj hkept, h⟩, And.right⟩
    · obtain ⟨source, hid, -, hadded⟩ := addedSources_kept o run response js hj
      rw [hadded, List.map_cons, List.nodup_cons, hid, mem_ids, ih]
      constructor
      · rintro ⟨hfresh, hrest⟩
        -- a result of the id of the first one is of its page
        have hfirst : ∀ b ∈ js, ¬ b.Skipped seen → o.sourceId run.researchRunId j.url =
            o.sourceId run.researchRunId b.url → j.SamePage b := by
          intro b hb hkept hsame
          by_contra hpage
          refine hfresh ⟨b, hb, fun hnote => ?_, hsame.symm⟩
          exact (skipped_note.mp hnote).elim hkept hpage
        refine ⟨fun b hb _ => hfirst b hb, hrest.imp_of_mem fun {a b} ha hb hab => ?_⟩
        intro hkept hkept' hsame
        by_cases hpage : j.SamePage a
        · have hsame' : j.SamePage b := hfirst b hb hkept' ((congrArg _ hpage.url).trans hsame)
          exact hpage.symm.trans hsame'
        · by_cases hpage' : j.SamePage b
          · have hsame' : j.SamePage a :=
              hfirst a ha hkept ((congrArg _ hpage'.url).trans hsame.symm)
            exact absurd hsame' hpage
          · exact hab (fun h => (skipped_note.mp h).elim hkept hpage)
              (fun h => (skipped_note.mp h).elim hkept' hpage') hsame
      · rintro ⟨hfirst, hrest⟩
        constructor
        · rintro ⟨b, hb, hkept, hsame⟩
          have hseen : ¬ b.Skipped seen := fun h => hkept (skipped_note.mpr (.inl h))
          exact hkept (skipped_note.mpr (.inr (hfirst b hb hj hseen hsame.symm)))
        · refine hrest.imp fun {a b} hab hkept hkept' => hab ?_ ?_
          · exact fun h => hkept (skipped_note.mpr (.inl h))
          · exact fun h => hkept' (skipped_note.mpr (.inl h))

variable (o run response) in
/-- Every result has a source, unless its page has been seen before. -/
theorem exists_source {j : Judged} (hj : j ∈ js) (hfresh : ¬ j.Skipped seen) :
    ∃ s ∈ o.addedSources run response seen js,
      s.sourceId = o.sourceId run.researchRunId j.url ∧ s.canonicalUrl = j.url := by
  induction js generalizing seen with
  | nil => cases hj
  | cons b js ih =>
    by_cases hb : b.Skipped seen
    · rw [addedSources_skipped hb]
      rcases List.mem_cons.mp hj with rfl | hj
      · exact absurd hb hfresh
      · exact ih hj hfresh
    · obtain ⟨source, hid, hurl, hadded⟩ := addedSources_kept o run response js hb
      rw [hadded]
      by_cases hnote : j.Skipped (b.note seen)
      · have hsame := (skipped_note.mp hnote).resolve_left hfresh
        exact ⟨source, List.mem_cons_self, hid.trans (congrArg _ hsame.url),
          hurl.trans hsame.url⟩
      · rcases List.mem_cons.mp hj with rfl | hj
        · exact ⟨source, List.mem_cons_self, hid, hurl⟩
        · obtain ⟨s, hs, hfound⟩ := ih hj hnote
          exact ⟨s, List.mem_cons_of_mem _ hs, hfound⟩

variable (o run response seen js) in
theorem length_addedSources_le : (o.addedSources run response seen js).length ≤ js.length := by
  induction js generalizing seen with
  | nil => exact le_rfl
  | cons j js ih =>
    by_cases hj : j.Skipped seen
    · rw [addedSources_skipped hj]
      exact (ih seen).trans (Nat.le_succ _)
    · obtain ⟨source, -, -, hadded⟩ := addedSources_kept o run response js hj
      rw [hadded]
      exact Nat.succ_le_succ (ih _)

/-! ## After a discovery -/

/-- The sources of a run that has been searched for the first time are distinct exactly where
results that share an id are of one accepted page. -/
theorem sources_distinct_iff (o : ResearchOrchestrator) (run run' : ResearchRun)
    (response : SearchResponse) (t : ResearchLog) (hempty : run.sources = [])
    (h : (o.storeDiscovery run response).Ends t (.ok run')) :
    (judgedResults run response t).map Judged.result =
        response.results.take run.request.maxSearchResults ∧
      (o.Distinct run run' (judgedResults run response t) ↔
        o.Separate run (judgedResults run response t)) := by
  obtain ⟨hresults, hsources⟩ := storeDiscovery_ends h
  rw [hempty, List.nil_append] at hsources
  have hskipped : ∀ j : Judged, ¬ j.Skipped [] := fun j hj => List.not_mem_nil hj.2
  have hids : (run'.sources.map SourceCandidate.sourceId).Nodup ↔
      o.Separate run (judgedResults run response t) := by
    rw [hsources, nodup_ids_iff]
    simp only [hskipped, not_false_eq_true, true_implies]
    rfl
  refine ⟨hresults, fun hdistinct => hids.mp hdistinct.ids, fun hseparate => ?_⟩
  have hnodup := hids.mpr hseparate
  constructor
  · exact hnodup
  · have hlength := congrArg List.length hresults
    rw [List.length_map, List.length_take] at hlength
    have hadded := length_addedSources_le o run response []
      (judgedResults run response t)
    rw [hsources]
    omega
  · intro j hj
    obtain ⟨s, hs, hid, hurl⟩ := exists_source o run response hj (hskipped j)
    rw [← hsources] at hs
    apply le_antisymm
    · have hcount := List.nodup_iff_count_le_one.mp hnodup (o.sourceId run.researchRunId j.url)
      rw [List.count, List.countP_map] at hcount
      refine le_trans (List.countP_mono_left fun s _ hs => ?_) hcount
      rw [Bool.and_eq_true, decide_eq_true_eq] at hs
      exact beq_iff_eq.mpr hs.1
    · apply List.countP_pos_iff.mpr
      exact ⟨s, hs, by rw [hid, hurl]; simp⟩

/-! ## Pages found twice -/

def pageResult (url : String) : SearchResult := ⟨url, "title", "snippet", 1, none, "CITATION"⟩

def pagesResponse (urls : List String) : SearchResponse :=
  ⟨"search", "1", "2026-01-02", urls.map pageResult, "", none⟩

def unsearchedRun : ResearchRun :=
  proposedRun plainLibrary "tenant-a" "generator-1" Jobs.pilotRequest "hash" "fingerprint"
    "correlation-1" "2026-01-01"

/-- An orchestrator whose digests tell short URLs apart. -/
def spellingOrchestrator : ResearchOrchestrator :=
  { plainOrchestrator with pf := { plainPlatform with sha256 := String.ofList } }

/-- A policy that rejects one URL judges a URL, which is then encoded. -/
def pageLog (url : String) : ResearchLog :=
  [⟨.validateUrl ⟨[], []⟩ url,
    if url = "ftp://a" then .error (.urlRejected "URL_SCHEME_NOT_ALLOWED")
    else .ok ⟨url, url, "a"⟩⟩, ⟨.encodeUrl url, .ok ()⟩]

def repeatedUrls : List String := ["https://a/", "ftp://a", "https://a/"]

/-- The page that is found again is only judged. -/
def repeatedLog : ResearchLog :=
  pageLog "https://a/" ++ pageLog "ftp://a" ++ (pageLog "https://a/").take 1

/-- A page that is found twice is one source. -/
theorem sources_distinct_pages : ∃ t run',
    (spellingOrchestrator.storeDiscovery unsearchedRun (pagesResponse repeatedUrls)).Ends t
      (.ok run') ∧
    spellingOrchestrator.Distinct unsearchedRun run'
      (judgedResults unsearchedRun (pagesResponse repeatedUrls) t) := by
  obtain ⟨run', hends⟩ : ∃ run', (spellingOrchestrator.storeDiscovery unsearchedRun
      (pagesResponse repeatedUrls)).Ends repeatedLog (.ok run') :=
    ⟨_, .cons (.cons (.cons (.cons (.cons (.nil _)))))⟩
  have hids : spellingOrchestrator.sourceId unsearchedRun.researchRunId "https://a/" ≠
      spellingOrchestrator.sourceId unsearchedRun.researchRunId "ftp://a" := by
    simp only [sourceId, spellingOrchestrator, String.toList_ofList, ne_eq]
    decide
  have hseparate : spellingOrchestrator.Separate unsearchedRun (judgedResults unsearchedRun
      (pagesResponse repeatedUrls) repeatedLog) := by
    apply List.pairwise_cons.mpr
    constructor
    · rintro b hb hsame
      rcases List.mem_cons.mp hb with rfl | hb
      · exact absurd hsame hids
      · obtain rfl := List.mem_singleton.mp hb
        exact ⟨rfl, rfl, rfl⟩
    · exact List.pairwise_pair.mpr fun hsame => absurd hsame hids.symm
  exact ⟨_, run', hends, (sources_distinct_iff spellingOrchestrator unsearchedRun run' _ _ rfl
    hends).2.mpr hseparate⟩

/-- A URL that is rejected twice is two sources of one id. -/
theorem rejected_twice : ¬ ∀ (o : ResearchOrchestrator) (run run' : ResearchRun)
    (response : SearchResponse) (t : ResearchLog), run.sources = [] →
    (o.storeDiscovery run response).Ends t (.ok run') →
      o.Distinct run run' (judgedResults run response t) := by
  intro h
  have hdistinct := h spellingOrchestrator unsearchedRun _
    (pagesResponse ["ftp://a", "ftp://a"]) (pageLog "ftp://a" ++ pageLog "ftp://a") rfl
    (.cons (.cons (.cons (.cons (.nil _)))))
  exact (List.nodup_cons.mp hdistinct.ids).1 List.mem_cons_self

end ResearchOrchestrator

end DecisionAssurance.Research
