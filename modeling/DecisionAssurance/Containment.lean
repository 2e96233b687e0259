import DecisionAssurance.JobRuns
import DecisionAssurance.PersistedRuns

/-!
# What escapes an execution

The URL policy, the normaliser and the evidence policy raise exceptions that nothing catches on
URLs that cannot be split, on a resolver's failure, on times beyond the calendar and on ranks
beyond floating point. An execution that nobody cancels is contained exactly when no such value
and no failure of a port reaches it.
-/

namespace DecisionAssurance.Research

open Interactions Interaction ResearchOrchestrator
open Jobs (Instant seconds)

/-- The collaborators an orchestrator is constructed with; the resolver may answer differently
from call to call. -/
structure Collaborators where
  normalizer : EvidenceNormalizer
  evidencePolicy : EvidencePolicy
  resolve : ℕ → String → Raises (List String)
  resolver_ok : ∀ i host reason, resolve i host ≠ .error (.normalizationRejected reason)

variable {lib : UrlLibrary} {policy : PublicUrlPolicy} {resolve : String → Raises (List String)}
  {url : String} {e : ResearchException}

/-! ## URLs -/

theorem authority_rejects {parsed : UrlParts}
    (h : PublicUrlPolicy.authority lib parsed = .error e) : ∃ reason, e = .urlRejected reason := by
  unfold PublicUrlPolicy.authority at h
  split_ifs at h
  · exact ⟨_, (Except.error.inj h).symm⟩
  · exact ⟨_, (Except.error.inj h).symm⟩
  · cases hhost : parsed.hostname with
    | none =>
      simp only [hhost] at h
      exact ⟨_, (Except.error.inj h).symm⟩
    | some host =>
      simp only [hhost] at h
      split_ifs at h
      exact ⟨_, (Except.error.inj h).symm⟩

theorem domainOf_rejects {parsed : UrlParts} {host : String}
    (h : PublicUrlPolicy.domainOf lib parsed host = .error e) :
    ∃ reason, e = .urlRejected reason := by
  unfold PublicUrlPolicy.domainOf at h
  split at h
  · split_ifs at h
    exact ⟨_, (Except.error.inj h).symm⟩
  · exact ⟨_, (Except.error.inj h).symm⟩

theorem checkDomain_rejects {domain : String} (h : policy.checkDomain domain = .error e) :
    ∃ reason, e = .urlRejected reason := by
  unfold PublicUrlPolicy.checkDomain at h
  split_ifs at h
  all_goals exact ⟨_, (Except.error.inj h).symm⟩

/-- What `validate` checks before it asks for addresses. -/
structure Admitted (lib : UrlLibrary) (policy : PublicUrlPolicy) (url : String)
    (parsed : UrlParts) (domain : String) : Prop where
  splits : lib.urlsplit url = some parsed
  named : ∃ host, PublicUrlPolicy.authority lib parsed = .ok host ∧
    PublicUrlPolicy.domainOf lib parsed host = .ok domain
  checked : policy.checkDomain domain = .ok ()

/-- A domain whose addresses are public. -/
def Reachable (lib : UrlLibrary) (resolve : String → Raises (List String)) (domain : String) :
    Prop :=
  ∃ found, PublicUrlPolicy.addresses lib resolve domain = .ok found ∧ found.isEmpty = false ∧
    found.all (isPublic lib) = true

/-- A URL that cannot be split, whose domain the resolver fails on, or whose query cannot be
encoded although its addresses are public. -/
def Unreadable (lib : UrlLibrary) (policy : PublicUrlPolicy)
    (resolve : String → Raises (List String)) (url : String) : Prop :=
  lib.urlsplit url = none ∨ ∃ parsed domain, Admitted lib policy url parsed domain ∧
    ((lib.ipAddress domain = none ∧
        ∃ e, resolve domain = .error e ∧ ∀ reason, e ≠ .urlRejected reason) ∨
      (Reachable lib resolve domain ∧ PublicUrlPolicy.quotable lib parsed.query = false))

/-- What is left of `validate` after the checks of an admitted URL. -/
theorem Admitted.validate {parsed : UrlParts} {domain : String}
    (h : Admitted lib policy url parsed domain) : policy.validate lib resolve url = (do
      let found ← PublicUrlPolicy.addresses lib resolve domain
      if found.isEmpty || !found.all (isPublic lib) then .error (.urlRejected "URL_NOT_PUBLIC")
      else if !PublicUrlPolicy.quotable lib parsed.query then .error encodeError
      else return ⟨url, PublicUrlPolicy.canonicalUrl lib parsed domain, domain⟩) := by
  obtain ⟨host, hhost, hdomain⟩ := h.named
  rw [PublicUrlPolicy.validate, h.splits, orRaise, ok_bind, hhost, ok_bind, hdomain, ok_bind,
    h.checked, ok_bind]

/-- The exceptions of `validate` other than its own. -/
theorem validate_escapes_iff : (∃ e, policy.validate lib resolve url = .error e ∧
    ∀ reason, e ≠ .urlRejected reason) ↔ Unreadable lib policy resolve url := by
  constructor
  · rintro ⟨e, h, he⟩
    rcases bind_error_cases h with h | ⟨parsed, hparsed, h⟩
    · exact .inl (orRaise_error.mp h).1
    rcases bind_error_cases h with h | ⟨host, hhost, h⟩
    · obtain ⟨reason, rfl⟩ := authority_rejects h
      exact absurd rfl (he reason)
    rcases bind_error_cases h with h | ⟨domain, hdomain, h⟩
    · obtain ⟨reason, rfl⟩ := domainOf_rejects h
      exact absurd rfl (he reason)
    rcases bind_error_cases h with h | ⟨u, hchecked, h⟩
    · obtain ⟨reason, rfl⟩ := checkDomain_rejects h
      exact absurd rfl (he reason)
    have hadmitted : Admitted lib policy url parsed domain :=
      ⟨orRaise_ok.mp hparsed, ⟨host, hhost, hdomain⟩, hchecked⟩
    refine .inr ⟨parsed, domain, hadmitted, ?_⟩
    rcases bind_error_cases h with h | ⟨found, hfound, h⟩
    · unfold PublicUrlPolicy.addresses at h
      cases haddress : lib.ipAddress domain with
      | some address => simp only [haddress, reduceCtorEq] at h
      | none =>
        simp only [haddress] at h
        exact .inl ⟨rfl, e, h, he⟩
    · split_ifs at h with hpublic hquotes
      · exact absurd (Except.error.inj h).symm (he _)
      · simp only [Bool.or_eq_true, Bool.not_eq_true', not_or, Bool.not_eq_true,
          Bool.not_eq_false] at hpublic
        exact .inr ⟨⟨found, hfound, hpublic⟩, by simpa using hquotes⟩
      · cases h
  · rintro (hnone | ⟨parsed, domain, hadmitted, ⟨haddress, e, h, he⟩ |
      ⟨⟨found, hfound, hne, hall⟩, hquotes⟩⟩)
    · refine ⟨.valueError "INVALID_URL", ?_, nofun⟩
      rw [PublicUrlPolicy.validate, hnone]
      rfl
    · refine ⟨e, ?_, he⟩
      rw [hadmitted.validate, PublicUrlPolicy.addresses, haddress, h, error_bind]
    · refine ⟨encodeError, ?_, nofun⟩
      rw [hadmitted.validate, hfound, ok_bind, hne, hall, hquotes]
      rfl

theorem validate_not_normalization (k : Collaborators) (i : ℕ) (reason : String) :
    policy.validate lib (k.resolve i) url ≠ .error (.normalizationRejected reason) := by
  intro h
  rcases validate_escapes_iff.mp ⟨_, h, nofun⟩ with
    hnone | ⟨parsed, domain, hadmitted, ⟨haddress, e, hresolve, -⟩ |
      ⟨⟨found, hfound, hne, hall⟩, hquotes⟩⟩
  · rw [PublicUrlPolicy.validate, hnone, orRaise, error_bind] at h
    cases h
  · rw [hadmitted.validate, PublicUrlPolicy.addresses, haddress, hresolve, error_bind] at h
    exact k.resolver_ok i domain reason (hresolve.trans (congrArg _ (Except.error.inj h)))
  · rw [hadmitted.validate, hfound, ok_bind, hne, hall, hquotes] at h
    cases h

/-! ## Times -/

def InTimeRange (i : Instant) : Prop := minTime ≤ i ∧ i ≤ maxTime

theorem inTimeRange_error {i : Instant} :
    inTimeRange i = .error e ↔ ¬ InTimeRange i ∧ e = .overflowError := by
  unfold inTimeRange InTimeRange
  split_ifs with h
  · exact ⟨nofun, fun hnot => absurd h hnot.1⟩
  · exact ⟨fun he => ⟨h, (Except.error.inj he).symm⟩, fun he => congrArg _ he.2.symm⟩

/-- A page of a supported type whose text cannot be encoded. -/
structure Garbled (lib : TextLibrary) (content : ExtractedContent) : Prop where
  status : content.httpStatus = 200
  mime : mimeType lib content.mimeType ∈ ["text/markdown", "text/plain", "text/html"]
  text : lib.encodes content.markdown = false

/-- A content whose time of retrieval or expiry, in UTC, is beyond the calendar. -/
def Untimely (lib : TextLibrary) (n : EvidenceNormalizer) (content : ExtractedContent) : Prop :=
  n.checkContent lib content = .ok () ∧ ∃ read,
    lib.fromisoformat (zuluOffset content.retrievedAt) = some read ∧
    ¬ (InTimeRange (read.wall - read.offset.getD 0) ∧
      InTimeRange (read.wall - read.offset.getD 0 + seconds n.cacheTtlSeconds))

theorem checkContent_error {lib : TextLibrary} {n : EvidenceNormalizer}
    {content : ExtractedContent} (h : n.checkContent lib content = .error e) :
    (∃ reason, e = .normalizationRejected reason) ∨ Garbled lib content := by
  unfold EvidenceNormalizer.checkContent at h
  split_ifs at h with hstatus hmime htext hlarge
  · exact .inl ⟨_, (Except.error.inj h).symm⟩
  · exact .inr ⟨not_not.mp hstatus, hmime, by simpa using htext⟩
  · exact .inl ⟨_, (Except.error.inj h).symm⟩
  · exact .inl ⟨_, (Except.error.inj h).symm⟩

theorem Garbled.checkContent {lib : TextLibrary} {n : EvidenceNormalizer}
    {content : ExtractedContent} (h : Garbled lib content) :
    n.checkContent lib content = .error encodeError := by
  rw [EvidenceNormalizer.checkContent, if_neg (not_not.mpr h.status),
    if_neg (not_not.mpr h.mime), h.text]
  rfl

theorem normalize_escapes_iff {pf : Platform} {lib : TextLibrary} {n : EvidenceNormalizer}
    {source : SourceCandidate} {content : ExtractedContent} :
    (∃ e, n.normalize pf lib source content = .error e ∧
      ∀ reason, e ≠ .urlRejected reason ∧ e ≠ .normalizationRejected reason) ↔
      Garbled lib content ∨ Untimely lib n content := by
  constructor
  · rintro ⟨e, h, he⟩
    rcases bind_error_cases h with h | ⟨u, hchecked, h⟩
    · rcases checkContent_error h with ⟨reason, rfl⟩ | hgarbled
      · exact absurd rfl (he reason).2
      · exact .inl hgarbled
    rcases bind_error_cases h with h | ⟨read, hread, h⟩
    · obtain ⟨-, rfl⟩ := orRaise_error.mp h
      exact absurd rfl (he _).2
    refine .inr ⟨hchecked, read, orRaise_ok.mp hread, fun hrange => ?_⟩
    rcases bind_error_cases h with h | ⟨retrieved, hretrieved, h⟩
    · exact (inTimeRange_error.mp h).1 hrange.1
    rcases bind_error_cases h with h | ⟨expires, -, h⟩
    · unfold WallTime.utc inTimeRange at hretrieved
      split_ifs at hretrieved
      cases hretrieved
      exact (inTimeRange_error.mp h).1 hrange.2
    · cases h
  · rintro (hgarbled | ⟨hchecked, read, hread, hrange⟩)
    · refine ⟨encodeError, ?_, fun _ => ⟨nofun, nofun⟩⟩
      rw [EvidenceNormalizer.normalize, hgarbled.checkContent, error_bind]
    refine ⟨.overflowError, ?_, fun _ => ⟨nofun, nofun⟩⟩
    rw [EvidenceNormalizer.normalize, hchecked, ok_bind, hread, orRaise, ok_bind, WallTime.utc]
    by_cases hretrieved : InTimeRange (read.wall - read.offset.getD 0)
    · have hexpires := fun h => hrange ⟨hretrieved, h⟩
      have hok : inTimeRange (read.wall - read.offset.getD 0) =
          .ok (read.wall - read.offset.getD 0) := if_pos hretrieved
      rw [hok, ok_bind, inTimeRange_error.mpr ⟨hexpires, rfl⟩, error_bind]
    · rw [inTimeRange_error.mpr ⟨hretrieved, rfl⟩, error_bind]

/-- A source whose date of publication, in UTC, is beyond the calendar, or whose rank is beyond
floating point. -/
def Undatable (lib : TextLibrary) (source : SourceCandidate) : Prop :=
  (∃ text read, source.publishedAt = some text ∧ text.isEmpty = false ∧
    lib.fromisoformat (zuluOffset text) = some read ∧
    ¬ InTimeRange (read.wall - read.offset.getD 0)) ∨ lib.relevance source.rank = none

theorem freshness_error {lib : TextLibrary} {publishedAt : Option String} {days : ℕ}
    {now : Instant} : EvidencePolicy.freshness lib publishedAt days now = .error e ↔
      ∃ text read, publishedAt = some text ∧ text.isEmpty = false ∧
        lib.fromisoformat (zuluOffset text) = some read ∧
        ¬ InTimeRange (read.wall - read.offset.getD 0) ∧ e = .overflowError := by
  unfold EvidencePolicy.freshness
  constructor
  · intro h
    split at h
    · cases h
    · rename_i text htext
      obtain ⟨hpublished, hsome⟩ := Option.filter_eq_some_iff.mp htext
      split at h
      · cases h
      · rename_i read hread
        rcases bind_error_cases h with h | ⟨published, -, h⟩
        · obtain ⟨hrange, rfl⟩ := inTimeRange_error.mp h
          exact ⟨text, read, hpublished, by simpa using hsome, hread, hrange, rfl⟩
        · dsimp only at h
          split_ifs at h <;> cases h
  · rintro ⟨text, read, rfl, hsome, hread, hrange, rfl⟩
    simp only [Option.filter_some, hsome, Bool.not_false, if_true, hread, WallTime.utc]
    rw [inTimeRange_error.mpr ⟨hrange, rfl⟩, error_bind]

theorem assess_escapes_iff {lib : TextLibrary} {p : EvidencePolicy} {snapshot : SourceSnapshot}
    {source : SourceCandidate} {days : ℕ} {now : Instant} :
    (∃ e, p.assess lib snapshot source days now = .error e) ↔ Undatable lib source := by
  constructor
  · rintro ⟨e, h⟩
    rcases bind_error_cases h with h | ⟨dated, -, h⟩
    · obtain ⟨text, read, hpublished, hsome, hread, hrange, -⟩ := freshness_error.mp h
      exact .inl ⟨text, read, hpublished, hsome, hread, hrange⟩
    rcases bind_error_cases h with h | ⟨relevance, -, h⟩
    · exact .inr (orRaise_error.mp h).1
    · cases h
  · intro h
    unfold EvidencePolicy.assess
    cases hdated : EvidencePolicy.freshness lib source.publishedAt days now with
    | error e => exact ⟨e, rfl⟩
    | ok dated =>
      rcases h with ⟨text, read, hpublished, hsome, hread, hrange⟩ | hrank
      · have herror : EvidencePolicy.freshness lib source.publishedAt days now =
            .error .overflowError :=
          freshness_error.mpr ⟨text, read, hpublished, hsome, hread, hrange, rfl⟩
        rw [hdated] at herror
        cases herror
      · exact ⟨.overflowError, by rw [ok_bind, hrank, orRaise]; rfl⟩

/-! ## Executions -/

/-- The collaborators that are code answer as that code does. -/
def Genuine (o : ResearchOrchestrator) (k : Collaborators) (i : ℕ) : ResearchEvent → Prop
  | ⟨.validateUrl policy url, answer⟩ =>
    answer = policy.validate o.lib.toUrlLibrary (k.resolve i) url
  | ⟨.encodeUrl url, answer⟩ => answer = encode o.lib.toUrlLibrary url
  | ⟨.normalize source content, answer⟩ =>
    answer = k.normalizer.normalize o.pf o.lib.toTextLibrary source content
  | ⟨.assess snapshot source days now, answer⟩ =>
    answer = k.evidencePolicy.assess o.lib.toTextLibrary snapshot source days now
  | _ => True

/-- What makes an exception escape: a URL, a text, a time or a rank, or a failure of a port. -/
def Harmful (o : ResearchOrchestrator) (k : Collaborators) (i : ℕ) : ResearchEvent → Prop
  | ⟨.validateUrl policy url, _⟩ => Unreadable o.lib.toUrlLibrary policy (k.resolve i) url
  | ⟨.encodeUrl url, _⟩ => o.lib.encodes url = false
  | ⟨.normalize _ content, _⟩ =>
    Garbled o.lib.toTextLibrary content ∨ Untimely o.lib.toTextLibrary k.normalizer content
  | ⟨.assess _ source _ _, _⟩ => Undatable o.lib.toTextLibrary source
  | x => Faulty x

variable {o : ResearchOrchestrator} {k : Collaborators} {i : ℕ} {x : ResearchEvent}

theorem faulty_iff_harmful (hx : Genuine o k i x) : Faulty x ↔ Harmful o k i x := by
  obtain ⟨c, answer⟩ := x
  cases c with
  | validateUrl policy url =>
    cases hx
    refine Iff.trans ?_ validate_escapes_iff
    cases PublicUrlPolicy.validate o.lib.toUrlLibrary policy (k.resolve i) url with
    | ok safe => simp only [Faulty, reduceCtorEq, false_and, exists_false]
    | error e => simp only [Faulty, Except.error.injEq, exists_eq_left']
  | encodeUrl url =>
    cases hx
    change Faulty ⟨.encodeUrl url, encode o.lib.toUrlLibrary url⟩ ↔ o.lib.encodes url = false
    unfold encode
    cases o.lib.encodes url with
    | true => simp [Faulty]
    | false => simp [Faulty]
  | normalize source content =>
    cases hx
    have hescapes : (∃ e, k.normalizer.normalize o.pf o.lib.toTextLibrary source content = .error e ∧
        ∀ reason, e ≠ .urlRejected reason ∧ e ≠ .normalizationRejected reason) ↔
          Garbled o.lib.toTextLibrary content ∨
            Untimely o.lib.toTextLibrary k.normalizer content := normalize_escapes_iff
    refine Iff.trans ?_ hescapes
    cases k.normalizer.normalize o.pf o.lib.toTextLibrary source content with
    | ok snapshot => simp only [Faulty, reduceCtorEq, false_and, exists_false]
    | error e => simp only [Faulty, Except.error.injEq, exists_eq_left']
  | assess snapshot source days now =>
    cases hx
    have hescapes : (∃ e, k.evidencePolicy.assess o.lib.toTextLibrary snapshot source days now =
        .error e) ↔ Undatable o.lib.toTextLibrary source := assess_escapes_iff
    refine Iff.trans ?_ hescapes
    cases k.evidencePolicy.assess o.lib.toTextLibrary snapshot source days now with
    | ok assessment => simp only [Faulty, reduceCtorEq, exists_false]
    | error e => simp only [Faulty, Except.error.injEq, exists_eq']
  | _ => exact Iff.rfl

theorem calm_of_genuine (hx : Genuine o k i x) (hcancelled : x ≠ ⟨.cancelled, true⟩) : Calm x := by
  obtain ⟨c, answer⟩ := x
  cases c with
  | cancelled =>
    cases answer with
    | false => rfl
    | true => exact absurd rfl hcancelled
  | validateUrl policy url =>
    cases hx
    cases hvalidate : PublicUrlPolicy.validate o.lib.toUrlLibrary policy (k.resolve i) url with
    | ok safe => trivial
    | error e =>
      cases e with
      | normalizationRejected reason => exact validate_not_normalization k i reason hvalidate
      | _ => trivial
  | _ => trivial

/-- For a run that has only been created and that nobody cancels, `execute` returns with the run
saved in a final status if and only if nothing harmful reaches it. -/
theorem execute_contained_iff {tenant : TenantContext}
    {actorId documentHash correlationId : String} {request : ResearchRequest}
    {refreshGeneration : Option String} {t : ResearchLog} {r : Raises ResearchRun}
    {run : ResearchRun}
    (hends : (o.execute tenant actorId request documentHash correlationId
      refreshGeneration).Ends t r)
    (hgenuine : ∀ i x, t[i]? = some x → Genuine o k i x)
    (hcancelled : (⟨.cancelled, true⟩ : ResearchEvent) ∉ t)
    (hread : ∀ x ∈ t, ∀ run, answeredIn x = some run → Persisted o.lib run)
    (hprepared : prepared t = some run) (hcreated : run.status = .created) :
    (∃ run', r = .ok run' ∧ run'.status.isFinal = true ∧ Saved tenant run' t) ↔
      ∀ i x, t[i]? = some x → ¬ Harmful o k i x := by
  have hexact := execute_ensures.ends hends
    (grants_of_answered fun x hx run hrun => (hread x hx run hrun).stored rfl)
  rw [List.nil_append] at hexact
  have hsettled := hexact run hprepared hcreated
  have hcalm : ∀ x ∈ t, Calm x := by
    intro x hx
    obtain ⟨i, hi⟩ := List.mem_iff_getElem?.mp hx
    exact calm_of_genuine (hgenuine i x hi) fun h => hcancelled (h ▸ hx)
  have hclean : (∀ x ∈ t, ¬ Faulty x) ↔ ∀ i x, t[i]? = some x → ¬ Harmful o k i x := by
    constructor
    · intro h i x hi
      rw [← faulty_iff_harmful (hgenuine i x hi)]
      exact h x (List.mem_of_getElem? hi)
    · intro h x hx
      obtain ⟨i, hi⟩ := List.mem_iff_getElem?.mp hx
      rw [faulty_iff_harmful (hgenuine i x hi)]
      exact h i x hi
  rw [← hclean, ← hsettled.ok_iff hcalm]
  constructor
  · rintro ⟨run', rfl, -⟩
    exact ⟨run', rfl, hsettled.2⟩
  · rintro ⟨run', rfl, hsettles⟩
    exact ⟨run', rfl, hsettles.final, hsettles.saved⟩

/-! ## A malformed URL -/

def plainCollaborators : Collaborators where
  normalizer := ⟨1000000, 86400, by decide⟩
  evidencePolicy := ⟨[], [], ["de", "en"], 200⟩
  resolve _ host :=
    if host = "example.org" then .ok ["93.184.215.14"]
    else .error (.urlRejected "URL_RESOLUTION_FAILED")
  resolver_ok i host reason h := by
    split_ifs at h
    cases h

/-- Ports that do not fail, a search with one result, and an extractor that is unavailable. -/
def steadyAnswer (url : String) (t : ResearchLog) : (c : ResearchCall) → c.Answer
  | .clock => 1767225600000000
  | .cancelled => false
  | .createOrGet _ run => .ok run
  | .getRun _ _ => .ok none
  | .save _ _ | .record _ _ => .ok ()
  | .getSnapshot _ _ _ => .ok none
  | .reserveBudget _ _ _ => .ok 1
  | .beforeCall _ _ | .recordSuccess _ _ | .recordFailure _ _ _ => .ok ()
  | .search _ =>
    ⟨[], .ok ⟨"search", "1", "2026-01-01T00:00:00+00:00",
      [⟨url, "title", "", 1, none, "SEARCH_RESULT"⟩], "", none⟩, .error⟩
  | .extract _ => ⟨[], .error (.other "ConnectError"), .error⟩
  | .validateUrl policy url =>
    policy.validate plainLibrary.toUrlLibrary (plainCollaborators.resolve t.length) url
  | .encodeUrl url => encode plainLibrary.toUrlLibrary url
  | .normalize source content =>
    plainCollaborators.normalizer.normalize plainPlatform plainLibrary.toTextLibrary source content
  | .assess snapshot source days now =>
    plainCollaborators.evidencePolicy.assess plainLibrary.toTextLibrary snapshot source days now
  | .attach _ _ _ _ => .error (.valueError "DECISION_NOT_FOUND")

/-- An execution against those ports. -/
def steadyRun (url : String) : Raises ResearchRun × ResearchLog :=
  (plainOrchestrator.execute Jobs.pilotTenant "generator-1" Jobs.pilotRequest "hash"
    "correlation-1" none).play (steadyAnswer url) []

theorem steadyRun_answers {url : String} {i : ℕ} {x : ResearchEvent}
    (hx : (steadyRun url).2[i]? = some x) :
    ∃ t : ResearchLog, t.length = i ∧ x.2 = steadyAnswer url t x.1 :=
  play_answers (t := []) (Nat.zero_le i) hx

theorem steadyRun_ends (url : String) : (plainOrchestrator.execute Jobs.pilotTenant "generator-1"
    Jobs.pilotRequest "hash" "correlation-1" none).Ends (steadyRun url).2 (steadyRun url).1 := by
  obtain ⟨t, ht, hends⟩ := play_ends (steadyAnswer url) (plainOrchestrator.execute
    Jobs.pilotTenant "generator-1" Jobs.pilotRequest "hash" "correlation-1" none) []
  have hlog : (steadyRun url).2 = t := ht
  rw [hlog]
  exact hends

theorem steadyRun_genuine (url : String) : ∀ i x, (steadyRun url).2[i]? = some x →
    Genuine plainOrchestrator plainCollaborators i x := by
  rintro i ⟨c, answer⟩ hx
  obtain ⟨t, rfl, hanswer⟩ := steadyRun_answers hx
  cases c with
  | validateUrl => exact hanswer
  | encodeUrl => exact hanswer
  | normalize => exact hanswer
  | assess => exact hanswer
  | _ => trivial

theorem steadyRun_active (url : String) :
    (⟨.cancelled, true⟩ : ResearchEvent) ∉ (steadyRun url).2 := by
  intro hx
  obtain ⟨i, hi⟩ := List.mem_iff_getElem?.mp hx
  obtain ⟨t, -, hanswer⟩ := steadyRun_answers hi
  cases hanswer

/-- The calls that judge a provider's values. -/
def Judges : ResearchCall → Prop
  | .validateUrl _ _ | .encodeUrl _ | .normalize _ _ | .assess _ _ _ _ => True
  | _ => False

theorem steadyRun_faults (url : String) : ∀ x ∈ (steadyRun url).2, Faulty x → Judges x.1 := by
  rintro ⟨c, answer⟩ hx hfaulty
  obtain ⟨i, hi⟩ := List.mem_iff_getElem?.mp hx
  obtain ⟨t, -, hanswer⟩ := steadyRun_answers hi
  change answer = steadyAnswer url t c at hanswer
  subst hanswer
  cases c with
  | attach => cases hfaulty
  | validateUrl => trivial
  | encodeUrl => trivial
  | normalize => trivial
  | assess => trivial
  | _ => exact hfaulty.elim

/-- The run proposed for the request. -/
def pilotProposal : ResearchRun :=
  proposedRun plainLibrary "tenant-a" "generator-1" Jobs.pilotRequest "hash"
    (valueOr (proposedFingerprint plainPlatform plainLibrary ResearchPolicy.standard "tenant-a"
      Jobs.pilotRequest "hash" none) "") "correlation-1" "2026-01-01T00:00:00+00:00"

theorem pilotProposal_persisted : Persisted plainLibrary pilotProposal := by
  have hfingerprint : proposedFingerprint plainPlatform plainLibrary ResearchPolicy.standard
      "tenant-a" Jobs.pilotRequest "hash" none = .ok (valueOr (proposedFingerprint plainPlatform
        plainLibrary ResearchPolicy.standard "tenant-a" Jobs.pilotRequest "hash" none) "") := by
    rfl
  exact .proposed _ _ _ hfingerprint

theorem steadyRun_reads : ∀ x ∈ (steadyRun "https://[").2, ∀ run, answeredIn x = some run →
    run = pilotProposal := by
  have hreads : (steadyRun "https://[").2.filterMap answeredIn = [pilotProposal] := by
    rfl
  intro x hx run hrun
  have hmem : run ∈ (steadyRun "https://[").2.filterMap answeredIn :=
    List.mem_filterMap.mpr ⟨x, hx, hrun⟩
  rw [hreads] at hmem
  exact List.mem_singleton.mp hmem

theorem steadyRun_prepared : prepared (steadyRun "https://[").2 = some pilotProposal := by
  rfl

theorem execute_contained_iff_malformed :
    (∃ run', (steadyRun "https://[").1 = .ok run' ∧ run'.status.isFinal = true ∧
      Saved Jobs.pilotTenant run' (steadyRun "https://[").2) ↔
      ∀ i x, (steadyRun "https://[").2[i]? = some x →
        ¬ Harmful plainOrchestrator plainCollaborators i x := by
  refine execute_contained_iff (steadyRun_ends _) (steadyRun_genuine _) (steadyRun_active _)
    (fun x hx run hrun => ?_) steadyRun_prepared rfl
  rw [steadyRun_reads x hx run hrun]
  exact pilotProposal_persisted

/-- A search result whose URL is `https://[` makes an exception escape. -/
theorem malformedUrl_escapes : ¬ ∀ (t : ResearchLog) (r : Raises ResearchRun),
    (plainOrchestrator.execute Jobs.pilotTenant "generator-1" Jobs.pilotRequest "hash"
      "correlation-1" none).Ends t r →
    (∀ i x, t[i]? = some x → Genuine plainOrchestrator plainCollaborators i x) →
    (⟨.cancelled, true⟩ : ResearchEvent) ∉ t →
    (∀ x ∈ t, ∀ run, answeredIn x = some run → Persisted plainLibrary run) →
    (∃ run, prepared t = some run ∧ run.status = .created) →
    (∀ x ∈ t, Faulty x → Judges x.1) →
    ∃ run', r = .ok run' ∧ run'.status.isFinal = true ∧ Saved Jobs.pilotTenant run' t := by
  intro hclaim
  obtain ⟨run', hresult, -⟩ := hclaim _ _ (steadyRun_ends "https://[") (steadyRun_genuine _)
    (steadyRun_active _) (fun x hx run hrun => by
      rw [steadyRun_reads x hx run hrun]
      exact pilotProposal_persisted) ⟨_, steadyRun_prepared, rfl⟩ (steadyRun_faults _)
  have hescape : (steadyRun "https://[").1 = .error (.valueError "INVALID_URL") := by
    rfl
  rw [hescape] at hresult
  cases hresult

end DecisionAssurance.Research
