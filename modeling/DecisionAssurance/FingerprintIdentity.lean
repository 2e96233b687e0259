import DecisionAssurance.ApprovalBinding
import DecisionAssurance.SemanticFingerprint

/-!
# What fingerprints distinguish

Two requests have one fingerprint exactly if they ask the same: in one tenant, of one version of a
decision file, under the same versions, and with the same query, lists and limits once their case,
their white space and their order are set aside.
-/

namespace DecisionAssurance.Research

open Json (normal_field str_of_normal ofOption_of_normal normal_eq_of_dumps FloatText)

/-! ## Sorted lists -/

theorem insertionSort_eq_iff {xs ys : List String} :
    (xs.insertionSort fun a b => a ≤ b) = (ys.insertionSort fun a b => a ≤ b) ↔ xs.Perm ys := by
  constructor
  · intro h
    have hperm := List.perm_insertionSort (fun a b : String => a ≤ b) xs
    rw [h] at hperm
    exact hperm.symm.trans (List.perm_insertionSort (fun a b : String => a ≤ b) ys)
  · intro h
    apply List.Perm.eq_of_pairwise' (List.pairwise_insertionSort _ xs)
      (List.pairwise_insertionSort _ ys)
    exact (List.perm_insertionSort _ xs).trans (h.trans (List.perm_insertionSort _ ys).symm)

theorem sortedStrings_perm {xs ys : List String} (h : xs.Perm ys) :
    sortedStrings xs = sortedStrings ys := by
  rw [sortedStrings, sortedStrings, insertionSort_eq_iff.mpr h]

theorem perm_of_normal {xs ys : List String}
    (h : (sortedStrings xs).normal = (sortedStrings ys).normal) : xs.Perm ys := by
  have hitems (ss : List String) : Json.rereadItems Json.byName .float (ss.map Json.str) =
      ss.map Json.str := by
    induction ss with
    | nil => rfl
    | cons s ss ih => exact congrArg (Json.str s :: ·) ih
  simp only [sortedStrings, Json.strings, Json.normal, Json.reread, hitems, Json.arr.injEq] at h
  exact insertionSort_eq_iff.mp (List.map_injective_iff.mpr (fun _ _ => Json.str.inj) h)

/-! ## Normal domains -/

section Domains

variable {lib : UrlLibrary}

theorem normalizeDomain_error {value : String} {e : ResearchException}
    (h : normalizeDomain lib value = .error e) : e = .valueError "INVALID_DOMAIN" := by
  unfold normalizeDomain at h
  dsimp only at h
  split_ifs at h
  · cases h
    rfl
  · exact (orRaise_error.mp h).2.symm

/-- Lists of domains that are rearranged after normalisation. -/
def SameDomains (lib : UrlLibrary) (ds ds' : List String) : Prop :=
  (ds.map (normalizeDomain lib)).Perm (ds'.map (normalizeDomain lib))

theorem sameDomains_iff {ds ds' ns ns' : List String}
    (h : ds.mapM (normalizeDomain lib) = .ok ns) (h' : ds'.mapM (normalizeDomain lib) = .ok ns') :
    SameDomains lib ds ds' ↔ ns.Perm ns' := by
  rw [SameDomains, mapM_ok_iff.mp h, mapM_ok_iff.mp h']
  exact List.map_perm_map_iff fun _ _ => Except.ok.inj

/-- Rearranged domains are all normal, or in both lists one is not. -/
theorem mapM_sameDomains {ds ds' : List String} (h : SameDomains lib ds ds') :
    (∃ ns ns', ds.mapM (normalizeDomain lib) = .ok ns ∧
      ds'.mapM (normalizeDomain lib) = .ok ns' ∧ ns.Perm ns') ∨
    (ds.mapM (normalizeDomain lib) = .error (.valueError "INVALID_DOMAIN") ∧
      ds'.mapM (normalizeDomain lib) = .error (.valueError "INVALID_DOMAIN")) := by
  have hfails {xs ys : List String} {e : ResearchException} (hxy : SameDomains lib xs ys)
      (hx : xs.mapM (normalizeDomain lib) = .error e) :
      ∀ ns, ys.mapM (normalizeDomain lib) ≠ .ok ns := by
    intro ns hns
    obtain ⟨d, hd, hraised⟩ := mapM_error_cases hx
    have hmem : (.error e : Raises String) ∈ ys.map (normalizeDomain lib) := by
      rw [← hxy.mem_iff, ← hraised]
      exact List.mem_map_of_mem hd
    rw [mapM_ok_iff.mp hns] at hmem
    obtain ⟨n, -, hn⟩ := List.mem_map.mp hmem
    cases hn
  have herror {xs : List String} {e : ResearchException}
      (hx : xs.mapM (normalizeDomain lib) = .error e) : e = .valueError "INVALID_DOMAIN" := by
    obtain ⟨d, -, hraised⟩ := mapM_error_cases hx
    exact normalizeDomain_error hraised
  cases hds : ds.mapM (normalizeDomain lib) with
  | ok ns =>
    cases hds' : ds'.mapM (normalizeDomain lib) with
    | ok ns' => exact .inl ⟨ns, ns', rfl, rfl, (sameDomains_iff hds hds').mp h⟩
    | error e => exact absurd hds (hfails h.symm hds' ns)
  | error e =>
    cases hds' : ds'.mapM (normalizeDomain lib) with
    | ok ns' => exact absurd hds' (hfails h hds ns')
    | error e' => rw [herror hds, herror hds']; exact .inr ⟨rfl, rfl⟩

end Domains

/-! ## Fingerprints -/

/-- What a fingerprint is taken of. -/
structure FingerprintInput where
  tenantId : String
  request : ResearchRequest
  documentHash : String
  policyVersion : String
  providerVersion : String
  refreshGeneration : Option String

namespace FingerprintInput

def fingerprint (pf : Platform) (lib : ResearchLibrary) (i : FingerprintInput) : Raises String :=
  semanticFingerprint pf lib i.tenantId i.request i.documentHash i.policyVersion i.providerVersion
    i.refreshGeneration

/-- The generation of a request that forces a refresh. -/
def generation (i : FingerprintInput) : Option String :=
  if i.request.forceRefresh then i.refreshGeneration else none

/-- Requests that agree once they are normalised. -/
structure Agree (lib : ResearchLibrary) (i j : FingerprintInput) : Prop where
  tenantId : i.tenantId = j.tenantId
  decisionFileId : i.request.decisionFileId = j.request.decisionFileId
  documentHash : i.documentHash = j.documentHash
  claimRefs : i.request.claimRefs.Perm j.request.claimRefs
  query : normalizeQuery lib i.request.query = normalizeQuery lib j.request.query
  locale : lib.casefold i.request.locale = lib.casefold j.request.locale
  preferredLanguages : (i.request.preferredLanguages.map lib.casefold).Perm
    (j.request.preferredLanguages.map lib.casefold)
  allowedDomains :
    SameDomains lib.toUrlLibrary i.request.allowedDomains j.request.allowedDomains
  blockedDomains :
    SameDomains lib.toUrlLibrary i.request.blockedDomains j.request.blockedDomains
  freshness : i.request.freshness = j.request.freshness
  maxSearchResults : i.request.maxSearchResults = j.request.maxSearchResults
  maxSourcesToExtract : i.request.maxSourcesToExtract = j.request.maxSourcesToExtract
  researchPolicy : i.request.researchPolicy = j.request.researchPolicy
  policyVersion : i.policyVersion = j.policyVersion
  providerVersion : i.providerVersion = j.providerVersion
  generation : i.generation = j.generation

/-- What a fingerprint hashes, with the normalised domains. -/
def payload (lib : ResearchLibrary) (i : FingerprintInput) (allowed blocked : List String) :
    Json :=
  fingerprintPayload lib i.tenantId i.request i.documentHash i.policyVersion i.providerVersion
    i.refreshGeneration allowed blocked

variable {pf : Platform} {lib : ResearchLibrary} {i j : FingerprintInput}

theorem fingerprint_ok {f : String} : i.fingerprint pf lib = .ok f ↔
    ∃ allowed blocked, i.request.allowedDomains.mapM (normalizeDomain lib.toUrlLibrary) =
        .ok allowed ∧
      i.request.blockedDomains.mapM (normalizeDomain lib.toUrlLibrary) = .ok blocked ∧
      f = payloadHash pf (i.payload lib allowed blocked) := by
  constructor
  · intro h
    obtain ⟨domains, hdomains, h⟩ := bind_ok_cases h
    obtain ⟨allowed, hallowed, hdomains⟩ := bind_ok_cases hdomains
    obtain ⟨blocked, hblocked, hdomains⟩ := bind_ok_cases hdomains
    cases hdomains
    cases h
    exact ⟨allowed, blocked, hallowed, hblocked, rfl⟩
  · rintro ⟨allowed, blocked, hallowed, hblocked, rfl⟩
    unfold fingerprint semanticFingerprint forDomains
    rw [hallowed, ok_bind, hblocked]
    rfl

theorem floats_strings (ss : List String) : (Json.strings ss).Floats FloatText := by
  induction ss with
  | nil => trivial
  | cons s ss ih => exact ⟨trivial, ih⟩

theorem floats_ofOption (s : Option String) : (Json.ofOption s).Floats FloatText := by
  cases s <;> trivial

theorem floats_payload (allowed blocked : List String) :
    (i.payload lib allowed blocked).Floats FloatText := by
  simp only [payload, fingerprintPayload, sortedStrings, Json.Floats, Json.FloatsFields,
    floats_strings, floats_ofOption, and_self]

theorem payload_agree {allowed allowed' blocked blocked' : List String} (h : Agree lib i j)
    (hallowed : allowed.Perm allowed') (hblocked : blocked.Perm blocked') :
    i.payload lib allowed blocked = j.payload lib allowed' blocked' := by
  have hgeneration : (if i.request.forceRefresh then i.refreshGeneration else none) =
      if j.request.forceRefresh then j.refreshGeneration else none := h.generation
  simp only [payload, fingerprintPayload, h.tenantId, h.decisionFileId, h.documentHash, h.query,
    h.locale, h.freshness, h.maxSearchResults, h.maxSourcesToExtract, h.researchPolicy,
    h.policyVersion, h.providerVersion, hgeneration, sortedStrings_perm h.claimRefs,
    sortedStrings_perm h.preferredLanguages, sortedStrings_perm hallowed,
    sortedStrings_perm hblocked]

theorem fingerprint_allowed_error {e : ResearchException}
    (h : i.request.allowedDomains.mapM (normalizeDomain lib.toUrlLibrary) = .error e) :
    i.fingerprint pf lib = .error e := by
  unfold fingerprint semanticFingerprint forDomains
  rw [h]
  rfl

theorem fingerprint_blocked_error {allowed : List String} {e : ResearchException}
    (h : i.request.allowedDomains.mapM (normalizeDomain lib.toUrlLibrary) = .ok allowed)
    (h' : i.request.blockedDomains.mapM (normalizeDomain lib.toUrlLibrary) = .error e) :
    i.fingerprint pf lib = .error e := by
  unfold fingerprint semanticFingerprint forDomains
  rw [h, ok_bind, h']
  rfl

/-- Inputs that agree have one fingerprint, or are refused alike. -/
theorem fingerprint_agree (h : Agree lib i j) : i.fingerprint pf lib = j.fingerprint pf lib := by
  rcases mapM_sameDomains h.allowedDomains with ⟨as, as', ha, ha', hallowed⟩ | ⟨ha, ha'⟩
  · rcases mapM_sameDomains h.blockedDomains with ⟨bs, bs', hb, hb', hblocked⟩ | ⟨hb, hb'⟩
    · have hi : i.fingerprint pf lib = .ok (payloadHash pf (i.payload lib as bs)) :=
        fingerprint_ok.mpr ⟨as, bs, ha, hb, rfl⟩
      have hj : j.fingerprint pf lib = .ok (payloadHash pf (j.payload lib as' bs')) :=
        fingerprint_ok.mpr ⟨as', bs', ha', hb', rfl⟩
      rw [hi, hj, payload_agree h hallowed hblocked]
    · rw [fingerprint_blocked_error ha hb, fingerprint_blocked_error ha' hb']
  · rw [fingerprint_allowed_error ha, fingerprint_allowed_error ha']

/-- The payload of an input tells what it asks. -/
theorem agree_of_payload {allowed allowed' blocked blocked' : List String}
    (h : (i.payload lib allowed blocked).normal = (j.payload lib allowed' blocked').normal)
    (hallowed : allowed.Perm allowed' →
      SameDomains lib.toUrlLibrary i.request.allowedDomains j.request.allowedDomains)
    (hblocked : blocked.Perm blocked' →
      SameDomains lib.toUrlLibrary i.request.blockedDomains j.request.blockedDomains) :
    Agree lib i j := by
  have hkeys : (["tenant_id", "decision_file_id", "decision_file_version_hash", "claim_refs",
      "query", "locale", "preferred_languages", "allowed_domains", "blocked_domains", "freshness",
      "max_search_results", "max_sources_to_extract", "research_policy",
      "research_policy_version", "provider_configuration_version",
      "refresh_generation"] : List String).Nodup := by decide
  unfold payload fingerprintPayload at h
  have hfreshness : (Json.obj [("maximum_age_days", .int i.request.freshness.maximumAgeDays),
      ("prefer_recent", .bool i.request.freshness.preferRecent)]).normal =
      (Json.obj [("maximum_age_days", .int j.request.freshness.maximumAgeDays),
        ("prefer_recent", .bool j.request.freshness.preferRecent)]).normal :=
    normal_field (k := "freshness") h hkeys (by simp) (by simp)
  have hfreshnessKeys : (["maximum_age_days", "prefer_recent"] : List String).Nodup := by decide
  have hage : (Json.int i.request.freshness.maximumAgeDays).normal =
      (Json.int j.request.freshness.maximumAgeDays).normal :=
    normal_field (k := "maximum_age_days") hfreshness hfreshnessKeys (by simp) (by simp)
  have hrecent : (Json.bool i.request.freshness.preferRecent).normal =
      (Json.bool j.request.freshness.preferRecent).normal :=
    normal_field (k := "prefer_recent") hfreshness hfreshnessKeys (by simp) (by simp)
  have hsearch : (Json.int i.request.maxSearchResults).normal =
      (Json.int j.request.maxSearchResults).normal :=
    normal_field (k := "max_search_results") h hkeys (by simp) (by simp)
  have hextract : (Json.int i.request.maxSourcesToExtract).normal =
      (Json.int j.request.maxSourcesToExtract).normal :=
    normal_field (k := "max_sources_to_extract") h hkeys (by simp) (by simp)
  have hrefresh : (Json.ofOption i.generation).normal = (Json.ofOption j.generation).normal :=
    normal_field (k := "refresh_generation") h hkeys (by simp [generation])
      (by simp [generation])
  constructor
  · exact str_of_normal (normal_field (k := "tenant_id") h hkeys (by simp) (by simp))
  · exact str_of_normal (normal_field (k := "decision_file_id") h hkeys (by simp) (by simp))
  · exact str_of_normal
      (normal_field (k := "decision_file_version_hash") h hkeys (by simp) (by simp))
  · exact perm_of_normal (normal_field (k := "claim_refs") h hkeys (by simp) (by simp))
  · exact str_of_normal (normal_field (k := "query") h hkeys (by simp) (by simp))
  · exact str_of_normal (normal_field (k := "locale") h hkeys (by simp) (by simp))
  · exact perm_of_normal (normal_field (k := "preferred_languages") h hkeys (by simp) (by simp))
  · apply hallowed
    exact perm_of_normal (normal_field (k := "allowed_domains") h hkeys (by simp) (by simp))
  · apply hblocked
    exact perm_of_normal (normal_field (k := "blocked_domains") h hkeys (by simp) (by simp))
  · cases hi : i.request.freshness
    cases hj : j.request.freshness
    simp only [hi, hj] at hage hrecent
    obtain rfl := Int.ofNat_inj.mp (Json.int.inj hage)
    obtain rfl := Json.bool.inj hrecent
    rfl
  · exact Int.ofNat_inj.mp (Json.int.inj hsearch)
  · exact Int.ofNat_inj.mp (Json.int.inj hextract)
  · exact str_of_normal (normal_field (k := "research_policy") h hkeys (by simp) (by simp))
  · exact str_of_normal (normal_field (k := "research_policy_version") h hkeys (by simp) (by simp))
  · exact str_of_normal
      (normal_field (k := "provider_configuration_version") h hkeys (by simp) (by simp))
  · exact ofOption_of_normal hrefresh

theorem agree_of_fingerprint (hhash : Function.Injective pf.sha256) {f : String}
    (hi : i.fingerprint pf lib = .ok f) (hj : j.fingerprint pf lib = .ok f) : Agree lib i j := by
  obtain ⟨allowed, blocked, hallowed, hblocked, rfl⟩ := fingerprint_ok.mp hi
  obtain ⟨allowed', blocked', hallowed', hblocked', hsame⟩ := fingerprint_ok.mp hj
  have hnormal := normal_eq_of_dumps (floats_payload allowed blocked)
    (floats_payload allowed' blocked') (dumps_of_payloadHash hhash hsame)
  exact agree_of_payload hnormal (sameDomains_iff hallowed hallowed').mpr
    (sameDomains_iff hblocked hblocked').mpr

/-! ## Rearranged requests -/

/-- The same input but for the order of the claims, the languages and the domains. -/
structure Rearranged (i j : FingerprintInput) : Prop where
  claimRefs : i.request.claimRefs.Perm j.request.claimRefs
  preferredLanguages : i.request.preferredLanguages.Perm j.request.preferredLanguages
  allowedDomains : i.request.allowedDomains.Perm j.request.allowedDomains
  blockedDomains : i.request.blockedDomains.Perm j.request.blockedDomains
  others : j.request.toRequestFields = { i.request.toRequestFields with
    claimRefs := j.request.claimRefs
    preferredLanguages := j.request.preferredLanguages
    allowedDomains := j.request.allowedDomains
    blockedDomains := j.request.blockedDomains }
  input : j = { i with request := j.request }

theorem Rearranged.agree (h : Rearranged i j) : Agree lib i j := by
  obtain ⟨hclaims, hlanguages, hallowed, hblocked, hothers, hinput⟩ := h
  rw [RequestFields.mk.injEq] at hothers
  obtain ⟨hfile, -, hquery, hlocale, -, hsearch, hextract, -, -, hfreshness, hpolicy, hforce⟩ :=
    hothers
  rw [FingerprintInput.mk.injEq] at hinput
  obtain ⟨htenant, -, hdocument, hversion, hprovider, hrefresh⟩ := hinput
  exact {
    tenantId := htenant.symm
    decisionFileId := hfile.symm
    documentHash := hdocument.symm
    claimRefs := hclaims
    query := by rw [hquery]
    locale := by rw [hlocale]
    preferredLanguages := hlanguages.map _
    allowedDomains := hallowed.map _
    blockedDomains := hblocked.map _
    freshness := hfreshness.symm
    maxSearchResults := hsearch.symm
    maxSourcesToExtract := hextract.symm
    researchPolicy := hpolicy.symm
    policyVersion := hversion.symm
    providerVersion := hprovider.symm
    generation := by rw [generation, generation, hforce, hrefresh] }

/-- Where SHA-256 is injective, two inputs that have fingerprints have the same one exactly if they
agree once they are normalised; rearranged inputs have one fingerprint, or are refused alike. -/
theorem fingerprint_exact (pf : Platform) (lib : ResearchLibrary)
    (hhash : Function.Injective pf.sha256) (i j : FingerprintInput) :
    (∀ f f', i.fingerprint pf lib = .ok f → j.fingerprint pf lib = .ok f' →
      (f = f' ↔ Agree lib i j)) ∧
    (Agree lib i j → i.fingerprint pf lib = j.fingerprint pf lib) ∧
    (Rearranged i j → i.fingerprint pf lib = j.fingerprint pf lib) := by
  refine ⟨?_, fingerprint_agree, fun h => fingerprint_agree h.agree⟩
  intro f f' hi hj
  constructor
  · rintro rfl
    exact agree_of_fingerprint hhash hi hj
  · intro h
    rw [fingerprint_agree h, hj] at hi
    exact (Except.ok.inj hi).symm

end FingerprintInput

/-! ## Two requests -/

def policyRequest : ResearchRequest where
  decisionFileId := "case-1"
  claimRefs := ["claim-1", "claim-2"]
  query := "returns policy"
  locale := "en"
  preferredLanguages := ["en", "de"]
  maxSearchResults := 10
  maxSourcesToExtract := 5
  allowedDomains := ["example.org", "example.com"]
  blockedDomains := []
  freshness := ⟨30, true, by decide⟩
  researchPolicy := "standard"
  forceRefresh := false
  valid := by rfl

/-- The request with its lists the other way round and the words apart. -/
def spacedRequest : ResearchRequest where
  toRequestFields := { policyRequest.toRequestFields with
    claimRefs := ["claim-2", "claim-1"]
    query := " returns   policy "
    preferredLanguages := ["de", "en"]
    allowedDomains := ["example.com.", "example.org"] }
  valid := by rfl

def policyInput : FingerprintInput :=
  ⟨"tenant", policyRequest, "sha256:0", "research-policy-v1", "providers-v1", none⟩

def spacedInput : FingerprintInput :=
  ⟨"tenant", spacedRequest, "sha256:0", "research-policy-v1", "providers-v1", some "ignored"⟩

theorem policyInput_agree : policyInput.Agree plainLibrary spacedInput where
  tenantId := rfl
  decisionFileId := rfl
  documentHash := rfl
  claimRefs := .swap _ _ _
  query := by decide
  locale := rfl
  preferredLanguages := .swap _ _ _
  allowedDomains := by
    have hpoint : normalizeDomain plainLibrary.toUrlLibrary "example.com." =
        normalizeDomain plainLibrary.toUrlLibrary "example.com" := by decide
    simp only [SameDomains, policyInput, spacedInput, policyRequest, spacedRequest, List.map_cons,
      List.map_nil, hpoint]
    exact .swap _ _ _
  blockedDomains := .refl _
  freshness := rfl
  maxSearchResults := rfl
  maxSourcesToExtract := rfl
  researchPolicy := rfl
  policyVersion := rfl
  providerVersion := rfl
  generation := rfl

theorem fingerprint_exact_spacedInput :
    policyInput.fingerprint textPlatform plainLibrary =
      spacedInput.fingerprint textPlatform plainLibrary :=
  (FingerprintInput.fingerprint_exact textPlatform plainLibrary textPlatform_injective policyInput
    spacedInput).2.1 policyInput_agree

end DecisionAssurance.Research
