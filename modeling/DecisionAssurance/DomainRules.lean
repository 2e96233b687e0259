import Mathlib.Data.List.TakeWhile
import DecisionAssurance.Idna
import DecisionAssurance.SemanticFingerprint
import DecisionAssurance.UrlPolicy

/-!
# Domain rules and the spelling of hosts

The rules of a policy are compared with the normal form of a host. `normalize_domain` takes full
stops from the end before it encodes, and the IDNA codec puts a full stop where another of its dots
ended the host, so that a host which ends in such a dot has a normal form that no rule names.
-/

namespace DecisionAssurance.Research

open Idna (isDot isAscii mapDots)

/-- Case folding, one character after the other; dots are folded to themselves. -/
structure CaseFolding where
  fold : Char → List Char
  dot : ∀ c, isDot c = true → fold c = [c]
  other : ∀ c, isDot c = false → fold c ≠ [] ∧ ∀ d ∈ fold c, isDot d = false

/-- The library with the codec and with case folding by characters. -/
def UrlLibrary.withHosts (lib : UrlLibrary) (foreign : List Char → Option (List Char))
    (folding : CaseFolding) : UrlLibrary :=
  { lib with
    idna := fun s => (Idna.encode foreign s.toList).map String.ofList
    casefold := fun s => String.ofList (s.toList.flatMap folding.fold) }

/-! ## Validation, step by step -/

section Validation

variable {lib : UrlLibrary} {policy : PublicUrlPolicy} {resolve : String → Raises (List String)}
  {value host domain : String} {parsed : UrlParts} {safe : SafeUrl}

/-- The URL was read and its host is not refused, whatever the rules. -/
structure Located (lib : UrlLibrary) (resolve : String → Raises (List String)) (value : String)
    (parsed : UrlParts) (host domain : String) : Prop where
  splits : lib.urlsplit value = some parsed
  names : PublicUrlPolicy.authority lib parsed = .ok host
  encodes : PublicUrlPolicy.domainOf lib parsed host = .ok domain
  reaches : ∃ found, PublicUrlPolicy.addresses lib resolve domain = .ok found ∧ found ≠ [] ∧
    found.all (isPublic lib) = true
  quotes : PublicUrlPolicy.quotable lib parsed.query = true

theorem validate_ok : policy.validate lib resolve value = .ok safe ↔
    ∃ parsed host domain, Located lib resolve value parsed host domain ∧
      policy.checkDomain domain = .ok () ∧
      safe = ⟨value, PublicUrlPolicy.canonicalUrl lib parsed domain, domain⟩ := by
  constructor
  · intro h
    obtain ⟨parsed, hparsed, h⟩ := bind_ok_cases h
    obtain ⟨host, hhost, h⟩ := bind_ok_cases h
    obtain ⟨domain, hdomain, h⟩ := bind_ok_cases h
    obtain ⟨_, hchecked, h⟩ := bind_ok_cases h
    obtain ⟨found, hfound, h⟩ := bind_ok_cases h
    split_ifs at h with hpublic hquotes
    rw [Bool.or_eq_true, not_or, Bool.not_eq_true', Bool.not_eq_false] at hpublic
    rw [Bool.not_eq_true', Bool.not_eq_false] at hquotes
    cases h
    have hne : found ≠ [] := fun hnil => hpublic.1 (List.isEmpty_iff.mpr hnil)
    exact ⟨parsed, host, domain,
      ⟨orRaise_ok.mp hparsed, hhost, hdomain, ⟨found, hfound, hne, hpublic.2⟩, hquotes⟩, hchecked,
      rfl⟩
  · intro ⟨parsed, host, domain, hlocated, hchecked, hsafe⟩
    obtain ⟨hparsed, hhost, hdomain, ⟨found, hfound, hne, hall⟩, hquotes⟩ := hlocated
    have hsome : found.isEmpty = false := by simpa using hne
    rw [PublicUrlPolicy.validate, hparsed, orRaise, ok_bind, hhost, ok_bind, hdomain, ok_bind,
      hchecked, ok_bind, hfound, ok_bind, hsome, hall, hquotes, hsafe]
    rfl

theorem checkDomain_ok : policy.checkDomain domain = .ok () ↔
    (domain ≠ "localhost" ∧ domain ≠ "localhost.localdomain" ∧
      endsWith ".localhost" domain = false) ∧ policy.blocked.any (matchesRule domain) = false ∧
      (policy.allowed ≠ [] → policy.allowed.any (matchesRule domain) = true) := by
  unfold PublicUrlPolicy.checkDomain
  split_ifs with hlocal hblocked hallowed
  · rw [false_iff]
    simp only [Bool.or_eq_true, decide_eq_true_eq] at hlocal
    intro ⟨⟨hhost, hdomain, hends⟩, _⟩
    simp [hhost, hdomain, hends] at hlocal
  · simp [hblocked]
  · rw [false_iff]
    simp only [Bool.and_eq_true, Bool.not_eq_true'] at hallowed
    intro ⟨_, _, h⟩
    rw [h (by simpa using hallowed.1)] at hallowed
    cases hallowed.2
  · simp only [Bool.or_eq_true, decide_eq_true_eq, not_or, Bool.not_eq_true] at hlocal
    simp only [Bool.and_eq_true, Bool.not_eq_true', not_and, Bool.not_eq_false] at hallowed
    simp only [true_iff]
    exact ⟨⟨hlocal.1.1, hlocal.1.2, hlocal.2⟩, by simpa using hblocked,
      fun hne => hallowed (by simpa using hne)⟩

theorem hostname_of_authority (h : PublicUrlPolicy.authority lib parsed = .ok host) :
    parsed.hostname = some host := by
  unfold PublicUrlPolicy.authority at h
  split_ifs at h
  split at h
  · cases h
  · next host' hname =>
    split_ifs at h
    rw [hname, Except.ok.inj h]

theorem normalizeDomain_of_domainOf (h : PublicUrlPolicy.domainOf lib parsed host = .ok domain) :
    normalizeDomain lib host = .ok domain := by
  unfold PublicUrlPolicy.domainOf at h
  split at h
  · next domain' port hdomain _ =>
    split_ifs at h
    rw [hdomain, Except.ok.inj h]
  · cases h

end Validation

/-! ## The spelling of a host -/

/-- `normalize_domain` after the stripping of white space. -/
def normalForm (lib : UrlLibrary) (chars : List Char) : Raises String :=
  let candidate := lib.casefold (String.ofList (rstripDots chars))
  if candidate.isEmpty || candidate.toList.contains '/' || candidate.toList.contains '@' then
    .error (.valueError "INVALID_DOMAIN")
  else orRaise (.valueError "INVALID_DOMAIN") (lib.idna candidate)

/-- Without one full stop at the end. -/
def dropDot (cs : List Char) : List Char := if cs.getLast? = some '.' then cs.dropLast else cs

/-- A host with a full stop for every dot and without one at the end. -/
def spelledHost (host : String) : List Char := dropDot (mapDots (strip host.toList))

/-- What the rules mean for a host: its normal form, however its dots are spelled, is under no
blocked domain, and under an allowed one if there are any. -/
def Respected (lib : UrlLibrary) (policy : PublicUrlPolicy) (host : String) : Prop :=
  ∃ domain, normalForm lib (spelledHost host) = .ok domain ∧
    policy.blocked.any (matchesRule domain) = false ∧
      (policy.allowed ≠ [] → policy.allowed.any (matchesRule domain) = true)

/-- Without white space and full stops around it, the host does not end in another dot. -/
def PlainEnding (host : String) : Prop :=
  ∀ d, (rstripDots (strip host.toList)).getLast? = some d → isDot d = false

section Spelling

variable {cs init tail : List Char} {c d : Char}

theorem rstripDots_append (htail : ∀ c ∈ tail, c = '.') :
    rstripDots (cs ++ tail) = rstripDots cs := by
  rw [rstripDots, rstripDots, List.reverse_append, List.dropWhile_append_of_pos]
  intro c hc
  exact decide_eq_true (htail c (List.mem_reverse.mp hc))

theorem rstripDots_concat (hd : d ≠ '.') : rstripDots (init ++ [d]) = init ++ [d] := by
  simp [rstripDots, hd]

theorem rstripDots_spec (cs : List Char) : ∃ tail, cs = rstripDots cs ++ tail ∧
    (∀ c ∈ tail, c = '.') ∧ ∀ d, (rstripDots cs).getLast? = some d → d ≠ '.' := by
  refine ⟨(cs.reverse.takeWhile (· = '.')).reverse, ?_, ?_, ?_⟩
  · rw [rstripDots, ← List.reverse_append, List.takeWhile_append_dropWhile, List.reverse_reverse]
  · intro c hc
    simpa using List.mem_takeWhile_imp (List.mem_reverse.mp hc)
  · intro d hd
    rw [rstripDots, List.getLast?_reverse] at hd
    have hfirst := List.head?_dropWhile_not (fun c : Char => decide (c = '.')) cs.reverse
    rw [hd] at hfirst
    simpa using hfirst

theorem rstripDots_dropDot (cs : List Char) : rstripDots (dropDot cs) = rstripDots cs := by
  unfold dropDot
  split_ifs with h
  · obtain ⟨init, rfl⟩ := List.getLast?_eq_some_iff.mp h
    rw [List.dropLast_concat]
    exact (rstripDots_append (by simp)).symm
  · rfl

/-- The host up to its dots, with full stops in it. -/
theorem rstripDots_spelled {host : String} (hsplit : strip host.toList = init ++ [c] ++ tail)
    (hc : isDot c = false) (htail : ∀ d ∈ tail, isDot d = true) :
    rstripDots (spelledHost host) = mapDots (init ++ [c]) := by
  have hdots : ∀ d ∈ mapDots tail, d = '.' := by
    intro d hd
    obtain ⟨e, he, rfl⟩ := List.mem_map.mp hd
    simp [Idna.plainDot, htail e he]
  have happend : mapDots (init ++ [c]) = mapDots init ++ [c] := by
    rw [mapDots, List.map_append, List.map_singleton, Idna.plainDot_of_not_isDot hc]
    rfl
  have hmap : mapDots (strip host.toList) = mapDots init ++ [c] ++ mapDots tail := by
    rw [hsplit, mapDots, List.map_append]
    exact congrArg (· ++ mapDots tail) happend
  have hne : c ≠ '.' := by
    rintro rfl
    exact absurd hc (by decide)
  rw [spelledHost, rstripDots_dropDot, hmap, rstripDots_append hdots, rstripDots_concat hne,
    happend]

namespace CaseFolding

variable (folding : CaseFolding)

/-- Folding and the mapping of dots commute. -/
theorem fold_mapDots (cs : List Char) :
    (mapDots cs).flatMap folding.fold = mapDots (cs.flatMap folding.fold) := by
  induction cs with
  | nil => rfl
  | cons c cs ih =>
    rw [show mapDots (c :: cs) = Idna.plainDot c :: mapDots cs from rfl, List.flatMap_cons, ih,
      List.flatMap_cons, mapDots, mapDots, List.map_append]
    congr 1
    cases hc : isDot c with
    | true =>
      have hplain : Idna.plainDot c = '.' := by simp [Idna.plainDot, hc]
      rw [folding.dot c hc, hplain, folding.dot '.' (by decide), List.map_singleton, hplain]
    | false =>
      rw [Idna.plainDot_of_not_isDot hc]
      conv_lhs => rw [← List.map_id (folding.fold c)]
      apply List.map_congr_left
      intro d hd
      exact (Idna.plainDot_of_not_isDot ((folding.other c hc).2 d hd)).symm

/-- A text that ends in no dot is folded to one that ends in no dot. -/
theorem fold_concat (hc : isDot c = false) : ∃ init' d,
    (init ++ [c]).flatMap folding.fold = init' ++ [d] ∧ isDot d = false := by
  obtain ⟨hne, hnone⟩ := folding.other c hc
  refine ⟨init.flatMap folding.fold ++ (folding.fold c).dropLast, (folding.fold c).getLast hne,
    ?_, hnone _ (List.getLast_mem hne)⟩
  rw [List.flatMap_append, List.flatMap_singleton, List.append_assoc,
    List.dropLast_concat_getLast]

theorem mem_fold_mapDots {c : Char} (hc : isDot c = false) :
    c ∈ mapDots cs ↔ c ∈ cs := by
  rw [mapDots, List.mem_map]
  constructor
  · rintro ⟨d, hd, rfl⟩
    rw [Idna.isDot_plainDot] at hc
    rwa [Idna.plainDot_of_not_isDot hc]
  · intro hmem
    exact ⟨c, hmem, Idna.plainDot_of_not_isDot hc⟩

end CaseFolding

/-! ## The normal forms of a host and of its spelling -/

section NormalForms

variable {lib : UrlLibrary} {foreign : List Char → Option (List Char)} {folding : CaseFolding}
  {chars : List Char} {host domain : String}

theorem isEmpty_ofList (cs : List Char) : (String.ofList cs).isEmpty = cs.isEmpty := by
  rw [Bool.eq_iff_iff]
  simp

theorem normalForm_ok : normalForm (lib.withHosts foreign folding) chars = .ok domain ↔
    let candidate := (rstripDots chars).flatMap folding.fold
    candidate ≠ [] ∧ '/' ∉ candidate ∧ '@' ∉ candidate ∧
      Idna.encode foreign candidate = some domain.toList := by
  unfold normalForm UrlLibrary.withHosts
  simp only [String.toList_ofList, isEmpty_ofList]
  split_ifs with h
  · rw [false_iff]
    intro ⟨hne, hslash, hat, _⟩
    simp [hne, hslash, hat] at h
  · simp only [Bool.or_eq_true, List.isEmpty_iff, List.contains_eq_mem, decide_eq_true_eq,
      not_or] at h
    rw [orRaise_ok, Option.map_eq_some_iff, and_iff_right h.1.1, and_iff_right h.1.2,
      and_iff_right h.2]
    constructor
    · rintro ⟨name, hname, rfl⟩
      rw [hname, String.toList_ofList]
    · intro hname
      exact ⟨domain.toList, hname, String.ofList_toList⟩

/-- A host that ends in no other dot has the normal form of its spelling. -/
theorem normalForm_spelled (hplain : PlainEnding host)
    (h : normalForm (lib.withHosts foreign folding) (strip host.toList) = .ok domain) :
    normalForm (lib.withHosts foreign folding) (spelledHost host) = .ok domain := by
  obtain ⟨hne, hslash, hat, hname⟩ := normalForm_ok.mp h
  obtain ⟨tail, hsplit, htail, -⟩ := rstripDots_spec (strip host.toList)
  generalize hcore : rstripDots (strip host.toList) = core at *
  cases core using List.reverseRecOn with
  | nil => exact absurd rfl hne
  | append_singleton init c =>
    have hc : isDot c = false := hplain c (by rw [hcore, List.getLast?_concat])
    have hdots : ∀ d ∈ tail, isDot d = true := by
      intro d hd
      rw [htail d hd]
      decide
    have hspelled := rstripDots_spelled hsplit hc hdots
    obtain ⟨folded, d, hfolded, hd⟩ := @CaseFolding.fold_concat init c folding hc
    rw [hfolded] at hne hslash hat hname
    rw [normalForm_ok, hspelled, folding.fold_mapDots, hfolded]
    refine ⟨by simp [mapDots], ?_, ?_, ?_⟩
    · rwa [CaseFolding.mem_fold_mapDots (by decide)]
    · rwa [CaseFolding.mem_fold_mapDots (by decide)]
    · rw [Idna.encode_mapDots hd]
      exact hname

/-- A host that ends in another dot has a normal form with a full stop at the end, which its
spelling does not have. -/
theorem normalForm_dotted (hdotted : ¬ PlainEnding host)
    (h : normalForm (lib.withHosts foreign folding) (strip host.toList) = .ok domain) :
    ∃ name, normalForm (lib.withHosts foreign folding) (spelledHost host) = .ok name ∧
      domain.toList = name.toList ++ ['.'] := by
  obtain ⟨hne, hslash, hat, hname⟩ := normalForm_ok.mp h
  obtain ⟨tail, hsplit, htail, hlast⟩ := rstripDots_spec (strip host.toList)
  simp only [PlainEnding, not_forall, Bool.not_eq_false] at hdotted
  obtain ⟨d, hd, hdot⟩ := hdotted
  have hforeign : isAscii d = false := by
    rw [Bool.eq_false_iff]
    intro hascii
    have hfull := Idna.plainDot_of_isAscii hascii
    simp only [Idna.plainDot, hdot, if_true] at hfull
    exact hlast d hd hfull.symm
  obtain ⟨init, hcore⟩ := List.getLast?_eq_some_iff.mp hd
  rw [hcore] at hsplit hslash hat hname
  rw [List.flatMap_append, List.flatMap_singleton, folding.dot d hdot] at hslash hat hname
  obtain ⟨folded, e, encoded, hfolded, he, hencoded, hdomain⟩ :=
    Idna.encode_dot hdot hforeign hname
  -- what is folded ends in no dot, so the host before its dot does not either
  have hinit : ∃ init' c, init = init' ++ [c] ∧ isDot c = false := by
    cases init using List.reverseRecOn with
    | nil => simp at hfolded
    | append_singleton init' c =>
      refine ⟨init', c, rfl, ?_⟩
      rw [Bool.eq_false_iff]
      intro hc
      rw [List.flatMap_append, List.flatMap_singleton, folding.dot c hc] at hfolded
      obtain ⟨-, hsame⟩ := List.append_inj' hfolded rfl
      cases hsame
      rw [he] at hc
      cases hc
  obtain ⟨init', c, rfl, hc⟩ := hinit
  have hdots : ∀ x ∈ d :: tail, isDot x = true := by
    rw [List.forall_mem_cons]
    refine ⟨hdot, fun x hx => ?_⟩
    rw [htail x hx]
    decide
  rw [List.append_assoc] at hsplit
  have hspelled := @rstripDots_spelled init' (d :: tail) c _ hsplit hc hdots
  refine ⟨String.ofList encoded, ?_, by rw [hdomain, String.toList_ofList]⟩
  rw [normalForm_ok, hspelled, folding.fold_mapDots, String.toList_ofList]
  refine ⟨?_, ?_, ?_, ?_⟩
  · simp [mapDots, hfolded]
  · rw [CaseFolding.mem_fold_mapDots (by decide)]
    exact fun hmem => hslash (List.mem_append_left _ hmem)
  · rw [CaseFolding.mem_fold_mapDots (by decide)]
    exact fun hmem => hat (List.mem_append_left _ hmem)
  · rw [hfolded, Idna.encode_mapDots he, ← hfolded]
    exact hencoded

/-! ## The rules -/

variable {resolve : String → Raises (List String)} {value : String}

theorem matchesRule_self (domain : String) : matchesRule domain domain = true := by
  simp [matchesRule]

theorem length_le_of_matchesRule {rule : String} (h : matchesRule domain rule = true) :
    rule.toList.length ≤ domain.toList.length := by
  simp only [matchesRule, Bool.or_eq_true, decide_eq_true_eq] at h
  rcases h with rfl | h
  · exact le_refl _
  · have hsuffix := (List.isSuffixOf_iff_suffix.mp h).length_le
    rw [String.toList_append, List.length_append] at hsuffix
    omega

/-- A policy without rules. -/
def noRules : PublicUrlPolicy := ⟨[], []⟩

/-- The rules of a policy are respected for every list of domains exactly where no accepted host
ends, before its full stops, in another dot. -/
theorem rules_respected_iff (value : String) :
    (∀ allowed blocked policy safe parsed host,
        forDomains (lib.withHosts foreign folding) allowed blocked = .ok policy →
        policy.validate (lib.withHosts foreign folding) resolve value = .ok safe →
        lib.urlsplit value = some parsed → parsed.hostname = some host →
        Respected (lib.withHosts foreign folding) policy host) ↔
      ∀ safe parsed host, noRules.validate (lib.withHosts foreign folding) resolve value = .ok safe →
        lib.urlsplit value = some parsed → parsed.hostname = some host → PlainEnding host := by
  constructor
  · intro hrules safe parsed host hvalid hparsed hhost
    obtain ⟨parsed', host', domain, hlocated, hchecked, -⟩ := validate_ok.mp hvalid
    obtain rfl : parsed' = parsed := Option.some.inj (hlocated.splits.symm.trans hparsed)
    obtain rfl : host' = host :=
      Option.some.inj ((hostname_of_authority hlocated.names).symm.trans hhost)
    have hdomain := normalizeDomain_of_domainOf hlocated.encodes
    by_contra hdotted
    obtain ⟨name, hname, hlonger⟩ := normalForm_dotted hdotted hdomain
    -- the host itself as the only allowed domain
    have hpolicy : forDomains (lib.withHosts foreign folding) [host'] [] = .ok ⟨[domain], []⟩ := by
      simp only [forDomains, List.mapM_cons, List.mapM_nil, hdomain]
      rfl
    have hallowed : PublicUrlPolicy.checkDomain ⟨[domain], []⟩ domain = .ok () := by
      rw [checkDomain_ok]
      refine ⟨(checkDomain_ok.mp hchecked).1, rfl, fun _ => ?_⟩
      simp [matchesRule_self]
    obtain ⟨name', hname', -, hmatch⟩ := hrules [host'] [] ⟨[domain], []⟩ _ parsed' host' hpolicy
      (validate_ok.mpr ⟨parsed', host', domain, hlocated, hallowed, rfl⟩) hparsed hhost
    obtain rfl : name' = name := Except.ok.inj (hname'.symm.trans hname)
    have hlength := length_le_of_matchesRule (by simpa using hmatch (by simp))
    rw [hlonger, List.length_append, List.length_singleton] at hlength
    omega
  · intro hplain allowed blocked policy safe parsed host _ hvalid hparsed hhost
    obtain ⟨parsed', host', domain, hlocated, hchecked, -⟩ := validate_ok.mp hvalid
    obtain rfl : parsed' = parsed := Option.some.inj (hlocated.splits.symm.trans hparsed)
    obtain rfl : host' = host :=
      Option.some.inj ((hostname_of_authority hlocated.names).symm.trans hhost)
    have hfree : noRules.checkDomain domain = .ok () := by
      rw [checkDomain_ok]
      exact ⟨(checkDomain_ok.mp hchecked).1, rfl, fun hne => absurd rfl hne⟩
    have hending := hplain _ parsed' host'
      (validate_ok.mpr ⟨parsed', host', domain, hlocated, hfree, rfl⟩) hparsed hhost
    have hdomain := normalizeDomain_of_domainOf hlocated.encodes
    exact ⟨domain, normalForm_spelled hending hdomain, (checkDomain_ok.mp hchecked).2⟩

end NormalForms

end Spelling

/-! ## A dotted spelling -/

/-- Case folding of texts in small letters. -/
def smallLetters : CaseFolding where
  fold c := [c]
  dot _ _ := rfl
  other c h := ⟨List.cons_ne_nil _ _, by simpa using h⟩

/-- A library that reads one URL, whose host ends in an ideographic full stop. -/
def dottedLibrary : UrlLibrary :=
  { plainLibrary.toUrlLibrary with
    urlsplit := fun url =>
      if url = "https://evil.com。/" then
        some ⟨"https", none, none, some "evil.com。", some none, "/", ""⟩
      else none }.withHosts (fun _ => none) smallLetters

def publicResolver (_ : String) : Raises (List String) := .ok ["93.184.215.14"]

/-- With an ideographic full stop at the end a blocked host is accepted. -/
theorem dotted_spelling_evades :
    forDomains dottedLibrary [] ["evil.com"] = .ok ⟨[], ["evil.com"]⟩ ∧
      PublicUrlPolicy.validate dottedLibrary ⟨[], ["evil.com"]⟩ publicResolver
        "https://evil.com。/" = .ok ⟨"https://evil.com。/", "https://evil.com./", "evil.com."⟩ ∧
      ¬ Respected dottedLibrary ⟨[], ["evil.com"]⟩ "evil.com。" := by
  refine ⟨by rfl, by rfl, ?_⟩
  intro ⟨domain, hdomain, hblocked, _⟩
  have hname : normalForm dottedLibrary (spelledHost "evil.com。") = .ok "evil.com" := by
    rfl
  obtain rfl := Except.ok.inj (hname.symm.trans hdomain)
  revert hblocked
  decide

end DecisionAssurance.Research
