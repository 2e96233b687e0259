import DecisionAssurance.WrittenUrls

/-!
# Canonical URLs

The canonical URL of an accepted URL, accepted once more. It is its own canonical URL unless the
encoding of the host holds a delimiter, an empty label or white space at an end: whatever is cut
from a domain makes it shorter, and nothing makes it longer again.
-/

namespace DecisionAssurance.Research

open Idna (isAscii isDot)

section Reading

variable {tables : UrlTables} {domain : String} {cs netloc : List Char}

/-! ## Reading back a whole domain -/

/-- The authority that is read of a written one. -/
def readNetloc (tables : UrlTables) (domain : String) : List Char :=
  ((writtenNetloc tables domain).filter fun c => !isUnsafe c).takeWhile fun c => !endsNetloc c

theorem readNetloc_sublist : (readNetloc tables domain).Sublist (writtenNetloc tables domain) :=
  (List.takeWhile_sublist _).trans List.filter_sublist

theorem mem_readNetloc {c : Char} (hc : c ∈ readNetloc tables domain) :
    isUnsafe c = false ∧ endsNetloc c = false := by
  constructor
  · simpa using (List.mem_filter.mp ((List.takeWhile_sublist _).subset hc)).2
  · simpa using List.mem_takeWhile_imp hc

theorem length_beforeFirst_le (c : Char) (cs : List Char) : (beforeFirst c cs).length ≤ cs.length :=
  (List.takeWhile_sublist _).length_le

theorem length_afterFirst_lt {c : Char} (h : c ∈ cs) : (afterFirst c cs).length < cs.length := by
  obtain ⟨xs, ys, hcs, -, -, hafter⟩ := exists_partition h
  rw [hafter, hcs, List.length_append, List.length_cons]
  omega

/-- A host without brackets of which nothing is cut. -/
theorem writable_of_plain (hv : ¬ ((tables.ipAddress domain).any fun a => a.version = 6) = true)
    (hat : '@' ∉ readNetloc tables domain)
    (hformed : wellFormed tables.text tables.ipAddress (readNetloc tables domain) = true)
    (hlength : domain.toList.length ≤ (hostInfo (readNetloc tables domain)).1.length) :
    IsWritable tables domain ∧ (hostInfo (readNetloc tables domain)).1 = domain.toList := by
  have hsub := @readNetloc_sublist tables domain
  have hchars : ∀ c ∈ readNetloc tables domain, isUnsafe c = false ∧ endsNetloc c = false :=
    fun c => mem_readNetloc
  have hwritten : writtenNetloc tables domain = domain.toList := if_neg hv
  rw [hwritten] at hsub
  generalize readNetloc tables domain = netloc at *
  have hle := hsub.length_le
  simp only [hostInfo, afterLast_of_not_mem hat] at hlength ⊢
  have hopen : '[' ∉ netloc := by
    intro hopen
    rw [if_pos hopen] at hlength
    dsimp only at hlength
    have hbefore := length_beforeFirst_le ']' (afterFirst '[' netloc)
    have hafter := length_afterFirst_lt hopen
    omega
  rw [if_neg hopen] at hlength ⊢
  dsimp only at hlength ⊢
  have hbefore := length_beforeFirst_le ':' netloc
  have hcolon : beforeFirst ':' netloc = netloc :=
    (List.takeWhile_sublist _).eq_of_length (by rw [← beforeFirst]; omega)
  obtain rfl : netloc = domain.toList := hsub.eq_of_length (by omega)
  refine ⟨⟨fun c hc => ⟨(hchars c hc).1, (hchars c hc).2, fun he => hat (he ▸ hc)⟩, ?_⟩, hcolon⟩
  rw [if_neg hv]
  refine ⟨?_, hopen, ?_⟩
  · intro hmem
    rw [← hcolon] at hmem
    simpa using List.mem_takeWhile_imp hmem
  · intro hclose
    simp [wellFormed, hopen, hclose] at hformed

/-- An IPv6 address of which nothing is cut. -/
theorem writable_of_address (hv : ((tables.ipAddress domain).any fun a => a.version = 6) = true)
    (hat : '@' ∉ readNetloc tables domain)
    (hformed : wellFormed tables.text tables.ipAddress (readNetloc tables domain) = true)
    (hlength : domain.toList.length ≤ (hostInfo (readNetloc tables domain)).1.length) :
    IsWritable tables domain ∧ (hostInfo (readNetloc tables domain)).1 = domain.toList := by
  have hchars : ∀ c ∈ readNetloc tables domain, isUnsafe c = false ∧ endsNetloc c = false :=
    fun c => mem_readNetloc
  have hread : ∃ inner, readNetloc tables domain = '[' :: inner ∧
      inner.Sublist (domain.toList ++ [']']) := by
    refine ⟨((domain.toList ++ [']']).filter fun c => !isUnsafe c).takeWhile
      fun c => !endsNetloc c, ?_, (List.takeWhile_sublist _).trans List.filter_sublist⟩
    rw [readNetloc, writtenNetloc, if_pos hv, List.filter_cons_of_pos (by decide),
      List.takeWhile_cons_of_pos (by decide)]
  obtain ⟨inner, hinner, hsub⟩ := hread
  rw [hinner] at hchars hat hformed hlength ⊢
  have hopen : '[' ∈ '[' :: inner := List.mem_cons_self
  have hafter : afterFirst '[' ('[' :: inner) = inner :=
    afterFirst_head _ _
  simp only [hostInfo, afterLast_of_not_mem hat, if_pos hopen, hafter] at hlength ⊢
  simp only [wellFormed, Bool.and_eq_true, checkBracketedNetloc, afterLast_of_not_mem hat,
    if_pos hopen, hafter] at hformed
  obtain ⟨⟨hbrackets, hchecked⟩, -⟩ := hformed
  have hclose : ']' ∈ inner := by simpa using hbrackets
  have hhost : checkBracketedHost tables.ipAddress (beforeFirst ']' inner) = true := by
    rw [Bool.or_eq_true, Bool.and_eq_true] at hchecked
    exact (hchecked.resolve_left (by simp)).2
  obtain ⟨host, rest, rfl, hfree, hbefore, -⟩ := exists_partition hclose
  rw [hbefore] at hlength hhost ⊢
  have hle := hsub.length_le
  simp only [List.length_append, List.length_cons, List.length_nil] at hle
  have hrest : rest = [] := List.eq_nil_of_length_eq_zero (by omega)
  have hsame : host ++ ']' :: rest = domain.toList ++ [']'] := by
    apply hsub.eq_of_length
    simp only [hrest, List.length_append, List.length_singleton]
    omega
  rw [hrest] at hsame hchars hat
  obtain rfl : host = domain.toList := List.append_cancel_right hsame
  have hmem : ∀ c ∈ domain.toList, c ∈ '[' :: (domain.toList ++ [']']) :=
    fun c hc => List.mem_cons_of_mem _ (List.mem_append_left _ hc)
  refine ⟨⟨fun c hc => ?_, ?_⟩, rfl⟩
  · obtain ⟨hsafe, hnot⟩ := hchars c (hmem c hc)
    exact ⟨hsafe, hnot, fun he => hat (he ▸ hmem c hc)⟩
  · rw [if_pos hv]
    exact ⟨hfree, hhost⟩

theorem mem_hostInfo {c : Char} (hc : c ∈ (hostInfo netloc).1) : c ∈ netloc := by
  have hinfo : ∀ c ∈ afterLast '@' netloc, c ∈ netloc := fun c hc =>
    List.mem_reverse.mp (mem_of_mem_beforeFirst (List.mem_reverse.mp hc))
  simp only [hostInfo] at hc
  split_ifs at hc
  · exact hinfo c (mem_of_mem_afterFirst (mem_of_mem_beforeFirst hc))
  · exact hinfo c (mem_of_mem_beforeFirst hc)

/-- A host in ASCII is read as it is, but for capital letters. -/
theorem hostname_ascii {host : String} (hascii : netloc.all isAscii = true)
    (h : hostname tables.text netloc = some host) :
    host.toList.length = (hostInfo netloc).1.length ∧ host.toList.all isAscii = true ∧
      ((∀ c ∈ (hostInfo netloc).1, c.isUpper = false) → host.toList = (hostInfo netloc).1) := by
  have hchars : ∀ c ∈ (hostInfo netloc).1, isAscii c = true :=
    fun c hc => List.all_eq_true.mp hascii c (mem_hostInfo hc)
  simp only [hostname] at h
  generalize (hostInfo netloc).1 = info at *
  have hfront : ∀ c ∈ beforeFirst '%' info, c ∈ info := fun c hc => mem_of_mem_beforeFirst hc
  split_ifs at h with hne
  rw [← Option.some.inj h, String.toList_ofList, tables.text.lower_ascii _
    (List.all_eq_true.mpr fun c hc => hchars c (hfront c hc))]
  refine ⟨?_, ?_, ?_⟩
  · rw [List.length_append, List.length_map, beforeFirst, ← List.length_append,
      List.takeWhile_append_dropWhile]
  · rw [List.all_append, Bool.and_eq_true, List.all_eq_true, List.all_eq_true]
    constructor
    · intro c hc
      obtain ⟨d, hd, rfl⟩ := List.mem_map.mp hc
      exact isAscii_toLower (hchars d (hfront d hd))
    · exact fun c hc => hchars c ((List.dropWhile_sublist _).subset hc)
  · intro hlower
    rw [map_toLower fun c hc => hlower c (hfront c hc), beforeFirst,
      List.takeWhile_append_dropWhile]

end Reading

/-! ## Fixed points -/

/-- The host is encoded to a domain that stays as it is when it is cut, and that an authority can
hold. -/
def IsSettled (tables : UrlTables) (host : String) : Prop :=
  ∃ domain, normalizeDomain tables.library host = .ok domain ∧ IsTrimmed domain.toList ∧
    IsWritable tables domain

section FixedPoints

variable {tables : UrlTables} {policy : PublicUrlPolicy}
  {resolve : String → Raises (List String)} {url host domain : String} {parsed : UrlParts}
  {safe : SafeUrl} {again : UrlParts}

theorem library_urlsplit : tables.library.urlsplit url = some parsed ↔
    wellFormed tables.text tables.ipAddress (netlocOf url) = true ∧
      partsOf tables.text url = parsed := by
  show urlsplit tables.text tables.ipAddress url = some parsed ↔ _
  unfold urlsplit
  split_ifs with h
  · simp [h]
  · simp [h]

theorem isPath_located (h : Located tables.library resolve url parsed host domain) :
    IsPath parsed.path := by
  obtain ⟨-, rfl⟩ := library_urlsplit.mp h.splits
  apply isPath_partsOf
  intro hnil
  have hhost := hostname_of_authority h.names
  simp only [partsOf, hnil] at hhost
  cases hhost

/-- A writable trimmed domain is located again. -/
theorem located_again (hlocated : Located tables.library resolve url parsed host domain)
    (htrimmed : IsTrimmed domain.toList) (hwritable : IsWritable tables domain) :
    Located tables.library resolve
      (PublicUrlPolicy.canonicalUrl tables.library parsed domain)
      { scheme := "https", username := none, password := none, hostname := some domain,
        port := some none, path := String.ofList (PublicUrlPolicy.canonicalPath parsed.path),
        query := PublicUrlPolicy.canonicalQuery tables.library parsed.query } domain domain := by
  have hencoded := isEncoded_domain (normalizeDomain_of_domainOf hlocated.encodes)
  have hne : domain.toList ≠ [] := by
    intro hnil
    refine htrimmed.labels [] ?_ rfl
    rw [hnil]
    simp
  have hempty : domain.isEmpty = false := by
    rw [Bool.eq_false_iff]
    intro hempty
    exact hne (by rw [String.isEmpty_iff.mp hempty]; rfl)
  have hscheme : tables.library.casefold "https" = "https" := by
    have hfold := @fold_ascii tables "https".toList (by decide)
    show String.ofList ("https".toList.flatMap tables.folding.fold) = "https"
    rw [hfold]
    decide
  have hnetloc : netlocOf (PublicUrlPolicy.canonicalUrl tables.library parsed domain) =
      writtenNetloc tables domain :=
    (netlocOf_https (PublicUrlPolicy.head?_canonicalPath parsed.path) _ toList_canonicalUrl).trans
      (read_netloc hwritable)
  have hslash : '/' ∉ domain.toList := by
    intro hmem
    have hends := (hwritable.delimiters '/' hmem).2.1
    exact absurd hends (by decide)
  have hat : '@' ∉ domain.toList := fun hmem => (hwritable.delimiters '@' hmem).2.2 rfl
  refine ⟨?_, ?_, ?_, hlocated.reaches, ?_⟩
  · rw [library_urlsplit, hnetloc]
    exact ⟨wellFormed_written hencoded.ascii hwritable,
      partsOf_canonicalUrl (isPath_located hlocated) hencoded hne hwritable⟩
  · simp [PublicUrlPolicy.authority, hscheme, hempty]
  · simp [PublicUrlPolicy.domainOf, normalizeDomain_trimmed hencoded htrimmed hslash hat]
  · exact List.all_eq_true.mpr fun item _ => rfl

theorem canonicalUrl_again (hpath : IsPath parsed.path) (domain : String) :
    PublicUrlPolicy.canonicalUrl tables.library
      { scheme := "https", username := none, password := none, hostname := some domain,
        port := some none, path := String.ofList (PublicUrlPolicy.canonicalPath parsed.path),
        query := PublicUrlPolicy.canonicalQuery tables.library parsed.query } domain =
      PublicUrlPolicy.canonicalUrl tables.library parsed domain := by
  simp only [PublicUrlPolicy.canonicalUrl, canonicalQuery_canonicalQuery,
    PublicUrlPolicy.canonicalPath_canonicalPath hpath.absolute]

theorem anonymous_of_authority {lib : UrlLibrary}
    (h : PublicUrlPolicy.authority lib parsed = .ok host) : parsed.username = none := by
  unfold PublicUrlPolicy.authority at h
  split_ifs at h with hscheme huser
  rw [Bool.or_eq_true, not_or] at huser
  simpa using huser.1

/-- A domain that is read back is trimmed and writable. -/
theorem settled_of_again (hencoded : IsEncoded domain.toList)
    (hlocated : Located tables.library resolve
      (PublicUrlPolicy.canonicalUrl tables.library parsed domain) again host domain) :
    IsTrimmed domain.toList ∧ IsWritable tables domain := by
  obtain ⟨hformed, rfl⟩ := library_urlsplit.mp hlocated.splits
  have hnetloc : netlocOf (PublicUrlPolicy.canonicalUrl tables.library parsed domain) =
      readNetloc tables domain :=
    netlocOf_https (PublicUrlPolicy.head?_canonicalPath parsed.path) _ toList_canonicalUrl
  have hhost := hostname_of_authority hlocated.names
  have huser := anonymous_of_authority hlocated.names
  simp only [partsOf, hnetloc] at hhost huser
  rw [hnetloc] at hformed
  have hat : '@' ∉ readNetloc tables domain := by
    intro hat
    rw [if_pos hat] at huser
    cases huser
  have hascii : (readNetloc tables domain).all isAscii = true := by
    have hwritten := @ascii_written tables domain hencoded.ascii
    rw [List.all_eq_true] at hwritten ⊢
    exact fun c hc => hwritten c (readNetloc_sublist.subset hc)
  obtain ⟨hsame, hhostAscii, hunchanged⟩ := hostname_ascii hascii hhost
  have hdomain := normalizeDomain_of_domainOf hlocated.encodes
  have hlength : domain.toList.length ≤ (hostInfo (readNetloc tables domain)).1.length := by
    have hcut := congrArg List.length (normalizeDomain_ascii hhostAscii hdomain).1
    rw [List.length_map] at hcut
    have hdots := (rstripDots_sublist (strip host.toList)).length_le
    have hspace := (strip_sublist host.toList).length_le
    omega
  have hread : IsWritable tables domain ∧
      (hostInfo (readNetloc tables domain)).1 = domain.toList := by
    by_cases hv : ((tables.ipAddress domain).any fun a => a.version = 6) = true
    · exact writable_of_address hv hat hformed hlength
    · exact writable_of_plain hv hat hformed hlength
  obtain ⟨hwritable, hinfo⟩ := hread
  rw [hinfo] at hunchanged
  obtain rfl : host = domain := String.toList_inj.mp (hunchanged hencoded.lower)
  exact ⟨isTrimmed_domain hencoded hdomain, hwritable⟩

/-- The canonical URL of an accepted URL is accepted with itself as canonical URL and with the
same domain exactly when the host of the URL is settled. -/
theorem canonical_fixed_iff (h : policy.validate tables.library resolve url = .ok safe)
    (hsplit : tables.library.urlsplit url = some parsed) (hhost : parsed.hostname = some host) :
    (∃ again, policy.validate tables.library resolve safe.canonicalUrl = .ok again ∧
        again.canonicalUrl = safe.canonicalUrl ∧ again.domain = safe.domain) ↔
      IsSettled tables host := by
  obtain ⟨parsed', host', domain, hlocated, hchecked, rfl⟩ := validate_ok.mp h
  obtain rfl : parsed' = parsed := Option.some.inj (hlocated.splits.symm.trans hsplit)
  obtain rfl : host' = host :=
    Option.some.inj ((hostname_of_authority hlocated.names).symm.trans hhost)
  have hdomain := normalizeDomain_of_domainOf hlocated.encodes
  constructor
  · rintro ⟨again, hagain, -, hsame⟩
    obtain ⟨parsed₂, host₂, domain₂, hlocated₂, -, rfl⟩ := validate_ok.mp hagain
    obtain rfl : domain₂ = domain := hsame
    obtain ⟨htrimmed, hwritable⟩ := settled_of_again (isEncoded_domain hdomain) hlocated₂
    exact ⟨domain₂, hdomain, htrimmed, hwritable⟩
  · intro ⟨domain', hdomain', htrimmed, hwritable⟩
    obtain rfl : domain' = domain := Except.ok.inj (hdomain'.symm.trans hdomain)
    have hagain := validate_ok.mpr
      ⟨_, domain', domain', located_again hlocated htrimmed hwritable, hchecked, rfl⟩
    exact ⟨_, hagain, canonicalUrl_again (isPath_located hlocated) domain', rfl⟩

end FixedPoints

/-! ## A canonical URL that is none -/

theorem toLower_letter : ∀ n < 128, (Char.ofNat n).toLower.isUpper = false ∧
    isDot (Char.ofNat n).toLower = isDot (Char.ofNat n) := by decide

theorem toLower_spec (c : Char) : c.toLower.isUpper = false ∧ isDot c.toLower = isDot c := by
  cases hupper : c.isUpper with
  | false =>
    rw [toLower_of_not_upper hupper]
    exact ⟨hupper, rfl⟩
  | true =>
    have hletter : 'A'.val ≤ c.val ∧ c.val ≤ 'Z'.val := of_decide_eq_true hupper
    have hle : c.val.toNat ≤ 90 := UInt32.le_iff_toNat_le.mp hletter.2
    have hlt : c.toNat < 128 := Nat.lt_of_le_of_lt hle (by decide)
    have hletter := toLower_letter c.toNat hlt
    rwa [Char.ofNat_toNat] at hletter

/-- Case folding of texts in ASCII. -/
def asciiFolding : LetterFolding where
  fold c := [c.toLower]
  dot c hdot := by
    simp only [isDot, Bool.or_eq_true, decide_eq_true_eq] at hdot
    rcases hdot with ((rfl | rfl) | rfl) | rfl <;> decide
  other c hdot := by
    refine ⟨List.cons_ne_nil _ _, fun d hd => ?_⟩
    rw [List.mem_singleton.mp hd, (toLower_spec c).2, hdot]
  ascii _ _ := rfl
  lower c d hd := by
    rw [List.mem_singleton.mp hd]
    exact (toLower_spec c).1

def plainTables : UrlTables where
  text := plainText
  codec := ⟨fun _ => none, nofun, nofun, nofun⟩
  folding := asciiFolding
  ipAddress := plainLibrary.ipAddress
  replaced _ := ""

theorem plain_url_fixed :
    ∃ again, noRules.validate plainTables.library publicResolver "https://example.org/" =
        .ok again ∧ again.canonicalUrl = "https://example.org/" ∧ again.domain = "example.org" := by
  have hall : "example.org".toList.all (fun c =>
      decide (isUnsafe c = false ∧ endsNetloc c = false ∧ c ≠ '@')) = true := by decide
  have hchars : ∀ c ∈ "example.org".toList, isUnsafe c = false ∧ endsNetloc c = false ∧ c ≠ '@' :=
    fun c hc => of_decide_eq_true (List.all_eq_true.mp hall c hc)
  exact (@canonical_fixed_iff plainTables noRules publicResolver "https://Example.org"
    "example.org" ⟨"https", none, none, some "example.org", some none, "", ""⟩
    ⟨"https://Example.org", "https://example.org/", "example.org"⟩ (by rfl) (by rfl) rfl).mpr
      ⟨"example.org", by rfl, ⟨by rfl, by decide⟩, hchars, by decide⟩

/-- The canonical URL of a host that ends in an ideographic full stop has another canonical URL
and another domain. -/
theorem dotted_url_changes :
    noRules.validate plainTables.library publicResolver "https://evil.com。/" =
        .ok ⟨"https://evil.com。/", "https://evil.com./", "evil.com."⟩ ∧
      ¬ ∃ again, noRules.validate plainTables.library publicResolver "https://evil.com./" =
          .ok again ∧ again.canonicalUrl = "https://evil.com./" ∧ again.domain = "evil.com." := by
  have hagain : noRules.validate plainTables.library publicResolver "https://evil.com./" =
      .ok ⟨"https://evil.com./", "https://evil.com/", "evil.com"⟩ := by rfl
  refine ⟨by rfl, ?_⟩
  rintro ⟨again, h, -, hdomain⟩
  obtain rfl := Except.ok.inj (hagain.symm.trans h)
  exact absurd hdomain (by decide)

end DecisionAssurance.Research
