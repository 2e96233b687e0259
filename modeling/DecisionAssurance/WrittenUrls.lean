import Mathlib.Data.Prod.Lex
import Mathlib.Data.String.Basic
import DecisionAssurance.NormalDomains
import DecisionAssurance.UrlPaths

/-!
# Written URLs

What `urlsplit` reads of a canonical URL: the scheme, the path and the query as they were written,
and the domain if an authority can hold it.
-/

namespace DecisionAssurance.Research

open Idna (isAscii)

/-! ## Reading a canonical URL -/

section Reading

variable {tables : UrlTables} {parsed : UrlParts} {domain : String} {cs netloc path : List Char}

def https : List Char := ['h', 't', 't', 'p', 's', ':', '/', '/']

theorem cleaned_https (cs : List Char) :
    cleaned (https ++ cs) = https ++ cs.filter fun c => !isUnsafe c := by
  simp [cleaned, https, isUnsafe]

theorem splitScheme_https (cs : List Char) :
    splitScheme (https ++ cs) = (['h', 't', 't', 'p', 's'], '/' :: '/' :: cs) := by
  simp [splitScheme, https, beforeFirst, afterFirst, isSchemeChar]

theorem takeWhile_append_stop {p : Char → Bool} {c : Char} (hc : p c = false) (rest : List Char) :
    (cs ++ c :: rest).takeWhile p = cs.takeWhile p := by
  rw [List.takeWhile_append]
  split_ifs with h
  · rw [List.takeWhile_cons_of_neg (by simp [hc]), List.append_nil]
    exact ((List.takeWhile_sublist p).eq_of_length h).symm
  · rfl

/-- The authority as `validate` writes it. -/
def writtenNetloc (tables : UrlTables) (domain : String) : List Char :=
  if (tables.ipAddress domain).any fun a => a.version = 6 then '[' :: (domain.toList ++ [']'])
  else domain.toList

def writtenQuery (tables : UrlTables) (query : String) : List Char :=
  let canonical := PublicUrlPolicy.canonicalQuery tables.library query
  if canonical.isEmpty then [] else '?' :: canonical.toList

theorem toList_canonicalUrl :
    (PublicUrlPolicy.canonicalUrl tables.library parsed domain).toList =
      https ++ (writtenNetloc tables domain ++
        (PublicUrlPolicy.canonicalPath parsed.path ++ writtenQuery tables parsed.query)) := by
  have hhttps : "https://".toList = https := by decide
  have hnetloc : (if (tables.ipAddress domain).any fun a => a.version = 6 then s!"[{domain}]"
      else domain).toList = writtenNetloc tables domain := by
    unfold writtenNetloc
    split_ifs
    · simp only [String.toList_append, List.append_assoc]
      rfl
    · rfl
  have hquery : (if (PublicUrlPolicy.canonicalQuery tables.library parsed.query).isEmpty then ""
      else "?" ++ PublicUrlPolicy.canonicalQuery tables.library parsed.query).toList =
        writtenQuery tables parsed.query := by
    simp only [writtenQuery]
    split_ifs
    · rfl
    · simp
  simp only [PublicUrlPolicy.canonicalUrl, String.toList_append, String.toList_ofList, hhttps]
  rw [← hnetloc, ← hquery]
  simp only [List.append_assoc]
  rfl

theorem netlocOf_https (hpath : path.head? = some '/') (rest : List Char) {url : String}
    (h : url.toList = https ++ (netloc ++ (path ++ rest))) :
    netlocOf url = (netloc.filter fun c => !isUnsafe c).takeWhile fun c => !endsNetloc c := by
  obtain ⟨path, rfl⟩ := List.head?_eq_some_iff.mp hpath
  rw [netlocOf, h, cleaned_https, splitScheme_https]
  show (List.takeWhile _ _) = _
  rw [List.filter_append, List.cons_append, List.filter_cons_of_pos (by decide)]
  exact takeWhile_append_stop (by decide) _

/-! ## The domain of the second reading -/

/-- What may stand in an authority as the encoding of a host: nothing that `urlsplit` cuts it at,
and brackets and colons only in an IPv6 address, which is written in brackets. -/
structure IsWritable (tables : UrlTables) (domain : String) : Prop where
  delimiters : ∀ c ∈ domain.toList, isUnsafe c = false ∧ endsNetloc c = false ∧ c ≠ '@'
  brackets : if (tables.ipAddress domain).any fun a => a.version = 6 then
      ']' ∉ domain.toList ∧ checkBracketedHost tables.ipAddress domain.toList = true
    else ':' ∉ domain.toList ∧ '[' ∉ domain.toList ∧ ']' ∉ domain.toList

theorem kept_written (h : IsWritable tables domain) :
    ∀ c ∈ writtenNetloc tables domain, isUnsafe c = false ∧ endsNetloc c = false := by
  intro c hc
  unfold writtenNetloc at hc
  split_ifs at hc
  · rw [List.mem_cons, List.mem_append, List.mem_singleton] at hc
    rcases hc with rfl | hc | rfl
    · decide
    · exact ⟨(h.delimiters c hc).1, (h.delimiters c hc).2.1⟩
    · decide
  · exact ⟨(h.delimiters c hc).1, (h.delimiters c hc).2.1⟩

theorem filter_safe (h : ∀ c ∈ cs, isUnsafe c = false) : cs.filter (fun c => !isUnsafe c) = cs :=
  List.filter_eq_self.mpr fun c hc => by rw [h c hc]; rfl

/-- The authority that is read is the one that was written. -/
theorem read_netloc (h : IsWritable tables domain) :
    ((writtenNetloc tables domain).filter fun c => !isUnsafe c).takeWhile
      (fun c => !endsNetloc c) = writtenNetloc tables domain := by
  have hkept := kept_written h
  rw [filter_safe fun c hc => (hkept c hc).1, List.takeWhile_eq_self_iff.mpr]
  intro c hc
  simp [(hkept c hc).2]

theorem at_not_mem_written (h : IsWritable tables domain) :
    '@' ∉ writtenNetloc tables domain := by
  have hdomain : '@' ∉ domain.toList := fun hat => (h.delimiters '@' hat).2.2 rfl
  unfold writtenNetloc
  split_ifs
  · simpa using hdomain
  · exact hdomain

/-- What is read from the written authority: the host in its brackets, or the whole. -/
theorem bracketed_written (h : ']' ∉ domain.toList) :
    beforeFirst '[' ('[' :: (domain.toList ++ [']'])) = [] ∧
      beforeFirst ']' (afterFirst '[' ('[' :: (domain.toList ++ [']']))) = domain.toList ∧
      afterFirst ']' (afterFirst '[' ('[' :: (domain.toList ++ [']']))) = [] := by
  have hafter : afterFirst '[' ('[' :: (domain.toList ++ [']'])) = domain.toList ++ [']'] :=
    afterFirst_head _ _
  rw [hafter]
  exact ⟨beforeFirst_head _ _, beforeFirst_append h [], afterFirst_append h []⟩

theorem hostInfo_written (h : IsWritable tables domain) :
    hostInfo (writtenNetloc tables domain) = (domain.toList, []) := by
  have hbrackets := h.brackets
  simp only [hostInfo, afterLast_of_not_mem (at_not_mem_written h)]
  unfold writtenNetloc
  split_ifs at hbrackets ⊢ with hv hopen hopen
  · obtain ⟨-, hhost, hport⟩ := bracketed_written hbrackets.1
    rw [hhost, hport]
    rfl
  · exact absurd List.mem_cons_self hopen
  · exact absurd hopen hbrackets.2.1
  · rw [beforeFirst_of_not_mem hbrackets.1, afterFirst_of_not_mem hbrackets.1]

theorem ascii_written (hascii : domain.toList.all isAscii = true) :
    (writtenNetloc tables domain).all isAscii = true := by
  unfold writtenNetloc
  split_ifs
  · rw [List.all_cons, List.all_append, hascii]
    decide
  · exact hascii

theorem wellFormed_written (hascii : domain.toList.all isAscii = true)
    (h : IsWritable tables domain) :
    wellFormed tables.text tables.ipAddress (writtenNetloc tables domain) = true := by
  have hbrackets := h.brackets
  have hat := at_not_mem_written h
  have hnfkc : checkNetloc tables.text (writtenNetloc tables domain) = true := by
    simp [checkNetloc, ascii_written hascii]
  unfold wellFormed
  rw [hnfkc, Bool.and_true]
  by_cases hv : ((tables.ipAddress domain).any fun a => a.version = 6) = true
  · rw [if_pos hv] at hbrackets
    have hwritten : writtenNetloc tables domain = '[' :: (domain.toList ++ [']']) := if_pos hv
    obtain ⟨hbefore, hhost, hport⟩ := bracketed_written hbrackets.1
    rw [hwritten] at hat ⊢
    have hopen : '[' ∈ '[' :: (domain.toList ++ [']']) := List.mem_cons_self
    simp [checkBracketedNetloc, afterLast_of_not_mem hat, hopen, hbefore, hhost, hport,
      hbrackets.2]
  · rw [if_neg hv] at hbrackets
    have hwritten : writtenNetloc tables domain = domain.toList := if_neg hv
    simp [hwritten, hbrackets.2.1, hbrackets.2.2]

theorem hostname_written (hencoded : IsEncoded domain.toList) (hne : domain.toList ≠ [])
    (h : IsWritable tables domain) :
    hostname tables.text (writtenNetloc tables domain) = some domain := by
  have hlower : tables.text.lower (beforeFirst '%' domain.toList) =
      beforeFirst '%' domain.toList := by
    have hsub : ∀ c ∈ beforeFirst '%' domain.toList, c ∈ domain.toList :=
      fun c hc => mem_of_mem_beforeFirst hc
    rw [tables.text.lower_ascii, map_toLower]
    · exact fun c hc => hencoded.lower c (hsub c hc)
    · exact List.all_eq_true.mpr fun c hc => List.all_eq_true.mp hencoded.ascii c (hsub c hc)
  simp only [hostname, hostInfo_written h]
  rw [if_neg hne, hlower, beforeFirst, List.takeWhile_append_dropWhile, String.ofList_toList]

/-! ## The path and the query of the second reading -/

/-- What holds of the path of every URL with an authority. -/
structure IsPath (path : String) : Prop where
  absolute : PublicUrlPolicy.Absolute path
  safe : ∀ c ∈ path.toList, isUnsafe c = false ∧ c ≠ '?' ∧ c ≠ '#'

theorem mem_splitScheme {url : List Char} {c : Char} (h : c ∈ (splitScheme url).2) : c ∈ url := by
  simp only [splitScheme] at h
  split_ifs at h
  · exact mem_of_mem_afterFirst h
  · exact h

/-- What follows an authority starts with the character that ended it. -/
theorem head?_dropWhile_netloc (cs : List Char) :
    ∀ c, (cs.dropWhile fun c => !endsNetloc c).head? = some c → endsNetloc c = true := by
  intro c hc
  have hfirst := List.head?_dropWhile_not (fun c => !endsNetloc c) cs
  rw [hc] at hfirst
  simpa using hfirst

theorem splitNetloc_ne_nil (h : (splitNetloc cs).1 ≠ []) : ∃ rest, cs = '/' :: '/' :: rest := by
  unfold splitNetloc at h
  split at h
  · next rest => exact ⟨rest, rfl⟩
  · exact absurd rfl h

theorem beforeFirst_cons (c d : Char) (cs : List Char) :
    beforeFirst c (d :: cs) = if d = c then [] else d :: beforeFirst c cs := by
  by_cases h : d = c
  · simp [beforeFirst, h]
  · simp [beforeFirst, h]

theorem isPath_partsOf {text : UnicodeText} {url : String} (h : netlocOf url ≠ []) :
    IsPath (partsOf text url).path := by
  have hsafe : ∀ c ∈ (splitScheme (cleaned url.toList)).2, isUnsafe c = false := by
    intro c hc
    simpa using (List.mem_filter.mp (mem_splitScheme hc)).2
  generalize hrest : (splitScheme (cleaned url.toList)).2 = rest at hsafe
  rw [netlocOf, hrest] at h
  obtain ⟨rest, rfl⟩ := splitNetloc_ne_nil h
  have hpath : (partsOf text url).path.toList =
      beforeFirst '?' (beforeFirst '#' (rest.dropWhile fun c => !endsNetloc c)) := by
    simp only [partsOf, pathOf, hrest, String.toList_ofList]
    rfl
  have hfirst := head?_dropWhile_netloc rest
  constructor
  · rw [PublicUrlPolicy.Absolute, hpath]
    cases htail : rest.dropWhile fun c => !endsNetloc c with
    | nil => exact Or.inl rfl
    | cons c tail =>
      rw [htail] at hfirst
      have hends := hfirst c rfl
      simp only [endsNetloc, Bool.or_eq_true, decide_eq_true_eq] at hends
      rcases hends with (rfl | rfl) | rfl
      · exact Or.inr (by simp [beforeFirst_cons])
      · exact Or.inl (by simp [beforeFirst_cons])
      · exact Or.inl (by simp [beforeFirst])
  · intro c hc
    rw [hpath] at hc
    have hfragment := mem_of_mem_beforeFirst hc
    have htail := mem_of_mem_beforeFirst hfragment
    have hmem : c ∈ rest := (List.dropWhile_sublist _).subset htail
    refine ⟨hsafe c (List.mem_cons_of_mem _ (List.mem_cons_of_mem _ hmem)), ?_, ?_⟩
    · simpa using List.mem_takeWhile_imp hc
    · simpa using List.mem_takeWhile_imp hfragment

theorem pairLe_iff {a b : String × String} : pairLe a b ↔ toLex a ≤ toLex b :=
  Prod.Lex.toLex_le_toLex.symm

instance : Std.Total pairLe where
  total _ _ := by
    rw [pairLe_iff, pairLe_iff]
    exact le_total _ _

instance : IsTrans (String × String) pairLe where
  trans _ _ _ hab hbc := by
    rw [pairLe_iff] at *
    exact hab.trans hbc

/-- A canonical query is its own canonical query. -/
theorem canonicalQuery_canonicalQuery (query : String) :
    PublicUrlPolicy.canonicalQuery tables.library
        (PublicUrlPolicy.canonicalQuery tables.library query) =
      PublicUrlPolicy.canonicalQuery tables.library query := by
  have hread : ∀ items, tables.library.parseQsl (tables.library.urlencode items) = items := by
    intro items
    simp only [UrlTables.library, String.toList_ofList, QueryStrings.parseQsl_urlencode]
  unfold PublicUrlPolicy.canonicalQuery PublicUrlPolicy.keptItems
  rw [hread, List.filter_eq_self.mpr]
  · exact congrArg tables.library.urlencode
      (List.pairwise_insertionSort pairLe _).insertionSort_eq
  · intro item hitem
    exact (List.mem_filter.mp ((List.mem_insertionSort pairLe).mp hitem)).2

theorem mem_canonicalQuery {query : String} {c : Char}
    (hc : c ∈ (PublicUrlPolicy.canonicalQuery tables.library query).toList) :
    isUnsafe c = false ∧ c ≠ '#' := by
  rw [PublicUrlPolicy.canonicalQuery, UrlTables.library] at hc
  rw [String.toList_ofList] at hc
  rcases QueryStrings.mem_urlencode hc with hquoted | rfl | rfl
  · constructor
    · by_contra hunsafe
      simp only [isUnsafe, Bool.not_eq_false, Bool.or_eq_true, decide_eq_true_eq] at hunsafe
      rcases hunsafe with (rfl | rfl) | rfl <;> exact absurd hquoted (by decide)
    · rintro rfl
      exact absurd hquoted (by decide)
  · decide
  · decide

theorem query_written (query : String) (hpath : ∀ c ∈ path, c ≠ '?' ∧ c ≠ '#') :
    beforeFirst '?' (beforeFirst '#' (path ++ writtenQuery tables query)) = path ∧
      String.ofList (afterFirst '?' (beforeFirst '#' (path ++ writtenQuery tables query))) =
        PublicUrlPolicy.canonicalQuery tables.library query := by
  have hquestion : '?' ∉ path := fun hmem => (hpath _ hmem).1 rfl
  have hhash : '#' ∉ path ++ writtenQuery tables query := by
    rw [List.mem_append]
    rintro (hmem | hmem)
    · exact (hpath _ hmem).2 rfl
    · simp only [writtenQuery] at hmem
      split_ifs at hmem
      · cases hmem
      · rcases List.mem_cons.mp hmem with hmem | hmem
        · exact absurd hmem (by decide)
        · exact (mem_canonicalQuery hmem).2 rfl
  rw [beforeFirst_of_not_mem hhash]
  simp only [writtenQuery]
  split_ifs with hempty
  · rw [List.append_nil, beforeFirst_of_not_mem hquestion, afterFirst_of_not_mem hquestion]
    exact ⟨rfl, (String.isEmpty_iff.mp hempty).symm⟩
  · rw [beforeFirst_append hquestion, afterFirst_append hquestion, String.ofList_toList]
    exact ⟨rfl, rfl⟩

/-- A written URL is read as it was written. -/
theorem partsOf_canonicalUrl (hpath : IsPath parsed.path) (hencoded : IsEncoded domain.toList)
    (hne : domain.toList ≠ []) (h : IsWritable tables domain) :
    partsOf tables.text (PublicUrlPolicy.canonicalUrl tables.library parsed domain) =
      { scheme := "https", username := none, password := none, hostname := some domain,
        port := some none, path := String.ofList (PublicUrlPolicy.canonicalPath parsed.path),
        query := PublicUrlPolicy.canonicalQuery tables.library parsed.query } := by
  have htext := @toList_canonicalUrl tables parsed domain
  have hroot := PublicUrlPolicy.head?_canonicalPath parsed.path
  have hchars : ∀ c ∈ PublicUrlPolicy.canonicalPath parsed.path,
      isUnsafe c = false ∧ c ≠ '?' ∧ c ≠ '#' := by
    intro c hc
    rcases PublicUrlPolicy.mem_canonicalPath hpath.absolute hc with rfl | hc
    · decide
    · exact hpath.safe c hc
  generalize PublicUrlPolicy.canonicalPath parsed.path = path at htext hroot hchars ⊢
  have hnetloc := (netlocOf_https hroot _ htext).trans (read_netloc h)
  have hkept := kept_written h
  have hclean : cleaned (PublicUrlPolicy.canonicalUrl tables.library parsed domain).toList =
      https ++ (writtenNetloc tables domain ++ (path ++ writtenQuery tables parsed.query)) := by
    rw [htext, cleaned_https, filter_safe]
    intro c hc
    rcases List.mem_append.mp hc with hc | hc
    · exact (hkept c hc).1
    rcases List.mem_append.mp hc with hc | hc
    · exact (hchars c hc).1
    simp only [writtenQuery] at hc
    split_ifs at hc
    · cases hc
    · rcases List.mem_cons.mp hc with rfl | hc
      · decide
      · exact (mem_canonicalQuery hc).1
  have hrest : pathOf (PublicUrlPolicy.canonicalUrl tables.library parsed domain) =
      beforeFirst '#' (path ++ writtenQuery tables parsed.query) := by
    obtain ⟨path, rfl⟩ := List.head?_eq_some_iff.mp hroot
    rw [pathOf, hclean, splitScheme_https]
    refine congrArg (beforeFirst '#') ?_
    show List.dropWhile _ _ = _
    rw [List.dropWhile_append_of_pos, List.cons_append, List.dropWhile_cons_of_neg (by decide)]
    intro c hc
    simp [(hkept c hc).2]
  obtain ⟨hpart, hquery⟩ := @query_written tables path parsed.query fun c hc => (hchars c hc).2
  simp only [partsOf, hnetloc, hrest, hpart, hquery, hostname_written hencoded hne h,
    hostInfo_written h, hclean, splitScheme_https, at_not_mem_written h, if_false, false_and]
  rfl

end Reading

end DecisionAssurance.Research
