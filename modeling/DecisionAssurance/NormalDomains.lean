import DecisionAssurance.QueryStrings
import DecisionAssurance.UrlSplitting

/-!
# Normal domains

`normalize_domain` with the standard library's codec and case folding. An encoded host is in ASCII
and without capital letters; normalised again, it stays as it is unless something is cut from it.
-/

namespace DecisionAssurance.Research

open Idna (isAscii isDot)

/-- The encoding of labels outside ASCII, by nameprep and Punycode. -/
structure LabelCodec where
  encode : List Char → Option (List Char)
  ascii : ∀ label encoded, encode label = some encoded → encoded.all isAscii = true
  fits : ∀ label encoded, encode label = some encoded → Idna.fits encoded = true
  lower : ∀ label encoded, encode label = some encoded → ∀ c ∈ encoded, c.isUpper = false

/-- Case folding, which leaves no capital letters. -/
structure LetterFolding extends CaseFolding where
  ascii : ∀ c, isAscii c = true → fold c = [c.toLower]
  lower : ∀ c, ∀ d ∈ fold c, d.isUpper = false

/-- What the standard library's functions on URLs are computed with. -/
structure UrlTables where
  text : UnicodeText
  codec : LabelCodec
  folding : LetterFolding
  ipAddress : String → Option IpAddress
  /-- How bytes that are no UTF-8 are decoded. -/
  replaced : List UInt8 → String

def UrlTables.library (tables : UrlTables) : UrlLibrary where
  encodes _ := true
  urlsplit := urlsplit tables.text tables.ipAddress
  idna s := (Idna.encode tables.codec.encode s.toList).map String.ofList
  casefold s := String.ofList (s.toList.flatMap tables.folding.fold)
  ipAddress := tables.ipAddress
  parseQsl query := QueryStrings.parseQsl tables.replaced query.toList
  urlencode items := String.ofList (QueryStrings.urlencode items)

section Names

variable {tables : UrlTables} {cs name label : List Char} {c : Char} {host domain : String}

/-! ## Encoded hosts -/

/-- What holds of every encoded host. -/
structure IsEncoded (name : List Char) : Prop where
  ascii : name.all isAscii = true
  lower : ∀ c ∈ name, c.isUpper = false
  short : ∀ label ∈ name.splitOn '.', label.length < 64

theorem toAscii_encoded (hlower : ∀ c ∈ cs, c.isUpper = false)
    (h : Idna.toAscii tables.codec.encode cs = some name) :
    name.all isAscii = true ∧ (∀ c ∈ name, c.isUpper = false) ∧ name.length < 64 := by
  unfold Idna.toAscii at h
  split_ifs at h with hascii hfits
  · obtain rfl := Option.some.inj h
    simp only [Idna.fits, Bool.and_eq_true, decide_eq_true_eq] at hfits
    exact ⟨hascii, hlower, hfits.2⟩
  · have hfits := tables.codec.fits _ _ h
    simp only [Idna.fits, Bool.and_eq_true, decide_eq_true_eq] at hfits
    exact ⟨tables.codec.ascii _ _ h, tables.codec.lower _ _ h, hfits.2⟩

theorem mem_mapM {α β : Type} {f : α → Option β} {xs : List α} {ys : List β} {y : β}
    (h : xs.mapM f = some ys) (hy : y ∈ ys) : ∃ x ∈ xs, f x = some y := by
  induction xs generalizing ys with
  | nil =>
    obtain rfl := Option.some.inj h
    cases hy
  | cons x xs ih =>
    rw [List.mapM_cons] at h
    obtain ⟨z, hz, h⟩ := Option.bind_eq_some_iff.mp h
    obtain ⟨zs, hzs, h⟩ := Option.bind_eq_some_iff.mp h
    obtain rfl := Option.some.inj h
    rcases List.mem_cons.mp hy with rfl | hy
    · exact ⟨x, List.mem_cons_self, hz⟩
    · obtain ⟨x', hx', hy⟩ := ih hzs hy
      exact ⟨x', List.mem_cons_of_mem _ hx', hy⟩

/-- The labels of a name in ASCII that the codec takes. -/
theorem short_of_fits {labels : List (List Char)}
    (h : (labels.dropLast.all Idna.fits && labels.getLast?.any fun l => l.length < 64) = true) :
    ∀ label ∈ labels, label.length < 64 := by
  rw [Bool.and_eq_true, List.all_eq_true] at h
  obtain ⟨hinit, hlast⟩ := h
  cases labels using List.reverseRecOn with
  | nil => exact nofun
  | append_singleton labels last =>
    rw [List.dropLast_concat] at hinit
    rw [List.getLast?_concat, Option.any_some, decide_eq_true_eq] at hlast
    intro label hlabel
    rcases List.mem_append.mp hlabel with hlabel | hlabel
    · have hfits := hinit label hlabel
      simp only [Idna.fits, Bool.and_eq_true, decide_eq_true_eq] at hfits
      exact hfits.2
    · rwa [List.mem_singleton.mp hlabel]

/-- Joined labels, with or without a full stop at the end. -/
theorem isEncoded_labels {labels : List (List Char)} {tail : List Char}
    (hlabels : ∀ label ∈ labels,
      label.all isAscii = true ∧ (∀ c ∈ label, c.isUpper = false) ∧ label.length < 64)
    (htail : tail = [] ∨ tail = ['.']) : IsEncoded (['.'].intercalate labels ++ tail) := by
  have hchars : ∀ c ∈ ['.'].intercalate labels ++ tail, isAscii c = true ∧ c.isUpper = false := by
    have hdot : ∀ c ∈ ['.'], isAscii c = true ∧ c.isUpper = false :=
      List.forall_mem_singleton.mpr ⟨rfl, rfl⟩
    intro c hc
    rcases List.mem_append.mp hc with hc | hc
    · rcases TextPieces.mem_intercalate hc with hc | ⟨label, hlabel, hc⟩
      · exact hdot c hc
      · obtain ⟨hascii, hlower, -⟩ := hlabels label hlabel
        exact ⟨List.all_eq_true.mp hascii c hc, hlower c hc⟩
    · rcases htail with rfl | rfl
      · cases hc
      · exact hdot c hc
  have hshort : ∀ piece ∈ (['.'].intercalate labels).splitOn '.', piece.length < 64 := by
    intro piece hpiece
    by_cases hnil : labels = []
    · rw [hnil, List.intercalate_nil, List.splitOn_nil, List.mem_singleton] at hpiece
      rw [hpiece]
      exact Nat.zero_lt_succ _
    · obtain ⟨label, hlabel, hpiece⟩ := TextPieces.splitOn_intercalate_mem hnil hpiece
      have hle := (TextPieces.sublist_of_mem_splitOn hpiece).length_le
      have hlt := (hlabels label hlabel).2.2
      omega
  refine ⟨List.all_eq_true.mpr fun c hc => (hchars c hc).1, fun c hc => (hchars c hc).2, ?_⟩
  rcases htail with rfl | rfl
  · rwa [List.append_nil]
  · intro piece hpiece
    rw [List.splitOn_append_cons_self, List.splitOn_nil, List.mem_append,
      List.mem_singleton] at hpiece
    rcases hpiece with hpiece | rfl
    · exact hshort piece hpiece
    · exact Nat.zero_lt_succ _

theorem labelsOf_spec (cs : List Char) :
    (∀ label ∈ (Idna.labelsOf cs).1, label.Sublist cs) ∧
      ((Idna.labelsOf cs).2 = [] ∨ (Idna.labelsOf cs).2 = ['.']) := by
  unfold Idna.labelsOf
  dsimp only
  split_ifs
  · exact ⟨fun label hlabel => TextPieces.sublist_of_mem_splitOnP (List.dropLast_subset _ hlabel),
      Or.inr rfl⟩
  · exact ⟨fun label hlabel => TextPieces.sublist_of_mem_splitOnP hlabel, Or.inl rfl⟩

theorem isEncoded_encode (hlower : ∀ c ∈ cs, c.isUpper = false)
    (h : Idna.encode tables.codec.encode cs = some name) : IsEncoded name := by
  by_cases hempty : cs = []
  · rw [hempty] at h
    obtain rfl := Option.some.inj h
    refine ⟨rfl, nofun, ?_⟩
    simp
  cases hascii : cs.all isAscii with
  | true =>
    rw [Idna.encode_ascii hempty hascii] at h
    split_ifs at h with hfits
    obtain rfl := Option.some.inj h
    exact ⟨hascii, hlower, short_of_fits hfits⟩
  | false =>
    rw [Idna.encode_foreign hascii, Option.map_eq_some_iff] at h
    obtain ⟨encoded, hencoded, rfl⟩ := h
    obtain ⟨hsub, htail⟩ := labelsOf_spec cs
    apply isEncoded_labels _ htail
    intro e he
    obtain ⟨label, hlabel, hname⟩ := mem_mapM hencoded he
    exact toAscii_encoded (fun c hc => hlower c ((hsub label hlabel).subset hc)) hname

/-! ## Normal domains -/

theorem normalizeDomain_ok : normalizeDomain tables.library host = .ok domain ↔
    let candidate := (rstripDots (strip host.toList)).flatMap tables.folding.fold
    candidate ≠ [] ∧ '/' ∉ candidate ∧ '@' ∉ candidate ∧
      Idna.encode tables.codec.encode candidate = some domain.toList :=
  @normalForm_ok tables.library tables.codec.encode tables.folding.toCaseFolding _ _

theorem isEncoded_domain (h : normalizeDomain tables.library host = .ok domain) :
    IsEncoded domain.toList := by
  obtain ⟨-, -, -, hencode⟩ := normalizeDomain_ok.mp h
  refine isEncoded_encode ?_ hencode
  intro c hc
  obtain ⟨d, -, hc⟩ := List.mem_flatMap.mp hc
  exact tables.folding.lower d c hc

theorem toLower_ascii : ∀ n < 128, isAscii (Char.ofNat n).toLower = true := by decide

theorem isAscii_toLower (h : isAscii c = true) : isAscii c.toLower = true := by
  have hlower := toLower_ascii c.toNat (by simpa [isAscii] using h)
  rwa [Char.ofNat_toNat] at hlower

theorem toLower_of_not_upper (h : c.isUpper = false) : c.toLower = c :=
  dif_neg (of_decide_eq_false h)

theorem map_toLower (h : ∀ c ∈ cs, c.isUpper = false) : cs.map Char.toLower = cs := by
  conv_rhs => rw [← List.map_id cs]
  exact List.map_congr_left fun c hc => toLower_of_not_upper (h c hc)

theorem fold_ascii (h : cs.all isAscii = true) :
    cs.flatMap tables.folding.fold = cs.map Char.toLower := by
  induction cs with
  | nil => rfl
  | cons c cs ih =>
    rw [List.all_cons, Bool.and_eq_true] at h
    rw [List.flatMap_cons, tables.folding.ascii c h.1, ih h.2, List.map_cons, List.singleton_append]

theorem strip_sublist (cs : List Char) : (strip cs).Sublist cs := by
  have hback := (List.dropWhile_sublist isSpace (l := (cs.dropWhile isSpace).reverse)).reverse
  rw [List.reverse_reverse] at hback
  exact hback.trans (List.dropWhile_sublist _)

theorem rstripDots_sublist (cs : List Char) : (rstripDots cs).Sublist cs := by
  have hback := (List.dropWhile_sublist (· = '.') (l := cs.reverse)).reverse
  rwa [List.reverse_reverse] at hback

/-- A host in ASCII is cut and lowered, and its labels are counted. -/
theorem normalizeDomain_ascii (hascii : host.toList.all isAscii = true)
    (h : normalizeDomain tables.library host = .ok domain) :
    domain.toList = (rstripDots (strip host.toList)).map Char.toLower ∧ domain.toList ≠ [] ∧
      Idna.encode tables.codec.encode domain.toList = some domain.toList := by
  obtain ⟨hne, -, -, hencode⟩ := normalizeDomain_ok.mp h
  have hsub : (rstripDots (strip host.toList)).all isAscii = true := by
    rw [List.all_eq_true] at hascii ⊢
    intro c hc
    exact hascii c ((strip_sublist _).subset ((rstripDots_sublist _).subset hc))
  rw [fold_ascii hsub] at hne hencode
  have hlowered : ((rstripDots (strip host.toList)).map Char.toLower).all isAscii = true := by
    rw [List.all_map, List.all_eq_true]
    intro c hc
    exact isAscii_toLower (List.all_eq_true.mp hsub c hc)
  have hsame := hencode
  rw [Idna.encode_ascii hne hlowered] at hsame
  split_ifs at hsame
  obtain hsame := Option.some.inj hsame
  rw [hsame] at hencode hne
  exact ⟨hsame.symm, hne, hencode⟩

/-- A name that stays when it is cut. -/
structure IsTrimmed (name : List Char) : Prop where
  strips : strip name = name
  labels : ∀ label ∈ name.splitOn '.', label ≠ []

theorem rstripDots_trimmed (h : IsTrimmed name) : rstripDots name = name := by
  obtain ⟨tail, hname, hdots, -⟩ := rstripDots_spec name
  cases tail using List.reverseRecOn with
  | nil =>
    rw [List.append_nil] at hname
    exact hname.symm
  | append_singleton init c =>
    have hc : c = '.' := hdots c (by simp)
    rw [hc, ← List.append_assoc] at hname
    refine absurd rfl (h.labels [] ?_)
    rw [hname, List.splitOn_append_cons_self]
    simp

/-- A trimmed encoded name is a normal domain. -/
theorem normalizeDomain_trimmed (hencoded : IsEncoded domain.toList)
    (htrimmed : IsTrimmed domain.toList) (hslash : '/' ∉ domain.toList)
    (hat : '@' ∉ domain.toList) : normalizeDomain tables.library domain = .ok domain := by
  have hne : domain.toList ≠ [] := by
    intro hnil
    refine htrimmed.labels [] ?_ rfl
    rw [hnil]
    simp
  rw [normalizeDomain_ok, htrimmed.strips, rstripDots_trimmed htrimmed, fold_ascii hencoded.ascii,
    map_toLower hencoded.lower]
  refine ⟨hne, hslash, hat, ?_⟩
  have hfits : ∀ label ∈ domain.toList.splitOn '.', Idna.fits label = true := by
    intro label hlabel
    have hpos := List.length_pos_iff.mpr (htrimmed.labels label hlabel)
    simp only [Idna.fits, Bool.and_eq_true, decide_eq_true_eq]
    exact ⟨hpos, hencoded.short label hlabel⟩
  rw [Idna.encode_ascii hne hencoded.ascii, if_pos]
  rw [Bool.and_eq_true, List.all_eq_true]
  refine ⟨fun label hlabel => hfits label (List.dropLast_subset _ hlabel), ?_⟩
  rw [List.getLast?_eq_some_getLast (List.splitOn_ne_nil _ _), Option.any_some, decide_eq_true_eq]
  exact hencoded.short _ (List.getLast_mem _)

/-- A domain that is its own normal domain is trimmed. -/
theorem isTrimmed_domain (hencoded : IsEncoded domain.toList)
    (h : normalizeDomain tables.library domain = .ok domain) : IsTrimmed domain.toList := by
  obtain ⟨hcut, hne, hencode⟩ := normalizeDomain_ascii hencoded.ascii h
  have hlength := congrArg List.length hcut
  rw [List.length_map] at hlength
  have hdots := (rstripDots_sublist (strip domain.toList)).length_le
  have hspace := (strip_sublist domain.toList).length_le
  have hstrip : strip domain.toList = domain.toList :=
    (strip_sublist _).eq_of_length (by omega)
  have hrstrip : rstripDots domain.toList = domain.toList := by
    rw [hstrip] at hlength
    exact (rstripDots_sublist _).eq_of_length hlength.symm
  refine ⟨hstrip, ?_⟩
  obtain ⟨-, -, -, hlast⟩ := rstripDots_spec domain.toList
  rw [hrstrip] at hlast
  rw [Idna.encode_ascii hne hencoded.ascii] at hencode
  split_ifs at hencode with hfits
  rw [Bool.and_eq_true, List.all_eq_true] at hfits
  have hplain : ∀ c ∈ domain.toList, isDot c = true → c = '.' := by
    intro c hc hdot
    rw [← Idna.plainDot_of_isAscii (List.all_eq_true.mp hencoded.ascii c hc), Idna.plainDot,
      if_pos hdot]
  have hend : (domain.toList.splitOn '.').getLast? ≠ some [] := by
    obtain ⟨init, d, hd⟩ := (List.eq_nil_or_concat _).resolve_left hne
    rw [Idna.splitOn_of_plain hplain, hd, List.concat_eq_append, Ne, Idna.getLast?_labels]
    intro hdot
    rw [hd, List.concat_eq_append] at hplain hlast
    exact hlast d List.getLast?_concat (hplain d (by simp) hdot)
  obtain ⟨labels, last, hlabels⟩ : ∃ labels last, domain.toList.splitOn '.' = labels ++ [last] :=
    ⟨_, _, (List.dropLast_concat_getLast (List.splitOn_ne_nil _ _)).symm⟩
  rw [hlabels, List.dropLast_concat] at hfits
  rw [hlabels, List.getLast?_concat, Ne, Option.some_inj] at hend
  intro label hlabel
  rw [hlabels] at hlabel
  rcases List.mem_append.mp hlabel with hlabel | hlabel
  · rintro rfl
    exact absurd (hfits.1 [] hlabel) (by decide)
  · rw [List.mem_singleton.mp hlabel]
    exact hend

end Names

end DecisionAssurance.Research
