import DecisionAssurance.Exceptions
import DecisionAssurance.ExportEvents
import DecisionAssurance.ResearchExchange

/-!
# The results of the OpenAI web search

`_normalize` reads the text of an untrusted response, its citations and the sources that were
consulted, and keeps one result for each URL: first the cited ones in the order of citation, then
the others. Strings are those of `json.loads` and may hold surrogates that stand alone.
-/

namespace DecisionAssurance.Research.OpenAIWebSearch

open Export (PyString py item isText)

abbrev Dictionary := List (PyString × RawJson)

/-- The exceptions that `_normalize` catches. -/
inductive PayloadError
  | keyError | typeError | valueError
  deriving DecidableEq

structure SearchResult where
  url : PyString
  title : PyString
  snippet : PyString
  rank : ℕ
  publishedAt : Option PyString
  citationKind : String
  deriving DecidableEq

structure SearchResponse where
  providerId : String
  providerVersion : String
  searchedAt : String
  results : List SearchResult
  summary : PyString
  providerRequestId : PyString
  deriving DecidableEq

/-- What the results take from the standard library. -/
structure UrlText where
  /-- `urlsplit(url).hostname`; without a value, `urlsplit` raises a `ValueError`. -/
  hostname : PyString → Option (Option PyString)
  casefold : PyString → PyString

/-! ## Reading values -/

/-- `value.get(key, default)` -/
def itemOr (fields : Dictionary) (key : String) (default : RawJson) : RawJson :=
  ((fields.find? fun f => f.1 = py key).map Prod.snd).getD default

/-- `value[key]` -/
def subscript (fields : Dictionary) (key : String) : Except PayloadError RawJson :=
  match fields.find? fun f => f.1 = py key with
  | some f => .ok f.2
  | none => .error .keyError

/-- The dictionaries of a list whose `type` is `kind`. -/
def typed (kind : String) (items : List RawJson) : List Dictionary :=
  items.filterMap fun
    | .obj fields => if isText (item fields "type") kind then some fields else none
    | _ => none

def boundedList (bound : ℕ) : RawJson → Except PayloadError (List RawJson)
  | .arr items => if items.length ≤ bound then .ok items else .error .typeError
  | _ => .error .typeError

/-- An instance of `int`; a Boolean is one. -/
def asInt : RawJson → Option ℤ
  | .int n => some n
  | .bool b => some (if b then 1 else 0)
  | _ => none

/-- `None` or a string. -/
def asTitle : RawJson → Option (Option PyString)
  | .null => some none
  | .str title => some (some title)
  | _ => none

/-- `value or default` -/
def textOr (value : Option PyString) (default : PyString) : PyString :=
  match value with
  | none | some [] => default
  | some text => text

/-- `text[start:stop]` with indices within the text. -/
def slice (text : PyString) (start stop : ℤ) : PyString :=
  (text.drop start.toNat).take (stop - start).toNat

/-- `xs[:limit]`, which counts from the end where the limit is negative. -/
def sliceTo {α : Type} (limit : ℤ) (xs : List α) : List α :=
  if 0 ≤ limit then xs.take limit.toNat else xs.take (xs.length - (-limit).toNat)

/-! ## `_message` and `_sources` -/

def outputText (part : Dictionary) : Except PayloadError (PyString × List Dictionary) :=
  match item part "text" with
  | .str text => do
    let annotations ← boundedList 1000 (itemOr part "annotations" (.arr []))
    if text.length ≤ 32768 then return (text, typed "url_citation" annotations)
    else throw .typeError
  | _ => .error .typeError

/-- The loop of `_message`: the first output text of a message that has one. -/
def firstMessage : List Dictionary → Except PayloadError (PyString × List Dictionary)
  | [] => .error .typeError
  | entry :: rest => do
    let content ← boundedList 100 (item entry "content")
    match typed "output_text" content with
    | [] => firstMessage rest
    | part :: _ => outputText part

/-- `_message` -/
def message (output : List RawJson) : Except PayloadError (PyString × List Dictionary) :=
  firstMessage (typed "message" output)

def callSources (call : Dictionary) : Except PayloadError (List Dictionary) :=
  match item call "action" with
  | .obj action => do
    let sources ← boundedList 1000 (itemOr action "sources" (.arr []))
    return typed "url" sources
  | _ => .error .typeError

/-- `_sources` -/
def sources (output : List RawJson) : Except PayloadError (List Dictionary) := do
  let calls := typed "web_search_call" output
  let lists ← calls.mapM callSources
  if calls.isEmpty then throw .typeError else return lists.flatten

/-! ## `_results` -/

/-- `_published_at` -/
def publishedAt (fields : Dictionary) : Option PyString :=
  ["published_at", "published_date", "date"].findSome? fun key =>
    match item fields key with
    | .str value => if 0 < value.length ∧ value.length ≤ 64 then some value else none
    | _ => none

/-- The results so far with their URLs. -/
structure Found where
  results : List SearchResult
  seen : List PyString

def Found.add (found : Found) (url title snippet : PyString) (publishedAt : Option PyString)
    (citationKind : String) : Found where
  results := found.results ++
    [⟨url, title, snippet, found.results.length + 1, publishedAt, citationKind⟩]
  seen := url :: found.seen

def addCitation (summary : PyString) (found : Found) (citation : Dictionary) :
    Except PayloadError Found :=
  match item citation "url", item citation "title", asInt (item citation "start_index"),
    asInt (item citation "end_index") with
  | .str url, .str title, some start, some stop =>
    if 0 ≤ start ∧ start ≤ stop ∧ stop ≤ summary.length then
      if url ∈ found.seen then .ok found
      else .ok (found.add url title (slice summary start stop) (publishedAt citation) "CITED")
    else .error .typeError
  | _, _, _, _ => .error .typeError

section Results

variable (lib : UrlText)

def addSource (found : Found) (source : Dictionary) : Except PayloadError Found :=
  match item source "url", asTitle (item source "title") with
  | .str url, some title =>
    if url ∈ found.seen then .ok found
    else
      match lib.hostname url with
      | none => .error .valueError
      | some hostname =>
        let fallbackTitle := lib.casefold (textOr hostname (py "Web source"))
        .ok (found.add url (textOr title fallbackTitle) [] (publishedAt source) "CONSULTED")
  | _, _ => .error .typeError

/-- `_results` -/
def results (summary : PyString) (citations sources : List Dictionary) :
    Except PayloadError (List SearchResult) := do
  let cited ← citations.foldlM (addCitation summary) ⟨[], []⟩
  let found ← sources.foldlM (addSource lib) cited
  return found.results

/-! ## `_normalize` -/

/-- The identifier of a response and the items of its output. -/
def envelope : Option RawJson → Except PayloadError (PyString × List RawJson)
  | some (.obj payload) => do
    let responseId ← subscript payload "id"
    let output ← subscript payload "output"
    match responseId, output with
    | .str responseId, .arr output =>
      if 0 < responseId.length ∧ responseId.length ≤ 256 ∧ output.length ≤ 100 then
        return (responseId, output)
      else throw .typeError
    | _, _ => throw .typeError
  | some _ => .error .typeError
  | none => .error .valueError

def schemaInvalid : ProviderError :=
  ⟨"openai-web-search", "PROVIDER_SCHEMA_INVALID", false, none, none⟩

/-- The response to a payload, read with a time; a response without a payload is no JSON. -/
def readResponse (payload : Option RawJson) (limit : ℤ) (searchedAt : String) :
    Except PayloadError SearchResponse := do
  let (responseId, output) ← envelope payload
  let (summary, citations) ← message output
  let sources ← sources output
  let results ← results lib summary citations sources
  return ⟨"openai-web-search", "responses-web-search-v1", searchedAt, sliceTo limit results,
    summary, responseId⟩

/-- `_normalize` -/
def normalize (payload : Option RawJson) (limit : ℤ) (searchedAt : String) :
    Raises SearchResponse :=
  match readResponse lib payload limit searchedAt with
  | .ok response => .ok response
  | .error _ => .error (.requestFailed schemaInvalid)

end Results

/-! ## Loops -/

/-- What each turn of a loop keeps of the items it has taken holds of all of them. -/
theorem foldlM_taken {α β ε : Type} {I : List α → β → Prop} {f : β → α → Except ε β}
    (hstep : ∀ taken b x b', I taken b → f b x = .ok b' → I (taken ++ [x]) b') (xs : List α) :
    ∀ {taken b b'}, I taken b → xs.foldlM f b = .ok b' → I (taken ++ xs) b' := by
  induction xs with
  | nil =>
    intro taken b b' hb h
    cases h
    rwa [List.append_nil]
  | cons x xs ih =>
    intro taken b b' hb h
    rw [List.foldlM_cons] at h
    obtain ⟨next, hnext, hrest⟩ := bind_ok_cases h
    have hsofar := ih (hstep taken b x next hb hnext) hrest
    rwa [List.append_assoc] at hsofar

/-! ## What results are -/

/-- The results found so far: their URLs are distinct and seen, their ranks count them. -/
structure Found.Ordered (found : Found) : Prop where
  seen : ∀ url, url ∈ found.seen ↔ url ∈ found.results.map SearchResult.url
  distinct : (found.results.map SearchResult.url).Nodup
  ranked : found.results.map SearchResult.rank = List.range' 1 found.results.length

theorem Found.ordered_empty : (⟨[], []⟩ : Found).Ordered where
  seen := by simp
  distinct := List.nodup_nil
  ranked := rfl

theorem Found.Ordered.add {found : Found} (h : found.Ordered) {url : PyString}
    (hnew : url ∉ found.seen) (title snippet : PyString) (published : Option PyString)
    (kind : String) : (found.add url title snippet published kind).Ordered where
  seen := by
    intro url'
    simp only [Found.add, List.mem_cons, List.map_append, List.map_cons, List.map_nil,
      List.mem_append, List.not_mem_nil, or_false, h.seen]
    exact or_comm
  distinct := by
    rw [h.seen] at hnew
    simp only [Found.add, List.map_append, List.map_cons, List.map_nil]
    apply h.distinct.append (List.nodup_singleton url)
    intro url' hold hsingle
    rw [List.mem_singleton.mp hsingle] at hold
    exact hnew hold
  ranked := by
    simp only [Found.add, List.map_append, List.map_cons, List.map_nil, List.length_append,
      List.length_singleton, h.ranked]
    rw [List.range'_concat, Nat.one_mul, Nat.add_comm 1]

def names (url : PyString) (fields : Dictionary) : Bool :=
  match item fields "url" with
  | .str url' => url' = url
  | _ => false

theorem names_iff {url : PyString} {fields : Dictionary} :
    names url fields = true ↔ item fields "url" = .str url := by
  unfold names
  cases item fields "url" with
  | str url' => simp
  | _ => simp

/-- A snippet is the slice of the summary that a citation names. -/
def Cites (summary : PyString) (citation : Dictionary) (snippet : PyString) : Prop :=
  ∃ start stop : ℤ, asInt (item citation "start_index") = some start ∧
    asInt (item citation "end_index") = some stop ∧ 0 ≤ start ∧ start ≤ stop ∧
    stop ≤ summary.length ∧ snippet = slice summary start stop

/-- The results of the citations taken so far. -/
structure CitedBy (summary : PyString) (taken : List Dictionary) (found : Found) : Prop where
  ordered : found.Ordered
  cited : ∀ r ∈ found.results, r.citationKind = "CITED" ∧
    ∃ c, taken.find? (names r.url) = some c ∧ Cites summary c r.snippet
  covered : ∀ c ∈ taken, ∀ url, item c "url" = .str url → url ∈ found.seen

theorem addCitation_cases {summary : PyString} {found found' : Found} {citation : Dictionary}
    (h : addCitation summary found citation = .ok found') :
    ∃ url title start stop, item citation "url" = .str url ∧
      asInt (item citation "start_index") = some start ∧
      asInt (item citation "end_index") = some stop ∧
      (0 ≤ start ∧ start ≤ stop ∧ stop ≤ summary.length) ∧
      ((url ∈ found.seen ∧ found' = found) ∨ (url ∉ found.seen ∧ found' =
        found.add url title (slice summary start stop) (publishedAt citation) "CITED")) := by
  unfold addCitation at h
  split at h
  · rename_i url title start stop hurl htitle hstart hstop
    split_ifs at h with hbounds hseen
    · exact ⟨url, title, start, stop, hurl, hstart, hstop, hbounds,
        .inl ⟨hseen, (Except.ok.inj h).symm⟩⟩
    · exact ⟨url, title, start, stop, hurl, hstart, hstop, hbounds,
        .inr ⟨hseen, (Except.ok.inj h).symm⟩⟩
  · cases h

theorem citedBy_step {summary : PyString} (taken : List Dictionary) (found : Found)
    (citation : Dictionary) (found' : Found) (hfound : CitedBy summary taken found)
    (h : addCitation summary found citation = .ok found') :
    CitedBy summary (taken ++ [citation]) found' := by
  obtain ⟨url, title, start, stop, hurl, hstart, hstop, hbounds, hcase⟩ := addCitation_cases h
  have hkept : ∀ r ∈ found.results, r.citationKind = "CITED" ∧
      ∃ c, (taken ++ [citation]).find? (names r.url) = some c ∧ Cites summary c r.snippet := by
    intro r hr
    obtain ⟨hkind, c, hfirst, hcites⟩ := hfound.cited r hr
    refine ⟨hkind, c, ?_, hcites⟩
    rw [List.find?_append, hfirst, Option.some_or]
  rcases hcase with ⟨hseen, rfl⟩ | ⟨hnew, rfl⟩
  · refine ⟨hfound.ordered, hkept, ?_⟩
    intro c hc url' hurl'
    rcases List.mem_append.mp hc with hc | hc
    · exact hfound.covered c hc url' hurl'
    · rw [List.mem_singleton.mp hc, hurl] at hurl'
      rwa [← RawJson.str.inj hurl']
  · refine ⟨hfound.ordered.add hnew _ _ _ _, ?_, ?_⟩
    · intro r hr
      rcases List.mem_append.mp hr with hr | hr
      · exact hkept r hr
      · rw [List.mem_singleton.mp hr]
        refine ⟨rfl, citation, ?_, start, stop, hstart, hstop, hbounds.1, hbounds.2.1,
          hbounds.2.2, rfl⟩
        have hnone : taken.find? (names url) = none := by
          apply List.find?_eq_none.mpr
          intro c hc hnames
          exact hnew (hfound.covered c hc url (names_iff.mp hnames))
        rw [List.find?_append, hnone, Option.none_or]
        simp [names_iff.mpr hurl]
    · intro c hc url' hurl'
      rcases List.mem_append.mp hc with hc | hc
      · exact List.mem_cons_of_mem _ (hfound.covered c hc url' hurl')
      · rw [List.mem_singleton.mp hc, hurl] at hurl'
        rw [← RawJson.str.inj hurl']
        exact List.mem_cons_self

/-- The results after the sources taken so far: those of the citations, then consulted ones. -/
structure Consulted (cited : List SearchResult) (taken : List Dictionary) (found : Found) :
    Prop where
  ordered : found.Ordered
  split : ∃ later, found.results = cited ++ later ∧ ∀ r ∈ later, r.citationKind = "CONSULTED" ∧
    ∃ s ∈ taken, item s "url" = .str r.url

section Sources

variable {lib : UrlText}

theorem addSource_cases {found found' : Found} {source : Dictionary}
    (h : addSource lib found source = .ok found') :
    ∃ url, item source "url" = .str url ∧
      ((url ∈ found.seen ∧ found' = found) ∨ (url ∉ found.seen ∧ ∃ title,
        found' = found.add url title [] (publishedAt source) "CONSULTED")) := by
  unfold addSource at h
  split at h
  · rename_i url title hurl htitle
    refine ⟨url, hurl, ?_⟩
    split_ifs at h with hseen
    · exact .inl ⟨hseen, (Except.ok.inj h).symm⟩
    · cases hhost : lib.hostname url with
      | none =>
        rw [hhost] at h
        cases h
      | some hostname =>
        rw [hhost] at h
        exact .inr ⟨hseen, _, (Except.ok.inj h).symm⟩
  · cases h

theorem consulted_step {cited : List SearchResult} (taken : List Dictionary) (found : Found)
    (source : Dictionary) (found' : Found) (hfound : Consulted cited taken found)
    (h : addSource lib found source = .ok found') :
    Consulted cited (taken ++ [source]) found' := by
  obtain ⟨url, hurl, hcase⟩ := addSource_cases h
  obtain ⟨later, hsplit, hlater⟩ := hfound.split
  have hkept : ∀ r ∈ later, r.citationKind = "CONSULTED" ∧
      ∃ s ∈ taken ++ [source], item s "url" = .str r.url := by
    intro r hr
    obtain ⟨hkind, s, hs, hsource⟩ := hlater r hr
    exact ⟨hkind, s, List.mem_append_left _ hs, hsource⟩
  rcases hcase with ⟨-, rfl⟩ | ⟨hnew, title, rfl⟩
  · exact ⟨hfound.ordered, later, hsplit, hkept⟩
  · refine ⟨hfound.ordered.add hnew _ _ _ _, later ++ [⟨url, title, [],
      found.results.length + 1, publishedAt source, "CONSULTED"⟩], ?_, ?_⟩
    · rw [← List.append_assoc, ← hsplit]
      rfl
    · intro r hr
      rcases List.mem_append.mp hr with hr | hr
      · exact hkept r hr
      · rw [List.mem_singleton.mp hr]
        exact ⟨rfl, source, List.mem_append_right _ List.mem_cons_self, hurl⟩

/-- What the results of a summary's citations and of the sources are. -/
theorem results_cases {summary : PyString} {citations sources : List Dictionary}
    {rs : List SearchResult} (h : results lib summary citations sources = .ok rs) :
    (rs.map SearchResult.url).Nodup ∧ rs.map SearchResult.rank = List.range' 1 rs.length ∧
      ∃ cited later, rs = cited ++ later ∧
        (∀ r ∈ cited, r.citationKind = "CITED" ∧
          ∃ c, citations.find? (names r.url) = some c ∧ Cites summary c r.snippet) ∧
        ∀ r ∈ later, r.citationKind = "CONSULTED" ∧ ∃ s ∈ sources, item s "url" = .str r.url := by
  obtain ⟨cited, hcited, h⟩ := bind_ok_cases h
  obtain ⟨found, hfound, h⟩ := bind_ok_cases h
  cases h
  have hempty : CitedBy summary [] ⟨[], []⟩ := by
    refine ⟨Found.ordered_empty, ?_, ?_⟩
    · intro r hr
      cases hr
    · intro c hc
      cases hc
  have hfirst : CitedBy summary citations cited :=
    foldlM_taken citedBy_step citations hempty hcited
  have hstart : Consulted cited.results [] cited := by
    refine ⟨hfirst.ordered, [], (List.append_nil _).symm, ?_⟩
    intro r hr
    cases hr
  have hall : Consulted cited.results sources found :=
    foldlM_taken consulted_step sources hstart hfound
  obtain ⟨later, hsplit, hlater⟩ := hall.split
  exact ⟨hall.ordered.distinct, hall.ordered.ranked, cited.results, later, hsplit, hfirst.cited,
    hlater⟩

end Sources

/-! ## The parts of a payload -/

/-- The items of a list. -/
def itemsOf : RawJson → List RawJson
  | .arr items => items
  | _ => []

theorem boundedList_ok {bound : ℕ} {value : RawJson} {items : List RawJson}
    (h : boundedList bound value = .ok items) : value = .arr items := by
  cases value with
  | arr items' =>
    simp only [boundedList] at h
    split_ifs at h
    rw [Except.ok.inj h]
  | _ => cases h

/-- A list that is missing has no items. -/
theorem itemsOf_itemOr {fields : Dictionary} {key : String} {items : List RawJson}
    (h : itemOr fields key (.arr []) = .arr items) : itemsOf (item fields key) = items := by
  unfold itemOr at h
  unfold item
  cases hfind : fields.find? fun f => f.1 = py key with
  | none =>
    rw [hfind] at h
    exact RawJson.arr.inj h
  | some f =>
    rw [hfind] at h
    simp only [Option.map_some, Option.getD_some] at h ⊢
    rw [h]
    rfl

/-- An output text within a message of an output. -/
def HasPart (output : List RawJson) (part : Dictionary) : Prop :=
  ∃ entry ∈ typed "message" output, part ∈ typed "output_text" (itemsOf (item entry "content"))

/-- The citations of an output text. -/
def citationsOf (part : Dictionary) : List Dictionary :=
  typed "url_citation" (itemsOf (item part "annotations"))

/-- A source that a search call of an output consulted. -/
def HasSource (output : List RawJson) (source : Dictionary) : Prop :=
  ∃ call ∈ typed "web_search_call" output, ∃ action, item call "action" = .obj action ∧
    source ∈ typed "url" (itemsOf (item action "sources"))

theorem outputText_ok {part : Dictionary} {summary : PyString} {citations : List Dictionary}
    (h : outputText part = .ok (summary, citations)) :
    item part "text" = .str summary ∧ citationsOf part = citations := by
  unfold outputText at h
  cases htext : item part "text" with
  | str text =>
    rw [htext] at h
    obtain ⟨annotations, hlist, h⟩ := bind_ok_cases h
    split_ifs at h with hlength
    obtain ⟨rfl, rfl⟩ := Prod.mk.inj (Except.ok.inj h)
    rw [citationsOf, itemsOf_itemOr (boundedList_ok hlist)]
    exact ⟨rfl, rfl⟩
  | _ =>
    rw [htext] at h
    cases h

theorem firstMessage_ok {entries : List Dictionary} {summary : PyString}
    {citations : List Dictionary} (h : firstMessage entries = .ok (summary, citations)) :
    ∃ entry ∈ entries, ∃ part ∈ typed "output_text" (itemsOf (item entry "content")),
      item part "text" = .str summary ∧ citationsOf part = citations := by
  induction entries with
  | nil => cases h
  | cons entry rest ih =>
    obtain ⟨content, hcontent, h⟩ := bind_ok_cases h
    have hitems : itemsOf (item entry "content") = content := by
      rw [boundedList_ok hcontent]
      rfl
    cases hparts : typed "output_text" content with
    | nil =>
      rw [hparts] at h
      obtain ⟨entry', hentry, hpart⟩ := ih h
      exact ⟨entry', List.mem_cons_of_mem _ hentry, hpart⟩
    | cons part parts =>
      rw [hparts] at h
      refine ⟨entry, List.mem_cons_self, part, ?_, outputText_ok h⟩
      rw [hitems, hparts]
      exact List.mem_cons_self

theorem sources_ok {output : List RawJson} {found : List Dictionary}
    (h : sources output = .ok found) : ∀ s ∈ found, HasSource output s := by
  obtain ⟨lists, hlists, h⟩ := bind_ok_cases h
  split_ifs at h
  cases h
  intro s hs
  obtain ⟨list, hlist, hs⟩ := List.mem_flatten.mp hs
  have hread := mapM_ok_iff.mp hlists
  have hmem : (Except.ok list : Except PayloadError _) ∈
      (typed "web_search_call" output).map callSources := by
    rw [hread]
    exact List.mem_map_of_mem hlist
  obtain ⟨call, hcall, hsources⟩ := List.mem_map.mp hmem
  refine ⟨call, hcall, ?_⟩
  unfold callSources at hsources
  cases haction : item call "action" with
  | obj action =>
    rw [haction] at hsources
    obtain ⟨items, hitems, hsources⟩ := bind_ok_cases hsources
    cases hsources
    refine ⟨action, rfl, ?_⟩
    rwa [itemsOf_itemOr (boundedList_ok hitems)]
  | _ =>
    rw [haction] at hsources
    cases hsources

/-! ## Responses -/

/-- What a response of at most `limit` results says of the output it was read from. A search asks
for at least one result; a negative limit would drop results from the end. -/
structure Normalized (output : List RawJson) (limit : ℤ) (response : SearchResponse) : Prop where
  bounded : 0 ≤ limit → response.results.length ≤ limit
  distinct : (response.results.map SearchResult.url).Nodup
  ranked : response.results.map SearchResult.rank = List.range' 1 response.results.length
  kinds : ∀ r ∈ response.results, r.citationKind = "CITED" ∨ r.citationKind = "CONSULTED"
  citedFirst : response.results.Pairwise fun r r' =>
    r'.citationKind = "CITED" → r.citationKind = "CITED"
  snippets : ∃ part, HasPart output part ∧ item part "text" = .str response.summary ∧
    ∀ r ∈ response.results, r.citationKind = "CITED" →
      ∃ c, (citationsOf part).find? (names r.url) = some c ∧ Cites response.summary c r.snippet
  found : ∀ r ∈ response.results,
    (∃ part, HasPart output part ∧ ∃ c ∈ citationsOf part, item c "url" = .str r.url) ∨
      ∃ s, HasSource output s ∧ item s "url" = .str r.url

theorem sliceTo_eq_take {α : Type} (limit : ℤ) (xs : List α) :
    ∃ n, sliceTo limit xs = xs.take n ∧ (0 ≤ limit → (n : ℤ) ≤ limit) := by
  by_cases hlimit : 0 ≤ limit
  · refine ⟨limit.toNat, by rw [sliceTo, if_pos hlimit], ?_⟩
    intro h
    omega
  · refine ⟨xs.length - (-limit).toNat, by rw [sliceTo, if_neg hlimit], ?_⟩
    intro h
    exact absurd h hlimit

section Normalization

variable {lib : UrlText} {payload : Option RawJson} {limit : ℤ} {searchedAt : String}

theorem envelope_ok {responseId : PyString} {output : List RawJson}
    (h : envelope payload = .ok (responseId, output)) :
    ∃ fields, payload = some (.obj fields) ∧ subscript fields "output" = .ok (.arr output) := by
  cases payload with
  | none => cases h
  | some value =>
    cases value with
    | obj fields =>
      obtain ⟨first, hid, h⟩ := bind_ok_cases h
      obtain ⟨second, houtput, h⟩ := bind_ok_cases h
      split at h
      · split_ifs at h
        obtain ⟨rfl, rfl⟩ := Prod.mk.inj (Except.ok.inj h)
        exact ⟨fields, rfl, houtput⟩
      · cases h
    | _ => cases h

theorem normalized_of_read {response : SearchResponse}
    (h : readResponse lib payload limit searchedAt = .ok response) :
    ∃ fields output, payload = some (.obj fields) ∧
      subscript fields "output" = .ok (.arr output) ∧ Normalized output limit response := by
  obtain ⟨⟨responseId, output⟩, henvelope, h⟩ := bind_ok_cases h
  obtain ⟨⟨summary, citations⟩, hmessage, h⟩ := bind_ok_cases h
  obtain ⟨consulted, hsources, h⟩ := bind_ok_cases h
  obtain ⟨rs, hresults, h⟩ := bind_ok_cases h
  cases h
  obtain ⟨fields, hpayload, houtput⟩ := envelope_ok henvelope
  obtain ⟨entry, hentry, part, hpart, htext, hcitations⟩ := firstMessage_ok hmessage
  obtain ⟨hdistinct, hranked, cited, later, rfl, hcited, hlater⟩ := results_cases hresults
  obtain ⟨n, htake, hn⟩ := sliceTo_eq_take limit (cited ++ later)
  have hpart' : HasPart output part := ⟨entry, hentry, hpart⟩
  have hmem : ∀ r ∈ sliceTo limit (cited ++ later), r ∈ cited ∨ r ∈ later := by
    intro r hr
    rw [htake] at hr
    exact List.mem_append.mp (List.mem_of_mem_take hr)
  have hkind : ∀ r ∈ later, r.citationKind ≠ "CITED" := by
    intro r hr
    rw [(hlater r hr).1]
    decide
  refine ⟨fields, output, hpayload, houtput, ?_⟩
  exact {
    bounded := by
      intro hlimit
      simp only [htake, List.length_take]
      have hbound := hn hlimit
      omega
    distinct := by
      simp only [htake, List.map_take]
      exact hdistinct.sublist (List.take_sublist _ _)
    ranked := by
      simp only [htake, List.map_take, hranked, List.length_take]
      by_cases hn' : n ≤ (cited ++ later).length
      · rw [List.take_range'_of_length_ge hn', Nat.min_eq_left hn']
      · have hlength : (cited ++ later).length ≤ n := by omega
        rw [List.take_range'_of_length_le hlength, Nat.min_eq_right hlength]
    kinds := by
      intro r hr
      rcases hmem r hr with hr | hr
      · exact .inl (hcited r hr).1
      · exact .inr (hlater r hr).1
    citedFirst := by
      simp only [htake]
      apply List.Pairwise.sublist (List.take_sublist _ _)
      apply List.pairwise_append.mpr
      refine ⟨?_, ?_, ?_⟩
      · exact List.Pairwise.imp_of_mem (fun hr _ _ _ => (hcited _ hr).1)
          (List.pairwise_of_forall fun _ _ => trivial)
      · exact List.Pairwise.imp_of_mem (fun _ hr' _ h => absurd h (hkind _ hr'))
          (List.pairwise_of_forall fun _ _ => trivial)
      · intro r hr r' _ _
        exact (hcited r hr).1
    snippets := by
      refine ⟨part, hpart', htext, ?_⟩
      intro r hr hr'
      rw [hcitations]
      rcases hmem r hr with hr | hr
      · exact (hcited r hr).2
      · exact absurd hr' (hkind r hr)
    found := by
      intro r hr
      rcases hmem r hr with hr | hr
      · obtain ⟨-, c, hfirst, -⟩ := hcited r hr
        refine .inl ⟨part, hpart', c, ?_, names_iff.mp (List.find?_some hfirst)⟩
        rw [hcitations]
        exact List.mem_of_find?_eq_some hfirst
      · obtain ⟨-, s, hs, hurl⟩ := hlater r hr
        exact .inr ⟨s, sources_ok hsources s hs, hurl⟩ }

end Normalization

end DecisionAssurance.Research.OpenAIWebSearch
