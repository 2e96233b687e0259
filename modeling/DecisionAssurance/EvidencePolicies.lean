import Mathlib.Data.List.Infix
import DecisionAssurance.DecisionJson
import DecisionAssurance.EvidenceHandoff
import DecisionAssurance.UrlPolicy

/-!
# The policies on sources and evidence

The normaliser of extracted content, the assessment of a snapshot, the selection of sources and
the marking of contradictions. Regular expressions, the reading of ISO 8601 and floating point
arithmetic are taken from the standard library.
-/

namespace DecisionAssurance.Research

open Jobs (Instant seconds)

/-- A date and time of `fromisoformat`: the wall clock in microseconds since 1970 and the offset
where it has one. -/
structure WallTime where
  wall : Int
  offset : Option Int
  deriving DecidableEq

/-- The first and the last microsecond that a `datetime` can have. -/
def minTime : Instant := -62135596800000000
def maxTime : Instant := 253402300799999999

structure TextLibrary extends UrlLibrary where
  fromisoformat : String → Option WallTime
  isoformat : Instant → String
  /-- `round(max(0.2, 1.0 - (max(rank, 1) - 1) * 0.08), 2)`; integers may be too large. -/
  relevance : Int → Option String
  hasActiveHtml : String → Bool
  subActiveHtml : String → String
  hasActiveLink : String → Bool
  subActiveLink : String → String
  subHtml : String → String
  hasSecret : String → Bool
  subSecret : String → String
  /-- The patterns `_INJECTION`. -/
  injections : List (String → Bool)

/-! ## Times -/

def inTimeRange (i : Instant) : Raises Instant :=
  if minTime ≤ i ∧ i ≤ maxTime then .ok i else .error .overflowError

/-- `.astimezone(timezone.utc)`, where a time without an offset is taken as UTC. -/
def WallTime.utc (t : WallTime) : Raises Instant := inTimeRange (t.wall - t.offset.getD 0)

/-- `value.replace("Z", "+00:00")` -/
def zuluOffset (value : String) : String :=
  String.ofList (value.toList.flatMap fun c => if c = 'Z' then "+00:00".toList else [c])

/-! ## Lines -/

/-- The line boundaries of `str.splitlines`, apart from the pair of `\r` and `\n`. -/
def isLineBreak (c : Char) : Bool :=
  let n := c.toNat
  (10 ≤ n && n ≤ 13) || (28 ≤ n && n ≤ 30) || n = 0x85 || n = 0x2028 || n = 0x2029

/-- `str.splitlines()`, with the line read so far. -/
def splitlines : List Char → List Char → List (List Char)
  | [], line => if line.isEmpty then [] else [line]
  | '\r' :: '\n' :: cs, line => line :: splitlines cs []
  | c :: cs, line => if isLineBreak c then line :: splitlines cs [] else splitlines cs (line ++ [c])

def rstrip (cs : List Char) : List Char := (cs.reverse.dropWhile isSpace).reverse

/-- `"\n".join(line.rstrip() for line in text.splitlines()).strip()` -/
def tidyLines (text : String) : String :=
  String.ofList (strip (['\n'].intercalate ((splitlines text.toList []).map rstrip)))

/-- `tuple(dict.fromkeys(items))` -/
def distinct (items : List String) : List String := items.reverse.dedup.reverse

/-! ## `EvidenceNormalizer` -/

structure EvidenceNormalizer where
  maxContentBytes : ℕ
  cacheTtlSeconds : ℕ
  valid : 1000 ≤ maxContentBytes ∧ maxContentBytes ≤ 10000000

section Normalizer

variable (pf : Platform) (lib : TextLibrary)

/-- `content.mime_type.casefold().split(";", 1)[0]` -/
def mimeType (value : String) : String :=
  String.ofList ((lib.casefold value).toList.takeWhile (· ≠ ';'))

def contentHash (text : String) : String := "sha256:" ++ pf.sha256 text.toList

/-- The first 16 digits of a content hash. -/
def hashPrefix (hash : String) : String := String.ofList ((hash.toList.drop 7).take 16)

/-- The text without active content, markup and secrets. -/
def sanitize (raw : String) : String :=
  tidyLines (lib.subSecret (lib.subHtml (lib.subActiveLink (lib.subActiveHtml raw))))

def contentRisk (raw : String) : ContentRisk :=
  let text := sanitize lib raw
  let reasons := if lib.injections.any fun pattern => pattern text then
    ["PROMPT_INJECTION_SUSPECTED"] else []
  { promptInjectionSuspected := !reasons.isEmpty
    riskReasons := reasons
    secretRedacted := lib.hasSecret (lib.subHtml (lib.subActiveLink (lib.subActiveHtml raw)))
    activeContentRemoved := lib.hasActiveHtml raw || lib.hasActiveLink raw }

namespace EvidenceNormalizer

variable (n : EvidenceNormalizer)

/-- The checks that `normalize` makes before it reads the time of retrieval. -/
def checkContent (content : ExtractedContent) : Raises Unit :=
  if content.httpStatus ≠ 200 then .error (.normalizationRejected "ERROR_PAGE")
  else if mimeType lib content.mimeType ∉ ["text/markdown", "text/plain", "text/html"] then
    .error (.normalizationRejected "MIME_TYPE_UNSUPPORTED")
  else if !lib.encodes content.markdown then .error encodeError
  else if n.maxContentBytes < content.markdown.utf8ByteSize then
    .error (.normalizationRejected "CONTENT_TOO_LARGE")
  else .ok ()

def normalize (source : SourceCandidate) (content : ExtractedContent) :
    Raises SourceSnapshot := do
  n.checkContent lib content
  let read ← orRaise (.normalizationRejected "INVALID_RETRIEVAL_TIME")
    (lib.fromisoformat (zuluOffset content.retrievedAt))
  let retrieved ← read.utc
  let expires ← inTimeRange (retrieved + seconds n.cacheTtlSeconds)
  let hash := contentHash pf content.markdown
  return {
    snapshotId := s!"{source.sourceId}:snapshot:" ++ hashPrefix hash
    sourceId := source.sourceId
    originalUrl := source.originalUrl
    canonicalUrl := content.canonicalUrl
    domain := source.domain
    title := if content.title.isEmpty then source.title else content.title
    retrievedAt := lib.isoformat retrieved
    expiresAt := lib.isoformat expires
    contentHash := hash
    httpStatus := content.httpStatus
    mimeType := mimeType lib content.mimeType
    format := "markdown"
    text := sanitize lib content.markdown
    language := lib.casefold content.language
    contentProvider := content.contentProvider
    contentProviderVersion := content.contentProviderVersion
    risk := contentRisk lib content.markdown
    artifactType := "FETCHED_CONTENT" }

end EvidenceNormalizer

end Normalizer

/-! ## `EvidencePolicy` -/

structure EvidencePolicy where
  primary : List String
  secondary : List String
  languages : List String
  minimum : ℕ

def evidencePolicyVersion : String := "evidence-policy-v1"

/-- `item in text` -/
def contains (item text : String) : Bool := decide (item.toList <:+: text.toList)

namespace EvidencePolicy

variable (lib : TextLibrary) (policy : EvidencePolicy)

/-- The reasons that make a snapshot unusable. -/
def blockingReasons (snapshot : SourceSnapshot) (source : SourceCandidate) : List String :=
  let lowered := lib.casefold snapshot.text
  let language := String.ofList ((lib.casefold snapshot.language).toList.takeWhile (· ≠ '-'))
  let provenance := [source.searchProvider, source.searchProviderVersion,
    snapshot.contentProvider, snapshot.contentProviderVersion, snapshot.contentHash]
  (if provenance.all fun s => !s.isEmpty then [] else ["PROVENANCE_MISSING"]) ++
  (if (strip snapshot.text.toList).length < policy.minimum then ["CONTENT_TOO_SHORT"] else []) ++
  (if contains "sign in to continue" lowered || contains "log in to continue" lowered then
    ["LOGIN_PAGE"] else []) ++
  (if contains "subscribe to continue" lowered || contains "paywall" lowered then
    ["PAYWALL_DETECTED"] else []) ++
  (if language ∈ policy.languages.map lib.casefold then []
    else ["UNSUPPORTED_CONTENT_LANGUAGE"]) ++
  (if snapshot.risk.promptInjectionSuspected then ["PROMPT_INJECTION_SUSPECTED"] else [])

/-- The freshness of a publication date and its reason; only a `ValueError` is caught. -/
def freshness (publishedAt : Option String) (maximumAgeDays : ℕ) (now : Instant) :
    Raises (String × List String) :=
  match publishedAt.filter fun s => !s.isEmpty with
  | none => .ok ("UNKNOWN", [])
  | some text =>
    match lib.fromisoformat (zuluOffset text) with
    | none => .ok ("UNKNOWN", ["PUBLICATION_DATE_INVALID"])
    | some read => do
      let published ← read.utc
      let age := (now - published).fdiv (seconds 86400)
      if age ≤ maximumAgeDays then return ("CURRENT", [])
      else return ("STALE", ["CONTENT_OUTDATED"])

def authority (domain : String) : String × String :=
  if domain ∈ policy.primary then ("PRIMARY", "0.9")
  else if domain ∈ policy.secondary then ("SECONDARY", "0.6")
  else ("UNKNOWN", "0.2")

def assess (snapshot : SourceSnapshot) (source : SourceCandidate) (maximumAgeDays : ℕ)
    (now : Instant) : Raises EvidenceAssessment := do
  let blocking := policy.blockingReasons lib snapshot source
  let (status, dated) ← freshness lib source.publishedAt maximumAgeDays now
  let relevance ← orRaise .overflowError (lib.relevance source.rank)
  let reasons := blocking ++ dated
  return {
    freshnessStatus := status
    sourceType := (policy.authority source.domain).1
    authorityScore := (policy.authority source.domain).2
    relevanceScore := relevance
    conflictStatus := "NOT_CHECKED"
    usableForDecision := blocking.isEmpty
    requiresHumanReview := true
    reasonCodes := distinct (if reasons.isEmpty then ["EXTERNAL_EVIDENCE_UNVERIFIED"] else reasons) }

end EvidencePolicy

/-! ## Selection of sources -/

/-- `sorted(…, key=lambda item: (item.rank, item.source_id))` -/
def rankLe (a b : SourceCandidate) : Prop :=
  a.rank < b.rank ∨ a.rank = b.rank ∧ a.sourceId ≤ b.sourceId

instance : DecidableRel rankLe := fun a b =>
  inferInstanceAs (Decidable (a.rank < b.rank ∨ a.rank = b.rank ∧ a.sourceId ≤ b.sourceId))

/-- The indices of the sources that `SourceSelectionPolicy.select` returns. -/
def selectSources (sources : List SourceCandidate) (limit : ℕ) (statuses : List String) :
    List ℕ :=
  ((sources.zipIdx.filter fun s => s.1.status ∈ statuses).insertionSort
    fun a b => rankLe a.1 b.1).map Prod.snd |>.take limit

/-! ## Contradictions -/

section Conflicts

variable (casefold : String → String)

def negationPairs : List (String × String) :=
  [(" is required", " is not required"), (" must ", " must not "), (" shall ", " shall not "),
    (" is allowed", " is prohibited")]

def stopWords : List String := ["a", "an", "and", "is", "not", "the", "to", "must", "shall"]

/-- `[a-z0-9]` -/
def isWordChar (c : Char) : Bool := ('a' ≤ c && c ≤ 'z') || c.isDigit

/-- `_core` as a list without repetitions. -/
def coreWords (value : String) : List String :=
  (((casefold value).toList.splitOnP fun c => !isWordChar c).filter (fun w => !w.isEmpty)
    |>.map String.ofList |>.filter fun w => w ∉ stopWords).dedup

def contradicts (left right : String) : Bool :=
  let leftValue := " " ++ casefold left ++ " "
  let rightValue := " " ++ casefold right ++ " "
  let explicit := negationPairs.any fun pair =>
    (contains pair.1 leftValue && contains pair.2 rightValue) ||
      (contains pair.2 leftValue && contains pair.1 rightValue)
  let leftCore := coreWords casefold left
  let rightCore := coreWords casefold right
  let overlap := (leftCore.filter fun w => w ∈ rightCore).length
  explicit && 0 < overlap && max 1 (min leftCore.length rightCore.length) ≤ 2 * overlap

/-- The last snapshot of an id, as a dictionary keeps it. -/
def snapshotOf (run : ResearchRun) (snapshotId : String) : Option SourceSnapshot :=
  run.snapshots.reverse.find? fun s => s.snapshotId = snapshotId

def conflictingPair (run : ResearchRun) (left right : EvidenceCandidate) : Bool :=
  left.claimRefs.any (fun ref => ref ∈ right.claimRefs) &&
    match snapshotOf run left.snapshotId, snapshotOf run right.snapshotId with
    | some l, some r => contradicts casefold l.text r.text
    | _, _ => false

/-- The ids of the evidence in contradiction with a later or an earlier one. -/
def conflictingIds (run : ResearchRun) : List EvidenceCandidate → List String
  | [] => []
  | left :: rest =>
    (rest.filter (conflictingPair casefold run left)).flatMap
      (fun right => [left.evidenceId, right.evidenceId]) ++ conflictingIds run rest

def EvidenceCandidate.markConflicting (e : EvidenceCandidate) : EvidenceCandidate :=
  { e with
    assessment := { e.assessment with
      conflictStatus := "CONFLICTING"
      requiresHumanReview := true
      reasonCodes := distinct (e.assessment.reasonCodes ++ ["CONFLICTING_EVIDENCE"]) } }

def SourceCandidate.markConflicting (s : SourceCandidate) : SourceCandidate :=
  { s with
    status := "REVIEW_REQUIRED"
    reasonCodes := distinct (s.reasonCodes ++ ["CONFLICTING_EVIDENCE"]) }

/-- `mark_conflicting_evidence` -/
def markConflictingEvidence (run : ResearchRun) : ResearchRun :=
  let conflicting := conflictingIds casefold run run.evidence
  let sourceIds := (run.evidence.filter fun e => e.evidenceId ∈ conflicting).map
    EvidenceCandidate.sourceId
  { run with
    evidence := run.evidence.map fun e =>
      if e.evidenceId ∈ conflicting then e.markConflicting else e
    sources := run.sources.map fun s =>
      if s.sourceId ∈ sourceIds then s.markConflicting else s }

end Conflicts

end DecisionAssurance.Research
