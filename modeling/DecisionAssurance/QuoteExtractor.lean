import Mathlib.Data.List.Infix
import DecisionAssurance.DecimalNumbers
import DecisionAssurance.IntakeContracts
import DecisionAssurance.WrittenPatterns

/-!
# The deterministic extraction of a quote

The patterns of the extractor, the candidates they find in a raw input, the conflicts between the
candidates of one type, and the requirements a text raises by naming something as missing.
-/

namespace DecisionAssurance.Intake

namespace QuoteExtractor

open Regex

variable (py : Interpreter)

/-! ## The patterns -/

def isDigit (c : Char) : Bool := (py.decimal c).isSome

def isWord (c : Char) : Bool := py.isAlnum c || c = '_'

def digit : Regex Char := .char (isDigit py)

def noDigit : Regex Char := .char fun c => !isDigit py c

def word : Regex Char := .char (isWord py)

def space : Regex Char := .char isSpace

def dot : Regex Char := .char fun c => c ≠ '\n'

def oneOf (cs : String) : Regex Char := .char fun c => cs.toList.contains c

def noneOf (cs : String) : Regex Char := .char fun c => !cs.toList.contains c

/-- A text under `re.IGNORECASE`. -/
def text (s : String) : Regex Char := literal py.alike s.toList

def exact (s : String) : Regex Char := literal (fun a c => a = c) s.toList

/-- `\b` -/
def boundary : Regex Char := .look fun a c => a.any (isWord py) != c.any (isWord py)

/-- `(?<![…])` -/
def notAfter (p : Char → Bool) : Regex Char := .look fun a _ => !a.any p

/-- The rest of a sentence, `[^.!?]*`. -/
def sentence : Regex Char := star (noneOf ".!?")

def inSentence (r : Regex Char) : Regex Char :=
  seqs [sentence, r, sentence, optional (oneOf ".!?")]

def decimals : Regex Char := optional (seq (oneOf ".,") (exactly 2 (digit py)))

def money : Regex Char :=
  seqs [notAfter fun c => isWord py c || c = '.' || c = '-',
    .group "number" (.alt
      (seqs [between 1 3 (digit py), plus (seq (oneOf ".,") (exactly 3 (digit py))), decimals py])
      (seqs [plus (digit py), decimals py])),
    star space,
    .group "currency" (alts [text py "EUR", text py "USD", text py "€", text py "$"])]

def percent : Regex Char :=
  seqs [notAfter fun c => isDigit py c || c = '.' || c = ',',
    .group "number" (seqs [plus (digit py), optional (seq (oneOf ".,") (plus (digit py)))]),
    star space, oneOf "%"]

/-- A keyword, at most twelve characters that are no digits, a number and its unit. -/
def termOf (keyword unit : Regex Char) : Regex Char :=
  seqs [keyword, between 0 12 (noDigit py), .group "number" (plus (digit py)), star space, unit]

def payment : Regex Char :=
  termOf py
    (alts [text py "zahlungsziel",
      seqs [text py "payment", plus space, text py "term", optional (text py "s")]])
    (alts [text py "tage", seq (text py "day") (optional (text py "s"))])

def duration : Regex Char :=
  termOf py (alts [text py "laufzeit", text py "duration", text py "term"])
    (alts [seq (text py "monat") (optional (text py "e")),
      seq (text py "month") (optional (text py "s"))])

def date : Regex Char :=
  seqs [boundary py,
    .group "date" (seqs [between 1 2 (digit py), oneOf "./-", between 1 2 (digit py), oneOf "./-",
      exactly 4 (digit py)]),
    boundary py]

def upperLetter : Regex Char := .char fun c => 'A' ≤ c ∧ c ≤ 'Z'

def letterOrSpace : Regex Char := .char fun c => ('A' ≤ c ∧ c ≤ 'Z') ∨ ('a' ≤ c ∧ c ≤ 'z') ∨ c = ' '

def policy : Regex Char :=
  seqs [boundary py,
    .alt (seqs [exact "EX-", exactly 4 (digit py), exact "-", exactly 2 (digit py)])
      (seqs [upperLetter, plus letterOrSpace, exact "Policy", plus space, exactly 4 (digit py),
        optional (seqs [optional (exact ","), star space, exact "Version", star space,
          plus (.char fun c => isDigit py c || c = '.')])]),
    boundary py]

def approval : Regex Char :=
  inSentence (alts (["freigab", "freigegeb", "genehmig", "approv"].map fun stem =>
    seq (text py stem) (star (word py))))

def selfApproval : Regex Char :=
  inSentence (alts
    [seqs [text py "selbst", plus space,
      alts [text py "vorgenommen", text py "freigegeben", text py "genehmigt"]],
    seqs [alts [text py "approval", text py "approved"], between 0 30 dot,
      alts [text py "himself", text py "herself", text py "themselves"]],
    seqs [alts [text py "creator", text py "generator", text py "ersteller"], between 0 40 dot,
      alts [text py "same", text py "selbst", text py "himself", text py "herself"]]])

def roles : Regex Char :=
  seqs [boundary py,
    alts (["generator", "validator", "approver", "ersteller", "prüfer", "finance", "sales",
      "management"].map (text py)),
    boundary py]

def instruction : Regex Char :=
  inSentence (seqs
    [alts [text py "ignore", text py "ignoriere", seq (text py "setz") (optional (text py "e")),
      text py "return"],
    plus space, sentence,
    alts [text py "PASS", text py "APPROVED", text py "regeln", text py "rules"]])

/-! ## Normalizing -/

def contains (sub cs : List Char) : Bool := decide (sub <:+: cs)

/-- `int(value)` of a text of digits -/
def intOf (cs : List Char) : ℕ := cs.foldl (fun n c => 10 * n + (py.decimal c).getD 0) 0

def normalizeNumber (value : List Char) (locale : String) : List Char :=
  let normalized :=
    if locale = "de" then (value.filter (· ≠ '.')).map fun c => if c = ',' then '.' else c
    else if value.contains ',' && !value.contains '.' then
      let parts := value.splitOn ','
      if (parts.getLastD []).length = 3 then parts.flatten else ['.'].intercalate parts
    else value.filter (· ≠ ',')
  match DecimalNumber.parse py.decimal normalized with
  | none => value
  | some number => number.fixedText

/-- `f"{n:02d}"` -/
def twoDigits (n : ℕ) : List Char :=
  let digits := Nat.toDigits 10 n
  if digits.length < 2 then '0' :: digits else digits

def normalizeDate (value : List Char) : List Char :=
  match value.splitOnP fun c => "./-".toList.contains c with
  | [day, month, year] =>
    year ++ '-' :: twoDigits (intOf py month) ++ '-' :: twoDigits (intOf py day)
  | _ => []

/-- The distance between a number and the nearest occurrence of one of the terms. -/
def nearest (context : List Char) (numberPosition : ℤ) (terms : List String) : ℤ :=
  let distances := terms.flatMap fun term =>
    ((exact term).finditer context).map fun m =>
      if (m.stop : ℤ) ≤ numberPosition then numberPosition - m.stop else m.start - numberPosition
  distances.min?.getD 10000

def minimumMargin : Regex Char :=
  alts [exact "mindestmarge", seqs [exact "minimum", plus space, exact "margin"],
    seqs [exact "min", .rep false 0 (some 1) (exact "."), star space, exact "margin"]]

def discountLimit : Regex Char :=
  seqs [alts [exact "rabatt", exact "discount"], star dot,
    alts [exact "grenze", exact "limit", exact "höchst", exact "max"]]

def percentType (cs : List Char) (start stop : ℕ) : FactType :=
  let windowStart := start - 40
  let context := py.lower ((cs.take (min cs.length (stop + 24))).drop windowStart)
  if minimumMargin.search context then .minMarginPercent
  else if discountLimit.search context then .discountLimitPercent
  else
    let numberPosition : ℤ := start - windowStart
    let marginDistance :=
      nearest context numberPosition ["marge", "margin", "deckungsbeitrag"]
    let discountDistance := nearest context numberPosition ["rabatt", "discount"]
    if marginDistance < discountDistance then .marginPercent else .discountPercent

/-! ## What the patterns find -/

structure Found where
  start : ℤ
  stop : ℤ
  factType : FactType
  raw : List Char
  normalized : List Char
  unit : Option String
  currency : Option String
  confidence : String

section Searches

variable (cs : List Char) (locale : String)

def termsFound : List Found :=
  [(payment py, FactType.paymentTermDays, "days"),
    (duration py, .durationMonths, "months")].flatMap fun (pattern, factType, unit) =>
    (pattern.finditer cs).map fun m =>
      { start := m.start, stop := m.stop, factType := factType, raw := m.text,
        normalized := m.group "number", unit := some unit, currency := none, confidence := "0.98" }

def moneyFound : List Found :=
  ((money py).finditer cs).map fun m =>
    let euro := py.upper (m.group "currency") ∈ ["EUR".toList, "€".toList]
    { start := m.start, stop := m.stop, factType := .amount, raw := m.text,
      normalized := normalizeNumber py (m.group "number") locale, unit := none,
      currency := some (if euro then "EUR" else "USD"), confidence := "0.99" }

def percentFound (occupied : List (ℤ × ℤ)) : List Found :=
  (((percent py).finditer cs).filter fun m =>
    !occupied.any fun span => span.1 ≤ m.start ∧ (m.stop : ℤ) ≤ span.2).map fun m =>
    { start := m.start, stop := m.stop, factType := percentType py cs m.start m.stop,
      raw := m.text, normalized := normalizeNumber py (m.group "number") locale,
      unit := some "percent", currency := none, confidence := "0.97" }

def datesFound : List Found :=
  ((date py).finditer cs).map fun m =>
    let dateContext := py.lower ((cs.take m.start).drop (m.start - 30))
    let evidence := ["bonitätsprüfung", "credit check"].any fun term =>
      contains term.toList dateContext
    { start := m.start, stop := m.stop, factType := if evidence then .evidenceDate else .date,
      raw := m.text, normalized := normalizeDate py (m.group "date"), unit := none,
      currency := none, confidence := "0.96" }

/-- `cs.find(sub, …)` in a text whose first character has the given index -/
def findFrom (sub : List Char) : ℤ → List Char → ℤ
  | i, [] => if sub.isEmpty then i else -1
  | i, c :: cs => if sub.isPrefixOf (c :: cs) then i else findFrom sub (i + 1) cs

def governanceFound : List Found :=
  [(policy py, FactType.policyClaim, "0.88"),
    (approval py, .approvalClaim, "0.82"),
    (selfApproval py, .selfApprovalClaim, "0.9"),
    (roles py, .roleClaim, "0.9"),
    (instruction py, .untrustedInstruction, "0.99")].flatMap fun (pattern, factType, confidence) =>
    (pattern.finditer cs).map fun m =>
      let raw := strip m.text
      let start := findFrom raw m.start ((cs.take (m.stop + 1)).drop m.start)
      { start := start, stop := start + raw.length, factType := factType, raw := raw,
        normalized := raw, unit := none, currency := none, confidence := confidence }

/-- The comparison of `(start, type, raw)` the findings are sorted by. -/
def precedes (a b : Found) : Bool :=
  a.start < b.start ∨ (a.start = b.start ∧
    (a.factType.value.toList < b.factType.value.toList ∨
      (a.factType.value = b.factType.value ∧ ¬b.raw < a.raw)))

def found : List Found :=
  let terms := termsFound py cs
  (terms ++ moneyFound py cs locale ++
    percentFound py cs locale (terms.map fun f => (f.start, f.stop)) ++ datesFound py cs ++
    governanceFound py cs).insertionSort fun a b => precedes a b

end Searches

/-! ## Candidates, conflicts and requirements -/

def method : String := "deterministic-quote"

def version : String := "0.3.0"

def candidate (intakeId sourceHash : String) (f : Found) (index : ℕ) : CandidateFact where
  factId := s!"{intakeId}:fact:{toString index}"
  factType := f.factType
  rawValue := String.ofList f.raw
  normalizedValue := some (String.ofList f.normalized)
  source := ⟨"raw-input", f.start, f.stop, sourceHash⟩
  method := method
  methodVersion := version
  extractionConfidence := f.confidence
  verificationStatus := .unresolved
  unit := f.unit
  currency := f.currency
  conflictRefs := []
  confirmationRequired := true
  confirmedByActorId := none
  confirmedByRole := none

/-- The types of which two candidates with different values are a conflict. -/
def conflictTypes : List FactType := [.amount, .discountPercent, .marginPercent]

def conflicts (intakeId : String) (candidates : List CandidateFact) : List IntakeConflict :=
  conflictTypes.foldl (fun conflicts factType =>
    let group := candidates.filter fun item => item.factType = factType
    if 1 < (group.map CandidateFact.normalizedValue).dedup.length then
      conflicts ++ [{
        conflictId := s!"{intakeId}:conflict:{toString (conflicts.length + 1)}"
        factType := factType
        factRefs := group.map CandidateFact.factId
        reasonCode := "CONFLICTING_CANDIDATES" }]
    else conflicts) []

/-- The conflict of a fact; the last one that names it counts. -/
def withConflict (conflicts : List IntakeConflict) (c : CandidateFact) : CandidateFact :=
  match conflicts.reverse.find? fun conflict => c.factId ∈ conflict.factRefs with
  | some conflict => { c with conflictRefs := [conflict.conflictId] }
  | none => c

def missingPatterns : List (FactType × List String) :=
  [(.marginPercent, ["margenkalkulation fehlt", "margin calculation missing"]),
    (.approvalClaim, ["freigabe liegt nicht vor", "approval missing", "freigabe fehlt"])]

def missingRequirements (intakeId : String) (cs : List Char) : List VerificationRequirement :=
  missingPatterns.foldl (fun requirements (factType, phrases) =>
    if phrases.any fun phrase => contains phrase.toList (py.lower cs) then
      requirements ++ [{
        requirementId :=
          s!"{intakeId}:requirement:{factType.value}:{toString (requirements.length + 1)}"
        factType := factType
        reasonCode := "MANDATORY_INFORMATION_MISSING"
        mandatory := true }]
    else requirements) []

def extract (rawInput locale intakeId : String) : ExtractionReport :=
  let locale := if locale = "de" ∨ locale = "en" then locale else "en"
  let sourceHash := "sha256:" ++ py.sha256 rawInput.toList
  let candidates := (found py rawInput.toList locale).mapIdx fun i f =>
    candidate intakeId sourceHash f (i + 1)
  let conflicts := conflicts intakeId candidates
  { schemaVersion := "0.3.0"
    intakeId := intakeId
    method := method
    methodVersion := version
    locale := locale
    candidates := candidates.map (withConflict conflicts)
    conflicts := conflicts
    requirements := missingRequirements py intakeId rawInput.toList }

end QuoteExtractor

end DecisionAssurance.Intake
