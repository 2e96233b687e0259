import Mathlib.Data.List.TakeWhile
import DecisionAssurance.Containment
import DecisionAssurance.DomainRules

/-!
# Splitting URLs

`urlsplit` and the fields of its result, as `urllib.parse` computes them. `validate` calls it
outside its `try`, so that a URL with a malformed authority is not rejected but raises.
-/

namespace DecisionAssurance.Research

open Idna (isAscii)

/-- The functions of the Unicode database that URLs are split with. -/
structure UnicodeText where
  lower : List Char → List Char
  nfkc : List Char → List Char
  lower_ascii : ∀ cs, cs.all isAscii = true → lower cs = cs.map Char.toLower

/-- `cs.partition(c)[0]` -/
def beforeFirst (c : Char) (cs : List Char) : List Char := cs.takeWhile (· ≠ c)

/-- `cs.partition(c)[2]` -/
def afterFirst (c : Char) (cs : List Char) : List Char := (cs.dropWhile (· ≠ c)).drop 1

/-- `cs.rpartition(c)[0]` -/
def beforeLast (c : Char) (cs : List Char) : List Char := (afterFirst c cs.reverse).reverse

/-- `cs.rpartition(c)[2]` -/
def afterLast (c : Char) (cs : List Char) : List Char := (beforeFirst c cs.reverse).reverse

section Partition

variable {c d : Char} {xs ys cs : List Char}

theorem beforeFirst_append (h : c ∉ xs) (ys : List Char) : beforeFirst c (xs ++ c :: ys) = xs := by
  rw [beforeFirst, List.takeWhile_append_of_pos]
  · simp
  · exact fun d hd => decide_eq_true fun he => h (he ▸ hd)

theorem afterFirst_append (h : c ∉ xs) (ys : List Char) : afterFirst c (xs ++ c :: ys) = ys := by
  rw [afterFirst, List.dropWhile_append_of_pos]
  · simp
  · exact fun d hd => decide_eq_true fun he => h (he ▸ hd)

theorem beforeFirst_head (c : Char) (cs : List Char) : beforeFirst c (c :: cs) = [] := by
  simp [beforeFirst]

theorem afterFirst_head (c : Char) (cs : List Char) : afterFirst c (c :: cs) = cs := by
  simp [afterFirst]

theorem beforeFirst_of_not_mem (h : c ∉ cs) : beforeFirst c cs = cs :=
  List.takeWhile_eq_self_iff.mpr fun _ hd => decide_eq_true fun he => h (he ▸ hd)

theorem afterFirst_of_not_mem (h : c ∉ cs) : afterFirst c cs = [] := by
  rw [afterFirst, List.dropWhile_eq_nil_iff.mpr]
  · rfl
  · exact fun d hd => decide_eq_true fun he => h (he ▸ hd)

theorem afterLast_of_not_mem (h : c ∉ cs) : afterLast c cs = cs := by
  rw [afterLast, beforeFirst_of_not_mem (by simpa using h), List.reverse_reverse]

/-- A list is split at the first of its elements that separate. -/
theorem exists_partition (h : c ∈ cs) :
    ∃ xs ys, cs = xs ++ c :: ys ∧ c ∉ xs ∧ beforeFirst c cs = xs ∧ afterFirst c cs = ys := by
  obtain ⟨xs, ys, rfl, hxs⟩ := List.eq_append_cons_of_mem h
  exact ⟨xs, ys, rfl, hxs, beforeFirst_append hxs ys, afterFirst_append hxs ys⟩

theorem mem_of_mem_beforeFirst (h : d ∈ beforeFirst c cs) : d ∈ cs :=
  (List.takeWhile_sublist _).subset h

theorem mem_of_mem_afterFirst (h : d ∈ afterFirst c cs) : d ∈ cs :=
  (List.dropWhile_sublist _).subset (List.mem_of_mem_drop h)

end Partition

/-! ## The parts of a URL -/

def isUnsafe (c : Char) : Bool := c = '\t' || c = '\r' || c = '\n'

/-- Without control characters and spaces at the start, and without unsafe characters. -/
def cleaned (url : List Char) : List Char :=
  (url.dropWhile fun c => c.toNat ≤ 32).filter fun c => !isUnsafe c

def isSchemeChar (c : Char) : Bool := c.isAlphanum || c = '+' || c = '-' || c = '.'

/-- The scheme and what follows it. -/
def splitScheme (url : List Char) : List Char × List Char :=
  let name := beforeFirst ':' url
  if ':' ∈ url ∧ name.head?.any Char.isAlpha = true ∧ name.all isSchemeChar = true then
    (name.map Char.toLower, afterFirst ':' url)
  else ([], url)

def endsNetloc (c : Char) : Bool := c = '/' || c = '?' || c = '#'

/-- The authority and what follows it. -/
def splitNetloc : List Char → List Char × List Char
  | '/' :: '/' :: rest =>
    (rest.takeWhile fun c => !endsNetloc c, rest.dropWhile fun c => !endsNetloc c)
  | url => ([], url)

/-- The host and the port of an authority; a host in brackets may hold colons. -/
def hostInfo (netloc : List Char) : List Char × List Char :=
  let info := afterLast '@' netloc
  if '[' ∈ info then
    let bracketed := afterFirst '[' info
    (beforeFirst ']' bracketed, afterFirst ':' (afterFirst ']' bracketed))
  else (beforeFirst ':' info, afterFirst ':' info)

/-- `int(port)`, which takes at most 4300 digits. -/
def readPort (digits : List Char) : Option (Option ℕ) :=
  if digits = [] then some none
  else if digits.all Char.isDigit && digits.length ≤ 4300 then
    let port := digits.foldl (fun n c => 10 * n + (c.toNat - 48)) 0
    if port ≤ 65535 then some (some port) else none
  else none

section Splitting

variable (text : UnicodeText) (ipAddress : String → Option IpAddress)

/-! ## The authorities that are refused -/

def isHexDigit (c : Char) : Bool :=
  c.isDigit || ('a' ≤ c && c ≤ 'f') || ('A' ≤ c && c ≤ 'F')

/-- `\Av[a-fA-F0-9]+\..+\Z`; no line breaks are left. -/
def isFutureAddress (host : List Char) : Bool :=
  let version := host.tail.takeWhile isHexDigit
  let rest := host.tail.dropWhile isHexDigit
  version ≠ [] && rest.head? = some '.' && 1 < rest.length

/-- `_check_bracketed_host` -/
def checkBracketedHost (host : List Char) : Bool :=
  if host.head? = some 'v' then isFutureAddress host
  else (ipAddress (String.ofList host)).any fun a => a.version ≠ 4

/-- `_check_bracketed_netloc` -/
def checkBracketedNetloc (netloc : List Char) : Bool :=
  let info := afterLast '@' netloc
  if '[' ∈ info then
    let bracketed := afterFirst '[' info
    let port := afterFirst ']' bracketed
    beforeFirst '[' info = [] && (port = [] || port.head? = some ':') &&
      checkBracketedHost ipAddress (beforeFirst ']' bracketed)
  else checkBracketedHost ipAddress (beforeFirst ':' info)

/-- `_checknetloc`: no delimiter may come from the normal form of another character. -/
def checkNetloc (netloc : List Char) : Bool :=
  let plain := netloc.filter fun c => !"@:#?".toList.contains c
  netloc.all isAscii || text.nfkc plain = plain ||
    (text.nfkc plain).all fun c => !"/?#@:".toList.contains c

/-- The brackets of an authority match and surround an address, and its normal form holds no other
delimiters. -/
def wellFormed (netloc : List Char) : Bool :=
  netloc.contains '[' == netloc.contains ']' &&
    (!netloc.contains '[' || checkBracketedNetloc ipAddress netloc) && checkNetloc text netloc

def hostname (netloc : List Char) : Option String :=
  let host := (hostInfo netloc).1
  if host = [] then none
  else some (String.ofList (text.lower (beforeFirst '%' host) ++ host.dropWhile (· ≠ '%')))

/-- The authority of a URL, empty if it has none. -/
def netlocOf (url : String) : List Char := (splitNetloc (splitScheme (cleaned url.toList)).2).1

/-- What follows the authority of a URL, without the fragment. -/
def pathOf (url : String) : List Char :=
  beforeFirst '#' (splitNetloc (splitScheme (cleaned url.toList)).2).2

/-- The result of `urlsplit(url)` with the fields that are computed from it. -/
def partsOf (url : String) : UrlParts :=
  let netloc := netlocOf url
  let user := beforeLast '@' netloc
  { scheme := String.ofList (splitScheme (cleaned url.toList)).1
    username := if '@' ∈ netloc then some (String.ofList (beforeFirst ':' user)) else none
    password :=
      if '@' ∈ netloc ∧ ':' ∈ user then some (String.ofList (afterFirst ':' user)) else none
    hostname := hostname text netloc
    port := readPort (hostInfo netloc).2
    path := String.ofList (beforeFirst '?' (pathOf url))
    query := String.ofList (afterFirst '?' (pathOf url)) }

/-- `urlsplit(url)` -/
def urlsplit (url : String) : Option UrlParts :=
  if wellFormed text ipAddress (netlocOf url) then some (partsOf text url) else none

end Splitting

/-- The library with this `urlsplit`. -/
def UrlLibrary.withUrls (lib : UrlLibrary) (text : UnicodeText) : UrlLibrary :=
  { lib with urlsplit := Research.urlsplit text lib.ipAddress }

section Validation

variable {lib : UrlLibrary} {text : UnicodeText} {policy : PublicUrlPolicy}
  {resolve : String → Raises (List String)} {url : String}

theorem urlsplit_eq_none {ipAddress : String → Option IpAddress} :
    urlsplit text ipAddress url = none ↔ wellFormed text ipAddress (netlocOf url) = false := by
  unfold urlsplit
  cases wellFormed text ipAddress (netlocOf url) with
  | true => simp
  | false => simp

/-- A URL is validated or rejected exactly when its authority is well formed and the query of a URL
that no check refuses can be encoded. -/
theorem validated_or_rejected_iff
    (hresolve : ∀ domain e, resolve domain = .error e → ∃ reason, e = .urlRejected reason) :
    ((∃ safe, policy.validate (lib.withUrls text) resolve url = .ok safe) ∨
        ∃ reason, policy.validate (lib.withUrls text) resolve url = .error (.urlRejected reason)) ↔
      wellFormed text lib.ipAddress (netlocOf url) = true ∧
        ∀ domain, Admitted (lib.withUrls text) policy url (partsOf text url) domain →
          Reachable lib resolve domain →
            PublicUrlPolicy.quotable lib (partsOf text url).query = true := by
  have hraises := @validate_escapes_iff (lib.withUrls text) policy resolve url
  have hnone : (lib.withUrls text).urlsplit url = none ↔
      wellFormed text lib.ipAddress (netlocOf url) = false := urlsplit_eq_none
  constructor
  · intro h
    have hreadable : ¬ Unreadable (lib.withUrls text) policy resolve url := by
      intro hunreadable
      obtain ⟨e, he, hne⟩ := hraises.mpr hunreadable
      rcases h with ⟨safe, h⟩ | ⟨reason, h⟩
      · rw [h] at he
        cases he
      · exact hne reason (Except.error.inj (he.symm.trans h))
    constructor
    · by_contra hmalformed
      exact hreadable (Or.inl (hnone.mpr (Bool.not_eq_true _ ▸ hmalformed)))
    · intro domain hadmitted hreachable
      by_contra hquotes
      exact hreadable (Or.inr ⟨_, domain, hadmitted,
        Or.inr ⟨hreachable, Bool.not_eq_true _ ▸ hquotes⟩⟩)
  · intro ⟨hformed, hquotable⟩
    cases hresult : policy.validate (lib.withUrls text) resolve url with
    | ok safe => exact Or.inl ⟨safe, rfl⟩
    | error e =>
      right
      by_contra hother
      rw [not_exists] at hother
      have hne : ∀ reason, e ≠ .urlRejected reason := fun reason he => hother reason (he ▸ rfl)
      rcases hraises.mp ⟨e, hresult, hne⟩ with
        hsplit | ⟨parsed, domain, hadmitted, ⟨-, e', herror, he'⟩ | ⟨hreachable, hquotes⟩⟩
      · rw [hnone.mp hsplit] at hformed
        cases hformed
      · obtain ⟨reason, rfl⟩ := hresolve domain e' herror
        exact he' reason rfl
      · have hparsed : parsed = partsOf text url := by
          have hsplits : urlsplit text lib.ipAddress url = some parsed := hadmitted.splits
          rw [urlsplit, if_pos hformed] at hsplits
          exact (Option.some.inj hsplits).symm
        subst hparsed
        have hquoted := hquotable domain hadmitted hreachable
        exact absurd (hquotes.symm.trans hquoted) Bool.false_ne_true

end Validation

/-! ## An open bracket -/

/-- Texts in ASCII. -/
def plainText : UnicodeText where
  lower cs := cs.map Char.toLower
  nfkc cs := cs
  lower_ascii _ _ := rfl

/-- A library that splits URLs. -/
def splittingLibrary : UrlLibrary := plainLibrary.toUrlLibrary.withUrls plainText

theorem public_resolves (domain : String) (e : ResearchException)
    (h : publicResolver domain = .error e) : ∃ reason, e = .urlRejected reason := by
  cases h

theorem well_formed_validated :
    (∃ safe, noRules.validate splittingLibrary publicResolver "https://example.org/" = .ok safe) ∨
      ∃ reason, noRules.validate splittingLibrary publicResolver "https://example.org/" =
        .error (.urlRejected reason) :=
  (validated_or_rejected_iff public_resolves).mpr ⟨by rfl, fun _ _ _ => by rfl⟩

/-- The host of a URL opens a bracket and does not close it. -/
theorem open_bracket_raises :
    (∀ domain e, publicResolver domain = .error e → ∃ reason, e = .urlRejected reason) ∧
      noRules.validate splittingLibrary publicResolver "https://[example.org/" =
        .error (.valueError "INVALID_URL") ∧
      ¬ ((∃ safe, noRules.validate splittingLibrary publicResolver "https://[example.org/" =
          .ok safe) ∨
        ∃ reason, noRules.validate splittingLibrary publicResolver "https://[example.org/" =
          .error (.urlRejected reason)) := by
  have hraises : noRules.validate splittingLibrary publicResolver "https://[example.org/" =
      .error (.valueError "INVALID_URL") := by rfl
  refine ⟨public_resolves, hraises, ?_⟩
  rw [hraises]
  rintro (⟨safe, h⟩ | ⟨reason, h⟩)
  · cases h
  · cases h

end DecisionAssurance.Research
