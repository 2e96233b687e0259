import Mathlib.Data.List.Sort
import DecisionAssurance.Exceptions
import DecisionAssurance.ResearchExchange

/-!
# The public URL policy

`PublicUrlPolicy.validate` with the functions it takes from the standard library: the splitting
and quoting of URLs, IDNA, case folding and the classification of IP addresses.
-/

namespace DecisionAssurance.Research

/-- `urlsplit(value)`; `port` is absent where reading it raises. -/
structure UrlParts where
  scheme : String
  username : Option String
  password : Option String
  hostname : Option String
  port : Option (Option ℕ)
  path : String
  query : String
  deriving DecidableEq

structure IpAddress where
  text : String
  version : ℕ
  isGlobal : Bool
  isPrivate : Bool
  isLoopback : Bool
  isLinkLocal : Bool
  isReserved : Bool
  isMulticast : Bool
  isUnspecified : Bool
  deriving DecidableEq

/-- The partial functions raise `ValueError` where they have no value. A surrogate that stands alone
is written as a character that a string has no other use for; strings with one do not encode. -/
structure UrlLibrary where
  encodes : String → Bool
  urlsplit : String → Option UrlParts
  idna : String → Option String
  casefold : String → String
  ipAddress : String → Option IpAddress
  parseQsl : String → List (String × String)
  urlencode : List (String × String) → String

structure SafeUrl where
  originalUrl : String
  canonicalUrl : String
  domain : String
  deriving DecidableEq

structure PublicUrlPolicy where
  allowed : List String
  blocked : List String
  deriving DecidableEq

def endsWith (suffix value : String) : Bool := suffix.toList.isSuffixOf value.toList

/-- `value.rstrip(".")` -/
def rstripDots (cs : List Char) : List Char := (cs.reverse.dropWhile (· = '.')).reverse

/-- `posixpath.normpath` of a path that is not empty. -/
def normpath (path : List Char) : List Char :=
  let slashes :=
    if ['/', '/', '/'].isPrefixOf path then 1
    else if ['/', '/'].isPrefixOf path then 2
    else if ['/'].isPrefixOf path then 1
    else 0
  let parts := (path.splitOn '/').foldl (fun kept part =>
    if part = [] ∨ part = ['.'] then kept
    else if part ≠ ['.', '.'] ∨ (slashes = 0 ∧ kept = []) ∨ kept.getLast? = some ['.', '.'] then
      kept ++ [part]
    else kept.dropLast) []
  let result := List.replicate slashes '/' ++ ['/'].intercalate parts
  if result.isEmpty then ['.'] else result

/-- The order of Python's pairs of strings. -/
def pairLe (a b : String × String) : Prop := a.1 < b.1 ∨ a.1 = b.1 ∧ a.2 ≤ b.2

instance : DecidableRel pairLe := fun a b =>
  inferInstanceAs (Decidable (a.1 < b.1 ∨ a.1 = b.1 ∧ a.2 ≤ b.2))

/-- `UnicodeEncodeError` -/
def encodeError : ResearchException := .valueError "surrogates not allowed"

section Policy

variable (lib : UrlLibrary)

/-- `value.encode("utf-8")` -/
def encode (value : String) : Raises Unit :=
  if lib.encodes value then .ok () else .error encodeError

def normalizeDomain (value : String) : Raises String :=
  let candidate := lib.casefold (String.ofList (rstripDots (strip value.toList)))
  if candidate.isEmpty || candidate.toList.contains '/' || candidate.toList.contains '@' then
    .error (.valueError "INVALID_DOMAIN")
  else orRaise (.valueError "INVALID_DOMAIN") (lib.idna candidate)

def matchesRule (domain rule : String) : Bool := domain = rule || endsWith ("." ++ rule) domain

/-- `_is_public` -/
def isPublic (value : String) : Bool :=
  match lib.ipAddress value with
  | none => false
  | some a => a.isGlobal && !(a.isPrivate || a.isLoopback || a.isLinkLocal || a.isReserved ||
      a.isMulticast || a.isUnspecified)

/-- `for_domains` -/
def forDomains (allowed blocked : List String) : Raises PublicUrlPolicy := do
  let allowed ← allowed.mapM (normalizeDomain lib)
  let blocked ← blocked.mapM (normalizeDomain lib)
  return ⟨allowed, blocked⟩

namespace PublicUrlPolicy

variable (policy : PublicUrlPolicy)

/-- The checks of the scheme and the authority; returns the host. -/
def authority (parsed : UrlParts) : Raises String :=
  if lib.casefold parsed.scheme ≠ "https" then .error (.urlRejected "URL_SCHEME_NOT_ALLOWED")
  else if parsed.username.isSome || parsed.password.isSome then
    .error (.urlRejected "URL_CREDENTIALS_NOT_ALLOWED")
  else
    match parsed.hostname with
    | none => .error (.urlRejected "URL_NOT_PUBLIC")
    | some host => if host.isEmpty then .error (.urlRejected "URL_NOT_PUBLIC") else .ok host

/-- The domain of a host, with the check of the port. -/
def domainOf (parsed : UrlParts) (host : String) : Raises String :=
  match normalizeDomain lib host, parsed.port with
  | .ok domain, some port =>
    if port = none ∨ port = some 443 then .ok domain
    else .error (.urlRejected "URL_PORT_NOT_ALLOWED")
  | _, _ => .error (.urlRejected "URL_NOT_PUBLIC")

def checkDomain (domain : String) : Raises Unit :=
  if domain = "localhost" || domain = "localhost.localdomain" || endsWith ".localhost" domain then
    .error (.urlRejected "URL_NOT_PUBLIC")
  else if policy.blocked.any (matchesRule domain) then .error (.urlRejected "SOURCE_BLOCKED")
  else if !policy.allowed.isEmpty && !policy.allowed.any (matchesRule domain) then
    .error (.urlRejected "SOURCE_NOT_ALLOWED")
  else .ok ()

/-- The addresses of a domain, which the resolver is asked for unless it is one itself. -/
def addresses (resolve : String → Raises (List String)) (domain : String) :
    Raises (List String) :=
  match lib.ipAddress domain with
  | some address => .ok [address.text]
  | none => resolve domain

def canonicalPath (path : String) : List Char :=
  let normal := normpath (if path.isEmpty then ['/'] else path.toList)
  let closed :=
    if endsWith "/" path && normal.getLast? ≠ some '/' then normal ++ ['/'] else normal
  if closed.head? = some '/' then closed else '/' :: closed

/-- The query without the parameters of advertisements. -/
def keptItems (query : String) : List (String × String) :=
  (lib.parseQsl query).filter fun item =>
    let key := lib.casefold item.1
    !"utm_".toList.isPrefixOf key.toList && key ≠ "gclid" && key ≠ "fbclid"

/-- Whether `urlencode` can quote what is kept of a query. -/
def quotable (query : String) : Bool :=
  (keptItems lib query).all fun item => lib.encodes item.1 && lib.encodes item.2

def canonicalQuery (query : String) : String :=
  lib.urlencode ((keptItems lib query).insertionSort pairLe)

def canonicalUrl (parsed : UrlParts) (domain : String) : String :=
  let netloc := if (lib.ipAddress domain).any fun a => a.version = 6 then s!"[{domain}]" else domain
  let query := canonicalQuery lib parsed.query
  "https://" ++ netloc ++ String.ofList (canonicalPath parsed.path) ++
    if query.isEmpty then "" else "?" ++ query

/-- `validate`, with the answers of the resolver. -/
def validate (resolve : String → Raises (List String)) (value : String) : Raises SafeUrl := do
  let parsed ← orRaise (.valueError "INVALID_URL") (lib.urlsplit value)
  let host ← authority lib parsed
  let domain ← domainOf lib parsed host
  policy.checkDomain domain
  let found ← addresses lib resolve domain
  if found.isEmpty || !found.all (isPublic lib) then .error (.urlRejected "URL_NOT_PUBLIC")
  else if !quotable lib parsed.query then .error encodeError
  else return ⟨value, canonicalUrl lib parsed domain, domain⟩

end PublicUrlPolicy

end Policy

end DecisionAssurance.Research
