import Mathlib.Data.List.Infix
import Utsuroi.Fetch.Policy
import Utsuroi.Fetch.Http
import Utsuroi.Normalize.Charset

/-!
# Pages for other workers

`fetchPage` tries the fetchers of its caller one after the other and returns the page of the first
that answers.  A caller is confined to its hosts.
-/

namespace Utsuroi.Rpc

/-! ## Fetchers -/

structure FetcherInvocation where
  url : Url
  userAgent : String
  etag : Option String
  lastModified : Option String
  headers : Headers
  urlGuard : Url → SsrfCheckResult

/-- What a fetcher requests from here, and what it resolves to; `error` is the text of what it
throws. -/
structure FetcherRun where
  requests : List Url
  outcome : Except String HttpOutcome

/-- What a fetcher does after so many others of the same page. -/
abbrev FetcherImplementation := Nat → FetcherInvocation → FetcherRun

abbrev FetcherRegistry := List (String × FetcherImplementation)

/-- The fetcher `cf-http`; the servers may tell its headers and its turn. -/
def cfHttp (net : NetTools) (tools : HttpTools) (now : Nat)
    (servers : Nat → FetcherInvocation → Servers) : FetcherImplementation := fun call inv =>
  let req : FetchRequest :=
    { url := inv.url, userAgent := inv.userAgent, headers := inv.headers, etag := inv.etag,
      lastModified := inv.lastModified }
  let run := httpFetch net tools now (servers call inv) (some inv.urlGuard) req DEFAULT_FETCH_LIMITS
  ⟨run.requests, run.outcome.mapError NetworkError.message⟩

def defaultFetcherRegistry (cfHttp gcpHttpFetch homeHttpFetch : FetcherImplementation) :
    FetcherRegistry :=
  [("cf-http", cfHttp), ("gcp-http", gcpHttpFetch), ("home-http", homeHttpFetch)]

example (cfHttp gcpHttpFetch homeHttpFetch : FetcherImplementation) :
    (defaultFetcherRegistry cfHttp gcpHttpFetch homeHttpFetch).lookup "cf-http" = some cfHttp := rfl

/-- An execution of a fetcher. -/
structure FetcherCall where
  fetcherId : String
  requests : List Url
  outcome : HttpOutcome

def runFetcher (registry : FetcherRegistry) (call : Nat) (fetcherId : String)
    (invocation : FetcherInvocation) : FetcherCall :=
  match registry.lookup fetcherId with
  | none => ⟨fetcherId, [], .failure .internalError none ("unknown fetcherId: " ++ fetcherId) none⟩
  | some implementation =>
    let run := implementation call invocation
    match run.outcome with
    | .ok outcome => ⟨fetcherId, run.requests, outcome⟩
    | .error text => ⟨fetcherId, run.requests,
        .failure .internalError none ("fetcher " ++ fetcherId ++ " failed: " ++ text) none⟩

/-! ## Requests -/

structure FetchPageRequest where
  /-- `none` for what is not a string -/
  url : Option Url
  /-- `none` for what is not a finite number -/
  maxBytes : Option Rat
  /-- the entries, their values `none` where these are not strings; `none` for what is not a record -/
  headers : Option (List (String × Option String))

structure CallerConfig where
  allowedHosts : List String
  fetchers : List String

structure FetchPageResult where
  ok : Bool
  status : Nat
  statusText : String
  url : Url
  contentType : Option String
  truncated : Bool
  bytes : Nat
  html : String
  fetcherId : Option String
  failureClass : Option FailureClass
  deriving DecidableEq, Repr

def DEFAULT_MAX_BYTES : Nat := 2 * 1024 * 1024

def HARD_MAX_BYTES : Nat := 5 * 1024 * 1024

def FORWARDABLE_HEADERS : List String := ["user-agent", "accept", "accept-language", "referer"]

def MAX_HEADER_VALUE_LENGTH : Nat := 1024

def STATUS_TEXT : List (Nat × String) :=
  [(200, "OK"), (201, "Created"), (202, "Accepted"), (204, "No Content")]

def blocked (url : Option Url) : FetchPageResult :=
  ⟨false, 0, "", url.getD "", none, false, 0, "", none, some .ssrfBlocked⟩

def hostOf (net : NetTools) (url : Url) : Option String :=
  (net.parse url).bind fun parsed => if parsed.isHttp then some parsed.hostname.toLower else none

def resolveMaxBytes (requested : Option Rat) : Nat :=
  match requested with
  | none => DEFAULT_MAX_BYTES
  | some requested =>
    if requested < 1 then DEFAULT_MAX_BYTES else min requested.floor.toNat HARD_MAX_BYTES

/-- `headers[key] = value` -/
def setHeader (headers : Headers) (key value : String) : Headers :=
  if headers.any fun header => header.1 == key then
    headers.map fun header => if header.1 = key then (key, value) else header
  else headers ++ [(key, value)]

/-- `/[\r\n\0]/.test(value)` -/
def breaksHeader (value : String) : Bool :=
  value.toList.any fun c => c == '\r' || c == '\n' || c.toNat == 0

structure SanitizedHeaders where
  userAgent : Option String
  headers : Headers

def sanitizeHeader (kept : SanitizedHeaders) (entry : String × Option String) : SanitizedHeaders :=
  let key := entry.1.toLower
  match entry.2 with
  | none => kept
  | some value =>
    if !FORWARDABLE_HEADERS.contains key then kept
    else if MAX_HEADER_VALUE_LENGTH < utf16Length value.toList || breaksHeader value then kept
    else if key = "user-agent" then { kept with userAgent := some value }
    else { kept with headers := setHeader kept.headers key value }

def sanitizeHeaders (raw : Option (List (String × Option String))) : SanitizedHeaders :=
  (raw.getD []).foldl sanitizeHeader ⟨none, []⟩

def shouldContinue (cls : FailureClass) (status : Option Nat) : Bool :=
  if NEVER_PROCEEDABLE_FAILURES.contains cls then false
  else if DEFAULT_PROCEEDABLE_FAILURES.contains cls || cls == .http403 then true
  else status.isNone

/-! ## Bodies -/

/-- The decoders of the platform. -/
structure PageTools where
  /-- `new TextDecoder(label).decode(bytes)`, `none` when it throws -/
  decode : String → List UInt8 → Option String
  decodeUtf8 : List UInt8 → String

def decodeBody (tools : PageTools) (bytes : List UInt8) (contentType : Option String) : String :=
  let label := (contentType.bind (charsetIn false)).getD "utf-8"
  (tools.decode label bytes).getD (tools.decodeUtf8 bytes)

/-! ## The loop over the fetchers -/

/-- The fetchers that have run, oldest first, and what is returned. -/
structure FetchPageRun where
  calls : List FetcherCall
  result : FetchPageResult

section Page

variable (net : NetTools) (tools : PageTools) (caller : CallerConfig) (registry : FetcherRegistry)

def urlGuard (candidate : Url) : SsrfCheckResult :=
  match hostOf net candidate with
  | none => deny "host_not_allowed"
  | some candidateHost =>
    if caller.allowedHosts.contains candidateHost then checkUrlForSsrf net candidate
    else deny "host_not_allowed"

/-- What is returned for the answer of a fetcher. -/
def answered (url : Url) (maxBytes : Nat) (fetcherId : String) (status : Nat) (finalUrl : Url)
    (contentType : Option String) (body : List UInt8) : FetchPageResult :=
  if !(urlGuard net caller finalUrl).allowed then blocked (some url)
  else
    let truncated := maxBytes < body.length
    let kept := if truncated then body.take maxBytes else body
    { ok := 200 ≤ status && status < 300
      status
      statusText := (STATUS_TEXT.lookup status).getD ""
      url := finalUrl
      contentType
      truncated
      bytes := kept.length
      html := decodeBody tools kept contentType
      fetcherId := some fetcherId
      failureClass := none }

/-- What is returned where no fetcher has answered. -/
def failed (url : Url) (lastFailure : Option (String × FailureClass)) (lastStatus : Nat) :
    FetchPageResult :=
  let failureClass := lastFailure.elim .internalError Prod.snd
  { ok := false
    status := if failureClass = .ssrfBlocked then 0 else lastStatus
    statusText := ""
    url
    contentType := none
    truncated := false
    bytes := 0
    html := ""
    fetcherId := if failureClass = .ssrfBlocked then none else lastFailure.map Prod.fst
    failureClass := some failureClass }

/-- The fetchers still to be tried after `call` others. -/
def tryFetchers (invocation : FetcherInvocation) (maxBytes : Nat) :
    List String → Nat → Option (String × FailureClass) → Nat → FetchPageRun
  | [], _, lastFailure, lastStatus => ⟨[], failed invocation.url lastFailure lastStatus⟩
  | fetcherId :: fetchers, call, _, lastStatus =>
    let executed := runFetcher registry call fetcherId invocation
    match executed.outcome with
    | .success status _ finalUrl contentType _ _ body =>
      ⟨[executed], answered net tools caller invocation.url maxBytes fetcherId status finalUrl
        contentType (body.getD [])⟩
    | .failure failureClass status _ _ =>
      let lastStatus := status.getD lastStatus
      if shouldContinue failureClass status then
        let rest := tryFetchers invocation maxBytes fetchers (call + 1)
          (some (fetcherId, failureClass)) lastStatus
        ⟨executed :: rest.calls, rest.result⟩
      else ⟨[executed], failed invocation.url (some (fetcherId, failureClass)) lastStatus⟩

/-- `env.USER_AGENT` stands for a request that names no user agent. -/
def invocationOf (USER_AGENT : String) (req : FetchPageRequest) (url : Url) : FetcherInvocation :=
  let sanitized := sanitizeHeaders req.headers
  { url
    userAgent := sanitized.userAgent.getD USER_AGENT
    etag := none
    lastModified := none
    headers := sanitized.headers
    urlGuard := urlGuard net caller }

def fetchPage (USER_AGENT : String) (req : FetchPageRequest) : FetchPageRun :=
  match req.url with
  | none => ⟨[], blocked none⟩
  | some url =>
    if !(urlGuard net caller url).allowed then ⟨[], blocked (some url)⟩
    else
      tryFetchers net tools caller registry (invocationOf net caller USER_AGENT req url)
        (resolveMaxBytes req.maxBytes) caller.fetchers 0 none 0

end Page

end Utsuroi.Rpc
