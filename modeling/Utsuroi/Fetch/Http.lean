import Mathlib.Data.List.Infix
import Utsuroi.Net.Ssrf
import Utsuroi.Shared.Utf16

/-!
# The HTTP fetcher

`httpFetch` follows redirects by itself, checking each URL before it is requested, and classifies
the response at which they end.
-/

namespace Utsuroi

/-! ## Headers -/

/-- Names in lower case with their values. -/
abbrev Headers := List (String × String)

/-- `headers.get(name)`; the values of one name are joined. -/
def Headers.get (headers : Headers) (name : String) : Option String :=
  match headers.filter fun header => header.1 = name with
  | [] => none
  | values => some (", ".intercalate (values.map Prod.snd))

/-- A character of a header's name. -/
def isTokenChar (c : Char) : Bool :=
  c.isAlphanum || [0x21, 0x23, 0x24, 0x25, 0x26, 0x27, 0x2a, 0x2b, 0x2d, 0x2e, 0x5e, 0x5f, 0x60,
    0x7c, 0x7e].contains c.toNat

def isHeaderSpace (c : Char) : Bool := [0x09, 0x0a, 0x0d, 0x20].contains c.toNat

def normalizeHeaderValue (value : String) : String :=
  String.ofList ((value.toList.dropWhile isHeaderSpace).reverse.dropWhile isHeaderSpace).reverse

/-- The header as `Headers` keeps it, `none` where it throws; with `latin1` it does so at each
character beyond U+00FF. -/
def keptHeader? (latin1 : Bool) (name value : String) : Option (String × String) :=
  let value := normalizeHeaderValue value
  if name ≠ "" ∧ name.toList.all isTokenChar ∧ value.toList.all (fun c =>
      (!latin1 || c.toNat ≤ 0xff) && !([0x00, 0x0a, 0x0d].contains c.toNat)) then
    some (name.toLower, value)
  else none

/-- `headers.set(name, value)` -/
def Headers.set (headers : Headers) (header : String × String) : Headers :=
  if headers.any fun kept => kept.1 = header.1 then
    headers.map fun kept => if kept.1 = header.1 then header else kept
  else headers ++ [header]

/-! ## Requests and responses -/

/-- What is thrown, or what `fetch` or reading a body rejects with. -/
structure NetworkError where
  name : String
  message : String
  deriving DecidableEq, Repr

structure BodyStream where
  chunks : List (List UInt8)
  /-- how reading on fails after the chunks; `none` where the stream ends -/
  failure : Option NetworkError
  deriving DecidableEq, Repr

structure HttpResponse where
  status : Nat
  headers : Headers
  body : Option BodyStream
  deriving DecidableEq, Repr

/-- `FetchOutcome` with all it says of the response, but for the duration. -/
inductive HttpOutcome
  | success (status : Nat) (notModified : Bool) (finalUrl : Url)
    (contentType etag lastModified : Option String) (body : Option (List UInt8))
  | failure (failureClass : FailureClass) (status : Option Nat) (message : String)
    (retryAfterSeconds : Option Nat)
  deriving DecidableEq, Repr

def HttpOutcome.toFetchOutcome : HttpOutcome → FetchOutcome
  | .success _ notModified _ contentType etag lastModified body =>
    .success ⟨contentType, etag, lastModified⟩ notModified body
  | .failure failureClass _ _ retryAfterSeconds => .failure failureClass retryAfterSeconds

structure FetchLimits where
  maxBytes : Nat
  maxRedirects : Nat
  deriving DecidableEq, Repr

def DEFAULT_FETCH_LIMITS : FetchLimits := ⟨5 * 1024 * 1024, 5⟩

structure FetchRequest where
  url : Url
  userAgent : String
  /-- more headers, in their order -/
  headers : List (String × String) := []
  etag : Option String := none
  lastModified : Option String := none
  /-- empty where nothing is checked -/
  allowedContentTypes : List String := []
  deriving DecidableEq, Repr

/-- Decoding, number and date parsing of the platform. -/
structure HttpTools where
  /-- `new TextDecoder('utf-8').decode(bytes)` -/
  decodeText : List UInt8 → String
  /-- `Number(text)` rounded up, where it is a finite number and not negative -/
  number : String → Option Nat
  /-- `Date.parse(text)`, `none` for `NaN` -/
  dateParse : String → Option Int
  /-- whether `Headers` takes the characters up to U+00FF only, as the standard has it; Workers take
  all of them -/
  latin1Headers : Bool

def REDIRECT_STATUSES : List Nat := [301, 302, 303, 307, 308]

def isRedirectStatus (status : Nat) : Bool := REDIRECT_STATUSES.contains status

def classifyNetworkError (err : NetworkError) : HttpOutcome :=
  if err.name = "AbortError" ∨ err.name = "TimeoutError" then
    .failure .timeout none
      ("request timed out: " ++ if err.message != "" then err.message else err.name) none
  else .failure .networkError none err.message none

/-! ## Bodies -/

structure BoundedBodyResult where
  body : Option (List UInt8)
  tooLarge : Bool
  deriving DecidableEq, Repr

/-- The loop over the chunks. -/
def readChunks (maxBytes : Nat) (failure : Option NetworkError) :
    List (List UInt8) → List UInt8 → Except NetworkError BoundedBodyResult
  | [], combined => failure.elim (.ok ⟨some combined, false⟩) .error
  | chunk :: chunks, combined =>
    if maxBytes < combined.length + chunk.length then .ok ⟨none, true⟩
    else readChunks maxBytes failure chunks (combined ++ chunk)

section Terminal

variable (tools : HttpTools)

def readBodyWithLimit (response : HttpResponse) (maxBytes : Nat) :
    Except NetworkError BoundedBodyResult :=
  if ((response.headers.get "content-length").bind tools.number).any fun declared =>
      decide (maxBytes < declared) then
    .ok ⟨none, true⟩
  else
    match response.body with
    | none => .ok ⟨some [], false⟩
    | some stream => readChunks maxBytes stream.failure stream.chunks []

/-! ## Classification -/

def startsWith (text start : String) : Bool := start.toList.isPrefixOf text.toList

/-- `text.includes(word)` -/
def includesText (text word : String) : Bool :=
  text.toList.tails.any fun rest => word.toList.isPrefixOf rest

def matchesAllowedContentType (contentType : String) (allowed : List String) : Bool :=
  allowed.any fun start => startsWith contentType.toLower start.toLower

def detectCaptchaSignal (headers : Headers) (bodyText : String) : Bool :=
  (headers.any fun header =>
    startsWith header.1.toLower "cf-chl-" || header.1.toLower == "cf-mitigated") ||
    includesText bodyText.toLower "captcha" || includesText bodyText.toLower "challenge"

/-- `Math.round(ms / 1000)`, and 0 where this is negative. -/
def roundSeconds (ms : Int) : Nat := ((ms + 500) / 1000).toNat

def parseRetryAfterHeader (now : Nat) (value : Option String) : Option Nat :=
  match value with
  | none => none
  | some value =>
    if value = "" then none
    else
      let digits := (trim value).toList
      if digits ≠ [] ∧ digits.all Char.isDigit then (trim value).toNat?
      else (tools.dateParse (trim value)).map fun dateMs => roundSeconds (dateMs - now)

def tooLarge (status : Nat) (limits : FetchLimits) : HttpOutcome :=
  .failure .tooLarge (some status)
    ("response body exceeded maxBytes (" ++ toString limits.maxBytes ++ ")") none

/-- The branch of status 403. -/
def handleForbidden (response : HttpResponse) (limits : FetchLimits) :
    Except NetworkError HttpOutcome := do
  let read ← readBodyWithLimit tools response limits.maxBytes
  if read.tooLarge then return tooLarge response.status limits
  let bodyText := read.body.elim "" tools.decodeText
  if detectCaptchaSignal response.headers bodyText then
    return .failure .captchaChallenge (some response.status)
      "captcha/bot challenge detected on 403 response" none
  return .failure .http403 (some response.status) "forbidden (403)" none

/-- The branch of the statuses 2xx. -/
def handleSuccess (response : HttpResponse) (finalUrl : Url) (req : FetchRequest)
    (limits : FetchLimits) : Except NetworkError HttpOutcome := do
  let contentType := response.headers.get "content-type"
  if !req.allowedContentTypes.isEmpty && !(contentType.any fun value =>
      value != "" && matchesAllowedContentType value req.allowedContentTypes) then
    return .failure .invalidContentType (some response.status)
      ("content-type '" ++ contentType.getD "(none)" ++ "' not in allowed list") none
  let read ← readBodyWithLimit tools response limits.maxBytes
  if read.tooLarge then return tooLarge response.status limits
  return .success response.status false finalUrl contentType (response.headers.get "etag")
    (response.headers.get "last-modified") read.body

def handleTerminalResponse (now : Nat) (response : HttpResponse) (finalUrl : Url)
    (req : FetchRequest) (limits : FetchLimits) : Except NetworkError HttpOutcome :=
  let status := response.status
  if status = 304 then
    .ok (.success status true finalUrl (response.headers.get "content-type")
      (response.headers.get "etag") (response.headers.get "last-modified") none)
  else if status = 401 ∨ status = 407 then
    .ok (.failure .authRequired (some status)
      ("authentication required (status " ++ toString status ++ ")") none)
  else if status = 403 then handleForbidden tools response limits
  else if status = 404 ∨ status = 410 then
    .ok (.failure .notFound (some status)
      ("resource not found (status " ++ toString status ++ ")") none)
  else if status = 429 then
    .ok (.failure .http429 (some status) "rate limited (429)"
      (parseRetryAfterHeader tools now (response.headers.get "retry-after")))
  else if 500 ≤ status ∧ status < 600 then
    .ok (.failure .http5xx (some status) ("server error (status " ++ toString status ++ ")") none)
  else if 200 ≤ status ∧ status < 300 then handleSuccess tools response finalUrl req limits
  else
    .ok (.failure .networkError (some status) ("unexpected status " ++ toString status) none)

end Terminal

/-! ## Requests -/

def DEFAULT_ACCEPT_LANGUAGE : String := "ja-JP,ja;q=0.9,en-US;q=0.8,en;q=0.7"

/-- Validators that are empty are not sent. -/
def validatorHeader (name : String) (validator : Option String) : List (String × String) :=
  (validator.filter (· ≠ "")).toList.map fun value => (name, value)

/-- What is set of the headers, in this order. -/
def FetchRequest.headerEntries (req : FetchRequest) : List (String × String) :=
  [("user-agent", req.userAgent), ("accept-language", DEFAULT_ACCEPT_LANGUAGE),
    ("referer", req.url)] ++ req.headers ++ validatorHeader "if-none-match" req.etag ++
    validatorHeader "if-modified-since" req.lastModified

def Headers.setEntry (latin1 : Bool) (headers : Headers) (entry : String × String) :
    Option Headers :=
  (keptHeader? latin1 entry.1 entry.2).map headers.set

/-- `none` where setting a header throws. -/
def buildRequestHeaders (tools : HttpTools) (req : FetchRequest) : Option Headers :=
  req.headerEntries.foldlM (Headers.setEntry tools.latin1Headers) []

/-- Of a name or a value that `Headers` does not take. -/
def headersError : NetworkError := ⟨"TypeError", "Invalid header value."⟩

/-! ## Redirects -/

/-- The remote servers: what the request for a URL after so many others of the same fetch meets.  The
headers are the same in each of them. -/
abbrev Servers := Nat → Url → Except NetworkError HttpResponse

/-- What a fetch requested, oldest first, and what it resolves to or rejects with. -/
structure HttpRun where
  requests : List Url
  outcome : Except NetworkError HttpOutcome
  deriving DecidableEq, Repr

section Fetch

variable (net : NetTools) (tools : HttpTools) (now : Nat) (servers : Servers)
  (urlGuard : Option (Url → SsrfCheckResult)) (req : FetchRequest) (limits : FetchLimits)

def guardRefusal (url : Url) : Option HttpOutcome :=
  urlGuard.bind fun guard =>
    if (guard url).allowed then none
    else
      some (.failure .ssrfBlocked none
        ("url blocked by ssrf policy: " ++ (guard url).reason.getD "unknown") none)

/-- The URL a redirect leads to, or why it is not followed; `left` redirects may be followed. -/
def redirectTarget (left : Nat) (currentUrl : Url) (response : HttpResponse) :
    Except HttpOutcome Url :=
  match response.headers.get "location" with
  | none => missing
  | some location =>
    if location = "" then missing
    else if left = 0 then
      .error (.failure .networkError (some response.status)
        ("too_many_redirects: exceeded " ++ toString limits.maxRedirects ++ " redirects") none)
    else
      match net.join location currentUrl with
      | none => .error (.failure .networkError (some response.status)
          "invalid redirect Location header" none)
      | some url => .ok url
where
  missing : Except HttpOutcome Url :=
    .error (.failure .networkError (some response.status)
      ("redirect status " ++ toString response.status ++ " missing Location header") none)

/-- The loop of `httpFetch` with `left` redirects to go. -/
def followRedirects : Nat → Url → HttpRun
  | left, currentUrl =>
    match guardRefusal urlGuard currentUrl with
    | some refusal => ⟨[], .ok refusal⟩
    | none =>
      match servers (limits.maxRedirects - left) currentUrl with
      | .error err => ⟨[currentUrl], .ok (classifyNetworkError err)⟩
      | .ok response =>
        if isRedirectStatus response.status then
          match redirectTarget net limits left currentUrl response with
          | .error outcome => ⟨[currentUrl], .ok outcome⟩
          | .ok url =>
            match left with
            -- not reached: no redirect is followed any more
            | 0 => ⟨[currentUrl], .ok (.failure .networkError (some response.status) "" none)⟩
            | left + 1 =>
              let run := followRedirects left url
              ⟨currentUrl :: run.requests, run.outcome⟩
        else
          ⟨[currentUrl], handleTerminalResponse tools now response currentUrl req limits⟩

/-- The headers are built outside of any `try`. -/
def httpFetch : HttpRun :=
  match buildRequestHeaders tools req with
  | none => ⟨[], .error headersError⟩
  | some _ => followRedirects net tools now servers urlGuard req limits limits.maxRedirects req.url

variable {net tools now servers urlGuard req limits}

private theorem allowed_of_guardRefusal {guard : Url → SsrfCheckResult} {url : Url}
    (h : guardRefusal (some guard) url = none) : (guard url).allowed = true := by
  by_contra hnot
  simp [guardRefusal, hnot] at h

/-- Every URL that is requested has passed the guard. -/
theorem followRedirects_guarded {guard : Url → SsrfCheckResult} (left : Nat) (currentUrl : Url) :
    ∀ url ∈ (followRedirects net tools now servers (some guard) req limits left
      currentUrl).requests, (guard url).allowed = true := by
  fun_induction followRedirects net tools now servers (some guard) req limits left currentUrl with
  | case1 => simp
  | case2 left currentUrl hguard => simpa using allowed_of_guardRefusal hguard
  | case3 left currentUrl hguard => simpa using allowed_of_guardRefusal hguard
  | case4 currentUrl hguard => simpa using allowed_of_guardRefusal hguard
  | case5 currentUrl hguard response _ url left _ _ run ih =>
    rw [List.forall_mem_cons]
    exact ⟨allowed_of_guardRefusal hguard, ih⟩
  | case6 left currentUrl hguard => simpa using allowed_of_guardRefusal hguard

theorem httpFetch_guarded {guard : Url → SsrfCheckResult} :
    ∀ url ∈ (httpFetch net tools now servers (some guard) req limits).requests,
      (guard url).allowed = true := by
  unfold httpFetch
  cases buildRequestHeaders tools req with
  | none => simp
  | some headers => exact followRedirects_guarded _ _

end Fetch

end Utsuroi
