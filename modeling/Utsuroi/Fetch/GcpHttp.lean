import Utsuroi.Api.Runner
import Utsuroi.Db.FetcherPolicies
import Utsuroi.Executors.Fetcher
import Utsuroi.Rpc.FetchPage

/-!
# The fetcher of the GCP executor

`gcpHttpFetch` posts a signed request to the executor.  What an executor answers is turned back
into a response and classified by the classifier of the direct fetcher.
-/

namespace Utsuroi

/-! ## The answer of an executor -/

/-- The headers whose values are strings; what `Headers` does not take is ignored. -/
def syntheticHeaders (tools : HttpTools) (upstreamHeaders : List (String × Json)) : Headers :=
  ((Json.objectEntries upstreamHeaders).filterMap fun entry =>
    entry.2.string?.bind (keptHeader? tools.latin1Headers entry.1)).foldl Headers.set []

/-- How messages name the executor. -/
structure ExecutorNames where
  label : String
  start : String

def EXECUTOR_FAILURE_CLASSES : List FailureClass := [.ssrfBlocked, .timeout, .networkError, .tooLarge]

/-- A payload of kind `response`. -/
structure ResponsePayload where
  status : Nat
  finalUrl : Url
  headers : List (String × Json)
  body : String
  truncated : Bool

/-- An integer from 200 to 599. -/
def payloadStatus? (value : Rat) : Option Nat :=
  if value.den = 1 ∧ 200 ≤ value ∧ value ≤ 599 then some value.num.toNat else none

def responsePayload? (payload : List (String × Json)) : Option ResponsePayload := do
  let status ← (← (← Json.member? payload "status").number?) |> payloadStatus?
  let finalUrl ← (← Json.member? payload "url").string?
  let headers ← (← Json.member? payload "headers").object?
  let body ← (← Json.member? payload "body").string?
  let truncated ← (← Json.member? payload "truncated").bool?
  return ⟨status, finalUrl, headers, body, truncated⟩

def internalError (message : String) : HttpOutcome := .failure .internalError none message none

section Outcome

variable (tools : HttpTools) (now : Nat) (req : FetchRequest) (limits : FetchLimits)
  (names : ExecutorNames) (finalUrlGuard : Option (Url → SsrfCheckResult))

/-- The bodies that are read, so that too long a one is an error. -/
def readsBody (status : Nat) : Bool := (200 ≤ status && status < 300) || status == 403

def isNullBodyStatus (status : Nat) : Bool := status == 204 || status == 205 || status == 304

def syntheticResponse (payload : ResponsePayload) (upstreamBody : List UInt8) : HttpResponse where
  status := payload.status
  headers := syntheticHeaders tools payload.headers
  body := if isNullBodyStatus payload.status || upstreamBody.isEmpty then none
    else some ⟨[upstreamBody], none⟩

def outcomeFromResponse (payload : ResponsePayload) : Except NetworkError HttpOutcome :=
  match finalUrlGuard.bind fun guard =>
      if (guard payload.finalUrl).allowed then none else some (guard payload.finalUrl) with
  | some refused =>
    .ok (.failure .ssrfBlocked none
      ("final url blocked by ssrf policy: " ++ refused.reason.getD "unknown") none)
  | none =>
    if payload.truncated && readsBody payload.status then .ok (tooLarge payload.status limits)
    else
      match Base64.decode? payload.body.toList with
      | none => .ok (internalError (names.label ++ " returned an invalid body encoding"))
      | some upstreamBody =>
        handleTerminalResponse tools now (syntheticResponse tools payload upstreamBody)
          payload.finalUrl req limits

def outcomeFromExecutorPayload (payload : List (String × Json)) : Except NetworkError HttpOutcome :=
  let kind := (Json.member? payload "kind").bind Json.string?
  if kind = some "error" then
    let failureClass := ((Json.member? payload "failureClass").bind Json.string?).getD ""
    let message := ((Json.member? payload "message").bind Json.string?).getD
      (names.label ++ " reported a failure")
    match (FailureClass.ofText? failureClass).filter EXECUTOR_FAILURE_CLASSES.contains with
    | none => .ok (internalError (names.label ++ " returned unknown failure class: " ++ failureClass))
    | some failureClass => .ok (.failure failureClass none (names.start ++ ": " ++ message) none)
  else if kind ≠ some "response" then
    .ok (internalError (names.label ++ " returned an unexpected payload"))
  else
    match responsePayload? payload with
    | none => .ok (internalError (names.label ++ " returned a malformed response"))
    | some response => outcomeFromResponse tools now req limits names finalUrlGuard response

end Outcome

/-! ## The exchange with the executor -/

def GCP_HTTP_AUDIENCE : String := "gcp-http"

/-- `none` for what is not set. -/
structure GcpExecutorEnv where
  GCP_EXECUTOR_URL : Option String
  GCP_EXECUTOR_SIGNING_KEY : Option String

/-- A POST to the executor. -/
structure ExecutorRequest where
  endpoint : Url
  authorization : String
  body : List UInt8
  deriving DecidableEq, Repr

/-- `Math.ceil((maxBytes * 4) / 3)`, and room for the rest of the payload. -/
def responseLimit (maxBytes : Nat) : Nat := (maxBytes * 4 + 2) / 3 + 16 * 1024

/-- Validators that are empty are not sent. -/
def gcpRequestHeaders (inv : Rpc.FetcherInvocation) : List (String × String) :=
  [("user-agent", inv.userAgent), ("accept-language", "ja-JP,ja;q=0.9,en-US;q=0.8,en;q=0.7"),
    ("referer", inv.url)] ++
    (inv.etag.filter (· ≠ "")).toList.map (fun etag => ("if-none-match", etag)) ++
    (inv.lastModified.filter (· ≠ "")).toList.map fun lastModified => ("if-modified-since", lastModified)

def gcpRequest (inv : Rpc.FetcherInvocation) (limits : FetchLimits) : Json :=
  .object [("url", .string inv.url), ("maxBytes", .int limits.maxBytes),
    ("headers", .object ((gcpRequestHeaders inv).map fun header => (header.1, .string header.2)))]

section Exchange

variable (newUrl : String → Option ParsedUrl)
  -- the token for a body, or the text of what is thrown
  (signExecutorToken : String → List UInt8 → Except String String)
  (env : GcpExecutorEnv) (inv : Rpc.FetcherInvocation)

/-- What is posted, or why nothing is. -/
def executorRequest : Except HttpOutcome ExecutorRequest := do
  let endpointRaw := (env.GCP_EXECUTOR_URL.map trim).getD ""
  if endpointRaw = "" then
    throw (internalError "gcp-http is not configured: GCP_EXECUTOR_URL is empty")
  let signingKey := (env.GCP_EXECUTOR_SIGNING_KEY.map trim).getD ""
  if signingKey = "" then
    throw (internalError "gcp-http is not configured: GCP_EXECUTOR_SIGNING_KEY is not set")
  match newUrl endpointRaw with
  | none => throw (internalError "gcp-http is misconfigured: GCP_EXECUTOR_URL is not a valid URL")
  | some endpoint =>
    if endpoint.protocol ≠ "https:" then
      throw (internalError "gcp-http is misconfigured: GCP_EXECUTOR_URL must be https")
    match guardRefusal (some inv.urlGuard) inv.url with
    | some refusal => throw refusal
    | none =>
      let body := Utf8.encode (gcpRequest inv DEFAULT_FETCH_LIMITS).text
      match signExecutorToken signingKey body with
      | .error text => throw (internalError ("gcp-http failed to sign request: " ++ text))
      | .ok token => return ⟨endpoint.href, "Bearer " ++ token, body⟩

variable (tools : HttpTools) (now : Nat)

def gcpNames : ExecutorNames := ⟨"gcp executor", "gcp-http"⟩

/-- What the response of the executor means. -/
def readExecutorResponse (response : HttpResponse) : Except NetworkError HttpOutcome :=
  let limits := DEFAULT_FETCH_LIMITS
  if response.status ≠ 200 then
    if response.status = 502 ∨ response.status = 503 ∨ response.status = 504 then
      .ok (.failure .networkError none
        ("gcp executor unavailable (status " ++ toString response.status ++ ")") none)
    else
      .ok (internalError
        ("gcp executor rejected the request (status " ++ toString response.status ++ ")"))
  else
    match readBodyWithLimit tools response (responseLimit limits.maxBytes) with
    | .error err => .ok (classifyNetworkError err)
    | .ok read =>
      match if read.tooLarge then none else read.body with
      | none => .ok (internalError "gcp executor response exceeded the expected size")
      | some bytes =>
        match Json.parse (RunnerApi.decodeText bytes) with
        | none => .ok (internalError "gcp executor returned invalid JSON")
        | some payload =>
          match payload.object? with
          | none => .ok (internalError "gcp executor returned an unexpected payload")
          | some members =>
            outcomeFromExecutorPayload tools now { url := inv.url, userAgent := inv.userAgent } limits
              gcpNames none members

/-- What has been posted, and what the fetch resolves to or rejects with. -/
structure ExecutorRun where
  posted : Option ExecutorRequest
  outcome : Except NetworkError HttpOutcome

def gcpHttpFetch (post : ExecutorRequest → Except NetworkError HttpResponse) : ExecutorRun :=
  match executorRequest newUrl signExecutorToken env inv with
  | .error outcome => ⟨none, .ok outcome⟩
  | .ok request =>
    match post request with
    | .error err => ⟨some request, .ok (classifyNetworkError err)⟩
    | .ok response => ⟨some request, readExecutorResponse inv tools now response⟩

end Exchange

end Utsuroi
