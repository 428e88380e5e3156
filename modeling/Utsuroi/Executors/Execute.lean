import Utsuroi.Executors.Fetcher
import Utsuroi.Executors.Runner
import Utsuroi.Framework.Base64
import Utsuroi.Framework.Json

/-!
# What the home runner makes of a job

`execute` fetches a leased job and sends the result, cut down to the limits of the Worker.
-/

namespace Utsuroi.HomeRunner

/-- A leased job with what `execute` reads of it. -/
structure PulledJob extends LeasedJob where
  leaseToken : String
  request : FetchInput

inductive JobResult
  | response (status : Nat) (url : String) (contentType : Option String)
      (headers : StringRecord String) (body : String) (truncated : Bool) (durationMs : Int)
  | error (failureClass : ExecutorFailureClass) (message : String)

structure ResultRequest where
  leaseToken : String
  result : JobResult

/-- `text.slice(0, n)` -/
def slice (n : Nat) (text : String) : String := String.ofList (utf16Take n text.toList)

/-- No name comes twice, so that as many headers are kept as there are keys. -/
def fitHeaders (headers : StringRecord String) : StringRecord String :=
  (headers.filterMap fun name value =>
    if utf16Length name.toList ≤ 256 ∧ utf16Length value.toList ≤ 8192 then some value
    else none).take 200

/-- `bytes.toString('base64')` -/
def base64Text (bytes : List UInt8) : String :=
  String.ofList (Base64.unpadded '+' '/' bytes ++ Base64.padding bytes)

/-- What the fetch comes to; `none` is thrown where it is no `FetchFailure`. -/
abbrev Fetched := Except (Option FetchFailure) FetchResult

def jobResult (fetched : Fetched) (durationMs : Int) : JobResult :=
  match fetched with
  | .ok fetched =>
    .response fetched.status fetched.url (fetched.contentType.map (slice 1024))
      (fitHeaders fetched.headers) (base64Text fetched.body) fetched.truncated durationMs
  | .error (some err) => .error err.failureClass (slice 1024 err.message)
  | .error none => .error .networkError "unexpected fetch error"

/-- What `now` says when `execute` begins, before the fetch and after it. -/
structure ExecuteClock where
  checkedAt : Int
  startedAt : Int
  finishedAt : Int

/-- The request that `execute` sends; it sends none where it skips the job. -/
def execute (fetchTimeoutMs : Int) (createFetchService : Int → FetchInput → Fetched)
    (clock : ExecuteClock) (job : PulledJob) : Option ResultRequest :=
  if job.fetchMode ≠ "http" then none
  else
    match job.leaseExpiresAt with
    | none => none
    | some leaseExpiresAt =>
      let remaining := leaseExpiresAt - clock.checkedAt - LEASE_SAFETY_MARGIN_MS
      if remaining ≤ 0 then none
      else
        let fetched := createFetchService (min fetchTimeoutMs remaining) job.request
        some ⟨job.leaseToken, jobResult fetched (clock.finishedAt - clock.startedAt)⟩

/-- The runner's state machine skips the same jobs. -/
theorem execute_eq_none_iff (fetchTimeoutMs : Int) (createFetchService : Int → FetchInput → Fetched)
    (clock : ExecuteClock) (job : PulledJob) :
    execute fetchTimeoutMs createFetchService clock job = none ↔
      RunnerState.skips job.toLeasedJob clock.checkedAt = true := by
  unfold execute RunnerState.skips
  by_cases hmode : job.fetchMode = "http"
  · cases hexpiry : job.leaseExpiresAt with
    | none => simp [hmode]
    | some leaseExpiresAt =>
        simp only [hmode, ne_eq, not_true_eq_false, if_false, ite_eq_left_iff, reduceCtorEq,
          imp_false, not_not, bne_self_eq_false, Bool.false_or, decide_eq_true_eq]
  · simp [hmode]

/-- Whatever is sent holds what one fetch of the job has come to. -/
theorem execute_sent {fetchTimeoutMs : Int} {createFetchService : Int → FetchInput → Fetched}
    {clock : ExecuteClock} {job : PulledJob} {sent : ResultRequest}
    (h : execute fetchTimeoutMs createFetchService clock job = some sent) :
    ∃ timeoutMs, sent = ⟨job.leaseToken, jobResult (createFetchService timeoutMs job.request)
      (clock.finishedAt - clock.startedAt)⟩ := by
  unfold execute at h
  split at h
  · cases h
  split at h
  · cases h
  next leaseExpiresAt hexpiry =>
    simp only at h
    split at h
    · cases h
    · exact ⟨_, (Option.some.inj h).symm⟩

/-! ## JSON -/

def failureClassText : ExecutorFailureClass → String
  | .ssrfBlocked => "ssrf_blocked"
  | .timeout => "timeout"
  | .networkError => "network_error"
  | .tooLarge => "too_large"

def headersJson (headers : StringRecord String) : List (String × Json) :=
  headers.entries.map fun entry => (entry.1, .string entry.2)

def JobResult.members : JobResult → List (String × Json)
  | .response status url contentType headers body truncated durationMs =>
    [("kind", .string "response"), ("status", .int status), ("url", .string url),
      ("contentType", contentType.elim .null .string), ("headers", .object (headersJson headers)),
      ("body", .string body), ("truncated", .bool truncated), ("durationMs", .int durationMs)]
  | .error failureClass message =>
    [("kind", .string "error"), ("failureClass", .string (failureClassText failureClass)),
      ("message", .string message)]

def ResultRequest.members (request : ResultRequest) : List (String × Json) :=
  [("leaseToken", .string request.leaseToken), ("result", .object request.result.members)]

/-- What `post` gives to `JSON.stringify`. -/
def ResultRequest.json (request : ResultRequest) : Json := .object request.members

end Utsuroi.HomeRunner
