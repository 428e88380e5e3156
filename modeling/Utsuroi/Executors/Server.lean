import Utsuroi.Executors.Execute
import Utsuroi.Executors.Jwt
import Utsuroi.Framework.JsonSchema
import Utsuroi.Framework.Run

/-!
# The server of the GCP executor

Requests are served at the same time.  The code of one runs without interruption from one await to
the next: it waits for the request's body, and then for the fetch.
-/

namespace Utsuroi.GcpServer

open Transition

abbrev RequestId := Nat

def MAX_REQUEST_BODY_BYTES : Nat := 16 * 1024
def DEFAULT_MAX_BYTES : Nat := 5 * 1024 * 1024

structure ServerOptions where
  maxBytesCap : Nat
  maxInflight : Nat
  deriving DecidableEq, Repr

/-- What `sendJson` writes. -/
structure Answer where
  status : Nat
  payload : Json

def errorAnswer (status : Nat) (error : String) : Answer := ⟨status, .object [("error", .string error)]⟩

/-! ## Requests -/

/-- The loop over the chunks, `none` where there are too many bytes. -/
def collectBody : List (List UInt8) → List UInt8 → Option (List UInt8)
  | [], read => some read
  | chunk :: chunks, read =>
    if MAX_REQUEST_BODY_BYTES < read.length + chunk.length then none
    else collectBody chunks (read ++ chunk)

/-- `none` where the body is too large, by the header `content-length` already or while it is
read. -/
def readBody (contentLength : Option Nat) (chunks : List (List UInt8)) : Option (List UInt8) :=
  if MAX_REQUEST_BODY_BYTES < contentLength.getD 0 then none else collectBody chunks []

/-- `maxBytes` of a request: a positive integer, or nothing. -/
def requestLimit : Option Json → Option Nat
  | none => some DEFAULT_MAX_BYTES
  | some value => value.number?.bind fun n => if n.den = 1 ∧ 0 < n then some n.num.toNat else none

/-- `headers` of a request: an object of strings, or nothing.  Assigning a string to `__proto__` does
nothing. -/
def requestHeaders : Option Json → Option (List (String × String))
  | none => some []
  | some value =>
    value.object?.bind fun members =>
      let headers := (Json.objectEntries members).mapM fun entry =>
        entry.2.string?.map fun text => (entry.1, text)
      headers.map fun headers => headers.filter fun header => header.1 ≠ "__proto__"

def parseRequest (raw : List UInt8) (maxBytesCap : Nat) : Option FetchInput := do
  let members ← (← Json.parse (Utf8.decode raw)).object?
  let url ← (← Json.member? members "url").string?
  guard (url ≠ "")
  let limit ← requestLimit (Json.member? members "maxBytes")
  let headers ← requestHeaders (Json.member? members "headers")
  return ⟨url, min limit maxBytesCap, headers⟩

/-- The payload of what has been fetched. -/
def responseJson (result : FetchResult) (durationMs : Int) : Json :=
  .object (HomeRunner.JobResult.response result.status result.url result.contentType result.headers
    (HomeRunner.base64Text result.body) result.truncated durationMs).members

/-- The answer to a request whose fetch has ended. -/
def fetchedAnswer (fetched : HomeRunner.Fetched) (durationMs : Int) : Answer :=
  match fetched with
  | .ok result => ⟨200, responseJson result durationMs⟩
  | .error (some err) => ⟨200, .object (HomeRunner.JobResult.error err.failureClass err.message).members⟩
  | .error none => errorAnswer 500 "internal error"

/-! ## States -/

/-- What a request waits for. -/
inductive Phase
  | body (authorization : String)
  | fetch (startedAt : Int)
  deriving DecidableEq, Repr

def Phase.isFetch : Phase → Bool
  | body _ => false
  | fetch _ => true

/-- The requests are numbered as they arrive. -/
structure ServerState where
  jtiCache : JtiCache
  inflight : Nat
  arrived : Nat
  pending : List (RequestId × Phase)

/-- What is seen of the server. -/
inductive ServerEffect
  | verified (id : RequestId) (verification : Verification)
  | started (id : RequestId) (input : FetchInput)
  | answered (id : RequestId) (answer : Answer)

inductive ServerEvent
  | arrives (method url : String) (authorization : Option String)
  /-- the body has come in chunks, as far as it is read -/
  | bodyRead (id : RequestId) (contentLength : Option Nat) (chunks : List (List UInt8)) (nowMs : Int)
  /-- reading the body throws -/
  | bodyFails (id : RequestId)
  | fetched (id : RequestId) (result : HomeRunner.Fetched) (nowMs : Int)

/-- When a token is verified. -/
def ServerEvent.verifiedAt : ServerEvent → Option Int
  | bodyRead _ _ _ nowMs => some nowMs
  | _ => none

namespace ServerState

def init : ServerState := ⟨⟨MAX_JTI_ENTRIES, []⟩, 0, 0, []⟩

def drop (s : ServerState) (id : RequestId) : ServerState :=
  { s with pending := s.pending.filter fun request => request.1 ≠ id }

/-- The handler up to its first await. -/
def arrive (s : ServerState) (method url : String) (authorization : Option String) :
    ServerState × List ServerEffect :=
  let s' := { s with arrived := s.arrived + 1 }
  if method ≠ "POST" ∨ url ≠ "/" then (s', [.answered s.arrived (errorAnswer 404 "not found")])
  else
    match authorization.filter fun text => text ≠ "" with
    | none => (s', [.answered s.arrived (errorAnswer 401 "unauthorized")])
    | some text => ({ s' with pending := s.pending ++ [(s.arrived, .body text)] }, [])

section Serve

variable (verify : List UInt8 → List UInt8 → Bool) (sha256 : List UInt8 → List UInt8)
  (opts : ServerOptions)

/-- From the body on, up to the fetch. -/
def serveBody (s : ServerState) (id : RequestId) (authorization : String) (raw : List UInt8)
    (nowMs : Int) : ServerState × List ServerEffect :=
  let verification := verifyRequestToken verify sha256 (some authorization) raw nowMs s.jtiCache
  let rest := { s.drop id with jtiCache := verification.2 }
  let seen := .verified id ⟨some authorization, raw, nowMs, verification.1⟩
  match verification.1 with
  | .error _ => (rest, [seen, .answered id (errorAnswer 401 "unauthorized")])
  | .ok () =>
    match parseRequest raw opts.maxBytesCap with
    | none => (rest, [seen, .answered id (errorAnswer 400 "invalid request")])
    | some input =>
      if opts.maxInflight ≤ s.inflight then (rest, [seen, .answered id (errorAnswer 503 "busy")])
      else
        ({ rest with inflight := s.inflight + 1, pending := rest.pending ++ [(id, .fetch nowMs)] },
          [seen, .started id input])

def bodyRead (s : ServerState) (id : RequestId) (authorization : String)
    (contentLength : Option Nat) (chunks : List (List UInt8)) (nowMs : Int) :
    ServerState × List ServerEffect :=
  match readBody contentLength chunks with
  | none => (s.drop id, [.answered id (errorAnswer 413 "request too large")])
  | some raw => s.serveBody verify sha256 opts id authorization raw nowMs

end Serve

end ServerState

/-! ## Steps -/

section Steps

variable (verify : List UInt8 → List UInt8 → Bool) (sha256 : List UInt8 → List UInt8)
  (opts : ServerOptions)

/-- What the event leads to and what is seen of it; `none` where it cannot happen. -/
def serverStep (s : ServerState) : ServerEvent → Option (ServerState × List ServerEffect)
  | .arrives method url authorization => some (s.arrive method url authorization)
  | .bodyRead id contentLength chunks nowMs =>
    match s.pending.lookup id with
    | some (.body authorization) =>
      some (s.bodyRead verify sha256 opts id authorization contentLength chunks nowMs)
    | _ => none
  | .bodyFails id =>
    match s.pending.lookup id with
    | some (.body _) => some (s.drop id, [.answered id (errorAnswer 500 "internal error")])
    | _ => none
  | .fetched id result nowMs =>
    match s.pending.lookup id with
    | some (.fetch startedAt) =>
      some ({ s.drop id with inflight := s.inflight - 1 },
        [.answered id (fetchedAnswer result (nowMs - startedAt))])
    | _ => none

/-- The server and all that has been seen of it, oldest first. -/
def server : System (ServerState × List ServerEffect) ServerEvent where
  init s := s = (.init, [])
  step s e s' := ∃ effects, serverStep verify sha256 opts s.1 e = some (s'.1, effects) ∧
    s'.2 = s.2 ++ effects

end Steps

/-- The clock the tokens are verified by does not go back. -/
def clockForward : StepCond (ServerState × List ServerEffect) ServerEvent := fun past _ e =>
  ∀ earlier ∈ past, ∀ before ∈ earlier.verifiedAt, ∀ now ∈ e.verifiedAt, before ≤ now

end Utsuroi.GcpServer
