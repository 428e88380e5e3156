import Mathlib.Algebra.Order.Ring.Rat
import Utsuroi.Api.Runner
import Utsuroi.Framework.Run

/-!
# Who may call the API

Every request brings a token that Cloudflare Access has signed.  The keys are fetched from the team's
domain and kept for a while; requests that need them share one fetch.
-/

namespace Utsuroi.AccessAuth

open Transition

structure AuthError where
  status : Nat
  code : String
  message : String
  deriving DecidableEq, Repr

def unauthorized (message : String) : AuthError := ⟨401, "unauthorized", message⟩

/-- Throws unless the condition holds. -/
def require (condition : Prop) [Decidable condition] (err : AuthError) : Except AuthError Unit :=
  if condition then .ok () else .error err

def CLOCK_SKEW_SECONDS : Rat := 60
def JWKS_TTL_MS : Int := 10 * 60 * 1000
def JWKS_MIN_REFETCH_MS : Int := 30 * 1000
def MUTATING_METHODS : List String := ["POST", "PATCH", "PUT", "DELETE"]

/-! ## Callers -/

/-- The entries of an object whose values are texts; anything else is an empty table. -/
def namedTexts (raw : Option String) : List (String × String) :=
  match ((raw.filter (· ≠ "")).elim (some (.object [])) fun text => Json.parse text.toList).bind
      Json.object? with
  | none => []
  | some members =>
    (Json.objectEntries members).filterMap fun entry =>
      (entry.2.string?.filter (· ≠ "")).map fun text => (entry.1, text)

def parseCallers (raw : Option String) : List (String × String) := namedTexts raw

def parseRunnerExecutors (raw : Option String) : List (String × String) := namedTexts raw

/-- The executor of a caller `token:<name>`, `none` for every other caller. -/
def runnerExecutorFor (caller : String) (raw : Option String) : Option String :=
  if startsWith caller "token:" then
    (parseRunnerExecutors raw).lookup (String.ofList (caller.toList.drop "token:".length))
  else none

def isRunnerCaller (caller : String) (raw : Option String) : Bool := (runnerExecutorFor caller raw).isSome

def resolveCaller (claims : List (String × Json)) (rawCallers : Option String) :
    Except AuthError String :=
  let nonempty := fun key => ((Json.member? claims key).bind Json.string?).filter (· ≠ "")
  match nonempty "email" with
  | some email => .ok ("user:" ++ email)
  | none =>
    match nonempty "common_name" with
    | none => .error (unauthorized "token has no caller identity")
    | some commonName =>
      match (parseCallers rawCallers).lookup commonName with
      | some name => .ok ("token:" ++ name)
      | none => .error ⟨403, "forbidden", "service token is not allowed"⟩

/-! ## Tokens -/

def base64UrlToBytes (input : List Char) : Except AuthError (List UInt8) :=
  if input.all fun c => c.isAlphanum || c = '_' || c = '-' then
    let b64 := input.map fun c => if c = '-' then '+' else if c = '_' then '/' else c
    match Base64.decode? (b64 ++ List.replicate ((4 - b64.length % 4) % 4) '=') with
    | some bytes => .ok bytes
    | none => .error (unauthorized "malformed token")
  else .error (unauthorized "malformed token")

def parseJsonPart (part : List Char) : Except AuthError (List (String × Json)) := do
  let bytes ← base64UrlToBytes part
  match (Json.parse (RunnerApi.decodeText bytes)).bind Json.object? with
  | some members => return members
  | none => throw (unauthorized "malformed token")

/-- A token whose header names a key. -/
structure AccessToken where
  headerSeg : List Char
  payloadSeg : List Char
  signatureSeg : List Char
  kid : String
  deriving DecidableEq

/-- What is signed. -/
def AccessToken.message (token : AccessToken) : List UInt8 :=
  Utf8.encode (token.headerSeg ++ '.' :: token.payloadSeg)

def parseToken (token : String) : Except AuthError AccessToken :=
  match token.toList.splitOn '.' with
  | [headerSeg, payloadSeg, signatureSeg] => do
    let header ← parseJsonPart headerSeg
    require ((Json.member? header "alg").bind Json.string? = some "RS256")
      (unauthorized "unsupported algorithm")
    match ((Json.member? header "kid").bind Json.string?).filter (· ≠ "") with
    | some kid => return ⟨headerSeg, payloadSeg, signatureSeg, kid⟩
    | none => throw (unauthorized "missing key id")
  | _ => .error (unauthorized "malformed token")

/-- The texts that `aud` names. -/
def audiences : Option Json → List String
  | some (.array items) => items.filterMap Json.string?
  | some value => value.string?.toList
  | none => []

/-- The checks of the claims, `nowSec` in seconds. -/
def checkAccessClaims (teamDomain aud : String) (claims : List (String × Json)) (nowSec : Rat) :
    Except AuthError Unit := do
  require ((Json.member? claims "iss").bind Json.string? = some ("https://" ++ teamDomain))
    (unauthorized "invalid issuer")
  require (aud ∈ audiences (Json.member? claims "aud")) (unauthorized "invalid audience")
  require (((Json.member? claims "exp").bind Json.number?).any fun exp =>
    ¬ exp + CLOCK_SKEW_SECONDS < nowSec) (unauthorized "token expired")
  require ((Json.member? claims "nbf").all fun value => value.number?.any fun nbf =>
    ¬ nowSec < nbf - CLOCK_SKEW_SECONDS) (unauthorized "token not yet valid")

/-! ## Keys -/

section Keys

variable {Key : Type}

/-- A key set with the time at which it was read. -/
structure KeyCache (Key : Type) where
  keys : List (String × Key)
  fetchedAt : Int

-- `crypto.subtle.importKey` of a modulus and an exponent.
variable (importKey : String → String → Option Key)

def importJwk (jwk : Json) : Option (String × Key) := do
  let members ← jwk.object?
  let text := fun key => (Json.member? members key).bind Json.string?
  guard (text "kty" = some "RSA")
  let kid ← text "kid"
  let n ← text "n"
  let e ← text "e"
  guard ((Json.member? members "use").isNone ∨ text "use" = some "sig")
  let key ← importKey n e
  return (kid, key)

/-- The keys by their ids, of two with one id the later; `none` where it throws. -/
def importJwks (body : Json) : Option (List (String × Key)) :=
  match body.object?.bind (Json.member? · "keys") with
  | some (.array list) =>
    match (list.filterMap (importJwk importKey)).reverse with
    | [] => none
    | keys => some keys
  | _ => none

/-- What `fetch` comes to: a status, and the JSON of the body where it is one. -/
abbrev CertsResponse := Option (Nat × Option Json)

/-- The keys of a response, `none` where it is not usable. -/
def readCerts (response : CertsResponse) : Option (List (String × Key)) :=
  response.bind fun answer =>
    if answer.1 = 200 then answer.2.bind (importJwks importKey) else none

end Keys

/-! ## Requests under way -/

abbrev RequestId := Nat

structure AccessRequest where
  method : String
  path : String
  token : AccessToken
  deriving DecidableEq

/-- What a request waits for; `retried` where it has asked for new keys because of its key id. -/
inductive Phase (Key : Type)
  | certs (request : AccessRequest) (retried : Bool)
  | resumed (request : AccessRequest) (retried : Bool) (result : Option (KeyCache Key))
  | signature (request : AccessRequest) (key : Key)

/-- `inflight`: from its settling to its `finally` the promise is still shared. -/
inductive Inflight (Key : Type)
  | idle
  | underWay
  | settled (result : Option (KeyCache Key))

structure AuthState (Key : Type) where
  cache : Option (KeyCache Key)
  lastRefetchAt : Int
  inflight : Inflight Key
  arrived : Nat
  pending : List (RequestId × Phase Key)

inductive AuthEffect (Key : Type)
  | received (id : RequestId) (request : AccessRequest) (now : Int)
  | fetchStarted (now : Int)
  | fetchEnded (response : CertsResponse)
  | keysRead (cache : KeyCache Key)
  | refused (id : RequestId) (err : AuthError)
  | mutation (id : RequestId) (caller method path : String)
  | admitted (id : RequestId) (request : AccessRequest) (caller : String) (now : Int)

inductive AuthEvent
  | arrives (method path : String) (token : Option String) (now : Int)
  | certsAnswered (response : CertsResponse) (now : Int)
  /-- the `finally` of the fetch -/
  | cleared
  | resumes (id : RequestId) (now : Int)
  | signatureChecked (id : RequestId) (now : Int)

def AuthEvent.time : AuthEvent → Option Int
  | arrives _ _ _ now => some now
  | certsAnswered _ now => some now
  | cleared => none
  | resumes _ now => some now
  | signatureChecked _ now => some now

/-- The environment of the Worker. -/
structure AccessConfig where
  ACCESS_TEAM_DOMAIN : Option String
  ACCESS_AUD : Option String
  ACCESS_CALLERS : Option String
  RUNNER_EXECUTORS : Option String

/-- A label of a domain's name: letters, digits and, inside, hyphens. -/
def isDomainLabel (label : List Char) : Bool :=
  label.all (fun c => c.isAlphanum || c = '-') && label.head?.any (·.isAlphanum) &&
    label.getLast?.any (·.isAlphanum)

/-- `TEAM_DOMAIN_RE.test(text)` -/
def isTeamDomain (text : String) : Bool :=
  let labels := text.toList.splitOn '.'
  2 ≤ labels.length && labels.all isDomainLabel

/-- The team's domain and the audience, where both are configured. -/
def AccessConfig.team (config : AccessConfig) : Option (String × String) := do
  let aud ← config.ACCESS_AUD.filter (· ≠ "")
  let teamDomain ← config.ACCESS_TEAM_DOMAIN.filter isTeamDomain
  return (teamDomain, aud)

/-- What becomes of a request whose signature holds: its caller, or why it is refused. -/
def judge (config : AccessConfig) (teamDomain aud : String) (request : AccessRequest) (now : Int) :
    Except AuthError String := do
  let claims ← parseJsonPart request.token.payloadSeg
  checkAccessClaims teamDomain aud claims (now / 1000 : Rat)
  let caller ← resolveCaller claims config.ACCESS_CALLERS
  require (¬ (isRunnerCaller caller config.RUNNER_EXECUTORS ∧ ¬ startsWith request.path "/api/runner/"))
    ⟨403, "forbidden", "runner token is restricted to /api/runner/*"⟩
  return caller

namespace AuthState

variable {Key : Type}

def init : AuthState Key := ⟨none, 0, .idle, 0, []⟩

def drop (s : AuthState Key) (id : RequestId) : AuthState Key :=
  { s with pending := s.pending.filter fun entry => entry.1 ≠ id }

/-- `refresh` up to its first await: a fetch under way is shared. -/
def refresh (s : AuthState Key) (now : Int) : AuthState Key × List (AuthEffect Key) :=
  match s.inflight with
  | .idle => ({ s with lastRefetchAt := now, inflight := .underWay }, [.fetchStarted now])
  | _ => (s, [])

def awaitCerts (s : AuthState Key) (id : RequestId) (request : AccessRequest) (retried : Bool)
    (now : Int) : AuthState Key × List (AuthEffect Key) :=
  let (s', effects) := s.refresh now
  ({ s' with pending := s'.pending ++ [(id, .certs request retried)] }, effects)

/-- From the key set on, up to the next await. -/
def lookKey (s : AuthState Key) (id : RequestId) (request : AccessRequest) (retried : Bool)
    (current : KeyCache Key) (now : Int) : AuthState Key × List (AuthEffect Key) :=
  match current.keys.lookup request.token.kid with
  | some key =>
    match base64UrlToBytes request.token.signatureSeg with
    | .error err => (s, [.refused id err])
    | .ok _ => ({ s with pending := s.pending ++ [(id, .signature request key)] }, [])
  | none =>
    if ¬ retried ∧ JWKS_MIN_REFETCH_MS ≤ now - s.lastRefetchAt then s.awaitCerts id request true now
    else (s, [.refused id (unauthorized "unknown signing key")])

/-- `findKey` up to its first await. -/
def findKey (s : AuthState Key) (id : RequestId) (request : AccessRequest) (now : Int) :
    AuthState Key × List (AuthEffect Key) :=
  match s.cache.filter fun cache => now - cache.fetchedAt ≤ JWKS_TTL_MS with
  | none => s.awaitCerts id request false now
  | some current => s.lookKey id request false current now

section Steps

variable (importKey : String → String → Option Key)
  (rsaVerify : Key → List UInt8 → List UInt8 → Bool) (config : AccessConfig)

def arrive (s : AuthState Key) (method path : String) (token : Option String) (now : Int) :
    AuthState Key × List (AuthEffect Key) :=
  let id := s.arrived
  let s := { s with arrived := s.arrived + 1 }
  match config.team with
  | none =>
    (s, [.refused id ⟨503, "auth_not_configured", "authentication is not configured"⟩])
  | some _ =>
    match token.filter (· ≠ "") with
    | none => (s, [.refused id (unauthorized "missing access token")])
    | some token =>
      match parseToken token with
      | .error err => (s, [.refused id err])
      | .ok token =>
        let (s', effects) := s.findKey id ⟨method, path, token⟩ now
        (s', .received id ⟨method, path, token⟩ now :: effects)

/-- The body of the fetch after its answer; on success the cache is replaced. -/
def answerCerts (s : AuthState Key) (response : CertsResponse) (now : Int) :
    AuthState Key × List (AuthEffect Key) :=
  match readCerts importKey response with
  | none => ({ s with inflight := .settled none }, [.fetchEnded response])
  | some keys =>
    ({ s with cache := some ⟨keys, now⟩, inflight := .settled (some ⟨keys, now⟩) },
      [.fetchEnded response, .keysRead ⟨keys, now⟩])

/-- The requests that have waited for the fetch go on with its result. -/
def clear (s : AuthState Key) (result : Option (KeyCache Key)) : AuthState Key :=
  { s with
    inflight := .idle
    pending := s.pending.map fun entry =>
      match entry.2 with
      | .certs request retried => (entry.1, .resumed request retried result)
      | _ => entry }

def resume (s : AuthState Key) (id : RequestId) (request : AccessRequest) (retried : Bool)
    (result : Option (KeyCache Key)) (now : Int) : AuthState Key × List (AuthEffect Key) :=
  match result with
  | none =>
    (s.drop id, [.refused id ⟨503, "auth_unavailable", "authentication keys unavailable"⟩])
  | some current => (s.drop id).lookKey id request retried current now

/-- The rest of the middleware, up to `next()`. -/
def finish (s : AuthState Key) (id : RequestId) (request : AccessRequest) (key : Key) (now : Int) :
    AuthState Key × List (AuthEffect Key) :=
  match config.team, base64UrlToBytes request.token.signatureSeg with
  | some (teamDomain, aud), .ok signature =>
    if rsaVerify key signature request.token.message then
      match judge config teamDomain aud request now with
      | .error err => (s.drop id, [.refused id err])
      | .ok caller =>
        (s.drop id,
          (if MUTATING_METHODS.contains request.method then
            [.mutation id caller request.method request.path] else []) ++
          [.admitted id request caller now])
    else (s.drop id, [.refused id (unauthorized "invalid signature")])
  -- not reached: both have been seen to before
  | _, _ => (s.drop id, [.refused id (unauthorized "malformed token")])

def authStep (s : AuthState Key) : AuthEvent → Option (AuthState Key × List (AuthEffect Key))
  | .arrives method path token now => some (s.arrive config method path token now)
  | .certsAnswered response now =>
    match s.inflight with
    | .underWay => some (s.answerCerts importKey response now)
    | _ => none
  | .cleared =>
    match s.inflight with
    | .settled result => some (s.clear result, [])
    | _ => none
  | .resumes id now =>
    match s.pending.lookup id with
    | some (.resumed request retried result) => some (s.resume id request retried result now)
    | _ => none
  | .signatureChecked id now =>
    match s.pending.lookup id with
    | some (.signature request key) => some (s.finish rsaVerify config id request key now)
    | _ => none

/-- The middleware and all that has been seen of it, oldest first. -/
def middleware : System (AuthState Key × List (AuthEffect Key)) AuthEvent where
  init s := s = (.init, [])
  step s e s' := ∃ effects, s.1.authStep importKey rsaVerify config e = some (s'.1, effects) ∧
    s'.2 = s.2 ++ effects

end Steps

end AuthState

/-- The clock does not go back, and it stands still until a promise that has settled has run its
`finally`. -/
def clockForward (Key : Type) : StepCond (AuthState Key × List (AuthEffect Key)) AuthEvent :=
  fun past s e => ∀ now ∈ e.time,
    (∀ earlier ∈ past, ∀ before ∈ earlier.time, before ≤ now) ∧
      ∀ result, s.1.inflight = .settled result →
        ∃ earlier ∈ past, ∃ before ∈ earlier.time, now ≤ before

end Utsuroi.AccessAuth
