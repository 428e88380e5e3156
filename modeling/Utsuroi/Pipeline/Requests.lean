import Utsuroi.Fetch.Policy
import Utsuroi.Pipeline.Gatekeeping
import Utsuroi.Robots.Check

/-!
# The requests of a check

Which URLs of monitored sites the worker requests in the course of a check: robots.txt, documents
and title pages, with every redirect on the way.
-/

namespace Utsuroi

open Async

/-- What one awaited call of a check meets. -/
structure CallNetwork where
  /-- of the n-th execution of a fetcher -/
  servers : Nat → Servers
  /-- the row of `robots_cache` -/
  cached : Option CachedRobots
  now : Nat
  /-- `env.USER_AGENT` -/
  userAgent : String
  /-- the validators that a document is asked for with -/
  etag : Option String
  lastModified : Option String
  /-- what the fetchers that run elsewhere come to -/
  elsewhere : List Execution → String → FetchOutcome
  /-- the attempt is recorded after an execution -/
  recorded : List Execution → Bool
  /-- how many requests it has sent when it is cut off -/
  sent : Nat

def CF_HTTP : String := "cf-http"

def PULL_FETCHER_IDS : List String := ["home-http"]

section Requests

variable (net : NetTools) (tools : HttpTools) (policy : FetcherPolicy)

def CallNetwork.targetRequest (network : CallNetwork) (url : Url) : FetchRequest :=
  { url, userAgent := network.userAgent, etag := network.etag, lastModified := network.lastModified }

def CallNetwork.titleRequest (network : CallNetwork) (url : Url) : FetchRequest :=
  { url, userAgent := network.userAgent }

/-- The fetcher `cf-http`, with every redirect checked. -/
def cfHttp (network : CallNetwork) (execution : Nat) (req : FetchRequest) : HttpRun :=
  httpFetch net tools network.now (network.servers execution) (some (checkUrlForSsrf net)) req
    DEFAULT_FETCH_LIMITS

/-- `runFetcher`, which turns what is thrown into a failure. -/
def runFetcher (network : CallNetwork) (url : Url) (executions : List Execution)
    (fetcherId : String) : FetchOutcome :=
  if fetcherId = CF_HTTP then
    match (cfHttp net tools network executions.length (network.targetRequest url)).outcome with
    | .ok outcome => outcome.toFetchOutcome
    | .error _ => .failure .internalError none
  else network.elsewhere executions fetcherId

/-- The fetcher of `fetchTargetThroughPolicy`. -/
def targetFetcher (network : CallNetwork) (url : Url) : FetcherBehaviour :=
  fun executions fetcherId =>
    if network.recorded executions then some (runFetcher net tools network url executions fetcherId)
    else none

/-- The fetcher of `fetchTitleForUrl`. -/
def titleFetcher (network : CallNetwork) (url : Url) : FetcherBehaviour :=
  fun executions fetcherId =>
    if fetcherId = CF_HTTP then
      match (cfHttp net tools network executions.length (network.titleRequest url)).outcome with
      | .ok outcome => some outcome.toFetchOutcome
      | .error _ => none
    else some (.failure .internalError none)

def targetOpts : SequenceOpts :=
  ⟨none, none, none, some fun fetcherId => !PULL_FETCHER_IDS.contains fetcherId⟩

def titleOpts : SequenceOpts := ⟨none, none, none, none⟩

/-- What the executions of a sequence requested. -/
def sequenceRequests (network : CallNetwork) (req : FetchRequest) (executions : List Execution) :
    List Url :=
  executions.zipIdx.flatMap fun execution =>
    if execution.1.fetcherId = CF_HTTP then (cfHttp net tools network execution.2 req).requests
    else []

/-- robots.txt is requested unless the cache has it. -/
def robotsRequests (network : CallNetwork) (origin : String) : List Url :=
  match robotsUrlOf net origin, freshEntry network.cached network.now with
  | some robotsUrl, none => (platformFetch net (network.servers 0) robotsUrl).requests
  | _, _ => []

theorem robotsRequests_stale {network : CallNetwork} {origin : String} {robotsUrl : Url}
    (hrobots : robotsUrlOf net origin = some robotsUrl)
    (hcached : freshEntry network.cached network.now = none) :
    robotsRequests net network origin =
      robotsUrl :: redirectHops net (network.servers 0) robotsUrl := by
  simp only [robotsRequests, hrobots, hcached, platformFetch_requests]

theorem robotsRequests_fresh {network : CallNetwork} {origin : String} {entry : CachedRobots}
    (hcached : freshEntry network.cached network.now = some entry) :
    robotsRequests net network origin = [] := by
  unfold robotsRequests
  rw [hcached]
  cases robotsUrlOf net origin <;> rfl

/-- What a call requests that is not cut off. -/
def callRequests (network : CallNetwork) : Site → List Url
  | .fetchTarget url => sequenceRequests net tools network (network.targetRequest url)
      (runFetchSequence targetOpts (targetFetcher net tools network url) policy).2.executions
  | .fetchPage url => sequenceRequests net tools network (network.titleRequest url)
      (runFetchSequence titleOpts (titleFetcher net tools network url) policy).2.executions
  | .checkRobots origin _ => robotsRequests net network origin
  | _ => []

/-- The first ones of a call that is cut off. -/
def sentOf (network : CallNetwork) (fault : Fault) (requests : List Url) : List Url :=
  match fault with
  | .throwBefore | .killBefore => requests.take network.sent
  | _ => requests

/-- What the calls of a log requested, oldest first; `network n` is what the n-th call meets. -/
def logRequests (network : Nat → CallNetwork) : List (Prog.Call RunSite Store) → List Url
  | [] => []
  | call :: past =>
    logRequests network past ++ sentOf (network past.length) call.fault
      (callRequests net tools policy (network past.length) call.site.site)

/-- Where robots.txt is asked for, the redirects lead only to URLs that the check lets pass. -/
def RobotsRedirectsAllowed (network : Nat → CallNetwork) (log : List (Prog.Call RunSite Store)) :
    Prop :=
  ∀ newer call past origin url robotsUrl, log = newer ++ call :: past →
    call.site.site = .checkRobots origin url → robotsUrlOf net origin = some robotsUrl →
    freshEntry (network past.length).cached (network past.length).now = none →
    ∀ hop ∈ (sentOf (network past.length) call.fault
      (robotsUrl :: redirectHops net ((network past.length).servers 0) robotsUrl)).tail,
      (checkUrlForSsrf net hop).allowed = true

/-- What a check asks the network of `net`; the origins of URLs with other schemes are as `items`
has them. -/
def netItems (items : ItemTools) : ItemTools :=
  { items with
    ssrfAllowed := fun url => (checkUrlForSsrf net url).allowed
    origin := fun url => (net.parse url).bind fun parts =>
      if parts.isHttp then some parts.origin else items.origin url }

end Requests

end Utsuroi
