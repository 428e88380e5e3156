import Utsuroi.Fetch.Http
import Utsuroi.Robots.Types

/-!
# Fetching robots.txt

Unlike the documents of a site, robots.txt is fetched by a plain `fetch`, which follows redirects
by itself.
-/

namespace Utsuroi

def DEFAULT_ROBOTS_TTL_SECONDS : Nat := 3600

def MAX_ROBOTS_BYTES : Nat := 500 * 1024

def DEFAULT_UA_TOKEN : String := "utsuroibot"

/-! ## The platform's `fetch` -/

/-- How many redirects the platform follows. -/
def MAX_PLATFORM_REDIRECTS : Nat := 20

/-- What a `fetch` requested, oldest first, and what it resolves to or rejects with. -/
structure PlatformRun where
  requests : List Url
  response : Except NetworkError HttpResponse
  deriving DecidableEq, Repr

def redirectError (message : String) : NetworkError := ⟨"TypeError", message⟩

section Platform

variable (net : NetTools) (servers : Servers)

/-- `fetch` with `left` redirects to go; a redirect without a location is the response. -/
def followByPlatform : Nat → Url → PlatformRun
  | left, currentUrl =>
    match servers (MAX_PLATFORM_REDIRECTS - left) currentUrl with
    | .error err => ⟨[currentUrl], .error err⟩
    | .ok response =>
      match isRedirectStatus response.status, response.headers.get "location" with
      | true, some location =>
        match net.join location currentUrl, left with
        | none, _ => ⟨[currentUrl], .error (redirectError "invalid redirect URL")⟩
        | some _, 0 => ⟨[currentUrl], .error (redirectError "too many redirects")⟩
        | some url, left + 1 =>
          if (net.parse url).any UrlParts.isHttp then
            let run := followByPlatform left url
            ⟨currentUrl :: run.requests, run.response⟩
          else ⟨[currentUrl], .error (redirectError "redirect to another scheme")⟩
      | _, _ => ⟨[currentUrl], .ok response⟩

def platformFetch (url : Url) : PlatformRun :=
  followByPlatform net servers MAX_PLATFORM_REDIRECTS url

/-- The URLs that the answers to a request for `url` redirect a `fetch` to. -/
def redirectHops (url : Url) : List Url := (platformFetch net servers url).requests.tail

/-- The first request is for the URL itself. -/
theorem platformFetch_requests (url : Url) :
    (platformFetch net servers url).requests = url :: redirectHops net servers url := by
  unfold redirectHops platformFetch followByPlatform
  split
  · rfl
  split
  · split
    · rfl
    · rfl
    · split <;> rfl
  · rfl

end Platform

/-! ## robots.txt -/

/-- What reads a robots.txt. -/
structure RobotsTools where
  /-- `new TextDecoder().decode(bytes)` -/
  decodeText : List UInt8 → String
  /-- `none` when it throws -/
  parseRobotsTxt : String → Option RobotsRules
  evaluateRobots : RobotsRules → Url → String → RobotsEvaluation

/-- The loop over the chunks: what goes beyond `maxBytes` is cut off. -/
def readCappedChunks (maxBytes : Nat) (failure : Option NetworkError) :
    List (List UInt8) → List UInt8 → Except NetworkError (List UInt8)
  | [], merged => if maxBytes ≤ merged.length then .ok merged else failure.elim (.ok merged) .error
  | chunk :: chunks, merged =>
    if maxBytes ≤ merged.length then .ok merged
    else readCappedChunks maxBytes failure chunks (merged ++ chunk.take (maxBytes - merged.length))

def readCappedText (tools : RobotsTools) (response : HttpResponse) (maxBytes : Nat) :
    Except NetworkError String :=
  match response.body with
  | none => .ok ""
  | some stream => (readCappedChunks maxBytes stream.failure stream.chunks []).map tools.decodeText

section Check

variable (net : NetTools) (tools : RobotsTools) (servers : Servers)

/-- What a response says of the rules; `none` where there are none to be had. -/
def robotsRulesOf (response : HttpResponse) : Option RobotsRules :=
  if 200 ≤ response.status ∧ response.status < 300 then
    match readCappedText tools response MAX_ROBOTS_BYTES with
    | .ok text => tools.parseRobotsTxt text
    | .error _ => none
  else if 400 ≤ response.status ∧ response.status < 500 then some EMPTY_ROBOTS_RULES
  else none

def fetchRobots (now : Nat) (robotsUrl : Url) : CachedRobots :=
  let rules :=
    match (platformFetch net servers robotsUrl).response with
    | .ok response => robotsRulesOf tools response
    | .error _ => none
  ⟨robotsUrl, now, rules.getD EMPTY_ROBOTS_RULES, rules.isNone⟩

/-- The entry of the cache is not too old. -/
def isFresh (now : Nat) (entry : CachedRobots) : Bool :=
  decide (entry.fetchedAt ≤ now) && decide (now - entry.fetchedAt < DEFAULT_ROBOTS_TTL_SECONDS * 1000)

/-- What the cache holds, if it is fresh. -/
def freshEntry (cached : Option CachedRobots) (now : Nat) : Option CachedRobots :=
  cached.filter (isFresh now)

def decisionOf (entry : CachedRobots) (targetUrl : Url) : RobotsDecision :=
  if entry.unavailable then ⟨false, none, true, entry.fetchedAt, "unavailable"⟩
  else
    let evaluation := tools.evaluateRobots entry.rules targetUrl DEFAULT_UA_TOKEN
    ⟨evaluation.allowed, evaluation.matchedRule, false, entry.fetchedAt, evaluation.userAgentGroup⟩

/-- What `checkRobots` requested and decided; `none` where it throws. -/
structure RobotsRun where
  requests : List Url
  decision : Option RobotsDecision
  deriving DecidableEq, Repr

def checkRobots (cached : Option CachedRobots) (now : Nat) (originUrl targetUrl : Url) :
    RobotsRun :=
  match robotsUrlOf net originUrl with
  | none => ⟨[], none⟩
  | some robotsUrl =>
    match freshEntry cached now with
    | some entry => ⟨[], some (decisionOf tools entry targetUrl)⟩
    | none =>
      ⟨(platformFetch net servers robotsUrl).requests,
        some (decisionOf tools (fetchRobots net tools servers now robotsUrl) targetUrl)⟩

end Check

end Utsuroi
