import Mathlib.Logic.Function.Basic
import Utsuroi.Framework.JsonSchema
import Utsuroi.Framework.Log
import Utsuroi.Robots.Check

/-!
# The cache of robots.txt

Checks share a table with one row for each origin.  What a check finds there may have been written by
another one that has read robots.txt at the same time.
-/

namespace Utsuroi.RobotsCache

open Transition

/-! ## Rows -/

def directiveName : RobotsDirective → String
  | .allow => "allow"
  | .disallow => "disallow"

def ruleJson (rule : RobotsRule) : Json :=
  .object [("directive", .string (directiveName rule.directive)), ("pattern", .string rule.pattern)]

def groupJson (group : RobotsGroup) : Json :=
  .object [("userAgents", .array (group.userAgents.map Json.string)),
    ("rules", .array (group.rules.map ruleJson))]

def rulesJson (rules : RobotsRules) : Json :=
  .object [("groups", .array (rules.groups.map groupJson)),
    ("sitemaps", .array (rules.sitemaps.map Json.string))]

/-- The value of a member, which is of the type read. -/
def memberAs {α : Type} (read : Json → Option α) (value : Json) (key : String) : Option α := do
  read (← Json.member? (← value.object?) key)

def listOf {α : Type} (read : Json → Option α) : Json → Option (List α)
  | .array items => items.mapM read
  | _ => none

def readDirective (value : Json) : Option RobotsDirective :=
  value.string?.bind fun name =>
    if name = "allow" then some .allow else if name = "disallow" then some .disallow else none

def readRule (value : Json) : Option RobotsRule := do
  return ⟨← memberAs readDirective value "directive", ← memberAs Json.string? value "pattern"⟩

def readGroup (value : Json) : Option RobotsGroup := do
  return ⟨← memberAs (listOf Json.string?) value "userAgents",
    ← memberAs (listOf readRule) value "rules"⟩

def readRules (value : Json) : Option RobotsRules := do
  return ⟨← memberAs (listOf readGroup) value "groups",
    ← memberAs (listOf Json.string?) value "sitemaps"⟩

structure RobotsCacheRow where
  robotsUrl : String
  fetchedAt : Nat
  unavailable : Nat
  rules : Option String
  deriving DecidableEq, Repr

/-- Where the rules do not read, there are none. -/
def toCachedRobots (row : RobotsCacheRow) : CachedRobots :=
  let rules := (row.rules.filter (· ≠ "")).bind fun text => (Json.parse text.toList).bind readRules
  ⟨row.robotsUrl, row.fetchedAt, rules.getD EMPTY_ROBOTS_RULES, row.unavailable = 1⟩

def rowOf (value : CachedRobots) : RobotsCacheRow where
  robotsUrl := value.robotsUrl
  fetchedAt := value.fetchedAt
  unavailable := if value.unavailable then 1 else 0
  rules := if value.unavailable then none else some (String.ofList (rulesJson value.rules).text)

/-! ## Checks under way -/

abbrev CheckId := Nat

/-- A check that has found nothing fresh. -/
structure RobotsQuery where
  originUrl : Url
  origin : String
  robotsUrl : Url
  targetUrl : Url
  now : Nat
  deriving DecidableEq, Repr

/-- What `checkRobots` returns. -/
structure RobotsAnswer where
  decision : RobotsDecision
  robotsUrl : Url
  fromCache : Bool
  deriving DecidableEq, Repr

inductive Phase
  | fetching (query : RobotsQuery)
  | storing (query : RobotsQuery) (entry : CachedRobots)

structure CacheState where
  rows : String → Option RobotsCacheRow
  arrived : Nat
  pending : List (CheckId × Phase)

inductive CacheEffect
  | began (id : CheckId) (query : RobotsQuery)
  | fetchStarted (id : CheckId) (robotsUrl : Url)
  | fetched (id : CheckId) (response : Except NetworkError HttpResponse)
  | written (origin : String) (row : RobotsCacheRow)
  | decided (id : CheckId) (answer : RobotsAnswer)
  | threw (id : CheckId)

inductive CacheEvent
  | begins (originUrl targetUrl : Url) (now : Nat)
  /-- a check begins, and the query of its row fails -/
  | readFails
  /-- what the `fetch` of robots.txt comes to -/
  | answered (id : CheckId) (response : Except NetworkError HttpResponse)
  /-- the row has been written, or the statement fails, before or after it has written -/
  | stored (id : CheckId)
  | storeFails (id : CheckId) (written : Bool)

section Checks

variable (net : NetTools) (tools : RobotsTools)

/-- The entry for what a fetch comes to. -/
def entryOf (robotsUrl : Url) (now : Nat) (response : Except NetworkError HttpResponse) : CachedRobots :=
  let rules :=
    match response with
    | .ok response => robotsRulesOf tools response
    | .error _ => none
  ⟨robotsUrl, now, rules.getD EMPTY_ROBOTS_RULES, rules.isNone⟩

def answerOf (entry : CachedRobots) (targetUrl : Url) (fromCache : Bool) : RobotsAnswer :=
  ⟨decisionOf tools entry targetUrl, entry.robotsUrl, fromCache⟩

namespace CacheState

def init (rows : String → Option RobotsCacheRow) : CacheState := ⟨rows, 0, []⟩

def drop (s : CacheState) (id : CheckId) : CacheState :=
  { s with pending := s.pending.filter fun entry => entry.1 ≠ id }

/-- `put` -/
def put (s : CacheState) (origin : String) (entry : CachedRobots) : CacheState :=
  { s with rows := Function.update s.rows origin (some (rowOf entry)) }

/-- `checkRobots` up to the fetch. -/
def beginCheck (s : CacheState) (originUrl targetUrl : Url) (now : Nat) : CacheState × List CacheEffect :=
  let id := s.arrived
  let s := { s with arrived := s.arrived + 1 }
  match net.parse originUrl, robotsUrlOf net originUrl with
  | some parts, some robotsUrl =>
    let query := ⟨originUrl, parts.origin, robotsUrl, targetUrl, now⟩
    match freshEntry ((s.rows parts.origin).map toCachedRobots) now with
    | some entry => (s, [.began id query, .decided id (answerOf tools entry targetUrl true)])
    | none =>
      ({ s with pending := s.pending ++ [(id, .fetching query)] },
        [.began id query, .fetchStarted id robotsUrl])
  | _, _ => (s, [.threw id])

/-- What could not be fetched is not kept. -/
def answer (s : CacheState) (id : CheckId) (query : RobotsQuery)
    (response : Except NetworkError HttpResponse) : CacheState × List CacheEffect :=
  let entry := entryOf tools query.robotsUrl query.now response
  if entry.unavailable then
    (s.drop id, [.fetched id response, .decided id (answerOf tools entry query.targetUrl false)])
  else
    ({ s.drop id with pending := (s.drop id).pending ++ [(id, .storing query entry)] },
      [.fetched id response])

def cacheStep (s : CacheState) : CacheEvent → Option (CacheState × List CacheEffect)
  | .begins originUrl targetUrl now => some (s.beginCheck net tools originUrl targetUrl now)
  | .readFails => some ({ s with arrived := s.arrived + 1 }, [.threw s.arrived])
  | .answered id response =>
    match s.pending.lookup id with
    | some (.fetching query) => some (s.answer tools id query response)
    | _ => none
  | .stored id =>
    match s.pending.lookup id with
    | some (.storing query entry) =>
      some ((s.drop id).put query.origin entry,
        [.written query.origin (rowOf entry),
          .decided id (answerOf tools entry query.targetUrl false)])
    | _ => none
  | .storeFails id written =>
    match s.pending.lookup id with
    | some (.storing query entry) =>
      some (if written then
        ((s.drop id).put query.origin entry, [.written query.origin (rowOf entry), .threw id])
      else (s.drop id, [.threw id]))
    | _ => none

/-- The checks and all that has been seen of them, oldest first. -/
def robotsCache : System (CacheState × List CacheEffect) CacheEvent :=
  Log.machine (.init fun _ => none) fun s e => s.cacheStep net tools e

end CacheState

end Checks

end Utsuroi.RobotsCache
