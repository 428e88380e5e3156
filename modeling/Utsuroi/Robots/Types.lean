import Utsuroi.Shared.Types

/-!
# The rules of a robots.txt
-/

namespace Utsuroi

inductive RobotsDirective
  | allow
  | disallow
  deriving DecidableEq, Repr

structure RobotsRule where
  directive : RobotsDirective
  pattern : String
  deriving DecidableEq, Repr

structure RobotsGroup where
  /-- in lower case -/
  userAgents : List String
  rules : List RobotsRule
  deriving DecidableEq, Repr

structure RobotsRules where
  groups : List RobotsGroup
  sitemaps : List String
  deriving DecidableEq, Repr

def EMPTY_ROBOTS_RULES : RobotsRules := ⟨[], []⟩

/-- An entry of the cache. -/
structure CachedRobots where
  robotsUrl : String
  /-- when it was fetched, or fetching it was tried -/
  fetchedAt : Nat
  rules : RobotsRules
  /-- robots.txt could not be fetched, which disallows everything -/
  unavailable : Bool
  deriving DecidableEq, Repr

/-- What the rules say of a URL. -/
structure RobotsEvaluation where
  allowed : Bool
  userAgentGroup : String
  matchedRule : Option String
  deriving DecidableEq, Repr

end Utsuroi
