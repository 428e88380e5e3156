import Utsuroi.Robots.Parser
import Mathlib.Data.List.Infix

/-!
# The verdict of a robots.txt

The groups for the crawler are those that name it most specifically, and of their rules the longest
that matches decides.
-/

namespace Utsuroi

inductive RobotsVerdict
  | allowed
  | disallowed
  deriving DecidableEq, Repr

structure EvaluateRobotsResult where
  verdict : RobotsVerdict
  userAgentGroup : String
  matchedRule : Option String
  deriving DecidableEq, Repr

/-! ## Patterns -/

/-- `'*'` -/
def STAR : Nat := 0x2a

/-- `'$'` -/
def END_ANCHOR : Nat := 0x24

/-- Where the loop of `globFullMatch` stands; it never goes back behind `matchIdx`. -/
structure GlobCursor where
  pIdx : Nat
  tIdx : Nat
  /-- the last star, if there was one -/
  starIdx : Option Nat
  matchIdx : Nat
  behind : matchIdx ≤ tIdx

def GlobCursor.start : GlobCursor := ⟨0, 0, none, 0, le_rfl⟩

section Glob

variable (pattern text : List Nat)

/-- Whether only stars are left of the pattern. -/
def onlyStarsLeft (pIdx : Nat) : Bool :=
  if pattern[pIdx]? = some STAR then onlyStarsLeft (pIdx + 1) else pIdx == pattern.length
termination_by pattern.length - pIdx
decreasing_by
  obtain ⟨hpIdx, _⟩ := List.getElem?_eq_some_iff.mp ‹pattern[pIdx]? = some STAR›
  omega

/-- The loop goes on behind the last star where there is a mismatch. -/
def globLoop (cursor : GlobCursor) : Bool :=
  if htext : cursor.tIdx < text.length then
    if hpattern : cursor.pIdx < pattern.length ∧
        (pattern[cursor.pIdx]? = some STAR ∨ pattern[cursor.pIdx]? = text[cursor.tIdx]?) then
      if pattern[cursor.pIdx]? = some STAR then
        globLoop ⟨cursor.pIdx + 1, cursor.tIdx, some cursor.pIdx, cursor.tIdx, le_rfl⟩
      else
        globLoop ⟨cursor.pIdx + 1, cursor.tIdx + 1, cursor.starIdx, cursor.matchIdx,
          Nat.le_succ_of_le cursor.behind⟩
    else
      match cursor.starIdx with
      | some starIdx =>
        globLoop ⟨starIdx + 1, cursor.matchIdx + 1, some starIdx, cursor.matchIdx + 1, le_rfl⟩
      | none => false
  else onlyStarsLeft pattern cursor.pIdx
termination_by (text.length - cursor.matchIdx, pattern.length - cursor.pIdx)
decreasing_by
  · exact Prod.Lex.right' _ (Nat.sub_le_sub_left cursor.behind _) (by omega)
  · exact Prod.Lex.right _ (by omega)
  · have hbehind := cursor.behind
    exact Prod.Lex.left _ _ (by omega)

def globFullMatch : Bool := globLoop pattern text GlobCursor.start

end Glob

/-- Of a pattern that is not anchored the rest of the path may be anything. -/
def matchesPattern (pattern path : List Nat) : Bool :=
  if pattern = [] then true
  else
    let hasEnd := pattern.getLast? = some END_ANCHOR
    let body := if hasEnd then pattern.dropLast else pattern ++ [STAR]
    globFullMatch body path

/-! ## Rules -/

/-- The rule's pattern as the code compares and measures it. -/
def RobotsRule.units (rule : RobotsRule) : List Nat := utf16Units rule.pattern

def betterRule (path : List Nat) (best : Option RobotsRule) (rule : RobotsRule) :
    Option RobotsRule :=
  if matchesPattern rule.units path then
    match best with
    | none => some rule
    | some best =>
      if rule.units.length > best.units.length then some rule
      else if rule.units.length = best.units.length ∧ rule.directive = .allow ∧
          best.directive = .disallow then some rule
      else some best
  else best

def bestRuleForPath (rules : List RobotsRule) (path : List Nat) : Option RobotsRule :=
  rules.foldl (betterRule path) none

/-- What `new URL` finds in a URL. -/
structure UrlPath where
  pathname : String
  search : String
  deriving DecidableEq, Repr

def pathAndQueryOf (url : UrlPath) : String :=
  let path := if url.pathname = "" then "/" else url.pathname
  normalizePercentEncoding (path ++ url.search)

/-! ## Groups -/

section Groups

-- `toLowerCase` of the platform
variable (toLowerCase : String → String) (uaToken : String)

def agentMatches (declared : String) : Bool :=
  if declared = "" ∨ declared = "*" then false
  else decide (utf16Units (toLowerCase declared) <:+: utf16Units (toLowerCase uaToken))

/-- The groups that name the crawler with the longest token so far, by their positions. -/
structure MatchedGroups where
  bestLen : Nat
  matched : List (RobotsGroup × Nat)
  deriving DecidableEq, Repr

def MatchedGroups.see (group : RobotsGroup × Nat) (found : MatchedGroups) (ua : String) :
    MatchedGroups :=
  if agentMatches toLowerCase uaToken ua then
    let length := (utf16Units ua).length
    if length > found.bestLen then ⟨length, [group]⟩
    else if length = found.bestLen then
      if found.matched.any (·.2 == group.2) then found
      else { found with matched := found.matched ++ [group] }
    else found
  else found

def matchedGroups (groups : List RobotsGroup) : MatchedGroups :=
  groups.zipIdx.foldl
    (fun found group => group.1.userAgents.foldl (MatchedGroups.see toLowerCase uaToken group) found)
    ⟨0, []⟩

def selectApplicableGroups (rules : RobotsRules) : List RobotsGroup × String :=
  let found := matchedGroups toLowerCase uaToken rules.groups
  if found.matched ≠ [] then (found.matched.map Prod.fst, "utsuroibot")
  else
    let wildcardGroups := rules.groups.filter fun group => group.userAgents.contains "*"
    if wildcardGroups ≠ [] then (wildcardGroups, "*") else ([], "none")

def RobotsDirective.name : RobotsDirective → String
  | .allow => "allow"
  | .disallow => "disallow"

def evaluateRobots (rules : RobotsRules) (url : UrlPath) : EvaluateRobotsResult :=
  let selected := selectApplicableGroups toLowerCase uaToken rules
  if selected.1 = [] then ⟨.allowed, selected.2, none⟩
  else
    let path := utf16Units (pathAndQueryOf url)
    let allRules := selected.1.flatMap RobotsGroup.rules
    match bestRuleForPath allRules path with
    | none => ⟨.allowed, selected.2, none⟩
    | some best =>
      ⟨if best.directive = .allow then .allowed else .disallowed, selected.2,
        some (best.directive.name ++ ": " ++ best.pattern)⟩

end Groups

end Utsuroi
