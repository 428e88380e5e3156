import Mathlib.Tactic
import Utsuroi.Framework.Guard
import Utsuroi.Pipeline.ContentProcessor

/-!
# The gate before every fetch

Before a URL is fetched the URL is checked, its name is resolved and checked, and robots.txt is
asked.  Each place that fetches does this of its own; the gate is the guard they all obey.
-/

namespace Utsuroi

open Async Prog

/-- What was asked last, and how many documents were fetched. -/
structure GateMemory where
  resolved : Option Url
  mode : Option String
  robots : Option (String × Url)
  fetches : Nat
  deriving DecidableEq, Repr

def newGateMemory : GateMemory := ⟨none, none, none, 0⟩

def noteCall : Site → GateMemory → GateMemory
  | .resolveAndCheck url, m => { m with resolved := some url }
  | .getRobotsMode origin, m => { m with mode := some origin }
  | .checkRobots origin url, m => { m with robots := some (origin, url) }
  | .fetchTarget _, m => { m with fetches := m.fetches + 1 }
  | _, m => m

/-- The URL was asked about last, and all answers let it pass. -/
structure GatePassed (items : ItemTools) (m : GateMemory) (url : Url) : Prop where
  ssrf : items.ssrfAllowed url = true
  asked : m.resolved = some url
  resolved : items.resolvedAllowed url = true
  robots : ∃ origin, items.origin url = some origin ∧ m.mode = some origin ∧
    m.robots = some (origin, url) ∧
      ((items.robots origin url).allowed = true ∨ items.robotsMode origin = .ignore)

/-- The gate of a check: the document at `source` is fetched first, and then at most
`maxFetchesPerCheck` children as `child` has them. -/
def checkGate (items : ItemTools) (source : Url) (child : Url → Prop)
    (maxFetchesPerCheck : Nat) : Guard Site GateMemory where
  note := noteCall
  admits
    | .fetchPage url, m => GatePassed items m url
    | .fetchTarget url, m => GatePassed items m url ∧
        (m.fetches = 0 ∧ url = source ∨ 1 ≤ m.fetches ∧ m.fetches ≤ maxFetchesPerCheck ∧ child url)
    | _, _ => True

/-- The same gate, where robots.txt is asked only about URLs that the check of URLs lets pass. -/
def requestGate (items : ItemTools) (source : Url) (child : Url → Prop)
    (maxFetchesPerCheck : Nat) : Guard Site GateMemory where
  note := noteCall
  admits
    | .checkRobots origin url, _ => items.ssrfAllowed url = true ∧ items.origin url = some origin
    | site, m => (checkGate items source child maxFetchesPerCheck).admits site m

theorem checkGate_of_requestGate {items : ItemTools} {source : Url} {child : Url → Prop}
    {maxFetchesPerCheck : Nat} {site : Site} {m : GateMemory}
    (h : (requestGate items source child maxFetchesPerCheck).admits site m) :
    (checkGate items source child maxFetchesPerCheck).admits site m := by
  cases site with
  | checkRobots origin url => trivial
  | _ => exact h

/-! ## Children -/

section Children

variable (items : ItemTools) (ctx : CheckContext)

/-- The indexes of a traversal that begins at `root`, with their depths. -/
inductive IndexAt (root : AdapterParseResult) : Nat → AdapterParseResult → Prop
  | root : IndexAt root 0 root
  | nested {depth nth : Nat} {parsed parsed' : AdapterParseResult} {child : SelectedChildEntry}
    {etag lastModified : Option String} {result : FetchSuccess} {body : List UInt8}
    (hparsed : IndexAt root depth parsed)
    (hchild : child ∈ childrenToProcess items ctx (cutoffOf ctx) parsed)
    (hfetched : items.fetchTarget nth child.loc etag lastModified =
      .success result false (some body))
    (hbody : items.parseSource .sitemap child.loc body result.headerCharset = some parsed')
    (hdepth : depth + 1 < maxDepthOf ctx) : IndexAt root (depth + 1) parsed'

/-- A child of such an index that is new enough, of the site's origin and not excluded. -/
def FetchableChild (root : AdapterParseResult) (url : Url) : Prop :=
  ∃ depth parsed lastmod, IndexAt items ctx root depth parsed ∧ depth < max 1 (maxDepthOf ctx) ∧
    ⟨url, lastmod⟩ ∈ childrenToProcess items ctx (cutoffOf ctx) parsed ∧
    jsLt lastmod (cutoffOf ctx) = false ∧
    (childPatterns ctx = [] ∨
      matchesChildIncludePattern items url (childPatterns ctx) = true) ∧
    ∃ origin primaryOrigin, items.origin url = some origin ∧
      ctx.site.primaryOrigin = some primaryOrigin ∧ items.origin primaryOrigin = some origin

end Children

/-- A child that a traversal of the source's document comes upon. -/
def SourceChild (items : ItemTools) (ctx : CheckContext) (outcome : FetchSuccess)
    (body : List UInt8) (url : Url) : Prop :=
  ∃ root, items.parseSource ctx.source.type ctx.source.url body outcome.headerCharset = some root ∧
    FetchableChild items ctx root url

/-- A child of the document fetched at `source`. -/
def CheckedChild (items : ItemTools) (source : SourceRow) (site : Option SiteRow) (now : Nat)
    (url : Url) : Prop :=
  ∃ ctx etag lastModified result body, ctx.source = source ∧ site = some ctx.site ∧ ctx.now = now ∧
    items.fetchTarget 0 source.url etag lastModified = .success result false (some body) ∧
    SourceChild items ctx result body url

/-- The world of a check that asks and fetches what `items` says; `checkUrlForSsrf` refuses what
`new URL` does not parse. -/
def siteWorld (items : ItemTools) (tools : ContentTools) (source : SourceRow)
    (world : CheckWorld) : CheckWorld :=
  let origin := (items.origin source.url).getD ""
  { world with
    source := some source
    staticSsrfAllowed := items.ssrfAllowed source.url && (items.origin source.url).isSome
    resolvedAllowed := items.resolvedAllowed source.url
    origin := origin
    robotsMode := items.robotsMode origin
    robots := items.robots origin source.url
    fetchTarget := fun etag lastModified =>
      ⟨.query (.fetchTarget source.url) fun _ => items.fetchTarget 0 source.url etag lastModified,
        frames_query.mpr trivial⟩
    processor := resolveContentProcessor items tools }

/-! ## The depth of the recursion -/

/-- The traversal with the depth of the index, which stays below its bound. -/
def traverseAtDepth (tools : ItemTools) (ctx : CheckContext) (cutoffIso : String)
    (maxFetchesPerCheck maxDepth : Nat) (depth : { depth : Nat // depth < max 1 maxDepth }) :
    AdapterParseResult → TraversalState → Prog Site Store TraversalState :=
  traverseChildren tools ctx cutoffIso maxFetchesPerCheck
    (if h : depth.1 + 1 < maxDepth then
      some (traverseAtDepth tools ctx cutoffIso maxFetchesPerCheck maxDepth
        ⟨depth.1 + 1, lt_max_of_lt_right h⟩)
    else none)
termination_by maxDepth - depth.1

theorem traverseAtDepth_eq (tools : ItemTools) (ctx : CheckContext) (cutoffIso : String)
    (maxFetchesPerCheck maxDepth : Nat) (depth : { depth : Nat // depth < max 1 maxDepth }) :
    traverseAtDepth tools ctx cutoffIso maxFetchesPerCheck maxDepth depth =
      traverseSitemapIndex tools ctx cutoffIso maxFetchesPerCheck (maxDepth - 1 - depth.1) := by
  generalize hlevels : maxDepth - 1 - depth.1 = levels
  induction levels generalizing depth with
  | zero =>
    rw [traverseAtDepth, dif_neg (by omega)]
    rfl
  | succ levels ih =>
    have hdepth : depth.1 + 1 < maxDepth := by omega
    have hnext : maxDepth - 1 - (depth.1 + 1) = levels := by omega
    rw [traverseAtDepth, dif_pos hdepth, ih ⟨depth.1 + 1, lt_max_of_lt_right hdepth⟩ hnext]
    rfl

end Utsuroi
