import Utsuroi.Pipeline.ChildPatterns
import Utsuroi.Pipeline.Feed
import Utsuroi.Shared.IsoDate

/-!
# Sitemap traversal

The children of a sitemap index whose lastmod is newer than their watermark are fetched and
expanded: the items of a urlset are processed, an index is traversed in turn.  A child's
watermark advances once it is expanded.
-/

namespace Utsuroi

open Async

def DEFAULT_LASTMOD_MAX_AGE_DAYS : Nat := 3
def DEFAULT_MAX_TRAVERSAL_DEPTH : Nat := 3
def MAX_TRAVERSAL_FETCHES_PER_CHECK : Nat := 50
def MAX_CHILD_SITEMAPS : Nat := 20

structure TraversalCounts where
  childrenTruncated : Nat
  depthTruncated : Nat
  originBlocked : Nat
  missingLastmodSkipped : Nat
  feedItemsTruncated : Nat
  fetchBudgetTruncated : Nat
  fetchesUsed : Nat
  patternExcluded : Nat
  deriving DecidableEq, Repr

def newCounts : TraversalCounts := ⟨0, 0, 0, 0, 0, 0, 0, 0⟩

def truncationTotal (counts : TraversalCounts) : Nat :=
  counts.childrenTruncated + counts.depthTruncated + counts.feedItemsTruncated +
    counts.fetchBudgetTruncated

/-! ## Items and children -/

/-- `item.url` is neither null nor empty. -/
def hasUrl (item : FeedItem) : Bool := item.url.any (· != "")

def filterItemsForTraversal (cutoffIso : String) (items : List FeedItem) : List FeedItem :=
  items.filter fun item => hasUrl item && item.updatedAt.any fun updatedAt => !jsLt updatedAt cutoffIso

/-- The count of `filterItemsForTraversal`. -/
def missingLastmod (items : List FeedItem) : Nat :=
  items.countP fun item => hasUrl item && item.updatedAt.isNone

structure ChildEntry where
  loc : Url
  lastmod : Option String
  deriving DecidableEq, Repr

structure SelectedChildEntry where
  loc : Url
  lastmod : String
  deriving DecidableEq, Repr

def childEntries (items : List FeedItem) : List ChildEntry :=
  items.filterMap fun item => item.url.map fun url => ⟨url, item.updatedAt⟩

section Traversal

variable (tools : ItemTools) (ctx : CheckContext) (cutoffIso : String)

def childPatterns : List String := (ctx.source.config.map SourceConfig.childIncludePatterns).getD []

/-- What keeps a child with a lastmod out of the selection, in the order it is asked. -/
def tooOld (lastmod : String) : Bool := jsLt lastmod cutoffIso

def excluded (loc : Url) : Bool :=
  !(childPatterns ctx).isEmpty && !matchesChildIncludePattern tools loc (childPatterns ctx)

def eligibleChild (entry : ChildEntry) : Option SelectedChildEntry :=
  match entry.lastmod with
  | none => none
  | some lastmod =>
    if tooOld cutoffIso lastmod || excluded tools ctx entry.loc then none
    else some ⟨entry.loc, lastmod⟩

/-- The order of the selection: the newest first, equals as in the document. -/
def newerFirst (a b : SelectedChildEntry) : Bool := jsLe b.lastmod a.lastmod

def selectChildEntries (entries : List ChildEntry) : List SelectedChildEntry :=
  (entries.filterMap (eligibleChild tools ctx cutoffIso)).mergeSort newerFirst

/-- The counts of `selectChildEntries`. -/
def countSelection (entries : List ChildEntry) (counts : TraversalCounts) : TraversalCounts :=
  { counts with
    missingLastmodSkipped :=
      counts.missingLastmodSkipped + entries.countP fun entry => entry.lastmod.isNone
    patternExcluded :=
      counts.patternExcluded + entries.countP fun entry =>
        entry.lastmod.any fun lastmod => !tooOld cutoffIso lastmod && excluded tools ctx entry.loc }

def isWithinSiteOrigin (childUrl : Url) : Bool :=
  match ctx.site.primaryOrigin with
  | none => false
  | some primaryOrigin =>
    primaryOrigin != "" &&
      match tools.origin childUrl, tools.origin primaryOrigin with
      | some origin, some siteOrigin => origin == siteOrigin
      | _, _ => false

/-! ## One child -/

/-- What the traversal of a check adds up on its way. -/
structure TraversalState where
  counts : TraversalCounts
  progress : CheckProgress
  deriving DecidableEq, Repr

def TraversalState.count (f : TraversalCounts → TraversalCounts) (st : TraversalState) :
    TraversalState := { st with counts := f st.counts }

/-- The traversal of an index below a child, `none` where the depth is used up. -/
abbrev Nested := Option (AdapterParseResult → TraversalState → Prog Site Store TraversalState)

/-- The end of a child that was expanded. -/
def advanceChild (id : TargetId) (lastmod : String) (st : TraversalState) :
    Prog Site Store TraversalState := do
  setTargetLastKnownUpdatedAt id lastmod
  return st

def expandUrlset (id : TargetId) (lastmod : String) (items : List FeedItem)
    (st : TraversalState) : Prog Site Store TraversalState := do
  let filtered := filterItemsForTraversal cutoffIso items
  let st := st.count fun c =>
    { c with missingLastmodSkipped := c.missingLastmodSkipped + missingLastmod items }
  if filtered.isEmpty then
    advanceChild id lastmod st
  else
    let result ← processFeedItems tools ctx st.progress filtered MAX_FEED_ITEMS_PER_CHECK false
    let st := { st with progress := result.progress }
    if 0 < result.truncatedCount then
      return st.count fun c =>
        { c with feedItemsTruncated := c.feedItemsTruncated + result.truncatedCount }
    else
      advanceChild id lastmod st

def expandIndex (nested : Nested) (id : TargetId) (lastmod : String)
    (parsed : AdapterParseResult) (st : TraversalState) : Prog Site Store TraversalState :=
  match nested with
  | none => return st.count fun c => { c with depthTruncated := c.depthTruncated + 1 }
  | some traverse => do
    let st' ← traverse parsed st
    -- an index below which something was cut keeps its watermark
    if truncationTotal st.counts < truncationTotal st'.counts then return st'
    else advanceChild id lastmod st'

def expandChild (nested : Nested) (id : TargetId) (lastmod : String)
    (parsed : AdapterParseResult) (st : TraversalState) : Prog Site Store TraversalState :=
  if parsed.kind = .sitemap then expandUrlset tools ctx cutoffIso id lastmod parsed.items st
  else expandIndex nested id lastmod parsed st

def processChildBody (nested : Nested) (id : TargetId) (child : SelectedChildEntry)
    (outcome : FetchOutcome) (st : TraversalState) : Prog Site Store TraversalState :=
  match outcome with
  | .failure _ _ => return st
  | .success result notModified body => do
    setTargetLastChecked id ctx.now
    match notModified, body with
    | false, some body =>
      match tools.parseSource .sitemap child.loc body result.headerCharset with
      | none => return st
      | some parsed => expandChild tools ctx cutoffIso nested id child.lastmod parsed st
    | _, _ => return st

variable (maxFetchesPerCheck : Nat)

def fetchChild (nested : Nested) (id : TargetId) (child : SelectedChildEntry)
    (st : TraversalState) : Prog Site Store TraversalState :=
  if maxFetchesPerCheck ≤ st.counts.fetchesUsed then
    return st.count fun c => { c with fetchBudgetTruncated := c.fetchBudgetTruncated + 1 }
  else do
    let st := st.count fun c => { c with fetchesUsed := c.fetchesUsed + 1 }
    let latest ← getLatestSnapshotForTarget id
    let outcome ← Prog.query (.fetchTarget child.loc) fun _ =>
      tools.fetchTarget st.counts.fetchesUsed child.loc (latest.bind SnapshotRow.etag)
        (latest.bind SnapshotRow.lastModified)
    processChildBody tools ctx cutoffIso nested id child outcome st

/-- robots.txt is asked under the mode the site has for the child's origin. -/
def fetchChildUnderRobots (nested : Nested) (id : TargetId) (child : SelectedChildEntry)
    (origin : String) (st : TraversalState) : Prog Site Store TraversalState := do
  let robotsMode ← Prog.query (.getRobotsMode origin) fun _ => tools.robotsMode origin
  let decision ← Prog.query (.checkRobots origin child.loc) fun _ => tools.robots origin child.loc
  if !decision.allowed && robotsMode == .enforce then return st
  else fetchChild tools ctx cutoffIso maxFetchesPerCheck nested id child st

def visitChild (nested : Nested) (id : TargetId) (child : SelectedChildEntry)
    (st : TraversalState) : Prog Site Store TraversalState :=
  if !tools.ssrfAllowed child.loc then return st
  else do
    let resolved ← Prog.query (.resolveAndCheck child.loc) fun _ => tools.resolvedAllowed child.loc
    if !resolved then return st
    else
      match tools.origin child.loc with
      | none => return st
      | some origin =>
        fetchChildUnderRobots tools ctx cutoffIso maxFetchesPerCheck nested id child origin st

/-- A child that was there keeps closed what its watermark has reached. -/
def gateCloses (previous : ExistingTargetWatermark) (lastmod : String) : Bool :=
  previous.present && previous.lastKnownUpdatedAt.any fun known => jsLe lastmod known

def traverseChild (nested : Nested) (st : TraversalState) (child : SelectedChildEntry) :
    Prog Site Store TraversalState :=
  if !isWithinSiteOrigin tools ctx child.loc then
    return st.count fun c => { c with originBlocked := c.originBlocked + 1 }
  else do
    let id : TargetId := ⟨ctx.monitor.id, child.loc⟩
    let previous ← getExistingTargetWatermark id
    let target ← upsertTarget
      ⟨id, some "sitemap-index", if previous.present then none else some (some child.lastmod)⟩
    if ctx.monitor.lastCheckedAt.isNone || gateCloses previous child.lastmod then
      setTargetLastChecked target.id ctx.now
      return st
    else
      visitChild tools ctx cutoffIso maxFetchesPerCheck nested target.id child st

/-! ## The traversal -/

/-- The children of one index that get a slot. -/
def childrenToProcess (parsed : AdapterParseResult) : List SelectedChildEntry :=
  (selectChildEntries tools ctx cutoffIso (childEntries parsed.items)).take MAX_CHILD_SITEMAPS

/-- The counts an index begins with. -/
def countIndex (parsed : AdapterParseResult) (counts : TraversalCounts) : TraversalCounts :=
  let entries := childEntries parsed.items
  let counts := countSelection tools ctx cutoffIso entries counts
  { counts with
    childrenTruncated := counts.childrenTruncated +
      ((selectChildEntries tools ctx cutoffIso entries).length - MAX_CHILD_SITEMAPS) }

def traverseChildren (nested : Nested) (parsed : AdapterParseResult) (st : TraversalState) :
    Prog Site Store TraversalState :=
  (childrenToProcess tools ctx cutoffIso parsed).foldlM
    (traverseChild tools ctx cutoffIso maxFetchesPerCheck nested)
    (st.count (countIndex tools ctx cutoffIso parsed))

/-- `levels` is how many indexes deep the traversal may go below this one,
`maxDepth - 1 - depth`. -/
def traverseSitemapIndex : Nat → AdapterParseResult → TraversalState →
    Prog Site Store TraversalState
  | 0, parsed, st => traverseChildren tools ctx cutoffIso maxFetchesPerCheck none parsed st
  | levels + 1, parsed, st =>
    traverseChildren tools ctx cutoffIso maxFetchesPerCheck (some (traverseSitemapIndex levels))
      parsed st

end Traversal

/-! ## The source document -/

section Source

variable (tools : ItemTools) (ctx : CheckContext)

def cutoffOf : String :=
  let days := ((ctx.source.config.bind SourceConfig.lastmodMaxAgeDays).getD
    DEFAULT_LASTMOD_MAX_AGE_DAYS)
  isoString ((ctx.now : Int) - (days : Int) * 86400000)

def maxDepthOf : Nat :=
  (ctx.source.config.bind SourceConfig.maxDepth).getD DEFAULT_MAX_TRAVERSAL_DEPTH

/-- The audit event of a traversal that cut something. -/
def recordTruncationIfAny (counts : TraversalCounts) : Prog Site Store PUnit :=
  if truncationTotal counts = 0 then return ⟨⟩
  else .query .recordAuditEvent fun _ => ⟨⟩

/-- A source that is a urlset itself is processed like a child. -/
def traverseSource (maxFetchesPerCheck : Nat) (parsed : AdapterParseResult) :
    Prog Site Store TraversalState :=
  let st : TraversalState := ⟨newCounts, newProgress⟩
  if parsed.kind = .sitemap then
    let filtered := filterItemsForTraversal (cutoffOf ctx) parsed.items
    let st := st.count fun c =>
      { c with missingLastmodSkipped := c.missingLastmodSkipped + missingLastmod parsed.items }
    if filtered.isEmpty then return st
    else do
      let result ← processFeedItems tools ctx st.progress filtered MAX_FEED_ITEMS_PER_CHECK false
      return { counts :=
                { st.counts with
                  feedItemsTruncated := st.counts.feedItemsTruncated + result.truncatedCount }
               progress := result.progress }
  else
    traverseSitemapIndex tools ctx (cutoffOf ctx) maxFetchesPerCheck (maxDepthOf ctx - 1) parsed st

def processSitemapTraversal (maxFetchesPerCheck : Nat) (target : TargetRow)
    (outcome : FetchSuccess) (body : List UInt8) : Prog Site Store CheckProgress := do
  let rawHash := tools.sha256Bytes body
  putBody rawHash body
  match tools.parseSource ctx.source.type ctx.source.url body outcome.headerCharset with
  | none => return newProgress
  | some parsed =>
    let _ ← createSnapshot (feedSnapshot ctx target.id outcome rawHash)
    let st ← traverseSource tools ctx maxFetchesPerCheck parsed
    recordTruncationIfAny st.counts
    return st.progress

end Source

end Utsuroi
