import Utsuroi.Pipeline.Classify
import Utsuroi.Pipeline.EnrichTitle

/-!
# Item processing

The items of a feed, a sitemap or an extracted page become targets, and new or updated
ones become changes.  `processFeedItems` runs its stages one after another: Detect for all
items, then Enrich, Classify and Notify.
-/

namespace Utsuroi

open Async

def MAX_FEED_ITEMS_PER_CHECK : Nat := 2000

section Feed

variable (tools : ItemTools) (ctx : CheckContext)

/-- The change an item makes of its target. -/
def itemChange (summaryAsDiffPreview : Bool) (target : TargetRow) (item : FeedItem)
    (kind : ChangeKind) (dedupeKey : String) : ChangeRow where
  id := ⟨ctx.monitor.id, dedupeKey⟩
  targetId := some target.id
  targetUrl := target.id.url
  kind := kind
  diffLevel := none
  previousSnapshotId := none
  snapshotId := none
  diffR2Key := none
  diffPreview := if summaryAsDiffPreview then item.summary else none
  title := item.title
  tags := none

def updatedKey (item : FeedItem) (updatedAt : String) : String :=
  item.stableKey ++ ":" ++ updatedAt

/-- The new `updatedAt` of an item its target was known by another one. -/
def updateOf (item : FeedItem) (previous : ExistingTargetWatermark) : Option String :=
  item.updatedAt.filter fun updatedAt =>
    updatedAt != "" && some updatedAt != previous.lastKnownUpdatedAt

/-- The part of the loop's body that follows the target's upsert. -/
def detectOnTarget (summaryAsDiffPreview : Bool) (previous : ExistingTargetWatermark)
    (target : TargetRow) (item : FeedItem) : Prog Site Store (Option DetectedChange) := do
  -- the monitor's first check is its baseline
  if ctx.monitor.lastCheckedAt.isNone then return none
  else if !previous.present then
    let inserted ← insertChangeIfNew
      (itemChange ctx summaryAsDiffPreview target item .new item.stableKey)
    return some ⟨inserted.row, inserted.inserted, none, some item⟩
  else
    match updateOf item previous with
    | none => return none
    | some updatedAt =>
      let inserted ← insertChangeIfNew
        (itemChange ctx summaryAsDiffPreview target item .updated (updatedKey item updatedAt))
      return some ⟨inserted.row, inserted.inserted, some (target.id, updatedAt), some item⟩

/-- The body of the loop for an item whose URL may be a target. -/
def detectItem (summaryAsDiffPreview : Bool) (url : Url) (item : FeedItem) :
    Prog Site Store (Option DetectedChange) := do
  let id : TargetId := ⟨ctx.monitor.id, url⟩
  let previous ← getExistingTargetWatermark id
  -- a target that is there keeps its watermark until the Notify stage
  let target ← upsertTarget
    ⟨id, some item.stableKey, if previous.present then none else some item.updatedAt⟩
  setTargetLastChecked target.id ctx.now
  detectOnTarget ctx summaryAsDiffPreview previous target item

/-- The URL of an item that is not skipped. -/
def targetUrl (item : FeedItem) : Option Url :=
  item.url.filter fun url => url != "" && tools.ssrfAllowed url

def detectFeedChange (summaryAsDiffPreview : Bool) (detected : List DetectedChange)
    (item : FeedItem) : Prog Site Store (List DetectedChange) :=
  match targetUrl tools item with
  | none => return detected
  | some url => do
    let d ← detectItem ctx summaryAsDiffPreview url item
    return detected ++ d.toList

def detectFeedChanges (summaryAsDiffPreview : Bool) (maxItems : Nat) (items : List FeedItem) :
    Prog Site Store (List DetectedChange) :=
  (items.take maxItems).foldlM (detectFeedChange tools ctx summaryAsDiffPreview) []

structure ProcessFeedItemsResult where
  truncatedCount : Nat
  progress : CheckProgress
  deriving DecidableEq, Repr

/-- What follows the Detect stage. -/
def processDetected (progress : CheckProgress) (detected : List DetectedChange) :
    Prog Site Store CheckProgress := do
  let enriched ← enrichDetectedChanges tools progress.titleFetchesUsed detected
  let classified ← classifyDetectedChanges tools ctx enriched.done
  let changeIds ← notifyDetectedChanges ctx progress.changeIds classified
  return ⟨changeIds, enriched.used⟩

def processFeedItems (progress : CheckProgress) (items : List FeedItem) (maxItems : Nat)
    (summaryAsDiffPreview : Bool) : Prog Site Store ProcessFeedItemsResult := do
  let detected ← detectFeedChanges tools ctx summaryAsDiffPreview maxItems items
  let progress ← processDetected tools ctx progress detected
  return ⟨items.length - maxItems, progress⟩

/-! ## Feeds -/

/-- The snapshot of a document of items. -/
def feedSnapshot (targetId : TargetId) (outcome : FetchSuccess) (rawHash : Hash) :
    SnapshotRow where
  id := 0
  targetId := targetId
  fetchedAt := ctx.now
  etag := outcome.etag
  lastModified := outcome.lastModified
  bodyHash := rawHash
  normalizedR2Key := none
  normalizedHash := none
  textHash := none
  normalizationVersion := none

def processFeedContent (target : TargetRow) (outcome : FetchSuccess) (body : List UInt8) :
    Prog Site Store CheckProgress := do
  let rawHash := tools.sha256Bytes body
  putBody rawHash body
  match tools.parseSource ctx.source.type ctx.source.url body outcome.headerCharset with
  | none => return newProgress
  | some parsed =>
    let _ ← createSnapshot (feedSnapshot ctx target.id outcome rawHash)
    let result ← processFeedItems tools ctx newProgress parsed.items MAX_FEED_ITEMS_PER_CHECK false
    return result.progress

/-! ## Extracted pages -/

/-- One line a field, "name: value". -/
def formatFieldsAsSummary (fields : List (String × String)) : Option String :=
  match fields with
  | [] => none
  | fields => some ("\n".intercalate (fields.map fun (name, value) => name ++ ": " ++ value))

def extractedItem (item : FeedItem) : FeedItem :=
  { item with summary := formatFieldsAsSummary item.fields }

def processPageItems (target : TargetRow) (outcome : FetchSuccess) (body : List UInt8) :
    Prog Site Store CheckProgress :=
  match ctx.source.config.bind SourceConfig.extract with
  | none => return newProgress
  | some extract => do
    let extracted ← Prog.query .extractItems fun _ => tools.extractItems extract outcome body
    let result ← processFeedItems tools ctx newProgress (extracted.map extractedItem)
      MAX_FEED_ITEMS_PER_CHECK true
    -- the validators are stored only once the items are processed
    let _ ← createSnapshot (feedSnapshot ctx target.id outcome (tools.sha256Bytes body))
    return result.progress

end Feed

end Utsuroi
