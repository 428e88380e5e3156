import Utsuroi.Shared.Types

/-!
# Rows of the store

A row's random id is represented by its unique key: the code only compares ids, and the
key is what the table's UNIQUE constraint identifies the row by.  Stamps that no function
reads back are left out; the others are epoch milliseconds.
-/

namespace Utsuroi

abbrev SiteId := Nat
abbrev MonitorId := Nat
abbrev DestinationId := Nat
abbrev Url := String

structure SiteRow where
  id : SiteId
  primaryOrigin : Option String
  deriving DecidableEq, Repr

/-- One rule of `config.classify`. -/
structure ClassifyRule where
  tag : String
  field : String
  pattern : String
  flags : Option String
  deriving DecidableEq, Repr

structure ClassifyConfig where
  rules : List ClassifyRule
  defaultTag : Option String
  deriving DecidableEq, Repr

inductive SitemapMode
  | direct
  | traverse
  deriving DecidableEq, Repr

inductive PageMode
  | content
  | extract
  deriving DecidableEq, Repr

/-- One of `config.extract.fields`. -/
structure ExtractField where
  name : String
  selector : Option String
  label : Option String
  deriving DecidableEq, Repr

structure ExtractConfig where
  itemSelector : String
  linkSelector : Option String
  titleSelector : Option String
  fields : List ExtractField
  deriving DecidableEq, Repr

structure SourceConfig where
  sitemapMode : Option SitemapMode
  lastmodMaxAgeDays : Option Nat
  maxDepth : Option Nat
  childIncludePatterns : List String
  pageMode : Option PageMode
  extract : Option ExtractConfig
  classify : Option ClassifyConfig
  deriving DecidableEq, Repr

structure SourceRow where
  siteId : SiteId
  type : SourceType
  url : Url
  config : Option SourceConfig
  deriving DecidableEq, Repr

structure MonitorRow where
  id : MonitorId
  siteId : SiteId
  status : MonitorStatus
  intervalSeconds : Nat
  nextRunAt : Option Nat
  lastCheckedAt : Option Nat
  stopReason : Option String
  robotsEvaluationId : Option Nat
  deriving DecidableEq, Repr

/-- `UNIQUE(monitor_id, scheduled_for)` -/
structure CheckJobId where
  monitorId : MonitorId
  scheduledFor : Nat
  deriving DecidableEq, Repr

structure CheckJobRow where
  id : CheckJobId
  status : CheckJobStatus
  trigger : Trigger
  deriving DecidableEq, Repr

structure RobotsEvaluationRow where
  origin : String
  checkedAt : Nat
  unavailable : Bool
  deriving DecidableEq, Repr

/-- `UNIQUE(monitor_id, url)` -/
structure TargetId where
  monitorId : MonitorId
  url : Url
  deriving DecidableEq, Repr

structure TargetRow where
  id : TargetId
  discoveredFrom : Option String
  lastCheckedAt : Option Nat
  lastKnownUpdatedAt : Option String
  deriving DecidableEq, Repr

/-- `UNIQUE(monitor_id, dedupe_key)` -/
structure ChangeId where
  monitorId : MonitorId
  dedupeKey : String
  deriving DecidableEq, Repr

/-- The number of snapshots stored before this one. -/
abbrev SnapshotId := Nat

/-- A sha-256 digest in hex. -/
abbrev Hash := String

structure SnapshotRow where
  id : SnapshotId
  targetId : TargetId
  fetchedAt : Nat
  etag : Option String
  lastModified : Option String
  bodyHash : Hash
  /-- `normalized_r2_key`; a feed's snapshot has none of the normalized columns -/
  normalizedR2Key : Option Hash
  normalizedHash : Option Hash
  textHash : Option Hash
  normalizationVersion : Option Nat
  deriving DecidableEq, Repr

structure ChangeRow where
  id : ChangeId
  targetId : Option TargetId
  targetUrl : Url
  kind : ChangeKind
  diffLevel : Option DiffLevel
  previousSnapshotId : Option SnapshotId
  snapshotId : Option SnapshotId
  /-- `diffs/<change id>` -/
  diffR2Key : Option ChangeId
  diffPreview : Option String
  title : Option String
  tags : Option (List String)
  deriving DecidableEq, Repr

structure SubscriptionRow where
  destinationId : DestinationId
  siteId : Option SiteId
  monitorId : Option MonitorId
  tag : Option String
  changeKind : Option ChangeKind
  deriving DecidableEq, Repr

structure DestinationRow where
  archived : Bool
  deriving DecidableEq, Repr

/-- `UNIQUE(change_id, destination_id)` -/
structure DeliveryId where
  changeId : ChangeId
  destinationId : DestinationId
  deriving DecidableEq, Repr

structure DeliveryRow where
  id : DeliveryId
  status : DeliveryStatus
  attemptCount : Nat
  lastError : Option String
  claimedAt : Option Nat
  deriving DecidableEq, Repr

end Utsuroi
