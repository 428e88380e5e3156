import Utsuroi.Framework.KeyedHistory
import Utsuroi.Pipeline.Content

/-!
# The history of one monitored document
-/

namespace Utsuroi

open Async

/-- A document as a successful check of the monitor fetched it. -/
structure Document where
  /-- when the check ran -/
  now : Nat
  outcome : FetchSuccess
  body : List UInt8
  deriving DecidableEq, Repr

/-- What stays the same over the checks of one monitor. -/
structure Watch where
  monitorId : MonitorId
  source : SourceRow
  site : SiteRow
  /-- the row of the source's own URL -/
  target : TargetRow
  tools : ContentTools

/-- A content processor: context, target, previous snapshot, outcome and body. -/
abbrev ContentProcessor :=
  CheckContext → TargetRow → Option SnapshotRow → FetchSuccess → List UInt8 →
    Prog Site Store (List ChangeId)

/-- The part of `runMonitorCheck` around a processor that its result depends on: what is
loaded before it and the stamp written after it. -/
def contentCheck (process : ContentProcessor) (w : Watch) (doc : Document) :
    Prog Site Store (List ChangeId) := do
  let monitor ← getMonitor w.monitorId
  match monitor with
  | none => .fail
  | some monitor =>
    let previousSnapshot ← getLatestSnapshotForTarget w.target.id
    let changeIds ←
      process ⟨monitor, w.source, w.site, doc.now⟩ w.target previousSnapshot doc.outcome doc.body
    setMonitorLastChecked w.monitorId doc.now
    return changeIds

def pageCheck (w : Watch) : Document → Prog Site Store (List ChangeId) :=
  contentCheck (processPageContent w.tools) w

def sitemapDirectCheck (w : Watch) : Document → Prog Site Store (List ChangeId) :=
  contentCheck (processSitemapDirect w.tools) w

/-- Exactly one change is inserted. -/
def InsertsOne (s s' : Store) : Prop :=
  ∃ id row, s.changes id = none ∧ s'.changes = Function.update s.changes id (some row)

/-- Every check returns, inserts one change where its document differs from the one before
and none elsewhere. -/
def DetectsExactly (check : Document → Prog Site Store (List ChangeId))
    (differs : Document → Document → Bool) : Option Document → List Document → Store → Prop
  | _, [], _ => True
  | previous, doc :: docs, s =>
    (check doc).Returns s fun _ s' =>
      (if previous.any (differs · doc) then InsertsOne s s' else s'.changes = s.changes) ∧
        DetectsExactly check differs (some doc) docs s'

/-- R2 keeps texts under their own digests. -/
def Addressed (tools : ContentTools) (s : Store) : Prop :=
  ∀ hash text, s.normalized hash = some text → tools.sha256Text text = hash

/-- A monitor that has not been checked yet. -/
structure Unchecked (w : Watch) (s : Store) : Prop where
  monitor : ∃ row, s.monitors w.monitorId = some row ∧ row.id = w.monitorId ∧
    row.lastCheckedAt = none
  snapshots : ∀ row ∈ s.snapshots, row.targetId ≠ w.target.id
  changes : ∀ key, s.changes ⟨w.monitorId, key⟩ = none
  addressed : Addressed w.tools s

/-- The checks run one after another. -/
def Chronological (docs : List Document) : Prop := docs.Pairwise fun a b => a.now < b.now

/-! ## What differs, and the key of the change -/

def Watch.normalized (w : Watch) (doc : Document) : NormalizedContent :=
  w.tools.normalizeHtml doc.body doc.outcome.headerCharset

/-- The items of a sitemap, `none` when it does not parse. -/
def Watch.parsed (w : Watch) (doc : Document) : Option (List FeedItem) :=
  w.tools.parseSource doc.body doc.outcome.headerCharset

def pageSnapshotOf (w : Watch) (doc : Document) : SnapshotRow :=
  pageSnapshot w.target.id doc.now doc.outcome (w.normalized doc)

/-- `compareSnapshots` on the contents of two documents. -/
def pageComparison (w : Watch) (before after : Document) : SnapshotComparison :=
  compareSnapshots (w.normalized before) (w.normalized after)

def pageDiffers (w : Watch) (before after : Document) : Bool :=
  (pageComparison w before after).changed

/-- The text's digest, or the markup's when only the markup differs. -/
def pageKey (w : Watch) (before after : Document) : String :=
  if (pageComparison w before after).level = some .textHash then (w.normalized after).textHash
  else (w.normalized after).normalizedHash

/-- The digest of a sitemap's document. -/
def sitemapDocHash (w : Watch) (doc : Document) : Option Hash :=
  (w.parsed doc).map fun items => w.tools.sha256Text (buildSitemapDocument items)

def sitemapSnapshotOf (w : Watch) (doc : Document) : SnapshotRow :=
  sitemapSnapshot w.target.id doc.now doc.outcome (w.tools.sha256Bytes doc.body)
    ((sitemapDocHash w doc).getD "")

def sitemapDiffers (w : Watch) (before after : Document) : Bool :=
  decide (sitemapDocHash w before ≠ sitemapDocHash w after)

def sitemapKey (w : Watch) (_before after : Document) : String := (sitemapDocHash w after).getD ""

/-- The keys of the changes a history of documents asks for. -/
def changeKeys (differs : Document → Document → Bool) (key : Document → Document → String) :
    List Document → List String
  | [] => []
  | doc :: docs => KeyedHistory.stepKeys differs key doc docs

end Utsuroi
