import Utsuroi.Db.Deliveries
import Utsuroi.Db.Items
import Utsuroi.Pipeline.Types

/-!
# The Notify stage

Matching subscriptions, one delivery for each destination and one queue message for each
delivery that is new.
-/

namespace Utsuroi

open Async

/-- The body of the loop over the subscriptions. -/
def fanoutTo (changeId : ChangeId) (sub : SubscriptionRow) : Prog Site Store PUnit := do
  let delivery ← createDeliveryIfNew changeId sub.destinationId
  if delivery.inserted then queueSend delivery.row.id

/-- What the fan-out of a change asks the subscriptions for. -/
def fanoutMatch (ctx : CheckContext) (change : ChangeRow) : SubscriptionMatch where
  siteId := ctx.site.id
  monitorId := ctx.monitor.id
  kind := change.kind
  -- an unclassified change matches only subscriptions without a tag
  tags := change.tags.getD []

def fanoutChange (ctx : CheckContext) (change : ChangeRow) : Prog Site Store PUnit := do
  let subs ← listMatchingSubscriptions (fanoutMatch ctx change)
  subs.forM (fanoutTo change.id)

/-- A change the Detect stage found, on its way through the later stages. -/
structure DetectedChange where
  row : ChangeRow
  inserted : Bool
  /-- the target and the watermark it is advanced to once the change is fanned out -/
  watermarkAdvance : Option (TargetId × String)
  item : Option FeedItem
  deriving DecidableEq, Repr

/-- The body of the loop over the detected changes; answers `ctx.changeIds`. -/
def notifyDetectedChange (ctx : CheckContext) (changeIds : List ChangeId) (d : DetectedChange) :
    Prog Site Store (List ChangeId) := do
  fanoutChange ctx d.row
  let changeIds := if d.inserted then changeIds ++ [d.row.id] else changeIds
  if let some (targetId, updatedAt) := d.watermarkAdvance then
    setTargetLastKnownUpdatedAt targetId updatedAt
  return changeIds

def notifyDetectedChanges (ctx : CheckContext) (changeIds : List ChangeId)
    (detected : List DetectedChange) : Prog Site Store (List ChangeId) :=
  detected.foldlM (notifyDetectedChange ctx) changeIds

end Utsuroi
