import Utsuroi.Db.Store

/-!
# Destinations, deliveries and the notification queue
-/

namespace Utsuroi

open Async

structure SubscriptionMatch where
  siteId : SiteId
  monitorId : MonitorId
  kind : ChangeKind
  tags : List String
  deriving DecidableEq, Repr

/-- The WHERE clause: a null column matches everything. -/
def SubscriptionRow.matches (sub : SubscriptionRow) (m : SubscriptionMatch) : Bool :=
  sub.siteId.all (· == m.siteId) && sub.monitorId.all (· == m.monitorId) &&
    sub.changeKind.all (· == m.kind) && sub.tag.all m.tags.contains

def matchingSubscriptions (m : SubscriptionMatch) (store : Store) : List SubscriptionRow :=
  store.subscriptions.filter fun sub =>
    sub.matches m && (store.destinations sub.destinationId).any fun d => !d.archived

def listMatchingSubscriptions (m : SubscriptionMatch) : Prog Site Store (List SubscriptionRow) :=
  .query .listMatchingSubscriptions (matchingSubscriptions m)

def newDelivery (id : DeliveryId) : DeliveryRow where
  id := id
  status := .pending
  attemptCount := 0
  lastError := none
  claimedAt := none

def Store.insertDelivery (id : DeliveryId) (store : Store) : Store :=
  { store with deliveries := insertIfNew store.deliveries id (newDelivery id) }

def createDeliveryIfNew (changeId : ChangeId) (destinationId : DestinationId) :
    Prog Site Store (InsertResult DeliveryRow) := do
  let id : DeliveryId := ⟨changeId, destinationId⟩
  let inserted ← Prog.call (.insertDelivery id) (Store.insertDelivery id)
    fun store => (store.deliveries id).isNone
  if inserted then return ⟨true, newDelivery id⟩
  let existing ← Prog.query (.selectDelivery id) fun store => store.deliveries id
  match existing with
  | some row => return ⟨false, row⟩
  | none => .fail

def Store.send (id : DeliveryId) (store : Store) : Store :=
  { store with queue := id :: store.queue }

/-- `NOTIFY_QUEUE.send` -/
def queueSend (id : DeliveryId) : Prog Site Store Unit :=
  .call (.queueSend id) (Store.send id) fun _ => ()

/-- `UPDATE deliveries SET … WHERE id = ?` -/
def Store.updateDelivery (id : DeliveryId) (f : DeliveryRow → DeliveryRow) (store : Store) :
    Store :=
  { store with deliveries := Function.update store.deliveries id ((store.deliveries id).map f) }

def Store.markDeliveryDelivered (id : DeliveryId) (store : Store) : Store :=
  store.updateDelivery id fun row => { row with status := .delivered }

def Store.markDeliveryFailed (id : DeliveryId) (error : String) (dead : Bool) (store : Store) :
    Store :=
  store.updateDelivery id fun row =>
    { row with
      status := if dead then .dead else .failed
      lastError := some error
      attemptCount := row.attemptCount + 1 }

@[simp] theorem Store.insertDelivery_queue (id : DeliveryId) (store : Store) :
    (store.insertDelivery id).queue = store.queue := rfl

@[simp] theorem Store.insertDelivery_deliveries (id : DeliveryId) (store : Store) :
    (store.insertDelivery id).deliveries = insertIfNew store.deliveries id (newDelivery id) := rfl

@[simp] theorem Store.send_deliveries (id : DeliveryId) (store : Store) :
    (store.send id).deliveries = store.deliveries := rfl

@[simp] theorem Store.send_queue (id : DeliveryId) (store : Store) :
    (store.send id).queue = id :: store.queue := rfl

end Utsuroi
