import Utsuroi.Framework.RelyGuarantee
import Utsuroi.Framework.Run
import Utsuroi.Notify.Batch

/-!
# The notification queue and its consumers

Any number of consumers run at once, each over a batch of queued messages.  They interleave
at their awaits; any await may throw, and any consumer may be killed at one, upon which the
queue redelivers what it held.
-/

namespace Utsuroi

open Async Transition

abbrev NotifyState := Pool ConsumerId NotifySite NotifyWorld

namespace NotifyWorld

/-- A consumer that returns acks what is left of its batch. -/
def ackRest (c : ConsumerId) (w : NotifyWorld) : NotifyWorld :=
  (w.batches c).foldl (fun w message => if w.Holds c message.id then w.ack c message else w) w

/-- A consumer that throws or is killed gives back what is left of its batch. -/
def abandon (c : ConsumerId) (w : NotifyWorld) : NotifyWorld :=
  w.giveBack c fun m => w.Holds c m

def startBatch (c : ConsumerId) (batch : List NotifyBatchMessage) (w : NotifyWorld) :
    NotifyWorld :=
  { w with
    messages := fun m =>
      if m ∈ batch.map NotifyBatchMessage.id then
        (w.messages m).map fun msg => { msg with phase := .held c }
      else w.messages m
    batches := Function.update w.batches c batch }

/-- What the rest of the app may do to the store: it creates deliveries, under ids that no
message names yet, and deletes them with their monitor. -/
structure AppStep (w : NotifyWorld) (store : Store) : Prop where
  keys : store.DeliveryKeys
  deliveries : ∀ id, store.deliveries id = w.store.deliveries id ∨ store.deliveries id = none ∨
    store.deliveries id = some (newDelivery id) ∧
      ∀ m msg, w.messages m = some msg → msg.deliveryId ≠ id

end NotifyWorld

def consumerExits : Exits ConsumerId NotifyWorld where
  returned := NotifyWorld.ackRest
  thrown := NotifyWorld.abandon
  killed := NotifyWorld.abandon

inductive NotifyEvent
  /-- time passes, and Discord's mood changes -/
  | tick (now : Nat) (discord : DiscordSendResult)
  | app (store : Store)
  /-- `NOTIFY_QUEUE.send` -/
  | send (m : MessageId) (id : DeliveryId)
  | startBatch (c : ConsumerId) (webhookEncKey : Option String) (batch : List NotifyBatchMessage)
  | resume (c : ConsumerId) (fault : Fault)

namespace NotifyEvent

def Allowed (s : NotifyState) : NotifyEvent → Prop
  | .tick now _ => s.shared.now ≤ now
  | .app store => s.shared.AppStep store
  | .send m _ => s.shared.messages m = none
  | .startBatch c _ batch =>
    s.threads c = none ∧ (batch.map NotifyBatchMessage.id).Nodup ∧ ∀ message ∈ batch,
      (s.shared.messages message.id).any
        (fun msg => msg.deliveryId = message.deliveryId ∧ msg.phase = .queued) = true
  | .resume c _ => s.waitsAt c ≠ none

def apply (s : NotifyState) : NotifyEvent → NotifyState
  | .tick now discord => { s with shared := { s.shared with now, discord } }
  | .app store => { s with shared := { s.shared with store } }
  | .send m id =>
    { s with shared :=
      { s.shared with
        store := s.shared.store.send id
        messages := Function.update s.shared.messages m (some ⟨id, 0, .queued⟩) } }
  | .startBatch c webhookEncKey batch =>
    s.advance consumerExits c (processNotifyBatch c webhookEncKey ⟨none⟩ batch)
      (s.shared.startBatch c batch)
  | .resume c fault => s.resume consumerExits c fault

end NotifyEvent

/-- Runs of the consumers, from a time when there was no delivery and no message. -/
def notifySystem : System NotifyState NotifyEvent where
  init s := (∀ c, s.threads c = none) ∧ (∀ id, s.shared.store.deliveries id = none) ∧
    (∀ m, s.shared.messages m = none) ∧ (∀ id, s.shared.claimedBy id = none) ∧ s.shared.acks = []
  step s e s' := e.Allowed s ∧ s' = e.apply s

/-! ## No lost notification -/

/-- A delivery that nothing is left to be done for. -/
def DeliveryStatus.Closed (status : DeliveryStatus) : Prop := status = .delivered ∨ status = .dead

instance (status : DeliveryStatus) : Decidable status.Closed :=
  inferInstanceAs (Decidable (_ ∨ _))

/-- When the message was acked, its delivery was delivered, dead or nonexistent, or another
consumer was at work on it. -/
def Ack.Justified (a : Ack) : Prop :=
  ∀ row, a.row = some row → row.status.Closed ∨
    row.status = .sending ∧ ∃ c, a.claimedBy = some c ∧ c ≠ a.consumer

def MessagePhase.Live : MessagePhase → Prop
  | .queued | .held _ => True
  | .acked | .dropped => False

/-- The delivery is nonexistent, delivered or dead, or a message for it is in the queue. -/
def NotifyWorld.Covered (id : DeliveryId) (w : NotifyWorld) : Prop :=
  (∀ row, w.store.deliveries id = some row → row.status.Closed) ∨
    ∃ m msg, w.messages m = some msg ∧ msg.deliveryId = id ∧ msg.phase.Live

/-- No ack was unjustified, and whatever has had a message is covered. -/
def NoLostNotification (w : NotifyWorld) : Prop :=
  (∀ a ∈ w.acks, a.Justified) ∧
    ∀ m msg, w.messages m = some msg → w.Covered msg.deliveryId

/-! ## When the consumer loses nothing -/

/-- The status a call leaves the delivery in, unless it claims it. -/
def NotifySite.statusAfter (site : NotifySite) (fault : Fault) (id : DeliveryId)
    (status : DeliveryStatus) : DeliveryStatus :=
  if site.message.deliveryId ≠ id ∨ fault = .throwBefore ∨ fault = .killBefore then status
  else
    match site.call with
    | .markDelivered => .delivered
    | .markFailed dead => if dead then .dead else .failed
    | _ => status

/-- The call leaves the delivery closed, or a message for it is left when those that are
given back on their last delivery are dropped. -/
def NotifyWorld.MayGiveBack (w : NotifyWorld) (given : MessageId → Prop)
    (statusAfter : DeliveryId → DeliveryStatus → DeliveryStatus) : Prop :=
  ∀ m msg, given m → w.messages m = some msg →
    (∀ row, w.store.deliveries msg.deliveryId = some row →
      (statusAfter msg.deliveryId row.status).Closed) ∨
    ∃ m' msg', w.messages m' = some msg' ∧ msg'.deliveryId = msg.deliveryId ∧ msg'.phase.Live ∧
      (given m' → msg'.attempts < MAX_RETRIES)

/-- A fresh claim that the claiming UPDATE finds is that of a consumer at work. -/
def NotifyWorld.FreshClaimsRun (w : NotifyWorld) (now : Nat) (id : DeliveryId) : Prop :=
  ∀ row, w.store.deliveries id = some row → row.status = .sending → row.claimable now = false →
    w.claimedBy id ≠ none

/-- The condition on a call: a claim finds no fresh claim of an attempt that has ended, and
no failure gives back a delivery's last message on its last delivery. -/
def callGuarded (c : ConsumerId) (w : NotifyWorld) (site : NotifySite) (fault : Fault) : Prop :=
  match fault with
  | .none =>
    match site.call with
    | .claim now => w.FreshClaimsRun now site.message.deliveryId
    | .markFailed false => w.MayGiveBack (· = site.message.id) (site.statusAfter .none)
    | _ => True
  | .throwBefore | .throwAfter => w.MayGiveBack (· = site.message.id) (site.statusAfter fault)
  | .killBefore | .killAfter => w.MayGiveBack (fun m => w.Holds c m) (site.statusAfter fault)

def notifyGuarded : StepCond NotifyState NotifyEvent
  | _, s, .resume c fault => ∀ site, s.waitsAt c = some site → callGuarded c s.shared site fault
  | _, s, .startBatch _ webhookEncKey batch =>
    -- without the key the whole batch is given back
    webhookEncKey.getD "" = "" →
      s.shared.MayGiveBack (· ∈ batch.map NotifyBatchMessage.id) fun _ status => status
  | _, _, .tick _ _ => True
  | _, _, .app _ => True
  | _, _, .send _ _ => True

/-! ## A quiet queue -/

def deliveryStore : Store :=
  { emptyStore with
    monitors := fun id => some ⟨id, 1, .active, 3600, none, some 0, none, none⟩
    changes := fun id =>
      some ⟨id, none, "https://example.com/a", .new, none, none, none, none, none, none, none⟩
    destinations := fun _ => some ⟨false⟩ }

def oneDelivery : DeliveryId := ⟨⟨1, "guid-1"⟩, 7⟩

def quietQueue : NotifyState where
  shared :=
    { now := 0
      store := deliveryStore
      discord := ⟨true, some 204, ""⟩
      messages := fun _ => none
      batches := fun _ => []
      claimedBy := fun _ => none
      acks := [] }
  threads := fun _ => none

theorem quietQueue_init : notifySystem.init quietQueue :=
  ⟨fun _ => rfl, fun _ => rfl, fun _ => rfl, fun _ => rfl, rfl⟩

theorem deliveryStore_app :
    quietQueue.shared.AppStep (deliveryStore.insertDelivery oneDelivery) := by
  constructor
  · intro id row _
    exact ⟨Option.some_ne_none _, Option.some_ne_none _, Option.some_ne_none _⟩
  · intro id
    by_cases hid : id = oneDelivery
    · subst hid
      exact Or.inr (Or.inr ⟨by decide, fun _ _ h => by contradiction⟩)
    · refine Or.inl ?_
      rw [Store.insertDelivery_deliveries, insertIfNew_other hid]
      rfl

end Utsuroi
