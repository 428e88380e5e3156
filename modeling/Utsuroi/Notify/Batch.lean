import Utsuroi.Db.NotifyStore

/-!
# The notification consumer

`processNotifyBatch` takes the messages of a batch one after the other: it claims the
delivery, posts it to Discord, marks the outcome and acks the message or gives it back.
-/

namespace Utsuroi

open Async

abbrev MessageId := Nat
abbrev ConsumerId := Nat

/-- `max_retries` of the queue -/
def MAX_RETRIES : Nat := 5

def DEFAULT_MAX_ATTEMPTS : Nat := 5

inductive MessagePhase
  | queued
  /-- in the batch of a running consumer that has neither acked it nor given it back -/
  | held (consumer : ConsumerId)
  | acked
  /-- given back once too often -/
  | dropped
  deriving DecidableEq, Repr

/-- A message of the queue; `attempts` counts the times it was given back. -/
structure Message where
  deliveryId : DeliveryId
  attempts : Nat
  phase : MessagePhase
  deriving DecidableEq, Repr

/-- What the queue makes of a message that is given back. -/
def Message.redeliver (msg : Message) : Message :=
  if msg.attempts < MAX_RETRIES then { msg with attempts := msg.attempts + 1, phase := .queued }
  else { msg with phase := .dropped }

theorem redeliver_deliveryId (msg : Message) : msg.redeliver.deliveryId = msg.deliveryId := by
  unfold Message.redeliver
  split <;> rfl

/-- A message as its consumer gets it. -/
structure NotifyBatchMessage where
  id : MessageId
  deliveryId : DeliveryId
  deriving DecidableEq, Repr

/-- Discord's answer to a POST. -/
structure DiscordSendResult where
  ok : Bool
  status : Option Nat
  message : String
  deriving DecidableEq, Repr

/-- An ack as it was made: the row of its delivery and who held the claim on it. -/
structure Ack where
  consumer : ConsumerId
  row : Option DeliveryRow
  claimedBy : Option ConsumerId
  deriving DecidableEq, Repr

/-- What consumers share. -/
structure NotifyWorld where
  now : Nat
  store : Store
  /-- how Discord answers at present -/
  discord : DiscordSendResult
  messages : MessageId → Option Message
  batches : ConsumerId → List NotifyBatchMessage
  /-- the consumer that made the last claim of a delivery, as long as it works on it -/
  claimedBy : DeliveryId → Option ConsumerId
  /-- newest first -/
  acks : List Ack

inductive NotifyCall
  | claim (now : Nat)
  | select
  | decryptWebhookUrl
  | sendToDiscord
  | markDelivered
  | markFailed (dead : Bool)
  deriving DecidableEq, Repr

/-- An awaited call and the message it is made for. -/
structure NotifySite where
  message : NotifyBatchMessage
  call : NotifyCall
  deriving DecidableEq, Repr

abbrev NotifyProg := Prog NotifySite NotifyWorld

namespace NotifyWorld

def onStore (f : Store → Store) (w : NotifyWorld) : NotifyWorld := { w with store := f w.store }

def Holds (c : ConsumerId) (m : MessageId) (w : NotifyWorld) : Prop :=
  (w.messages m).any (·.phase == .held c) = true

instance (c : ConsumerId) (m : MessageId) (w : NotifyWorld) : Decidable (w.Holds c m) :=
  inferInstanceAs (Decidable (_ = true))

/-- The claiming UPDATE of consumer `c`. -/
def claim (c : ConsumerId) (now : Nat) (id : DeliveryId) (w : NotifyWorld) : NotifyWorld :=
  { w with
    store := w.store.claimDelivery now id
    claimedBy :=
      if w.store.claimable now id then Function.update w.claimedBy id (some c) else w.claimedBy }

/-- Consumer `c` is through with what it claimed. -/
def unclaim (c : ConsumerId) (w : NotifyWorld) : NotifyWorld :=
  { w with claimedBy := fun id => if w.claimedBy id = some c then none else w.claimedBy id }

/-- `message.ack()` -/
def ack (c : ConsumerId) (message : NotifyBatchMessage) (w : NotifyWorld) : NotifyWorld :=
  { w.unclaim c with
    messages := Function.update w.messages message.id
      ((w.messages message.id).map fun msg => { msg with phase := .acked })
    acks := ⟨c, w.store.deliveries message.deliveryId, w.claimedBy message.deliveryId⟩ :: w.acks }

/-- Gives messages back to the queue. -/
def giveBack (c : ConsumerId) (given : MessageId → Prop) [DecidablePred given] (w : NotifyWorld) :
    NotifyWorld :=
  { w.unclaim c with
    messages := fun m => if given m then (w.messages m).map Message.redeliver else w.messages m }

/-- `message.retry()` -/
def retry (c : ConsumerId) (message : NotifyBatchMessage) (w : NotifyWorld) : NotifyWorld :=
  w.giveBack c (· = message.id)

end NotifyWorld

/-! ## The store of the consumer -/

section Consumer

variable (c : ConsumerId) (webhookEncKey : Option String) (message : NotifyBatchMessage)

/-- A call for the message that changes the store. -/
def notifyCall {α : Type} (call : NotifyCall) (eff : Store → Store) (answer : NotifyWorld → α) :
    NotifyProg α :=
  .call ⟨message, call⟩ (NotifyWorld.onStore eff) answer

structure PendingDelivery where
  attemptCount : Nat
  deriving DecidableEq, Repr

def markFailed (error : String) (dead : Bool) : NotifyProg Unit :=
  notifyCall message (.markFailed dead)
    (Store.markDeliveryFailed message.deliveryId error dead) fun _ => ()

def markDelivered : NotifyProg Unit :=
  notifyCall message .markDelivered (Store.markDeliveryDelivered message.deliveryId) fun _ => ()

/-- A bad ciphertext or a bad key makes it throw. -/
def decryptWebhookUrl : NotifyProg Unit :=
  notifyCall message .decryptWebhookUrl id fun _ => ()

def getPendingDelivery : NotifyProg (Option PendingDelivery) :=
  -- before the claim, so that a missing key claims nothing
  if webhookEncKey.getD "" = "" then .fail
  else do
    let now ← Prog.look NotifyWorld.now
    let written ← Prog.call ⟨message, .claim now⟩ (NotifyWorld.claim c now message.deliveryId)
      fun w => w.store.claimable now message.deliveryId
    if !written then return none
    let row ← notifyCall message .select id fun w => w.store.pendingDelivery message.deliveryId
    match row with
    | none => return none
    | some row =>
      if row.destinationArchived then
        markFailed message "destination archived" true
        return none
      decryptWebhookUrl message
      return some ⟨row.attemptCount⟩

/-! ## The batch -/

structure ProcessNotifyBatchOptions where
  maxAttempts : Option Nat
  deriving DecidableEq, Repr

variable (opts : ProcessNotifyBatchOptions)

def isPermanentFailure : Option Nat → Bool
  | none => false
  | some status => status != 429 && 400 ≤ status && status < 500

def sendToDiscord : NotifyProg DiscordSendResult :=
  notifyCall message .sendToDiscord id NotifyWorld.discord

def processOne : NotifyProg PUnit := do
  let maxAttempts := opts.maxAttempts.getD DEFAULT_MAX_ATTEMPTS
  let ack := Prog.act (NotifyWorld.ack c message)
  let retry := Prog.act (NotifyWorld.retry c message)
  let pending ← getPendingDelivery c webhookEncKey message
  match pending with
  | none => ack
  | some pending =>
    if maxAttempts ≤ pending.attemptCount then
      markFailed message ("max attempts (" ++ toString maxAttempts ++ ") exceeded") true
      ack
    else
      let result ← sendToDiscord message
      if result.ok then
        markDelivered message
        ack
      else if result.status = some 429 then
        markFailed message result.message false
        retry
      else if isPermanentFailure result.status then
        markFailed message result.message true
        ack
      else
        markFailed message result.message false
        retry

end Consumer

def processNotifyBatch (c : ConsumerId) (webhookEncKey : Option String)
    (opts : ProcessNotifyBatchOptions) (batch : List NotifyBatchMessage) : NotifyProg PUnit :=
  batch.forM fun message =>
    (processOne c webhookEncKey message opts).tryCatch
      (.act (NotifyWorld.retry c message))

end Utsuroi
