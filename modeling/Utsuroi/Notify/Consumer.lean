import Utsuroi.Notify.Queue

/-!
# Where a consumer waits

A consumer of the queue is always at one of a few places of `processOne`.  The machine below
says for each of them what its call does and where the consumer goes on; the pool of
programs moves as the machine does.
-/

namespace Utsuroi

open Async Prog Transition

/-! ## The queue with options -/

/-- The events when the consumers run with the options `opts`. -/
def NotifyEvent.applyWith (opts : ProcessNotifyBatchOptions) (s : NotifyState) :
    NotifyEvent → NotifyState
  | .startBatch c webhookEncKey batch =>
    s.advance consumerExits c (processNotifyBatch c webhookEncKey opts batch)
      (s.shared.startBatch c batch)
  | e => e.apply s

def notifySystemWith (opts : ProcessNotifyBatchOptions) : System NotifyState NotifyEvent where
  init := notifySystem.init
  step s e s' := e.Allowed s ∧ s' = e.applyWith opts s

theorem notifySystemWith_default : notifySystemWith ⟨none⟩ = notifySystem := by
  unfold notifySystemWith notifySystem
  congr 1
  funext s e s'
  cases e <;> rfl

/-! ## Places -/

/-- The calls of `processOne`, with what the consumer knows when it waits there. -/
inductive NotifyStage
  | claim (now : Nat)
  | select
  | markArchived
  | decrypt (attemptCount : Nat)
  | markExceeded
  | post
  | markDelivered
  | markFailed (result : DiscordSendResult)
  deriving DecidableEq, Repr

/-- How a failed POST is marked. -/
def DiscordSendResult.dead (result : DiscordSendResult) : Bool :=
  result.status ≠ some 429 ∧ isPermanentFailure result.status

def NotifyStage.call : NotifyStage → NotifyCall
  | .claim now => .claim now
  | .select => .select
  | .markArchived => .markFailed true
  | .decrypt _ => .decryptWebhookUrl
  | .markExceeded => .markFailed true
  | .post => .sendToDiscord
  | .markDelivered => .markDelivered
  | .markFailed result => .markFailed result.dead

/-- A consumer at work on the first message of what is left of its batch. -/
structure Position where
  webhookEncKey : Option String
  message : NotifyBatchMessage
  rest : List NotifyBatchMessage
  stage : NotifyStage
  deriving DecidableEq, Repr

def Position.site (pos : Position) : NotifySite := ⟨pos.message, pos.stage.call⟩

section Machine

variable (opts : ProcessNotifyBatchOptions) (c : ConsumerId)

def maxAttemptsOf : Nat := opts.maxAttempts.getD DEFAULT_MAX_ATTEMPTS

def exceededError : String := "max attempts (" ++ toString (maxAttemptsOf opts) ++ ") exceeded"

/-- What the call does when it takes effect. -/
def Position.effect (pos : Position) (w : NotifyWorld) : NotifyWorld :=
  match pos.stage with
  | .claim now => w.claim c now pos.message.deliveryId
  | .select | .decrypt _ | .post => w
  | .markArchived =>
    w.onStore (Store.markDeliveryFailed pos.message.deliveryId "destination archived" true)
  | .markExceeded =>
    w.onStore (Store.markDeliveryFailed pos.message.deliveryId (exceededError opts) true)
  | .markDelivered => w.onStore (Store.markDeliveryDelivered pos.message.deliveryId)
  | .markFailed result =>
    w.onStore (Store.markDeliveryFailed pos.message.deliveryId result.message result.dead)

/-- Where a consumer goes on with the rest of its batch. -/
def goOn (webhookEncKey : Option String) (rest : List NotifyBatchMessage) (w : NotifyWorld) :
    NotifyWorld × Option Position :=
  if webhookEncKey.getD "" = "" then (rest.foldl (fun w message => w.retry c message) w, none)
  else
    match rest with
    | [] => (w, none)
    | message :: rest => (w, some ⟨webhookEncKey, message, rest, .claim w.now⟩)

def Position.acked (pos : Position) (w : NotifyWorld) : NotifyWorld × Option Position :=
  goOn c pos.webhookEncKey pos.rest (w.ack c pos.message)

def Position.retried (pos : Position) (w : NotifyWorld) : NotifyWorld × Option Position :=
  goOn c pos.webhookEncKey pos.rest (w.retry c pos.message)

/-- Where the answer to the call that found the world `w` leads. -/
def Position.after (pos : Position) (w : NotifyWorld) : NotifyWorld × Option Position :=
  let at_ (stage : NotifyStage) := (pos.effect opts c w, some { pos with stage })
  let acked := pos.acked c (pos.effect opts c w)
  match pos.stage with
  | .claim now => if w.store.claimable now pos.message.deliveryId then at_ .select else acked
  | .select =>
    match w.store.pendingDelivery pos.message.deliveryId with
    | none => acked
    | some row => if row.destinationArchived then at_ .markArchived else at_ (.decrypt row.attemptCount)
  | .decrypt attemptCount =>
    if maxAttemptsOf opts ≤ attemptCount then at_ .markExceeded else at_ .post
  | .post => if w.discord.ok then at_ .markDelivered else at_ (.markFailed w.discord)
  | .markArchived | .markExceeded | .markDelivered => acked
  | .markFailed result => if result.dead then acked else pos.retried c (pos.effect opts c w)

/-- The stage the answer to a call leads to, `none` at the end of the message. -/
def Position.nextStage (pos : Position) (w : NotifyWorld) : Option NotifyStage :=
  match pos.stage with
  | .claim now => if w.store.claimable now pos.message.deliveryId then some .select else none
  | .select =>
    (w.store.pendingDelivery pos.message.deliveryId).map fun row =>
      if row.destinationArchived then .markArchived else .decrypt row.attemptCount
  | .decrypt attemptCount =>
    some (if maxAttemptsOf opts ≤ attemptCount then .markExceeded else .post)
  | .post => some (if w.discord.ok then .markDelivered else .markFailed w.discord)
  | .markArchived | .markExceeded | .markDelivered | .markFailed _ => none

/-- Whether the message is given back at its end. -/
def Position.givesBack (pos : Position) : Bool :=
  match pos.stage with
  | .markFailed result => !result.dead
  | _ => false

theorem Position.after_eq (pos : Position) (w : NotifyWorld) :
    pos.after opts c w =
      match pos.nextStage opts w with
      | some stage => (pos.effect opts c w, some { pos with stage })
      | none =>
        if pos.givesBack then pos.retried c (pos.effect opts c w)
        else pos.acked c (pos.effect opts c w) := by
  unfold Position.after Position.nextStage Position.givesBack
  cases pos.stage with
  | claim now =>
    dsimp only
    split <;> rfl
  | select =>
    dsimp only
    cases w.store.pendingDelivery pos.message.deliveryId with
    | none => rfl
    | some row =>
      dsimp only [Option.map_some]
      split <;> rfl
  | markArchived => rfl
  | decrypt attemptCount =>
    dsimp only
    split <;> rfl
  | markExceeded => rfl
  | post =>
    dsimp only
    split <;> rfl
  | markDelivered => rfl
  | markFailed result =>
    dsimp only
    by_cases hdead : result.dead = true <;> simp [hdead]

/-! ## The programs at these places -/

def afterSend (message : NotifyBatchMessage) (result : DiscordSendResult) : NotifyProg PUnit :=
  let ack := Prog.act (NotifyWorld.ack c message)
  let retry := Prog.act (NotifyWorld.retry c message)
  if result.ok then do
    markDelivered message
    ack
  else if result.status = some 429 then do
    markFailed message result.message false
    retry
  else if isPermanentFailure result.status then do
    markFailed message result.message true
    ack
  else do
    markFailed message result.message false
    retry

def afterPending (message : NotifyBatchMessage) (pending : Option PendingDelivery) :
    NotifyProg PUnit :=
  let ack := Prog.act (NotifyWorld.ack c message)
  match pending with
  | none => ack
  | some pending =>
    if maxAttemptsOf opts ≤ pending.attemptCount then do
      markFailed message (exceededError opts) true
      ack
    else do
      let result ← sendToDiscord message
      afterSend c message result

def afterSelect (message : NotifyBatchMessage) (row : Option PendingDeliveryQueryRow) :
    NotifyProg (Option PendingDelivery) :=
  match row with
  | none => return none
  | some row =>
    if row.destinationArchived then do
      markFailed message "destination archived" true
      return none
    else do
      decryptWebhookUrl message
      return some ⟨row.attemptCount⟩

def afterClaim (message : NotifyBatchMessage) (written : Bool) :
    NotifyProg (Option PendingDelivery) :=
  if !written then return none
  else do
    let row ← notifyCall message .select id fun w => w.store.pendingDelivery message.deliveryId
    afterSelect message row

/-- What `processOne` still has to do from a stage on. -/
def NotifyStage.prog (message : NotifyBatchMessage) : NotifyStage → NotifyProg PUnit
  | .claim now =>
    (Prog.call ⟨message, .claim now⟩ (NotifyWorld.claim c now message.deliveryId)
      (fun w => w.store.claimable now message.deliveryId) >>= afterClaim message) >>=
        afterPending opts c message
  | .select =>
    (notifyCall message .select id (fun w => w.store.pendingDelivery message.deliveryId) >>=
      afterSelect message) >>= afterPending opts c message
  | .markArchived =>
    (Utsuroi.markFailed message "destination archived" true >>= fun _ => pure none) >>=
      afterPending opts c message
  | .decrypt attemptCount =>
    (decryptWebhookUrl message >>= fun _ => pure (some ⟨attemptCount⟩)) >>=
      afterPending opts c message
  | .markExceeded =>
    Utsuroi.markFailed message (exceededError opts) true >>= fun _ => .act (NotifyWorld.ack c message)
  | .post => sendToDiscord message >>= afterSend c message
  | .markDelivered => Utsuroi.markDelivered message >>= fun _ => .act (NotifyWorld.ack c message)
  | .markFailed result =>
    Utsuroi.markFailed message result.message result.dead >>= fun _ =>
      if result.dead then .act (NotifyWorld.ack c message)
      else .act (NotifyWorld.retry c message)

def Position.prog (pos : Position) : NotifyProg PUnit :=
  (pos.stage.prog opts c pos.message).tryCatch (.act (NotifyWorld.retry c pos.message)) >>=
    fun _ => processNotifyBatch c pos.webhookEncKey opts pos.rest

/-- The program of a consumer that went on to a position or ended. -/
def progOf (reached : NotifyWorld × Option Position) : NotifyProg PUnit × NotifyWorld :=
  match reached with
  | (w, none) => (.ret ⟨⟩, w)
  | (w, some pos) => (pos.prog opts c, w)

theorem processOne_eq {webhookEncKey : Option String} (hkey : webhookEncKey.getD "" ≠ "")
    (message : NotifyBatchMessage) :
    processOne c webhookEncKey message opts =
      .sync id fun w => (NotifyStage.claim w.now).prog opts c message := by
  unfold processOne getPendingDelivery
  rw [if_neg hkey]
  rfl

theorem processOne_eq_fail {webhookEncKey : Option String} (hkey : webhookEncKey.getD "" = "")
    (message : NotifyBatchMessage) : processOne c webhookEncKey message opts = .fail := by
  unfold processOne getPendingDelivery
  rw [if_pos hkey]
  rfl

theorem processNotifyBatch_cons (webhookEncKey : Option String) (message : NotifyBatchMessage)
    (rest : List NotifyBatchMessage) :
    processNotifyBatch c webhookEncKey opts (message :: rest) =
      (processOne c webhookEncKey message opts).tryCatch (.act (NotifyWorld.retry c message)) >>=
        fun _ => processNotifyBatch c webhookEncKey opts rest := rfl

theorem settle_batch (webhookEncKey : Option String) (batch : List NotifyBatchMessage)
    (w : NotifyWorld) :
    (processNotifyBatch c webhookEncKey opts batch).settle w =
      progOf opts c (goOn c webhookEncKey batch w) := by
  by_cases hkey : webhookEncKey.getD "" = ""
  · induction batch generalizing w with
    | nil => simp [processNotifyBatch, goOn, hkey, progOf, settle]
    | cons message rest ih =>
      have hrest := ih (w.retry c message)
      rw [processNotifyBatch_cons, processOne_eq_fail opts c hkey]
      simp only [goOn, hkey, if_true, List.foldl_cons] at hrest ⊢
      exact hrest
  · cases batch with
    | nil => simp [processNotifyBatch, goOn, hkey, progOf, settle]
    | cons message rest =>
      rw [processNotifyBatch_cons, processOne_eq opts c hkey]
      simp only [goOn, hkey, if_false, progOf]
      rfl

/-- A POST is followed by one mark and the end of its message. -/
theorem afterSend_eq (message : NotifyBatchMessage) (result : DiscordSendResult) :
    afterSend c message result =
      if result.ok then NotifyStage.prog opts c message .markDelivered
      else NotifyStage.prog opts c message (.markFailed result) := by
  unfold afterSend
  cases result.ok with
  | true => rfl
  | false =>
    by_cases hlimited : result.status = some 429
    · have hdead : result.dead = false := by simp [DiscordSendResult.dead, hlimited]
      simp only [hlimited, NotifyStage.prog, hdead]
      rfl
    · have hdead : result.dead = isPermanentFailure result.status := by
        simp [DiscordSendResult.dead, hlimited]
      simp only [hlimited, NotifyStage.prog, hdead]
      cases isPermanentFailure result.status <;> rfl

/-- A position waits. -/
theorem settle_prog (pos : Position) (w : NotifyWorld) :
    (pos.prog opts c).settle w = (pos.prog opts c, w) := by
  obtain ⟨webhookEncKey, message, rest, stage⟩ := pos
  cases stage <;> rfl

section Goes

variable {opts c} {pos : Position} {p : NotifyProg PUnit} {w : NotifyWorld}

/-- The rest of a message and then of the batch. -/
private def resumed (opts : ProcessNotifyBatchOptions) (c : ConsumerId) (pos : Position)
    (p : NotifyProg PUnit) : NotifyProg PUnit :=
  p.tryCatch (.act (NotifyWorld.retry c pos.message)) >>=
    fun _ => processNotifyBatch c pos.webhookEncKey opts pos.rest

private theorem resumed_ack (w : NotifyWorld) :
    (resumed opts c pos (.act (NotifyWorld.ack c pos.message))).settle w =
      progOf opts c (pos.acked c w) :=
  settle_batch opts c pos.webhookEncKey pos.rest (w.ack c pos.message)

private theorem resumed_retry (w : NotifyWorld) :
    (resumed opts c pos (.act (NotifyWorld.retry c pos.message))).settle w =
      progOf opts c (pos.retried c w) :=
  settle_batch opts c pos.webhookEncKey pos.rest (w.retry c pos.message)

private theorem resumed_stage (stage : NotifyStage) (w : NotifyWorld) :
    (resumed opts c pos (stage.prog opts c pos.message)).settle w =
      progOf opts c (w, some { pos with stage }) :=
  settle_prog opts c { pos with stage } w

end Goes

/-- A position's program waits for its call, with its effect, and goes on as the machine. -/
theorem prog_await (pos : Position) : ∃ next caught,
    pos.prog opts c = .await pos.site (pos.effect opts c) next caught ∧
      (∀ w, (next w).settle (pos.effect opts c w) = progOf opts c (pos.after opts c w)) ∧
        ∀ w, caught.settle w = progOf opts c (pos.retried c w) := by
  obtain ⟨webhookEncKey, message, rest, stage⟩ := pos
  let pos : Position := ⟨webhookEncKey, message, rest, stage⟩
  cases stage with
  | claim now =>
    refine ⟨_, _, rfl, fun w => ?_, fun w => resumed_retry w⟩
    change (resumed opts c pos (afterClaim message (w.store.claimable now message.deliveryId) >>=
      afterPending opts c message)).settle _ = _
    simp only [Position.after]
    cases w.store.claimable now message.deliveryId with
    | false => exact resumed_ack _
    | true => exact resumed_stage .select _
  | select =>
    refine ⟨_, _, rfl, fun w => ?_, fun w => resumed_retry w⟩
    change (resumed opts c pos (afterSelect message (w.store.pendingDelivery message.deliveryId) >>=
      afterPending opts c message)).settle _ = _
    simp only [Position.after]
    cases w.store.pendingDelivery message.deliveryId with
    | none => exact resumed_ack _
    | some row =>
      simp only [afterSelect]
      cases row.destinationArchived with
      | true => exact resumed_stage .markArchived _
      | false => exact resumed_stage (.decrypt row.attemptCount) _
  | markArchived => exact ⟨_, _, rfl, fun w => resumed_ack _, fun w => resumed_retry w⟩
  | decrypt attemptCount =>
    refine ⟨_, _, rfl, fun w => ?_, fun w => resumed_retry w⟩
    change (resumed opts c pos (afterPending opts c message (some ⟨attemptCount⟩))).settle _ = _
    simp only [Position.after, afterPending]
    by_cases hmax : maxAttemptsOf opts ≤ attemptCount
    · simp only [hmax, if_true]
      exact resumed_stage .markExceeded _
    · simp only [hmax, if_false]
      exact resumed_stage .post _
  | markExceeded => exact ⟨_, _, rfl, fun w => resumed_ack _, fun w => resumed_retry w⟩
  | post =>
    refine ⟨_, _, rfl, fun w => ?_, fun w => resumed_retry w⟩
    change (resumed opts c pos (afterSend c message w.discord)).settle _ = _
    rw [afterSend_eq opts]
    simp only [Position.after]
    cases w.discord.ok with
    | true => exact resumed_stage .markDelivered _
    | false => exact resumed_stage (.markFailed w.discord) _
  | markDelivered => exact ⟨_, _, rfl, fun w => resumed_ack _, fun w => resumed_retry w⟩
  | markFailed result =>
    refine ⟨_, _, rfl, fun w => ?_, fun w => resumed_retry w⟩
    change (resumed opts c pos (if result.dead then .act (NotifyWorld.ack c message)
      else .act (NotifyWorld.retry c message))).settle _ = _
    simp only [Position.after]
    cases result.dead with
    | true => exact resumed_ack _
    | false => exact resumed_retry _

end Machine

/-! ## The machine -/

/-- The consumers by the places they are at. -/
structure ConsumerState where
  shared : NotifyWorld
  consumers : ConsumerId → Option Position

namespace ConsumerState

def toPool (opts : ProcessNotifyBatchOptions) (a : ConsumerState) : NotifyState :=
  ⟨a.shared, fun c => (a.consumers c).map (Position.prog opts c)⟩

/-- Consumer `c` goes on to a position, or returns. -/
def reach (c : ConsumerId) (reached : NotifyWorld × Option Position) (a : ConsumerState) :
    ConsumerState :=
  match reached with
  | (w, none) => ⟨w.ackRest c, Function.update a.consumers c none⟩
  | (w, some pos) => ⟨w, Function.update a.consumers c (some pos)⟩

/-- The call of consumer `c`, at `pos`, ends. -/
def resume (opts : ProcessNotifyBatchOptions) (c : ConsumerId) (pos : Position) (fault : Fault)
    (a : ConsumerState) : ConsumerState :=
  match fault with
  | .none => a.reach c (pos.after opts c a.shared)
  | .throwBefore => a.reach c (pos.retried c a.shared)
  | .throwAfter => a.reach c (pos.retried c (pos.effect opts c a.shared))
  | .killBefore => ⟨a.shared.abandon c, Function.update a.consumers c none⟩
  | .killAfter => ⟨(pos.effect opts c a.shared).abandon c, Function.update a.consumers c none⟩

def move (opts : ProcessNotifyBatchOptions) (a : ConsumerState) : NotifyEvent → ConsumerState
  | .tick now discord => { a with shared := { a.shared with now, discord } }
  | .app store => { a with shared := { a.shared with store } }
  | .send m id =>
    { a with shared :=
      { a.shared with
        store := a.shared.store.send id
        messages := Function.update a.shared.messages m (some ⟨id, 0, .queued⟩) } }
  | .startBatch c webhookEncKey batch =>
    a.reach c (goOn c webhookEncKey batch (a.shared.startBatch c batch))
  | .resume c fault =>
    match a.consumers c with
    | none => a
    | some pos => a.resume opts c pos fault

section Moves

variable {opts : ProcessNotifyBatchOptions} {a : ConsumerState} {c : ConsumerId}

private theorem toPool_update (w : NotifyWorld) (reached : Option Position) :
    toPool opts ⟨w, Function.update a.consumers c reached⟩ =
      ⟨w, Function.update (a.toPool opts).threads c (reached.map (Position.prog opts c))⟩ := by
  unfold toPool
  congr 1
  funext other
  by_cases hother : other = c
  · subst hother
    simp
  · simp [Function.update_of_ne hother]

private theorem advance_reach {p : NotifyProg PUnit} {w : NotifyWorld}
    {reached : NotifyWorld × Option Position} (h : p.settle w = progOf opts c reached) :
    (a.toPool opts).advance consumerExits c p w = (a.reach c reached).toPool opts := by
  unfold Pool.advance
  rw [h]
  obtain ⟨w', _ | pos⟩ := reached
  · exact (toPool_update _ none).symm
  · obtain ⟨next, caught, hawait, _⟩ := prog_await opts c pos
    simp only [progOf, reach, toPool_update, Option.map_some]
    rw [hawait]

/-- The pool of programs moves as the machine does. -/
theorem toPool_move (e : NotifyEvent) :
    (a.move opts e).toPool opts = e.applyWith opts (a.toPool opts) := by
  cases e with
  | tick now discord => rfl
  | app store => rfl
  | send m id => rfl
  | startBatch c webhookEncKey batch =>
    exact (advance_reach (settle_batch opts c webhookEncKey batch _)).symm
  | resume c fault =>
    change _ = (a.toPool opts).resume consumerExits c fault
    cases hat : a.consumers c with
    | none => simp [move, hat, Pool.resume, toPool]
    | some pos =>
      obtain ⟨next, caught, hawait, hnext, hcaught⟩ := prog_await opts c pos
      have hthread : (a.toPool opts).threads c =
          some (.await pos.site (pos.effect opts c) next caught) := by
        simp [toPool, hat, hawait]
      simp only [move, hat, resume, Pool.resume, hthread]
      cases fault with
      | none => exact (advance_reach (hnext _)).symm
      | throwBefore => exact (advance_reach (hcaught _)).symm
      | throwAfter => exact (advance_reach (hcaught _)).symm
      | killBefore => exact toPool_update _ none
      | killAfter => exact toPool_update _ none

theorem waitsAt_toPool (c : ConsumerId) :
    (a.toPool opts).waitsAt c = (a.consumers c).map Position.site := by
  have hthread : (a.toPool opts).threads c = (a.consumers c).map (Position.prog opts c) := rfl
  unfold Pool.waitsAt
  rw [hthread]
  cases a.consumers c with
  | none => rfl
  | some pos =>
    obtain ⟨next, caught, hawait, _⟩ := prog_await opts c pos
    simp [hawait]

theorem toPool_threads_none (c : ConsumerId) :
    (a.toPool opts).threads c = none ↔ a.consumers c = none := by
  simp [toPool]

theorem move_resume {pos : Position} (hat : a.consumers c = some pos) (fault : Fault) :
    a.move opts (.resume c fault) = a.resume opts c pos fault := by
  simp only [move, hat]

/-- A consumer whose call may end waits at a position. -/
theorem position_of_allowed {fault : Fault}
    (h : NotifyEvent.Allowed (a.toPool opts) (.resume c fault)) :
    ∃ pos, a.consumers c = some pos := by
  have hwaits : (a.toPool opts).waitsAt c ≠ none := h
  rw [waitsAt_toPool] at hwaits
  cases hat : a.consumers c with
  | none => simp [hat] at hwaits
  | some pos => exact ⟨pos, rfl⟩

end Moves

end ConsumerState

/-! ## What a step does -/

/-- A message for the delivery was sent at some time. -/
def NotifyWorld.Named (w : NotifyWorld) (id : DeliveryId) : Prop :=
  ∃ m msg, w.messages m = some msg ∧ msg.deliveryId = id

/-- The bookkeeping at the end of a message: the store is left alone and nothing is claimed. -/
structure Passed (w w' : NotifyWorld) : Prop where
  store : w'.store = w.store
  now : w'.now = w.now
  claims : ∀ id c, w'.claimedBy id = some c → w.claimedBy id = some c
  messages : ∀ m msg, w.messages m = some msg →
    ∃ msg', w'.messages m = some msg' ∧ msg'.deliveryId = msg.deliveryId

theorem Passed.refl (w : NotifyWorld) : Passed w w :=
  ⟨rfl, rfl, fun _ _ h => h, fun _ msg h => ⟨msg, h, rfl⟩⟩

theorem Passed.trans {w w' w'' : NotifyWorld} (h : Passed w w') (h' : Passed w' w'') :
    Passed w w'' := by
  refine ⟨h'.store.trans h.store, h'.now.trans h.now,
    fun id c hc => h.claims id c (h'.claims id c hc), ?_⟩
  intro m msg hmsg
  obtain ⟨msg', hmsg', hid⟩ := h.messages m msg hmsg
  obtain ⟨msg'', hmsg'', hid'⟩ := h'.messages m msg' hmsg'
  exact ⟨msg'', hmsg'', hid'.trans hid⟩

theorem Passed.named {w w' : NotifyWorld} (h : Passed w w') {id : DeliveryId}
    (hnamed : w.Named id) : w'.Named id := by
  obtain ⟨m, msg, hmsg, hid⟩ := hnamed
  obtain ⟨msg', hmsg', hid'⟩ := h.messages m msg hmsg
  exact ⟨m, msg', hmsg', hid'.trans hid⟩

section Bookkeeping

variable (c : ConsumerId) (w : NotifyWorld)

theorem unclaim_claims (id : DeliveryId) (other : ConsumerId)
    (h : (w.unclaim c).claimedBy id = some other) : w.claimedBy id = some other ∧ other ≠ c := by
  simp only [NotifyWorld.unclaim] at h
  by_cases hown : w.claimedBy id = some c
  · rw [if_pos hown] at h
    contradiction
  · rw [if_neg hown] at h
    refine ⟨h, fun heq => hown ?_⟩
    rw [h, heq]

theorem ack_passed (message : NotifyBatchMessage) : Passed w (w.ack c message) := by
  refine ⟨rfl, rfl, fun id other h => (unclaim_claims c w id other h).1, ?_⟩
  intro m msg hmsg
  by_cases hm : m = message.id
  · subst hm
    exact ⟨{ msg with phase := .acked }, by simp [NotifyWorld.ack, hmsg], rfl⟩
  · exact ⟨msg, by simp [NotifyWorld.ack, Function.update_of_ne hm, NotifyWorld.unclaim, hmsg], rfl⟩

theorem giveBack_passed (given : MessageId → Prop) [DecidablePred given] :
    Passed w (w.giveBack c given) := by
  refine ⟨rfl, rfl, fun id other h => (unclaim_claims c w id other h).1, ?_⟩
  intro m msg hmsg
  by_cases hm : given m
  · exact ⟨msg.redeliver, by simp [NotifyWorld.giveBack, hm, hmsg], redeliver_deliveryId msg⟩
  · exact ⟨msg, by simp [NotifyWorld.giveBack, hm, hmsg], rfl⟩

theorem retry_passed (message : NotifyBatchMessage) : Passed w (w.retry c message) :=
  giveBack_passed c w _

theorem ackRest_passed : Passed w (w.ackRest c) := by
  have hfold : ∀ (batch : List NotifyBatchMessage) (w' : NotifyWorld), Passed w w' →
      Passed w (batch.foldl
        (fun w message => if w.Holds c message.id then w.ack c message else w) w') := by
    intro batch
    induction batch with
    | nil => exact fun _ h => h
    | cons message batch ih =>
      intro w' h
      apply ih
      by_cases hholds : w'.Holds c message.id
      · simp only [hholds, if_true]
        exact h.trans (ack_passed c w' message)
      · simp only [hholds, if_false]
        exact h
  exact hfold _ w (Passed.refl w)

theorem goOn_passed (webhookEncKey : Option String) (rest : List NotifyBatchMessage) :
    Passed w (goOn c webhookEncKey rest w).1 := by
  unfold goOn
  split
  · have hfold : ∀ (batch : List NotifyBatchMessage) (w' : NotifyWorld), Passed w w' →
        Passed w (batch.foldl (fun w message => w.retry c message) w') := by
      intro batch
      induction batch with
      | nil => exact fun _ h => h
      | cons message batch ih => exact fun w' h => ih _ (h.trans (retry_passed c w' message))
    exact hfold rest w (Passed.refl w)
  · cases rest <;> exact Passed.refl w

theorem startBatch_passed (batch : List NotifyBatchMessage) : Passed w (w.startBatch c batch) := by
  refine ⟨rfl, rfl, fun _ _ h => h, ?_⟩
  intro m msg hmsg
  by_cases hm : m ∈ batch.map NotifyBatchMessage.id
  · refine ⟨{ msg with phase := .held c }, ?_, rfl⟩
    simp only [NotifyWorld.startBatch, if_pos hm, hmsg, Option.map_some]
  · refine ⟨msg, ?_, rfl⟩
    simp only [NotifyWorld.startBatch, if_neg hm, hmsg]

end Bookkeeping

/-- Consumer `c` goes on with `rest` from the world `w`: it returns or claims the next
message's delivery. -/
structure GoesOn (c : ConsumerId) (rest : List NotifyBatchMessage) (w : NotifyWorld)
    (a a' : ConsumerState) : Prop where
  passed : Passed w a'.shared
  reached : ∃ next, a'.consumers = Function.update a.consumers c next ∧
    ∀ pos, next = some pos → pos.stage = .claim w.now ∧ pos.message :: pos.rest = rest

namespace ConsumerState

variable {opts : ProcessNotifyBatchOptions} {a : ConsumerState} {c : ConsumerId} {pos : Position}

theorem reach_goOn (webhookEncKey : Option String) (rest : List NotifyBatchMessage)
    (w : NotifyWorld) : GoesOn c rest w a (a.reach c (goOn c webhookEncKey rest w)) := by
  have hpassed := goOn_passed c w webhookEncKey rest
  rcases hgo : goOn c webhookEncKey rest w with ⟨w', _ | pos⟩
  · rw [hgo] at hpassed
    exact ⟨hpassed.trans (ackRest_passed c w'), none, rfl, fun _ h => by contradiction⟩
  · rw [hgo] at hpassed
    refine ⟨hpassed, some pos, rfl, ?_⟩
    intro pos' hpos'
    obtain rfl := Option.some.inj hpos'
    unfold goOn at hgo
    split at hgo
    · simp at hgo
    · cases rest with
      | nil => simp at hgo
      | cons message rest =>
        simp only [Prod.mk.injEq, Option.some.injEq] at hgo
        obtain ⟨rfl, rfl⟩ := hgo
        exact ⟨rfl, rfl⟩

/-- A call of consumer `c`, at `pos`, leads to the next one for the same message or to the
message's end. -/
inductive Resumed (opts : ProcessNotifyBatchOptions) (c : ConsumerId) (pos : Position)
    (fault : Fault) (a a' : ConsumerState) : Prop
  | stage (stage : NotifyStage) (answered : fault = .none)
      (next : pos.nextStage opts a.shared = some stage)
      (state : a' = ⟨pos.effect opts c a.shared,
        Function.update a.consumers c (some { pos with stage })⟩)
  | ended (w : NotifyWorld) (rest : List NotifyBatchMessage)
      (last : fault = .none → pos.nextStage opts a.shared = none)
      (world : fault.Before ∧ w = a.shared ∨ ¬fault.Before ∧ w = pos.effect opts c a.shared)
      (unclaimed : ∀ id, a'.shared.claimedBy id ≠ some c)
      (left : rest = pos.rest ∨ rest = []) (goesOn : GoesOn c rest w a a')

private theorem not_claimed_ack (w : NotifyWorld) (message : NotifyBatchMessage)
    (id : DeliveryId) : (w.ack c message).claimedBy id ≠ some c :=
  fun h => (unclaim_claims c w id c h).2 rfl

private theorem not_claimed_giveBack (w : NotifyWorld) (given : MessageId → Prop)
    [DecidablePred given] (id : DeliveryId) : (w.giveBack c given).claimedBy id ≠ some c :=
  fun h => (unclaim_claims c w id c h).2 rfl

/-- The end of a message, after `w` has been passed on to `w'`. -/
private theorem ended_of_goOn {w w' : NotifyWorld} (hpassed : Passed w w')
    (hunclaimed : ∀ id, w'.claimedBy id ≠ some c) (webhookEncKey : Option String)
    (rest : List NotifyBatchMessage) :
    (∀ id, (a.reach c (goOn c webhookEncKey rest w')).shared.claimedBy id ≠ some c) ∧
      GoesOn c rest w a (a.reach c (goOn c webhookEncKey rest w')) := by
  have hgo : GoesOn c rest w' a (a.reach c (goOn c webhookEncKey rest w')) :=
    reach_goOn webhookEncKey rest w'
  refine ⟨fun id h => hunclaimed id (hgo.passed.claims id c h), hpassed.trans hgo.passed, ?_⟩
  rw [← hpassed.now]
  exact hgo.reached

private theorem ended_of_abandon (w : NotifyWorld) :
    (∀ id, (w.abandon c).claimedBy id ≠ some c) ∧
      GoesOn c [] w a ⟨w.abandon c, Function.update a.consumers c none⟩ :=
  ⟨not_claimed_giveBack w _, giveBack_passed c w _, none, rfl, fun _ h => by contradiction⟩

theorem resume_cases (fault : Fault) : Resumed opts c pos fault a (a.resume opts c pos fault) := by
  have hacked : ∀ w, (∀ id, (a.reach c (pos.acked c w)).shared.claimedBy id ≠ some c) ∧
      GoesOn c pos.rest w a (a.reach c (pos.acked c w)) :=
    fun w => ended_of_goOn (ack_passed c w pos.message) (not_claimed_ack w pos.message) _ _
  have hretried : ∀ w, (∀ id, (a.reach c (pos.retried c w)).shared.claimedBy id ≠ some c) ∧
      GoesOn c pos.rest w a (a.reach c (pos.retried c w)) :=
    fun w => ended_of_goOn (retry_passed c w pos.message) (not_claimed_giveBack w _) _ _
  cases fault with
  | none =>
    cases hnext : pos.nextStage opts a.shared with
    | some stage =>
      refine .stage stage rfl hnext ?_
      simp only [resume, Position.after_eq, hnext, reach]
    | none =>
      have hend : a.resume opts c pos .none = a.reach c (if pos.givesBack then
          pos.retried c (pos.effect opts c a.shared)
        else pos.acked c (pos.effect opts c a.shared)) := by
        simp only [resume, Position.after_eq, hnext]
      rw [hend]
      cases pos.givesBack with
      | true =>
        obtain ⟨hunclaimed, hgo⟩ := hretried (pos.effect opts c a.shared)
        exact .ended _ pos.rest (fun _ => hnext) (Or.inr ⟨Fault.not_before_none, rfl⟩) hunclaimed
          (Or.inl rfl) hgo
      | false =>
        obtain ⟨hunclaimed, hgo⟩ := hacked (pos.effect opts c a.shared)
        exact .ended _ pos.rest (fun _ => hnext) (Or.inr ⟨Fault.not_before_none, rfl⟩) hunclaimed
          (Or.inl rfl) hgo
  | throwBefore =>
    obtain ⟨hunclaimed, hgo⟩ := hretried a.shared
    exact .ended _ pos.rest (fun h => by contradiction) (Or.inl ⟨Or.inl rfl, rfl⟩) hunclaimed
      (Or.inl rfl) hgo
  | throwAfter =>
    obtain ⟨hunclaimed, hgo⟩ := hretried (pos.effect opts c a.shared)
    exact .ended _ pos.rest (fun h => by contradiction)
      (Or.inr ⟨fun h => h.not_after (Or.inl rfl), rfl⟩) hunclaimed (Or.inl rfl) hgo
  | killBefore =>
    obtain ⟨hunclaimed, hgo⟩ := @ended_of_abandon a c a.shared
    exact .ended _ [] (fun h => by contradiction) (Or.inl ⟨Or.inr rfl, rfl⟩) hunclaimed
      (Or.inr rfl) hgo
  | killAfter =>
    obtain ⟨hunclaimed, hgo⟩ := @ended_of_abandon a c (pos.effect opts c a.shared)
    exact .ended _ [] (fun h => by contradiction)
      (Or.inr ⟨fun h => h.not_after (Or.inr rfl), rfl⟩) hunclaimed (Or.inr rfl) hgo

end ConsumerState

/-- The machine starts where the queue does. -/
theorem notifySystemWith_init {opts : ProcessNotifyBatchOptions} {s : NotifyState}
    (h : (notifySystemWith opts).init s) :
    ∃ a : ConsumerState, a.toPool opts = s ∧ ∀ c, a.consumers c = none := by
  refine ⟨⟨s.shared, fun _ => none⟩, ?_, fun _ => rfl⟩
  have hthreads : s.threads = fun _ => none := funext h.1
  simp [ConsumerState.toPool, ← hthreads]

end Utsuroi
