import Utsuroi.Notify.Proofs.ConsumerContract

/-!
# No lost notification

A delivery that was sent is at its end, or some message for it is still to be handled, through
every redelivery, throw and kill of the consumer.  Two steps break this and are excluded: a claim
that finds the fresh claim of a consumer that ended, and a failure on the last allowed delivery of
the only message there is.
-/

namespace Utsuroi

open Async Prog Transition

/-! ## Runs -/

private theorem inv_app {w : NotifyWorld} {store : Store} (hinv : NotifyInv w)
    (happ : w.AppStep store) : NotifyInv { w with store } := by
  refine ⟨happ.keys, ⟨hinv.noLost.1, ?_⟩, hinv.claims⟩
  intro m msg hmsg
  rcases hinv.noLost.2 m msg hmsg with hclosed | hlive
  · refine Or.inl fun row hrow => ?_
    rcases happ.deliveries msg.deliveryId with hsame | hnone | ⟨_, hfresh⟩
    · exact hclosed row (hsame ▸ hrow)
    · exact absurd (hnone.symm.trans hrow) (by simp)
    · exact absurd rfl (hfresh m msg hmsg)
  · exact Or.inr hlive

private theorem inv_send {w : NotifyWorld} {m : MessageId} (id : DeliveryId)
    (hinv : NotifyInv w) (hnone : w.messages m = none) :
    NotifyInv { w with
      store := w.store.send id
      messages := Function.update w.messages m (some ⟨id, 0, .queued⟩) } := by
  have hkept : ∀ m' msg, w.messages m' = some msg →
      Function.update w.messages m (some ⟨id, 0, .queued⟩) m' = some msg := by
    intro m' msg hmsg
    rw [Function.update_of_ne ?_, hmsg]
    rintro rfl
    exact absurd (hnone.symm.trans hmsg) (by simp)
  refine ⟨hinv.keys, ⟨hinv.noLost.1, ?_⟩, ?_⟩
  · intro m' msg hmsg
    by_cases hm : m' = m
    · subst hm
      have hnew : msg = ⟨id, 0, .queued⟩ := by simpa using hmsg.symm
      subst hnew
      exact Or.inr ⟨m', _, hmsg, rfl, trivial⟩
    · have hold : w.messages m' = some msg := by
        rw [← hmsg]
        exact (Function.update_of_ne hm _ _).symm
      rcases hinv.noLost.2 m' msg hold with hclosed | ⟨m₀, msg₀, hmsg₀, hlive⟩
      · exact Or.inl hclosed
      · exact Or.inr ⟨m₀, msg₀, hkept m₀ msg₀ hmsg₀, hlive⟩
  · intro other c hc
    obtain ⟨m', msg, hmsg, hheld⟩ := hinv.claims other c hc
    exact ⟨m', msg, hkept m' msg hmsg, hheld⟩

private theorem untouched_send {w : NotifyWorld} {m : MessageId} {id : DeliveryId}
    (hnone : w.messages m = none) (c : ConsumerId) :
    Untouched c w { w with
      store := w.store.send id
      messages := Function.update w.messages m (some ⟨id, 0, .queued⟩) } := by
  refine ⟨fun m' msg hphase => ?_, fun _ h => h⟩
  by_cases hm : m' = m
  · subst hm
    simp only [Function.update_self, hnone]
    constructor
    · intro hnew
      obtain rfl := Option.some.inj hnew
      contradiction
    · intro hmsg
      contradiction
  · simp only [Function.update_of_ne hm]

section StartBatch

variable {c : ConsumerId} {batch : List NotifyBatchMessage} {w : NotifyWorld}

/-- The messages of a batch are queued. -/
def Queued (batch : List NotifyBatchMessage) (w : NotifyWorld) : Prop :=
  ∀ message ∈ batch, (w.messages message.id).any
    (fun msg => msg.deliveryId = message.deliveryId ∧ msg.phase = .queued) = true

private theorem Queued.message {message : NotifyBatchMessage} (h : Queued batch w)
    (hmem : message ∈ batch) : ∃ msg, w.messages message.id = some msg ∧
      msg.deliveryId = message.deliveryId ∧ msg.phase = .queued := by
  have hany := h message hmem
  rw [Option.any_eq_true] at hany
  obtain ⟨msg, hmsg, hqueued⟩ := hany
  exact ⟨msg, hmsg, of_decide_eq_true hqueued⟩

private theorem startBatch_messages {m : MessageId} {msg' : Message}
    (h : (w.startBatch c batch).messages m = some msg') :
    ∃ msg, w.messages m = some msg ∧ msg'.deliveryId = msg.deliveryId ∧
      msg'.attempts = msg.attempts ∧
      (m ∉ batch.map NotifyBatchMessage.id ∧ msg' = msg ∨
        m ∈ batch.map NotifyBatchMessage.id ∧ msg'.phase = .held c) := by
  by_cases hm : m ∈ batch.map NotifyBatchMessage.id
  · simp only [NotifyWorld.startBatch, if_pos hm, Option.map_eq_some_iff] at h
    obtain ⟨msg, hmsg, rfl⟩ := h
    exact ⟨msg, hmsg, rfl, rfl, Or.inr ⟨hm, rfl⟩⟩
  · simp only [NotifyWorld.startBatch, if_neg hm] at h
    exact ⟨msg', h, rfl, rfl, Or.inl ⟨hm, rfl⟩⟩

private theorem startBatch_live (c : ConsumerId) (batch : List NotifyBatchMessage)
    {m : MessageId} {msg : Message} (hmsg : w.messages m = some msg)
    (hlive : msg.phase.Live) :
    ∃ msg', (w.startBatch c batch).messages m = some msg' ∧ msg'.deliveryId = msg.deliveryId ∧
      msg'.attempts = msg.attempts ∧ msg'.phase.Live := by
  by_cases hm : m ∈ batch.map NotifyBatchMessage.id
  · exact ⟨{ msg with phase := .held c },
      by simp only [NotifyWorld.startBatch, if_pos hm, hmsg, Option.map_some], rfl, rfl, trivial⟩
  · exact ⟨msg, by simp only [NotifyWorld.startBatch, if_neg hm, hmsg], rfl, rfl, hlive⟩

/-- A message that somebody holds is in no new batch. -/
private theorem startBatch_held (hqueued : Queued batch w) {m : MessageId} {msg : Message}
    {other : ConsumerId} (hmsg : w.messages m = some msg) (hphase : msg.phase = .held other) :
    (w.startBatch c batch).messages m = some msg := by
  have hm : m ∉ batch.map NotifyBatchMessage.id := by
    intro hin
    obtain ⟨message, hmem, rfl⟩ := List.mem_map.mp hin
    obtain ⟨queued, hmsg', _, hphase'⟩ := hqueued.message hmem
    obtain rfl := Option.some.inj (hmsg.symm.trans hmsg')
    rw [hphase] at hphase'
    contradiction
  simp only [NotifyWorld.startBatch, if_neg hm, hmsg]

private theorem startBatch_inv (hinv : NotifyInv w) (hqueued : Queued batch w) :
    NotifyInv (w.startBatch c batch) := by
  refine ⟨hinv.keys, ⟨hinv.noLost.1, ?_⟩, ?_⟩
  · intro m msg' hmsg'
    obtain ⟨msg, hmsg, hid, _⟩ := startBatch_messages hmsg'
    rw [hid]
    rcases hinv.noLost.2 m msg hmsg with hclosed | ⟨m₀, msg₀, hmsg₀, hid₀, hlive₀⟩
    · exact Or.inl hclosed
    · obtain ⟨left, hleft, hid, _, hlive⟩ := startBatch_live c batch hmsg₀ hlive₀
      exact Or.inr ⟨m₀, left, hleft, hid.trans hid₀, hlive⟩
  · intro id other hother
    obtain ⟨m, msg, hmsg, hid, hphase⟩ := hinv.claims id other hother
    exact ⟨m, msg, startBatch_held hqueued hmsg hphase, hid, hphase⟩

private theorem startBatch_guar (hinv : NotifyInv w) (hqueued : Queued batch w) :
    (consumerContract c).guar w (w.startBatch c batch) := by
  refine ⟨startBatch_inv hinv hqueued, fun other hne => ⟨fun m msg hphase => ?_, fun _ h => h⟩⟩
  constructor
  · intro hmsg
    obtain ⟨msg₀, hmsg₀, _, _, ⟨_, rfl⟩ | ⟨_, hheld⟩⟩ := startBatch_messages hmsg
    · exact hmsg₀
    · rw [hphase] at hheld
      exact absurd (MessagePhase.held.inj hheld) hne
  · exact fun hmsg => startBatch_held hqueued hmsg hphase

private theorem startBatch_between (hinv : NotifyInv w) (hqueued : Queued batch w)
    (hdistinct : (batch.map NotifyBatchMessage.id).Nodup)
    (hidle : consumerContracts.idle c w) : Between c batch (w.startBatch c batch) := by
  refine ⟨startBatch_inv hinv hqueued, hdistinct, ?_, ?_, fun id hid => hidle.2 id hid⟩
  · intro message hmem
    obtain ⟨msg, hmsg, hid, _⟩ := hqueued.message hmem
    have hin := List.mem_map_of_mem (f := NotifyBatchMessage.id) hmem
    exact ⟨{ msg with phase := .held c },
      by simp only [NotifyWorld.startBatch, if_pos hin, hmsg, Option.map_some], hid, rfl⟩
  · intro m hm
    obtain ⟨msg', hmsg', hphase⟩ := holds_iff.mp hm
    obtain ⟨msg, hmsg, _, _, ⟨_, rfl⟩ | ⟨hin, _⟩⟩ := startBatch_messages hmsg'
    · exact absurd (holds_iff.mpr ⟨_, hmsg, hphase⟩) (hidle.1 m)
    · exact hin

private theorem startBatch_mayGiveBack {given : MessageId → Prop}
    (hgive : w.MayGiveBackNow given) : (w.startBatch c batch).MayGiveBackNow given := by
  intro m msg' hm hmsg'
  obtain ⟨msg, hmsg, hid, _⟩ := startBatch_messages hmsg'
  rw [hid]
  rcases hgive m msg hm hmsg with hclosed | ⟨m₀, msg₀, hmsg₀, hid₀, hlive₀, hlast₀⟩
  · exact Or.inl hclosed
  · obtain ⟨left, hleft, hid, hattempts, hlive⟩ :=
      startBatch_live c batch hmsg₀ hlive₀
    exact Or.inr ⟨m₀, left, hleft, hid.trans hid₀, hlive, fun hm => hattempts ▸ hlast₀ hm⟩

end StartBatch

/-- What every state of a guarded run is like. -/
structure NotifyRunInv (s : NotifyState) : Prop where
  inv : NotifyInv s.shared
  meets : s.Meets consumerContracts consumerExits

private theorem notifyRunInv_init {s : NotifyState} (h : notifySystem.init s) :
    NotifyRunInv s := by
  obtain ⟨hthreads, hdeliveries, hmessages, hclaimedBy, hacks⟩ := h
  refine ⟨⟨?_, ⟨?_, ?_⟩, ?_⟩, fun c => ?_⟩
  · intro id row hrow
    exact absurd ((hdeliveries id).symm.trans hrow) (by simp)
  · simp [hacks]
  · intro m msg hmsg
    exact absurd ((hmessages m).symm.trans hmsg) (by simp)
  · intro id c hc
    exact absurd ((hclaimedBy id).symm.trans hc) (by simp)
  · rw [hthreads]
    refine ⟨fun m hm => ?_, fun id hid => ?_⟩
    · obtain ⟨msg, hmsg, _⟩ := holds_iff.mp hm
      exact absurd ((hmessages m).symm.trans hmsg) (by simp)
    · exact absurd ((hclaimedBy id).symm.trans hid) (by simp)

/-- Effects that a consumer guarantees keep the invariant. -/
private theorem inv_of_guar {c : ConsumerId} {w w' : NotifyWorld} (hinv : NotifyInv w)
    (h : Relation.ReflTransGen (consumerContract c).guar w w') : NotifyInv w' := by
  induction h with
  | refl => exact hinv
  | tail _ hguar _ => exact hguar.1

private theorem notifyRunInv_step {past : List NotifyEvent} {s s' : NotifyState} {e : NotifyEvent}
    (h : NotifyRunInv s) (hstep : notifySystem.step s e s') (hguard : notifyGuarded past s e) :
    NotifyRunInv s' := by
  obtain ⟨hallowed, rfl⟩ := hstep
  cases e with
  | tick now discord =>
    have hinv : NotifyInv { s.shared with now, discord } :=
      ⟨h.inv.keys, h.inv.noLost, h.inv.claims⟩
    exact ⟨hinv, h.meets.environment consumers_compatible fun c =>
      ⟨hinv, fun _ _ _ => Iff.rfl, fun _ h => h⟩⟩
  | app store =>
    have hinv := inv_app h.inv hallowed
    exact ⟨hinv, h.meets.environment consumers_compatible fun c =>
      ⟨hinv, fun _ _ _ => Iff.rfl, fun _ h => h⟩⟩
  | send m id =>
    have hinv := inv_send id h.inv hallowed
    exact ⟨hinv, h.meets.environment consumers_compatible fun c =>
      ⟨hinv, untouched_send hallowed c⟩⟩
  | startBatch c webhookEncKey batch =>
    obtain ⟨hidle, hdistinct, hqueued⟩ := hallowed
    have hkeeps : consumerContracts.Keeps consumerExits c none s.shared := hidle ▸ h.meets c
    have hbetween := startBatch_between h.inv hqueued hdistinct hkeeps
    have hrg := processNotifyBatch_rg webhookEncKey ⟨none⟩ hbetween
      fun hmissing => startBatch_mayGiveBack (hguard hmissing)
    obtain ⟨hmeets, heffects⟩ := h.meets.advance consumers_compatible
      (.single (startBatch_guar h.inv hqueued)) hrg
    exact ⟨inv_of_guar h.inv heffects, hmeets⟩
  | resume c fault =>
    obtain ⟨hmeets, heffects⟩ := h.meets.resume consumers_compatible hguard
      ⟨h.inv, .refl c s.shared⟩
    exact ⟨inv_of_guar h.inv heffects, hmeets⟩

/-- No lost notification: in every run in which no claim finds a fresh claim of an attempt
that has ended, and no failure on its last delivery takes a delivery's last message, every
ack is justified and every open delivery that has had a message still has one. -/
theorem notify_noLostNotification {es : List NotifyEvent} {s : NotifyState}
    (h : notifySystem.Run notifyGuarded es s) : NoLostNotification s.shared := by
  have hinv : NotifyRunInv s := h.invariant (I := fun _ s => NotifyRunInv s)
    (fun _ => notifyRunInv_init) fun _ _ _ _ _ hinv hstep hguard =>
      notifyRunInv_step hinv hstep hguard
  exact hinv.inv.noLost

/-! ## An ack that loses a notification -/

/-- The state that events, newest first, lead the quiet queue to. -/
private def notifyReplay (es : List NotifyEvent) : NotifyState :=
  stateAfter NotifyEvent.apply quietQueue es

private abbrev NotifyReplays (C : StepCond NotifyState NotifyEvent) : List NotifyEvent → Prop :=
  Replays NotifyEvent.apply quietQueue (fun s e => e.Allowed s) C

private theorem notifyReplays_run {C : StepCond NotifyState NotifyEvent} {es : List NotifyEvent}
    (h : NotifyReplays C es) : notifySystem.Run C es (notifyReplay es) :=
  h.run quietQueue_init fun _ _ hallowed => ⟨hallowed, rfl⟩

/-- The delivery is created and sent twice. -/
private def sentTwice : List NotifyEvent :=
  [.send 1 oneDelivery, .send 0 oneDelivery, .app (deliveryStore.insertDelivery oneDelivery)]

private theorem sentTwice_replays {C : StepCond NotifyState NotifyEvent}
    (hsend : ∀ past s m id, C past s (.send m id))
    (happ : ∀ past s store, C past s (.app store)) : NotifyReplays C sentTwice := by
  refine ⟨⟨⟨trivial, deliveryStore_app, happ _ _ _⟩, ?_, hsend _ _ _ _⟩, ?_, hsend _ _ _ _⟩
  · change (notifyReplay _).shared.messages 0 = none
    decide
  · change (notifyReplay _).shared.messages 1 = none
    decide

private def encKey : Option String := some "a2V5"

/-- The secret cannot be decrypted: the message is given back, its delivery still claimed,
and redelivered before the claim is stale. -/
private def undecryptable : List NotifyEvent :=
  [.resume 1 .none, .startBatch 1 encKey [⟨0, oneDelivery⟩], .resume 0 .throwBefore,
    .resume 0 .none, .resume 0 .none, .startBatch 0 encKey [⟨0, oneDelivery⟩]] ++ sentTwice

private theorem undecryptable_replays : NotifyReplays anyStep undecryptable := by
  have hsent : NotifyReplays anyStep sentTwice :=
    sentTwice_replays (fun _ _ _ _ => trivial) fun _ _ _ => trivial
  refine ⟨⟨⟨⟨⟨⟨hsent, ?_, trivial⟩, ?_, trivial⟩, ?_, trivial⟩, ?_, trivial⟩, ?_, trivial⟩, ?_,
    trivial⟩
  · exact ⟨rfl, by decide, by decide⟩
  · change Pool.waitsAt (notifyReplay _) 0 ≠ none
    decide
  · change Pool.waitsAt (notifyReplay _) 0 ≠ none
    decide
  · change Pool.waitsAt (notifyReplay _) 0 ≠ none
    decide
  · exact ⟨rfl, by decide, by decide⟩
  · change Pool.waitsAt (notifyReplay _) 1 ≠ none
    decide

/-- The redelivered message is acked while its delivery is left in `sending`. -/
theorem notify_noLostNotification_violated :
    ¬∀ es s, notifySystem.Run anyStep es s → NoLostNotification s.shared := by
  intro hall
  have hacks := (hall _ _ (notifyReplays_run undecryptable_replays)).1
  have hjustified := hacks ⟨1, some ⟨oneDelivery, .sending, 0, none, some 0⟩, none⟩ (by decide)
  rcases hjustified _ rfl with hclosed | ⟨_, c, hc, _⟩
  · exact absurd hclosed (by decide)
  · contradiction

/-- A duplicate message arrives while the delivery is being posted; the first attempt to
claim it throws. -/
private def duplicateMessage : List NotifyEvent :=
  [.resume 0 .none, .resume 0 .none, .resume 0 .none, .resume 0 .none, .resume 1 .none,
    .startBatch 1 encKey [⟨1, oneDelivery⟩], .resume 0 .none,
    .startBatch 0 encKey [⟨0, oneDelivery⟩], .resume 0 .throwBefore,
    .startBatch 0 encKey [⟨0, oneDelivery⟩]] ++ sentTwice

private theorem guarded_resume {past : List NotifyEvent} {s : NotifyState} {c : ConsumerId}
    {fault : Fault} (site : NotifySite) (hsite : s.waitsAt c = some site)
    (h : callGuarded c s.shared site fault) :
    s.waitsAt c ≠ none ∧ notifyGuarded past s (.resume c fault) := by
  refine ⟨by simp [hsite], fun other hother => ?_⟩
  obtain rfl := Option.some.inj (hsite.symm.trans hother)
  exact h

private theorem duplicateMessage_replays : NotifyReplays notifyGuarded duplicateMessage := by
  have hsent : NotifyReplays notifyGuarded sentTwice :=
    sentTwice_replays (fun _ _ _ _ => trivial) fun _ _ _ => trivial
  have hkey : encKey.getD "" ≠ "" := by decide
  refine ⟨⟨⟨⟨⟨⟨⟨⟨⟨⟨hsent, ⟨rfl, by decide, by decide⟩, fun h => absurd h hkey⟩, ?_⟩,
    ⟨rfl, by decide, by decide⟩, fun h => absurd h hkey⟩, ?_⟩, ⟨rfl, by decide, by decide⟩,
    fun h => absurd h hkey⟩, ?_⟩, ?_⟩, ?_⟩, ?_⟩, ?_⟩
  · -- the message is on its first delivery
    refine guarded_resume ⟨⟨0, oneDelivery⟩, .claim 0⟩ rfl ?_
    rintro m msg rfl hmsg
    have hheld : (notifyReplay (.startBatch 0 encKey [⟨0, oneDelivery⟩] :: sentTwice)).shared.messages
        0 = some ⟨oneDelivery, 0, .held 0⟩ := by decide
    obtain rfl := Option.some.inj (hheld.symm.trans hmsg)
    exact Or.inr ⟨0, _, hmsg, rfl, trivial, fun _ => by decide⟩
  · refine guarded_resume ⟨⟨0, oneDelivery⟩, .claim 0⟩ rfl ?_
    intro row hrow hsending
    obtain rfl := Option.some.inj ((by decide :
      (newDelivery oneDelivery : Option DeliveryRow) = _).trans hrow)
    contradiction
  · refine guarded_resume ⟨⟨1, oneDelivery⟩, .claim 0⟩ rfl ?_
    intro row _ _ _
    decide
  · exact guarded_resume ⟨⟨0, oneDelivery⟩, .select⟩ rfl trivial
  · exact guarded_resume ⟨⟨0, oneDelivery⟩, .decryptWebhookUrl⟩ rfl trivial
  · exact guarded_resume ⟨⟨0, oneDelivery⟩, .sendToDiscord⟩ rfl trivial
  · exact guarded_resume ⟨⟨0, oneDelivery⟩, .markDelivered⟩ rfl trivial

theorem notify_noLostNotification_duplicateMessage :
    NoLostNotification (notifyReplay duplicateMessage).shared :=
  notify_noLostNotification (notifyReplays_run duplicateMessage_replays)

end Utsuroi
