import Mathlib.Tactic
import Utsuroi.Notify.Queue

/-!
# The contract of a consumer

What a consumer relies on is that the others leave its messages alone.  What it guarantees
of each of its own effects is the same to them and that nothing is lost.
-/

namespace Utsuroi

open Async Prog Transition

/-! ## The contract of a consumer -/

structure NotifyInv (w : NotifyWorld) : Prop where
  keys : w.store.DeliveryKeys
  noLost : NoLostNotification w
  /-- whoever is at work on a delivery holds a message for it -/
  claims : ∀ id c, w.claimedBy id = some c →
    ∃ m msg, w.messages m = some msg ∧ msg.deliveryId = id ∧ msg.phase = .held c

/-- What is consumer `c`'s stays as it is. -/
structure Untouched (c : ConsumerId) (w w' : NotifyWorld) : Prop where
  messages : ∀ m msg, msg.phase = .held c → (w'.messages m = some msg ↔ w.messages m = some msg)
  claims : ∀ id, w'.claimedBy id = some c → w.claimedBy id = some c

def consumerContract (c : ConsumerId) : Contract NotifySite NotifyWorld where
  rely w w' := NotifyInv w' ∧ Untouched c w w'
  guar w w' := NotifyInv w' ∧ ∀ other, other ≠ c → Untouched other w w'
  allows := callGuarded c

def consumerContracts : Pool.Contracts ConsumerId NotifySite NotifyWorld where
  of := consumerContract
  idle c w := (∀ m, ¬w.Holds c m) ∧ ∀ id, w.claimedBy id ≠ some c

theorem holds_iff {c : ConsumerId} {m : MessageId} {w : NotifyWorld} :
    w.Holds c m ↔ ∃ msg, w.messages m = some msg ∧ msg.phase = .held c := by
  unfold NotifyWorld.Holds
  cases w.messages m <;> simp

theorem Untouched.refl (c : ConsumerId) (w : NotifyWorld) : Untouched c w w :=
  ⟨fun _ _ _ => Iff.rfl, fun _ h => h⟩

theorem Untouched.holds {c : ConsumerId} {w w' : NotifyWorld} (h : Untouched c w w')
    {m : MessageId} : w'.Holds c m ↔ w.Holds c m := by
  simp only [holds_iff]
  constructor
  · rintro ⟨msg, hmsg, hphase⟩
    exact ⟨msg, (h.messages m msg hphase).mp hmsg, hphase⟩
  · rintro ⟨msg, hmsg, hphase⟩
    exact ⟨msg, (h.messages m msg hphase).mpr hmsg, hphase⟩

theorem consumers_compatible : consumerContracts.Compatible := by
  constructor
  · rintro c w₁ w₂ w₃ ⟨_, h₁₂⟩ ⟨hinv, h₂₃⟩
    refine ⟨hinv, ?_, fun id h => h₁₂.claims id (h₂₃.claims id h)⟩
    intro m msg hphase
    exact (h₂₃.messages m msg hphase).trans (h₁₂.messages m msg hphase)
  · rintro c other w w' hne ⟨hinv, hothers⟩
    exact ⟨hinv, hothers other hne⟩
  · rintro c w w' ⟨hholds, hclaims⟩ ⟨_, huntouched⟩
    refine ⟨fun m hm => hholds m (huntouched.holds.mp hm), ?_⟩
    exact fun id hid => hclaims id (huntouched.claims id hid)

/-- Consumer `c` holds the messages `todo` and claims none but deliveries in `claimed`. -/
structure Holding (c : ConsumerId) (todo : List NotifyBatchMessage) (claimed : DeliveryId → Prop)
    (w : NotifyWorld) : Prop where
  inv : NotifyInv w
  distinct : (todo.map NotifyBatchMessage.id).Nodup
  mine : ∀ message ∈ todo, ∃ msg, w.messages message.id = some msg ∧
    msg.deliveryId = message.deliveryId ∧ msg.phase = .held c
  only : ∀ m, w.Holds c m → m ∈ todo.map NotifyBatchMessage.id
  claims : ∀ id, w.claimedBy id = some c → claimed id

/-- Between two messages nothing is claimed. -/
abbrev Between (c : ConsumerId) (todo : List NotifyBatchMessage) : NotifyWorld → Prop :=
  Holding c todo fun _ => False

section Consumer

variable {c : ConsumerId} {message : NotifyBatchMessage} {todo rest : List NotifyBatchMessage}
  {claimed : DeliveryId → Prop} {w w' : NotifyWorld}

private theorem Holding.stable (h : Holding c todo claimed w)
    (hrely : (consumerContract c).rely w w') : Holding c todo claimed w' := by
  obtain ⟨hinv, huntouched⟩ := hrely
  refine ⟨hinv, h.distinct, ?_, fun m hm => h.only m (huntouched.holds.mp hm), ?_⟩
  · intro message hmem
    obtain ⟨msg, hmsg, hid, hphase⟩ := h.mine message hmem
    exact ⟨msg, (huntouched.messages _ msg hphase).mpr hmsg, hid, hphase⟩
  · exact fun id hid => h.claims id (huntouched.claims id hid)

private theorem Holding.weaken {claimed' : DeliveryId → Prop} (h : Holding c todo claimed w)
    (himp : ∀ id, claimed id → claimed' id) : Holding c todo claimed' w :=
  ⟨h.inv, h.distinct, h.mine, h.only, fun id hid => himp id (h.claims id hid)⟩

private theorem live_of_held {msg : Message} (h : msg.phase = .held c) : msg.phase.Live := by
  rw [h]
  trivial

/-! ## Effects of a call -/

/-- What the calls made for `message` have in common. -/
structure OwnEffect (c : ConsumerId) (site : NotifySite) (eff : NotifyWorld → NotifyWorld) :
    Prop where
  messages : ∀ w, (eff w).messages = w.messages
  acks : ∀ w, (eff w).acks = w.acks
  claims : ∀ w id, (eff w).claimedBy id = w.claimedBy id ∨
    (eff w).claimedBy id = some c ∧ id = site.message.deliveryId
  keys : ∀ w, w.store.DeliveryKeys → (eff w).store.DeliveryKeys
  status : ∀ w id row', (eff w).store.deliveries id = some row' →
    ∃ row, w.store.deliveries id = some row ∧
      ((site.statusAfter .none id row.status).Closed → row'.status.Closed)

private theorem OwnEffect.covered {site : NotifySite} {eff : NotifyWorld → NotifyWorld}
    (heff : OwnEffect c site eff) (h : Holding c (site.message :: rest) claimed w)
    {id : DeliveryId} (hcovered : w.Covered id) : (eff w).Covered id := by
  by_cases hid : id = site.message.deliveryId
  · obtain ⟨msg, hmsg, hdelivery, hphase⟩ := h.mine site.message List.mem_cons_self
    exact Or.inr ⟨_, msg, by rw [heff.messages, hmsg], by rw [hdelivery, hid], live_of_held hphase⟩
  · rcases hcovered with hclosed | ⟨m, msg, hmsg, hlive⟩
    · refine Or.inl fun row' hrow' => ?_
      obtain ⟨row, hrow, hstatus⟩ := heff.status w id row' hrow'
      apply hstatus
      rw [NotifySite.statusAfter, if_pos (Or.inl (Ne.symm hid))]
      exact hclosed row hrow
    · exact Or.inr ⟨m, msg, by rw [heff.messages, hmsg], hlive⟩

theorem OwnEffect.inv {site : NotifySite} {eff : NotifyWorld → NotifyWorld}
    (heff : OwnEffect c site eff) (h : Holding c (site.message :: rest) claimed w) :
    NotifyInv (eff w) := by
  refine ⟨heff.keys w h.inv.keys, ⟨?_, ?_⟩, ?_⟩
  · rw [heff.acks]
    exact h.inv.noLost.1
  · intro m msg hmsg
    rw [heff.messages] at hmsg
    exact heff.covered h (h.inv.noLost.2 m msg hmsg)
  · intro id other hother
    rw [heff.messages]
    rcases heff.claims w id with hsame | ⟨hclaimed, hid⟩
    · exact h.inv.claims id other (hsame ▸ hother)
    · obtain ⟨msg, hmsg, hdelivery, hphase⟩ := h.mine site.message List.mem_cons_self
      rw [hclaimed] at hother
      obtain rfl := Option.some.inj hother
      exact ⟨_, msg, hmsg, hdelivery.trans hid.symm, hphase⟩

theorem OwnEffect.guar {site : NotifySite} {eff : NotifyWorld → NotifyWorld}
    (heff : OwnEffect c site eff) (h : Holding c (site.message :: rest) claimed w) :
    (consumerContract c).guar w (eff w) := by
  refine ⟨heff.inv h, fun other hne => ⟨fun m msg _ => by rw [heff.messages], ?_⟩⟩
  intro id hother
  rcases heff.claims w id with hsame | ⟨hclaimed, _⟩
  · exact hsame ▸ hother
  · rw [hclaimed] at hother
    exact absurd (Option.some.inj hother).symm hne

private theorem OwnEffect.holding {site : NotifySite} {eff : NotifyWorld → NotifyWorld}
    (heff : OwnEffect c site eff) (h : Holding c (site.message :: rest) claimed w)
    (hclaimed : ∀ id, claimed id → id = site.message.deliveryId) :
    Holding c (site.message :: rest) (· = site.message.deliveryId) (eff w) := by
  have hheld : ∀ m, (eff w).Holds c m ↔ w.Holds c m := by
    intro m
    rw [holds_iff, holds_iff, heff.messages]
  refine ⟨heff.inv h, h.distinct, ?_, fun m hm => h.only m ((hheld m).mp hm), ?_⟩
  · rw [heff.messages]
    exact h.mine
  · intro id hid
    rcases heff.claims w id with hsame | ⟨_, hown⟩
    · exact hclaimed id (h.claims id (hsame ▸ hid))
    · exact hown

private theorem ownEffect_read (c : ConsumerId) (site : NotifySite)
    (hcall : site.call = .select ∨ site.call = .decryptWebhookUrl ∨ site.call = .sendToDiscord) :
    OwnEffect c site (NotifyWorld.onStore id) := by
  refine ⟨fun _ => rfl, fun _ => rfl, fun _ _ => Or.inl rfl, fun _ h => h, ?_⟩
  intro w id row hrow
  refine ⟨row, hrow, fun hclosed => ?_⟩
  unfold NotifySite.statusAfter at hclosed
  rcases hcall with hcall | hcall | hcall <;> rw [hcall] at hclosed <;> simpa using hclosed

private theorem deliveryKeys_update {store : Store} (h : store.DeliveryKeys) (id : DeliveryId)
    (f : DeliveryRow → DeliveryRow) : (store.updateDelivery id f).DeliveryKeys := by
  intro other row hrow
  by_cases hid : other = id
  · subst hid
    simp only [Store.updateDelivery, Function.update_self, Option.map_eq_some_iff] at hrow
    obtain ⟨old, hold, _⟩ := hrow
    exact h other old hold
  · simp only [Store.updateDelivery, Function.update_of_ne hid] at hrow
    exact h other row hrow

/-- The row an UPDATE of another row, or of this one, leaves. -/
private theorem updateDelivery_row {store : Store} {id other : DeliveryId}
    {f : DeliveryRow → DeliveryRow} {row' : DeliveryRow}
    (h : (store.updateDelivery id f).deliveries other = some row') :
    ∃ row, store.deliveries other = some row ∧
      (other ≠ id ∧ row' = row ∨ other = id ∧ row' = f row) := by
  by_cases hid : other = id
  · subst hid
    simp only [Store.updateDelivery, Function.update_self, Option.map_eq_some_iff] at h
    obtain ⟨row, hrow, rfl⟩ := h
    exact ⟨row, hrow, Or.inr ⟨rfl, rfl⟩⟩
  · simp only [Store.updateDelivery, Function.update_of_ne hid] at h
    exact ⟨row', h, Or.inl ⟨hid, rfl⟩⟩

private theorem ownEffect_update (c : ConsumerId) (site : NotifySite)
    (f : DeliveryRow → DeliveryRow)
    (hf : ∀ row, (site.statusAfter .none site.message.deliveryId row.status).Closed →
      (f row).status.Closed) :
    OwnEffect c site (NotifyWorld.onStore (Store.updateDelivery site.message.deliveryId f)) := by
  refine ⟨fun _ => rfl, fun _ => rfl, fun _ _ => Or.inl rfl,
    fun w h => deliveryKeys_update h _ _, ?_⟩
  intro w id row' hrow'
  obtain ⟨row, hrow, ⟨hid, rfl⟩ | ⟨rfl, rfl⟩⟩ := updateDelivery_row hrow'
  · refine ⟨row', hrow, fun hclosed => ?_⟩
    rwa [NotifySite.statusAfter, if_pos (Or.inl (Ne.symm hid))] at hclosed
  · exact ⟨row, hrow, hf row⟩

private theorem ownEffect_markDelivered (c : ConsumerId) (message : NotifyBatchMessage) :
    OwnEffect c ⟨message, .markDelivered⟩
      (NotifyWorld.onStore (Store.markDeliveryDelivered message.deliveryId)) :=
  ownEffect_update c ⟨message, .markDelivered⟩ _ fun _ _ => Or.inl rfl

private theorem ownEffect_markFailed (c : ConsumerId) (message : NotifyBatchMessage)
    (error : String) (dead : Bool) :
    OwnEffect c ⟨message, .markFailed dead⟩
      (NotifyWorld.onStore (Store.markDeliveryFailed message.deliveryId error dead)) := by
  refine ownEffect_update c ⟨message, .markFailed dead⟩ _ fun row hclosed => ?_
  simpa [NotifySite.statusAfter] using hclosed

private theorem claim_closed {now : Nat} {row : DeliveryRow} (h : row.status.Closed) :
    row.claim now = row := by
  rcases h with h | h <;> simp [DeliveryRow.claim, DeliveryRow.claimable, h]

private theorem ownEffect_claim (c : ConsumerId) (message : NotifyBatchMessage) (now : Nat) :
    OwnEffect c ⟨message, .claim now⟩ (NotifyWorld.claim c now message.deliveryId) := by
  refine ⟨fun _ => rfl, fun _ => rfl, ?_, fun w h => deliveryKeys_update h _ _, ?_⟩
  · intro w id
    simp only [NotifyWorld.claim]
    split
    · by_cases hid : id = message.deliveryId
      · subst hid
        exact Or.inr ⟨Function.update_self _ _ _, rfl⟩
      · exact Or.inl (Function.update_of_ne hid _ _)
    · exact Or.inl rfl
  · intro w id row' hrow'
    obtain ⟨row, hrow, ⟨hid, rfl⟩ | ⟨rfl, rfl⟩⟩ := updateDelivery_row hrow'
    · refine ⟨row', hrow, fun hclosed => ?_⟩
      rwa [NotifySite.statusAfter, if_pos (Or.inl (Ne.symm hid))] at hclosed
    · refine ⟨row, hrow, fun hclosed => ?_⟩
      have hclosed : row.status.Closed := by simpa [NotifySite.statusAfter] using hclosed
      rwa [claim_closed hclosed]

/-! ## Acks -/

private theorem unclaim_claimedBy {id : DeliveryId} {other : ConsumerId}
    (h : (if w.claimedBy id = some c then none else w.claimedBy id) = some other) :
    w.claimedBy id = some other ∧ other ≠ c := by
  by_cases hown : w.claimedBy id = some c
  · rw [if_pos hown] at h
    contradiction
  · rw [if_neg hown] at h
    refine ⟨h, ?_⟩
    rintro rfl
    exact hown h

private theorem ack_messages (m : MessageId) {msg' : Message}
    (h : (w.ack c message).messages m = some msg') :
    ∃ msg, w.messages m = some msg ∧ msg'.deliveryId = msg.deliveryId ∧
      (m ≠ message.id ∧ msg' = msg ∨ m = message.id ∧ msg'.phase = .acked) := by
  by_cases hm : m = message.id
  · subst hm
    simp only [NotifyWorld.ack, Function.update_self, Option.map_eq_some_iff] at h
    obtain ⟨msg, hmsg, rfl⟩ := h
    exact ⟨msg, hmsg, rfl, Or.inr ⟨rfl, rfl⟩⟩
  · simp only [NotifyWorld.ack, Function.update_of_ne hm] at h
    exact ⟨msg', h, rfl, Or.inl ⟨hm, rfl⟩⟩

private theorem ack_other {m : MessageId} {msg : Message} (h : w.messages m = some msg)
    (hm : m ≠ message.id) : (w.ack c message).messages m = some msg := by
  simp only [NotifyWorld.ack, Function.update_of_ne hm]
  exact h

/-- What an ack needs to be justified. -/
private def MayAck (c : ConsumerId) (message : NotifyBatchMessage) (w : NotifyWorld) : Prop :=
  Ack.Justified ⟨c, w.store.deliveries message.deliveryId, w.claimedBy message.deliveryId⟩

private theorem ack_covered (h : Holding c (message :: rest) claimed w)
    (hack : MayAck c message w) {id : DeliveryId} (hcovered : w.Covered id) :
    (w.ack c message).Covered id := by
  rcases hcovered with hclosed | ⟨m, msg, hmsg, hid, hlive⟩
  · exact Or.inl hclosed
  · by_cases hm : m = message.id
    · obtain ⟨own, hown, hdelivery, hphase⟩ := h.mine message List.mem_cons_self
      subst hm
      obtain rfl := Option.some.inj (hown.symm.trans hmsg)
      rw [hdelivery] at hid
      subst hid
      cases hrow : w.store.deliveries message.deliveryId with
      | none =>
        refine Or.inl fun row h => ?_
        rw [show (w.ack c message).store = w.store from rfl, hrow] at h
        contradiction
      | some row =>
        rcases hack row hrow with hclosed | ⟨_, other, hother, hne⟩
        · refine Or.inl fun row' h => ?_
          rw [show (w.ack c message).store = w.store from rfl, hrow] at h
          obtain rfl := Option.some.inj h
          exact hclosed
        · -- the claimant holds a message of its own
          obtain ⟨m', msg', hmsg', hid', hphase'⟩ := h.inv.claims _ other hother
          refine Or.inr ⟨m', msg', ack_other hmsg' ?_, hid', live_of_held hphase'⟩
          rintro rfl
          obtain rfl := Option.some.inj (hown.symm.trans hmsg')
          rw [hphase] at hphase'
          exact hne (MessagePhase.held.inj hphase').symm
    · exact Or.inr ⟨m, msg, ack_other hmsg hm, hid, hlive⟩

private theorem ack_inv (h : Holding c (message :: rest) claimed w)
    (hack : MayAck c message w) : NotifyInv (w.ack c message) := by
  refine ⟨h.inv.keys, ⟨?_, ?_⟩, ?_⟩
  · intro a ha
    rcases List.mem_cons.mp ha with rfl | ha
    · exact hack
    · exact h.inv.noLost.1 a ha
  · intro m msg' hmsg'
    obtain ⟨msg, hmsg, hid, _⟩ := ack_messages m hmsg'
    rw [hid]
    exact ack_covered h hack (h.inv.noLost.2 m msg hmsg)
  · intro id other hother
    obtain ⟨hother, hne⟩ := unclaim_claimedBy hother
    obtain ⟨m, msg, hmsg, hid, hphase⟩ := h.inv.claims id other hother
    refine ⟨m, msg, ack_other hmsg ?_, hid, hphase⟩
    rintro rfl
    obtain ⟨own, hown, _, hphase'⟩ := h.mine message List.mem_cons_self
    obtain rfl := Option.some.inj (hown.symm.trans hmsg)
    rw [hphase] at hphase'
    exact hne (MessagePhase.held.inj hphase')

private theorem ack_guar (h : Holding c (message :: rest) claimed w)
    (hack : MayAck c message w) : (consumerContract c).guar w (w.ack c message) := by
  refine ⟨ack_inv h hack, fun other hne => ⟨?_, fun id hid => (unclaim_claimedBy hid).1⟩⟩
  intro m msg hphase
  constructor
  · intro hmsg
    obtain ⟨_, hmsg', _, ⟨_, rfl⟩ | ⟨_, hacked⟩⟩ := ack_messages m hmsg
    · exact hmsg'
    · rw [hphase] at hacked
      contradiction
  · intro hmsg
    apply ack_other hmsg
    rintro rfl
    obtain ⟨own, hown, _, hphase'⟩ := h.mine message List.mem_cons_self
    obtain rfl := Option.some.inj (hown.symm.trans hmsg)
    rw [hphase] at hphase'
    exact hne (MessagePhase.held.inj hphase')

private theorem not_mem_rest (h : Holding c (message :: rest) claimed w)
    {other : NotifyBatchMessage} (hmem : other ∈ rest) : other.id ≠ message.id := by
  have hdistinct := h.distinct
  simp only [List.map_cons, List.nodup_cons, List.mem_map, not_exists, not_and] at hdistinct
  exact hdistinct.1 other hmem

private theorem ack_between (h : Holding c (message :: rest) claimed w)
    (hack : MayAck c message w) : Between c rest (w.ack c message) := by
  refine ⟨ack_inv h hack, (List.nodup_cons.mp h.distinct).2, ?_, ?_, ?_⟩
  · intro other hmem
    obtain ⟨msg, hmsg, hid, hphase⟩ := h.mine other (List.mem_cons_of_mem _ hmem)
    exact ⟨msg, ack_other hmsg (not_mem_rest h hmem), hid, hphase⟩
  · intro m hm
    obtain ⟨msg', hmsg', hphase⟩ := holds_iff.mp hm
    obtain ⟨msg, hmsg, _, ⟨hne, rfl⟩ | ⟨_, hacked⟩⟩ := ack_messages m hmsg'
    · have hmem := h.only m (holds_iff.mpr ⟨_, hmsg, hphase⟩)
      exact (List.mem_cons.mp hmem).resolve_left hne
    · rw [hphase] at hacked
      contradiction
  · exact fun id hid => (unclaim_claimedBy hid).2 rfl

/-! ## Messages given back -/

abbrev NotifyWorld.MayGiveBackNow (w : NotifyWorld) (given : MessageId → Prop) : Prop :=
  w.MayGiveBack given fun _ status => status

private theorem redeliver_live {msg : Message} (h : msg.attempts < MAX_RETRIES) :
    msg.redeliver.phase.Live := by
  rw [Message.redeliver, if_pos h]
  trivial

private theorem redeliver_not_held (msg : Message) : msg.redeliver.phase ≠ .held c := by
  unfold Message.redeliver
  split <;> simp

section GiveBack

variable {given : MessageId → Prop} [DecidablePred given]

private theorem giveBack_kept {m : MessageId} (hm : ¬given m) :
    (w.giveBack c given).messages m = w.messages m := by
  simp [NotifyWorld.giveBack, hm]

private theorem giveBack_given {m : MessageId} (hm : given m) :
    (w.giveBack c given).messages m = (w.messages m).map Message.redeliver := by
  simp [NotifyWorld.giveBack, hm]

private theorem giveBack_messages {m : MessageId} {msg' : Message}
    (h : (w.giveBack c given).messages m = some msg') :
    ∃ msg, w.messages m = some msg ∧ msg'.deliveryId = msg.deliveryId ∧
      (¬given m ∧ msg' = msg ∨ given m ∧ msg' = msg.redeliver) := by
  by_cases hm : given m
  · rw [giveBack_given hm, Option.map_eq_some_iff] at h
    obtain ⟨msg, hmsg, rfl⟩ := h
    exact ⟨msg, hmsg, redeliver_deliveryId msg, Or.inr ⟨hm, rfl⟩⟩
  · rw [giveBack_kept hm] at h
    exact ⟨msg', h, rfl, Or.inl ⟨hm, rfl⟩⟩

/-- A message that outlasts the giving back. -/
private theorem giveBack_live {m : MessageId} {msg : Message} (h : w.messages m = some msg)
    (hlive : msg.phase.Live) (hlast : given m → msg.attempts < MAX_RETRIES) :
    ∃ msg', (w.giveBack c given).messages m = some msg' ∧ msg'.deliveryId = msg.deliveryId ∧
      msg'.phase.Live := by
  by_cases hm : given m
  · exact ⟨msg.redeliver, by rw [giveBack_given hm, h]; rfl, redeliver_deliveryId msg,
      redeliver_live (hlast hm)⟩
  · exact ⟨msg, by rw [giveBack_kept hm, h], rfl, hlive⟩

private theorem giveBack_covered (hgive : w.MayGiveBackNow given) {id : DeliveryId}
    (hcovered : w.Covered id) : (w.giveBack c given).Covered id := by
  rcases hcovered with hclosed | ⟨m, msg, hmsg, rfl, hlive⟩
  · exact Or.inl hclosed
  · by_cases hm : given m
    · rcases hgive m msg hm hmsg with hclosed | ⟨m', msg', hmsg', hid', hlive', hlast'⟩
      · exact Or.inl hclosed
      · obtain ⟨left, hleft, hid, hleftLive⟩ := giveBack_live (c := c) hmsg' hlive' hlast'
        exact Or.inr ⟨m', left, hleft, hid.trans hid', hleftLive⟩
    · exact Or.inr ⟨m, msg, by rw [giveBack_kept hm, hmsg], rfl, hlive⟩

omit [DecidablePred given] in
/-- A message of another consumer is not given back. -/
private theorem not_given_of_held (hown : ∀ m, given m → w.Holds c m) {m : MessageId}
    {msg : Message} {other : ConsumerId} (hne : other ≠ c) (hmsg : w.messages m = some msg)
    (hphase : msg.phase = .held other) : ¬given m := by
  intro hm
  obtain ⟨msg', hmsg', hphase'⟩ := holds_iff.mp (hown m hm)
  obtain rfl := Option.some.inj (hmsg.symm.trans hmsg')
  rw [hphase] at hphase'
  exact hne (MessagePhase.held.inj hphase')

private theorem giveBack_inv (hinv : NotifyInv w) (hown : ∀ m, given m → w.Holds c m)
    (hgive : w.MayGiveBackNow given) : NotifyInv (w.giveBack c given) := by
  refine ⟨hinv.keys, ⟨hinv.noLost.1, ?_⟩, ?_⟩
  · intro m msg' hmsg'
    obtain ⟨msg, hmsg, hid, _⟩ := giveBack_messages hmsg'
    rw [hid]
    exact giveBack_covered hgive (hinv.noLost.2 m msg hmsg)
  · intro id other hother
    obtain ⟨hother, hne⟩ := unclaim_claimedBy hother
    obtain ⟨m, msg, hmsg, hid, hphase⟩ := hinv.claims id other hother
    exact ⟨m, msg, by rw [giveBack_kept (not_given_of_held hown hne hmsg hphase), hmsg], hid, hphase⟩

private theorem giveBack_guar (hinv : NotifyInv w) (hown : ∀ m, given m → w.Holds c m)
    (hgive : w.MayGiveBackNow given) : (consumerContract c).guar w (w.giveBack c given) := by
  refine ⟨giveBack_inv hinv hown hgive, fun other hne => ⟨?_, fun id hid => (unclaim_claimedBy hid).1⟩⟩
  intro m msg hphase
  constructor
  · intro hmsg
    obtain ⟨msg₀, hmsg₀, _, ⟨_, rfl⟩ | ⟨_, rfl⟩⟩ := giveBack_messages hmsg
    · exact hmsg₀
    · exact absurd hphase (redeliver_not_held msg₀)
  · intro hmsg
    rw [giveBack_kept (not_given_of_held hown hne hmsg hphase), hmsg]

end GiveBack

private theorem retry_other {m : MessageId} (hm : m ≠ message.id) :
    (w.retry c message).messages m = w.messages m := by
  unfold NotifyWorld.retry
  exact giveBack_kept hm

private theorem retry_guar (h : Holding c (message :: rest) claimed w)
    (hgive : w.MayGiveBackNow (· = message.id)) :
    (consumerContract c).guar w (w.retry c message) := by
  refine giveBack_guar h.inv ?_ hgive
  rintro m rfl
  obtain ⟨msg, hmsg, _, hphase⟩ := h.mine message List.mem_cons_self
  exact holds_iff.mpr ⟨msg, hmsg, hphase⟩

private theorem retry_between (h : Holding c (message :: rest) claimed w)
    (hgive : w.MayGiveBackNow (· = message.id)) : Between c rest (w.retry c message) := by
  refine ⟨(retry_guar h hgive).1, (List.nodup_cons.mp h.distinct).2, ?_, ?_, ?_⟩
  · intro other hmem
    obtain ⟨msg, hmsg, hid, hphase⟩ := h.mine other (List.mem_cons_of_mem _ hmem)
    exact ⟨msg, by rw [retry_other (not_mem_rest h hmem), hmsg], hid, hphase⟩
  · intro m hm
    obtain ⟨msg', hmsg', hphase⟩ := holds_iff.mp hm
    obtain ⟨msg, hmsg, _, ⟨hne, rfl⟩ | ⟨_, rfl⟩⟩ := giveBack_messages hmsg'
    · have hmem := h.only m (holds_iff.mpr ⟨_, hmsg, hphase⟩)
      exact (List.mem_cons.mp hmem).resolve_left hne
    · exact absurd hphase (redeliver_not_held msg)
  · exact fun id hid => (unclaim_claimedBy hid).2 rfl

private theorem abandon_ends (hinv : NotifyInv w)
    (hgive : w.MayGiveBackNow fun m => w.Holds c m) :
    (consumerContract c).guar w (w.abandon c) ∧ consumerContracts.idle c (w.abandon c) := by
  refine ⟨giveBack_guar hinv (fun _ h => h) hgive, ?_, ?_⟩
  · intro m hm
    obtain ⟨msg', hmsg', hphase⟩ := holds_iff.mp hm
    obtain ⟨msg, hmsg, _, ⟨hnot, rfl⟩ | ⟨_, rfl⟩⟩ := giveBack_messages hmsg'
    · exact hnot (holds_iff.mpr ⟨_, hmsg, hphase⟩)
    · exact redeliver_not_held msg hphase
  · exact fun id hid => (unclaim_claimedBy hid).2 rfl

/-- What remains to be given back once one message has been. -/
private theorem mayGiveBack_rest (h : Holding c (message :: rest) claimed w)
    (hgive : w.MayGiveBackNow (· ∈ (message :: rest).map NotifyBatchMessage.id)) :
    (w.retry c message).MayGiveBackNow (· ∈ rest.map NotifyBatchMessage.id) := by
  intro m msg hm hmsg
  have hrest : ∀ m, m ∈ rest.map NotifyBatchMessage.id → m ≠ message.id := by
    intro m hm
    obtain ⟨other, hmem, rfl⟩ := List.mem_map.mp hm
    exact not_mem_rest h hmem
  rw [retry_other (hrest m hm)] at hmsg
  rcases hgive m msg (List.mem_cons_of_mem _ hm) hmsg with hclosed | ⟨m', msg', hmsg', hid', hlive', hlast'⟩
  · exact Or.inl hclosed
  · by_cases hm' : m' = message.id
    · have hleft : ∃ left, (w.retry c message).messages m' = some left ∧
          left.deliveryId = msg'.deliveryId ∧ left.phase.Live := by
        unfold NotifyWorld.retry
        exact giveBack_live hmsg' hlive' fun _ => hlast' (by simp [hm'])
      obtain ⟨left, hleft, hid, hleftLive⟩ := hleft
      exact Or.inr ⟨m', left, hleft, hid.trans hid', hleftLive, fun hin => absurd hm' (hrest m' hin)⟩
    · have hkept := (retry_other (c := c) hm').trans hmsg'
      exact Or.inr ⟨m', msg', hkept, hid', hlive', fun hin => hlast' (List.mem_cons_of_mem _ hin)⟩

private theorem mayGiveBack_one (hgive : w.MayGiveBackNow
    (· ∈ (message :: rest).map NotifyBatchMessage.id)) :
    w.MayGiveBackNow (· = message.id) := by
  rintro m msg rfl hmsg
  rcases hgive _ msg (by simp) hmsg with hclosed | ⟨m', msg', hmsg', hid', hlive', hlast'⟩
  · exact Or.inl hclosed
  · exact Or.inr ⟨m', msg', hmsg', hid', hlive', fun hm' => hlast' (by simp [hm'])⟩

/-! ## The consumer's program -/

/-- At work on `message`. -/
abbrev Working (c : ConsumerId) (message : NotifyBatchMessage) (rest : List NotifyBatchMessage) :
    NotifyWorld → Prop :=
  Holding c (message :: rest) (· = message.deliveryId)

/-- At work on `message`, which may be given back. -/
def Failed (c : ConsumerId) (message : NotifyBatchMessage) (rest : List NotifyBatchMessage)
    (w : NotifyWorld) : Prop :=
  Working c message rest w ∧ w.MayGiveBackNow (· = message.id)

/-- How the work on `message` may end. -/
abbrev workEnds {α : Type} (c : ConsumerId) (message : NotifyBatchMessage)
    (rest : List NotifyBatchMessage) (ret : α → NotifyWorld → Prop) : Ends NotifyWorld α :=
  ⟨ret, Failed c message rest, (consumerContracts.ends consumerExits c).killed⟩

private theorem guar_refl (hinv : NotifyInv w) : (consumerContract c).guar w w :=
  ⟨hinv, fun other _ => .refl other w⟩

private theorem mayGiveBack_before {site : NotifySite} {fault : Fault} {given : MessageId → Prop}
    (hfault : fault.Before) (h : w.MayGiveBack given (site.statusAfter fault)) :
    w.MayGiveBackNow given := by
  have hsame : site.statusAfter fault = fun _ status => status := by
    funext id status
    unfold NotifySite.statusAfter
    exact if_pos (Or.inr hfault)
  rwa [hsame] at h

private theorem OwnEffect.mayGiveBack_after {site : NotifySite} {eff : NotifyWorld → NotifyWorld}
    (heff : OwnEffect c site eff) {fault : Fault} {given : MessageId → Prop}
    (hfault : ¬fault.Before) (h : w.MayGiveBack given (site.statusAfter fault)) :
    (eff w).MayGiveBackNow given := by
  have hsame : site.statusAfter fault = site.statusAfter .none := by
    funext id status
    unfold NotifySite.statusAfter
    simp only [Fault.Before] at hfault
    simp [hfault]
  rw [hsame] at h
  intro m msg hm hmsg
  rw [heff.messages] at hmsg ⊢
  rcases h m msg hm hmsg with hclosed | hsurvives
  · refine Or.inl fun row' hrow' => ?_
    obtain ⟨row, hrow, hstatus⟩ := heff.status w msg.deliveryId row' hrow'
    exact hstatus (hclosed row hrow)
  · exact Or.inr hsurvives

/-- A call made for `message`: it may fail as the condition on calls says. -/
private theorem rg_work {α : Type} {call : NotifyCall} {eff : NotifyWorld → NotifyWorld}
    {answer : NotifyWorld → α} {ret : α → NotifyWorld → Prop}
    (heff : OwnEffect c ⟨message, call⟩ eff) (h : Holding c (message :: rest) claimed w)
    (hclaimed : ∀ id, claimed id → id = message.deliveryId)
    (hret : ∀ w, Holding c (message :: rest) claimed w → callGuarded c w ⟨message, call⟩ .none →
      Working c message rest (eff w) → ret (answer w) (eff w)) :
    (Prog.call ⟨message, call⟩ eff answer).rg (consumerContract c)
      (workEnds c message rest ret) w := by
  refine rg_call h (fun _ _ h hrely => h.stable hrely) (fun _ h => heff.guar h) ?_ ?_ ?_
  · intro found hfound hA
    exact hret found hfound hA (heff.holding hfound hclaimed)
  · intro found hfound
    refine ⟨fun hA => ⟨hfound.weaken hclaimed, mayGiveBack_before (Or.inl rfl) hA⟩, fun hA => ?_⟩
    exact abandon_ends hfound.inv (mayGiveBack_before (Or.inr rfl) hA)
  · intro found hfound
    have hafter : ∀ fault : Fault, fault.After → ¬fault.Before := fun _ h => h.not_before
    refine ⟨fun hA => ⟨heff.holding hfound hclaimed,
      heff.mayGiveBack_after (hafter _ (Or.inl rfl)) hA⟩, fun hA => ?_⟩
    refine abandon_ends (heff.inv hfound) ?_
    have hheld : ∀ m, (eff found).Holds c m ↔ found.Holds c m := by
      intro m
      rw [holds_iff, holds_iff, heff.messages]
    simp only [hheld]
    exact heff.mayGiveBack_after (hafter _ (Or.inr rfl)) hA

private theorem mayAck_update {f : DeliveryRow → DeliveryRow}
    (hf : ∀ row, (f row).status.Closed) :
    MayAck c message (w.onStore (Store.updateDelivery message.deliveryId f)) := by
  intro row hrow
  obtain ⟨_, _, ⟨hne, _⟩ | ⟨_, rfl⟩⟩ := updateDelivery_row hrow
  · exact absurd rfl hne
  · exact Or.inl (hf _)

private theorem markDead_rg (h : Working c message rest w) (error : String) :
    (markFailed message error true).rg (consumerContract c)
      (workEnds c message rest fun _ w => Working c message rest w ∧ MayAck c message w) w :=
  rg_work (ownEffect_markFailed c message error true) h (fun _ h => h) fun _ _ _ hworking =>
    ⟨hworking, mayAck_update fun _ => Or.inr rfl⟩

private theorem markDelivered_rg (h : Working c message rest w) :
    (markDelivered message).rg (consumerContract c)
      (workEnds c message rest fun _ w => Working c message rest w ∧ MayAck c message w) w :=
  rg_work (ownEffect_markDelivered c message) h (fun _ h => h) fun _ _ _ hworking =>
    ⟨hworking, mayAck_update fun _ => Or.inl rfl⟩

private theorem markRetryable_rg (h : Working c message rest w) (error : String) :
    (markFailed message error false).rg (consumerContract c)
      (workEnds c message rest fun _ => Failed c message rest) w := by
  have heff := ownEffect_markFailed c message error false
  refine rg_work heff h (fun _ h => h) fun found _ hA hworking => ⟨hworking, ?_⟩
  exact heff.mayGiveBack_after Fault.not_before_none hA

private theorem ack_rg (h : Working c message rest w ∧ MayAck c message w) :
    (Prog.act (NotifyWorld.ack c message)).rg (consumerContract c)
      (workEnds c message rest fun _ => Between c rest) w :=
  ⟨ack_guar h.1 h.2, ack_between h.1 h.2⟩

private theorem retry_rg {Q : Ends NotifyWorld PUnit} (h : Failed c message rest w)
    (hQ : ∀ w, Between c rest w → Q.ret ⟨⟩ w) :
    (Prog.act (NotifyWorld.retry c message)).rg (consumerContract c) Q w :=
  ⟨retry_guar h.1 h.2, hQ _ (retry_between h.1 h.2)⟩

/-- A claim that writes nothing finds the delivery gone, closed or in another's hands. -/
private theorem mayAck_of_not_claimable {now : Nat} (h : Between c (message :: rest) w)
    (hfresh : w.FreshClaimsRun now message.deliveryId)
    (hnot : w.store.claimable now message.deliveryId = false) :
    MayAck c message (w.claim c now message.deliveryId) := by
  intro row hrow
  obtain ⟨old, hold, ⟨hne, _⟩ | ⟨_, hclaim⟩⟩ := updateDelivery_row hrow
  · exact absurd rfl hne
  · have hclaimable : old.claimable now = false := by simpa [Store.claimable, hold] using hnot
    have hsame : row = old := by rw [hclaim, DeliveryRow.claim, if_neg (by simp [hclaimable])]
    subst hsame
    have hclaimedBy : (w.claim c now message.deliveryId).claimedBy = w.claimedBy := by
      simp [NotifyWorld.claim, hnot]
    rw [hclaimedBy]
    cases hstatus : row.status with
    | pending => simp [DeliveryRow.claimable, hstatus] at hclaimable
    | failed => simp [DeliveryRow.claimable, hstatus] at hclaimable
    | delivered => exact Or.inl (Or.inl rfl)
    | dead => exact Or.inl (Or.inr rfl)
    | sending =>
      obtain ⟨other, hother⟩ := Option.ne_none_iff_exists'.mp
        (hfresh row hold hstatus hclaimable)
      refine Or.inr ⟨rfl, other, hother, ?_⟩
      rintro rfl
      exact h.claims _ hother

private theorem getPendingDelivery_rg {webhookEncKey : Option String}
    (hkey : webhookEncKey.getD "" ≠ "") (h : Between c (message :: rest) w) :
    (getPendingDelivery c webhookEncKey message).rg (consumerContract c)
      (workEnds c message rest fun pending w =>
        Working c message rest w ∧ (pending = none → MayAck c message w)) w := by
  rw [getPendingDelivery, if_neg hkey]
  refine rg_bind.mpr ⟨guar_refl h.inv, ?_⟩
  have hclaim : (Prog.call ⟨message, .claim w.now⟩
      (NotifyWorld.claim c w.now message.deliveryId)
      fun found => found.store.claimable w.now message.deliveryId).rg (consumerContract c)
      (workEnds c message rest fun written w =>
        Working c message rest w ∧ (written = false → MayAck c message w)) w := by
    refine rg_work (ownEffect_claim c message w.now) h (fun _ h => h.elim) ?_
    intro found hfound hA hworking
    exact ⟨hworking, fun hnot => mayAck_of_not_claimable hfound hA hnot⟩
  refine rg_seq hclaim ?_
  rintro written w ⟨hworking, hack⟩
  cases written with
  | false => exact ⟨hworking, fun _ => hack rfl⟩
  | true =>
    have hselect : (notifyCall message .select id
        fun w => w.store.pendingDelivery message.deliveryId).rg (consumerContract c)
        (workEnds c message rest fun row w =>
          Working c message rest w ∧ (row = none → MayAck c message w)) w := by
      refine rg_work (ownEffect_read c ⟨message, .select⟩ (Or.inl rfl)) hworking (fun _ h => h) ?_
      intro found hfound _ hworking
      refine ⟨hworking, fun hnone row hrow => ?_⟩
      have hgone : found.store.deliveries message.deliveryId = none :=
        hfound.inv.keys.deliveries_eq_none hnone
      exact absurd (hgone.symm.trans hrow) (by simp)
    refine rg_seq hselect ?_
    rintro (_ | row) w ⟨hworking, hack⟩
    · exact ⟨hworking, fun _ => hack rfl⟩
    · by_cases harchived : row.destinationArchived = true
      · simp only [harchived, if_true]
        refine rg_seq (markDead_rg hworking "destination archived") ?_
        rintro _ w ⟨hworking, hack⟩
        exact ⟨hworking, fun _ => hack⟩
      · simp only [harchived]
        have hdecrypt : (decryptWebhookUrl message).rg (consumerContract c)
            (workEnds c message rest fun _ => Working c message rest) w :=
          rg_work (ownEffect_read c ⟨message, .decryptWebhookUrl⟩ (Or.inr (Or.inl rfl)))
            hworking (fun _ h => h) fun _ _ _ hworking => hworking
        refine rg_seq hdecrypt ?_
        intro _ w hworking
        exact ⟨hworking, by simp⟩

private theorem processOne_rg {webhookEncKey : Option String}
    {opts : ProcessNotifyBatchOptions} (hkey : webhookEncKey.getD "" ≠ "")
    (h : Between c (message :: rest) w) :
    (processOne c webhookEncKey message opts).rg (consumerContract c)
      (workEnds c message rest fun _ => Between c rest) w := by
  have hretry : ∀ w, Failed c message rest w →
      (Prog.act (NotifyWorld.retry c message)).rg (consumerContract c)
        (workEnds c message rest fun _ => Between c rest) w :=
    fun w hfailed => retry_rg hfailed fun _ h => h
  unfold processOne
  refine rg_seq (getPendingDelivery_rg hkey h) ?_
  rintro (_ | pending) w ⟨hworking, hack⟩
  · exact ack_rg ⟨hworking, hack rfl⟩
  · dsimp only
    split
    · exact rg_seq (markDead_rg hworking _) fun _ w h => ack_rg h
    · have hsend : (sendToDiscord message).rg (consumerContract c)
          (workEnds c message rest fun _ => Working c message rest) w :=
        rg_work (ownEffect_read c ⟨message, .sendToDiscord⟩ (Or.inr (Or.inr rfl)))
          hworking (fun _ h => h) fun _ _ _ hworking => hworking
      refine rg_seq hsend ?_
      intro result w hworking
      split
      · exact rg_seq (markDelivered_rg hworking) fun _ w h => ack_rg h
      · split
        · exact rg_seq (markRetryable_rg hworking _) fun _ w h => hretry w h
        · split
          · exact rg_seq (markDead_rg hworking _) fun _ w h => ack_rg h
          · exact rg_seq (markRetryable_rg hworking _) fun _ w h => hretry w h

private theorem ackRest_of_none (h : ∀ m, ¬w.Holds c m) : w.ackRest c = w := by
  unfold NotifyWorld.ackRest
  induction w.batches c with
  | nil => rfl
  | cons message batch ih =>
    rw [List.foldl_cons, if_neg (h message.id)]
    exact ih

private theorem returned_ends (h : Between c [] w) :
    (consumerContracts.ends consumerExits c).ret ⟨⟩ w := by
  have hnone : ∀ m, ¬w.Holds c m := fun m hm => by simpa using h.only m hm
  have hrest : consumerExits.returned c w = w := ackRest_of_none hnone
  simp only [Pool.Contracts.ends, hrest]
  exact ⟨guar_refl h.inv, hnone, fun id hid => h.claims id hid⟩

theorem processNotifyBatch_rg (webhookEncKey : Option String)
    (opts : ProcessNotifyBatchOptions) {batch : List NotifyBatchMessage}
    (h : Between c batch w)
    (hkey : webhookEncKey.getD "" = "" →
      w.MayGiveBackNow (· ∈ batch.map NotifyBatchMessage.id)) :
    (processNotifyBatch c webhookEncKey opts batch).rg (consumerContract c)
      (consumerContracts.ends consumerExits c) w := by
  unfold processNotifyBatch
  refine rg_forM (fun todo w => Between c todo w ∧ (webhookEncKey.getD "" = "" →
    w.MayGiveBackNow (· ∈ todo.map NotifyBatchMessage.id))) ⟨h, hkey⟩ ?_ fun _ h =>
      returned_ends h.1
  rintro message rest w ⟨hbetween, hgive⟩
  rw [rg_tryCatch]
  by_cases hmissing : webhookEncKey.getD "" = ""
  · have hfail : processOne c webhookEncKey message opts = .fail := by
      unfold processOne
      rw [getPendingDelivery, if_pos hmissing]
      rfl
    rw [hfail]
    have hgive := hgive hmissing
    have hone := mayGiveBack_one hgive
    exact ⟨retry_guar hbetween hone, retry_between hbetween hone,
      fun _ => mayGiveBack_rest hbetween hgive⟩
  · refine rg_mono (processOne_rg hmissing hbetween) ?_ ?_ fun _ h => h
    · exact fun _ w hrest => ⟨hrest, fun hkey => absurd hkey hmissing⟩
    · intro w hfailed
      exact retry_rg hfailed fun w hrest => ⟨hrest, fun hkey => absurd hkey hmissing⟩

end Consumer

end Utsuroi
