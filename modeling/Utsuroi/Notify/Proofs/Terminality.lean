import Mathlib.Tactic
import Utsuroi.Notify.QueueInv

/-!
# Delivered and dead deliveries

A claim is taken over once it is stale, but a mark after the POST asks nothing about the
claim: a consumer whose claim was taken over may still mark the delivery, or POST it, after
the other one has closed it.
-/

namespace Utsuroi

open Async Transition

/-- Consumer `c` starts a POST of the delivery. -/
def PostStarts (c : ConsumerId) (id : DeliveryId) (s s' : NotifyState) : Prop :=
  ∃ message : NotifyBatchMessage, message.deliveryId = id ∧
    s'.waitsAt c = some ⟨message, .sendToDiscord⟩ ∧
      s.waitsAt c ≠ some ⟨message, .sendToDiscord⟩

/-- The end of a call that marks its delivery, or is followed by the POST. -/
def NotifyCall.NeedsClaim (call : NotifyCall) (fault : Fault) : Prop :=
  match call with
  | .markDelivered => ¬fault.Before
  | .markFailed _ => ¬fault.Before
  | .decryptWebhookUrl => fault = .none
  | _ => False

/-- Marks are made, and POSTs started, only by the consumer that made the delivery's last
claim. -/
def claimsCurrent : StepCond NotifyState NotifyEvent
  | _, s, .resume c fault => ∀ site, s.waitsAt c = some site → site.call.NeedsClaim fault →
      s.shared.claimedBy site.message.deliveryId = some c
  | _, _, .tick _ _ => True
  | _, _, .app _ => True
  | _, _, .send _ _ => True
  | _, _, .startBatch _ _ _ => True

/-! ## The invariant -/

/-- Whoever holds the claim of a delivery is at work on it, and the delivery is being sent;
a delivery that is closed was sent to the queue. -/
structure ClaimInv (a : ConsumerState) : Prop where
  working : ∀ id c, a.shared.claimedBy id = some c →
    ∃ pos, a.consumers c = some pos ∧ pos.message.deliveryId = id
  sending : ∀ id c row, a.shared.claimedBy id = some c →
    a.shared.store.deliveries id = some row → row.status = .sending
  closed : ∀ id row, a.shared.store.deliveries id = some row → row.status.Closed →
    a.shared.Named id

section Step

variable {opts : ProcessNotifyBatchOptions} {past : List NotifyEvent} {a : ConsumerState}
  {c : ConsumerId} {pos : Position} {fault : Fault}

private theorem not_closed_of_claimable {now : Nat} {row : DeliveryRow}
    (h : row.claimable now = true) : ¬row.status.Closed := by
  intro hclosed
  rcases hclosed with hstatus | hstatus <;> simp [DeliveryRow.claimable, hstatus] at h

private theorem needsClaim_of_marks (h : pos.stage.Marks) (hfault : ¬fault.Before) :
    pos.site.call.NeedsClaim fault := by
  rcases h with hcall | ⟨dead, hcall⟩ <;> simpa [Position.site, hcall, NotifyCall.NeedsClaim]

/-- The world once the call of a consumer took effect, or not. -/
private def EffectOf (opts : ProcessNotifyBatchOptions) (c : ConsumerId) (pos : Position)
    (fault : Fault) (w w' : NotifyWorld) : Prop :=
  fault.Before ∧ w' = w ∨ ¬fault.Before ∧ w' = pos.effect opts c w

/-- A row after the call: unchanged, claimed, or marked under the current claim. -/
private theorem EffectOf.row {w w' : NotifyWorld} (h : EffectOf opts c pos fault w w')
    (hguard : pos.site.call.NeedsClaim fault → w.claimedBy pos.message.deliveryId = some c)
    {id : DeliveryId} {row' : DeliveryRow} (hrow' : w'.store.deliveries id = some row') :
    ∃ row, w.store.deliveries id = some row ∧ (row' = row ∨
      id = pos.message.deliveryId ∧ (w.claimedBy id = some c ∨
        ¬row.status.Closed ∧ row'.status = .sending)) := by
  rcases h with ⟨_, rfl⟩ | ⟨hfault, rfl⟩
  · exact ⟨row', hrow', Or.inl rfl⟩
  · obtain ⟨row, hrow, hsame | ⟨rfl, hmarks | ⟨now, _, hclaimable, rfl⟩⟩⟩ := effect_row hrow'
    · exact ⟨row, hrow, Or.inl hsame⟩
    · exact ⟨row, hrow, Or.inr ⟨rfl, Or.inl (hguard (needsClaim_of_marks hmarks hfault))⟩⟩
    · exact ⟨row, hrow, Or.inr ⟨rfl, Or.inr ⟨not_closed_of_claimable hclaimable, rfl⟩⟩⟩

private theorem EffectOf.named {w w' : NotifyWorld} (h : EffectOf opts c pos fault w w')
    {id : DeliveryId} (hnamed : w.Named id) : w'.Named id := by
  rcases h with ⟨_, rfl⟩ | ⟨_, rfl⟩
  · exact hnamed
  · exact effect_named hnamed

private theorem not_marks_of_next {w : NotifyWorld} {stage : NotifyStage}
    (h : pos.nextStage opts w = some stage) : ¬pos.stage.Marks := by
  unfold Position.nextStage at h
  intro hmarks
  cases hstage : pos.stage <;> rw [hstage] at h hmarks <;>
    simp_all [NotifyStage.Marks, NotifyStage.call]

/-- A POST follows the decryption. -/
private theorem decrypt_of_post {w : NotifyWorld} (h : pos.nextStage opts w = some .post) :
    ∃ attemptCount, pos.stage = .decrypt attemptCount := by
  unfold Position.nextStage at h
  cases hstage : pos.stage with
  | decrypt attemptCount => exact ⟨attemptCount, rfl⟩
  | claim now =>
    rw [hstage] at h
    dsimp only at h
    split at h <;> simp at h
  | select =>
    rw [hstage, Option.map_eq_some_iff] at h
    obtain ⟨row, _, hrow⟩ := h
    split at hrow <;> contradiction
  | post =>
    rw [hstage] at h
    dsimp only at h
    split at h <;> simp at h
  | _ => simp [hstage] at h

private theorem claimed_row {now : Nat} (hstage : pos.stage = .claim now) {w : NotifyWorld}
    {row' : DeliveryRow} (hclaimable : w.store.claimable now pos.message.deliveryId = true)
    (h : (pos.effect opts c w).store.deliveries pos.message.deliveryId = some row') :
    row'.status = .sending := by
  simp only [Position.effect, hstage, NotifyWorld.claim, Store.claimDelivery, Store.updateDelivery,
    Function.update_self, Option.map_eq_some_iff] at h
  obtain ⟨row, hrow, rfl⟩ := h
  have hrowClaimable : row.claimable now = true := by
    simpa [Store.claimable, hrow] using hclaimable
  simp [DeliveryRow.claim, hrowClaimable]

/-- The next call of a consumer is for the same message. -/
private theorem claimInv_stage (hqueue : QueueInv a) (h : ClaimInv a) (hat : a.consumers c = some pos)
    {stage : NotifyStage} (hnext : pos.nextStage opts a.shared = some stage) :
    ClaimInv ⟨pos.effect opts c a.shared,
      Function.update a.consumers c (some { pos with stage })⟩ := by
  have hmarks := not_marks_of_next hnext
  constructor
  · intro id other hother
    rcases effect_claims hother with hold | ⟨rfl, rfl, _⟩
    · obtain ⟨pos', hpos', hid⟩ := h.working id other hold
      by_cases hc : other = c
      · subst hc
        obtain rfl := Option.some.inj (hat.symm.trans hpos')
        exact ⟨{ pos with stage }, by simp, hid⟩
      · exact ⟨pos', by simp [Function.update_of_ne hc, hpos'], hid⟩
    · exact ⟨{ pos with stage }, by simp, rfl⟩
  · intro id other row' hother hrow'
    rcases effect_claims hother with hold | ⟨rfl, rfl, now, hstage, hclaimable⟩
    · obtain ⟨row, hrow, rfl | ⟨_, hbad | ⟨now, _, _, rfl⟩⟩⟩ := effect_row hrow'
      · exact h.sending id other row' hold hrow
      · exact absurd hbad hmarks
      · rfl
    · exact claimed_row hstage hclaimable hrow'
  · intro id row' hrow' hclosed
    obtain ⟨row, hrow, rfl | ⟨rfl, _⟩⟩ := effect_row hrow'
    · exact effect_named (h.closed id row' hrow hclosed)
    · exact effect_named (hqueue.named c pos hat pos.message List.mem_cons_self)

/-- A consumer goes on after the end of a message, or with a batch. -/
private theorem claimInv_goesOn (h : ClaimInv a) {w : NotifyWorld}
    {rest : List NotifyBatchMessage} {a' : ConsumerState}
    (hclaims : ∀ id other, w.claimedBy id = some other → other ≠ c →
      a.shared.claimedBy id = some other)
    (hrow : ∀ id row', w.store.deliveries id = some row' →
      ∃ row, a.shared.store.deliveries id = some row ∧ (row' = row ∨ a.shared.Named id ∧
        (a.shared.claimedBy id = some c ∨ row'.status = .sending)))
    (hnamed : ∀ id, a.shared.Named id → w.Named id)
    (hunclaimed : ∀ id, a'.shared.claimedBy id ≠ some c) (hgo : GoesOn c rest w a a') :
    ClaimInv a' := by
  obtain ⟨next, hconsumers, _⟩ := hgo.reached
  have hother : ∀ id other, a'.shared.claimedBy id = some other →
      other ≠ c ∧ a.shared.claimedBy id = some other := by
    intro id other hid
    have hne : other ≠ c := fun heq => hunclaimed id (heq ▸ hid)
    exact ⟨hne, hclaims id other (hgo.passed.claims id other hid) hne⟩
  constructor
  · intro id other hid
    obtain ⟨hne, hold⟩ := hother id other hid
    obtain ⟨pos', hpos', hmessage⟩ := h.working id other hold
    exact ⟨pos', by rw [hconsumers, Function.update_of_ne hne, hpos'], hmessage⟩
  · intro id other row' hid hrow'
    obtain ⟨hne, hold⟩ := hother id other hid
    rw [hgo.passed.store] at hrow'
    obtain ⟨row, holdrow, rfl | ⟨_, hmine | hsending⟩⟩ := hrow id row' hrow'
    · exact h.sending id other row' hold holdrow
    · rw [hold] at hmine
      exact absurd (Option.some.inj hmine) hne
    · exact hsending
  · intro id row' hrow' hclosed
    rw [hgo.passed.store] at hrow'
    obtain ⟨row, holdrow, rfl | ⟨hid, _⟩⟩ := hrow id row' hrow'
    · exact hgo.passed.named (hnamed id (h.closed id row' holdrow hclosed))
    · exact hgo.passed.named (hnamed id hid)

private theorem claimInv_resume (hqueue : QueueInv a) (h : ClaimInv a) (hat : a.consumers c = some pos)
    (hguard : pos.site.call.NeedsClaim fault →
      a.shared.claimedBy pos.message.deliveryId = some c) :
    ClaimInv (a.resume opts c pos fault) := by
  have hmessage := hqueue.named c pos hat pos.message List.mem_cons_self
  cases @ConsumerState.resume_cases opts a c pos fault with
  | stage stage _ hnext hstate =>
    rw [hstate]
    exact claimInv_stage hqueue h hat hnext
  | ended w rest _ hworld hunclaimed _ hgo =>
    have heffect : EffectOf opts c pos fault a.shared w := hworld
    refine claimInv_goesOn h ?_ ?_ (fun id => heffect.named) hunclaimed hgo
    · intro id other hid hne
      rcases hworld with ⟨_, rfl⟩ | ⟨_, rfl⟩
      · exact hid
      · rcases effect_claims hid with hold | ⟨heq, _⟩
        · exact hold
        · exact absurd heq hne
    · intro id row' hrow'
      obtain ⟨row, hrow, hsame | ⟨rfl, hor⟩⟩ := heffect.row hguard hrow'
      · exact ⟨row, hrow, Or.inl hsame⟩
      · exact ⟨row, hrow, Or.inr ⟨hmessage, hor.imp id And.right⟩⟩

private theorem claimInv_app (hqueue : QueueInv a) (h : ClaimInv a) {store : Store} (happ : a.shared.AppStep store) :
    ClaimInv { a with shared := { a.shared with store } } := by
  have hold : ∀ id row', store.deliveries id = some row' → a.shared.Named id ∨ row'.status.Closed →
      a.shared.store.deliveries id = some row' := by
    intro id row' hrow' hor
    rcases happ.deliveries id with hsame | hnone | ⟨hnew, hfresh⟩
    · rw [← hsame]
      exact hrow'
    · rw [hnone] at hrow'
      contradiction
    · rw [hnew] at hrow'
      obtain rfl := Option.some.inj hrow'
      rcases hor with ⟨m, msg, hmsg, hid⟩ | hclosed
      · exact absurd hid (hfresh m msg hmsg)
      · exact absurd hclosed (by simp [newDelivery, DeliveryStatus.Closed])
  constructor
  · exact h.working
  · intro id c row' hc hrow'
    obtain ⟨pos, hpos, rfl⟩ := h.working id c hc
    have hnamed := hqueue.named c pos hpos pos.message List.mem_cons_self
    exact h.sending _ c row' hc (hold _ row' hrow' (Or.inl hnamed))
  · intro id row' hrow' hclosed
    exact h.closed id row' (hold id row' hrow' (Or.inr hclosed)) hclosed

private theorem claimInv_startBatch (h : ClaimInv a) {webhookEncKey : Option String}
    {batch : List NotifyBatchMessage}
    (hallowed : NotifyEvent.Allowed (a.toPool opts) (.startBatch c webhookEncKey batch)) :
    ClaimInv (a.move opts (.startBatch c webhookEncKey batch)) := by
  have hgo : GoesOn c batch (a.shared.startBatch c batch) a
      (a.move opts (.startBatch c webhookEncKey batch)) :=
    ConsumerState.reach_goOn webhookEncKey batch _
  have hunclaimed : ∀ id, a.shared.claimedBy id ≠ some c := by
    intro id hid
    obtain ⟨pos, hpos, _⟩ := h.working id c hid
    rw [idle_of_allowed hallowed] at hpos
    contradiction
  have hrow : ∀ id row', (a.shared.startBatch c batch).store.deliveries id = some row' →
      ∃ row, a.shared.store.deliveries id = some row ∧ (row' = row ∨ a.shared.Named id ∧
        (a.shared.claimedBy id = some c ∨ row'.status = .sending)) :=
    fun id row' hrow' => ⟨row', hrow', Or.inl rfl⟩
  have hclaims : ∀ id other, (a.shared.startBatch c batch).claimedBy id = some other → other ≠ c →
      a.shared.claimedBy id = some other := fun _ _ hid _ => hid
  exact claimInv_goesOn h hclaims hrow (fun _ => named_startBatch)
    (fun id hid => hunclaimed id (hgo.passed.claims id c hid)) hgo

/-! ## Steps and runs -/

/-- The condition on the steps, over the machine. -/
private theorem guard_of_claimsCurrent (hat : a.consumers c = some pos)
    (h : claimsCurrent past (a.toPool opts) (.resume c fault)) :
    pos.site.call.NeedsClaim fault → a.shared.claimedBy pos.message.deliveryId = some c :=
  h pos.site (by rw [ConsumerState.waitsAt_toPool, hat]; rfl)

private theorem claimInv_step (hqueue : QueueInv a) (h : ClaimInv a) {e : NotifyEvent}
    (hallowed : e.Allowed (a.toPool opts)) (hguard : claimsCurrent past (a.toPool opts) e) :
    ClaimInv (a.move opts e) := by
  cases e with
  | tick now discord => exact ⟨h.working, h.sending, h.closed⟩
  | app store => exact claimInv_app hqueue h hallowed
  | send m id =>
    exact ⟨h.working, h.sending, fun other row hrow hclosed =>
      named_send (h.closed other row hrow hclosed) hallowed⟩
  | startBatch c webhookEncKey batch => exact claimInv_startBatch h hallowed
  | resume c fault =>
    obtain ⟨pos, hat⟩ := ConsumerState.position_of_allowed hallowed
    rw [ConsumerState.move_resume hat]
    exact claimInv_resume hqueue h hat (guard_of_claimsCurrent hat hguard)

/-- The delivery was closed with this status: nobody holds a claim on it, and no other row
will be made for it. -/
private structure Finished (id : DeliveryId) (status : DeliveryStatus) (a : ConsumerState) :
    Prop where
  named : a.shared.Named id
  unclaimed : ∀ c, a.shared.claimedBy id ≠ some c
  row : ∀ row, a.shared.store.deliveries id = some row → row.status = status

section Finished

variable {id : DeliveryId} {status : DeliveryStatus}

private theorem finished_of_closed (h : ClaimInv a) {row : DeliveryRow}
    (hrow : a.shared.store.deliveries id = some row) (hclosed : row.status.Closed) :
    Finished id row.status a := by
  refine ⟨h.closed id row hrow hclosed, ?_, ?_⟩
  · intro c hc
    have hsending := h.sending id c row hc hrow
    rcases hclosed with hstatus | hstatus <;> rw [hstatus] at hsending <;> contradiction
  · intro row' hrow'
    rw [Option.some.inj (hrow'.symm.trans hrow)]

/-- A finished delivery is not claimed again. -/
private theorem finished_not_claimable (h : Finished id status a) (hclosed : status.Closed)
    {row : DeliveryRow} (hrow : a.shared.store.deliveries id = some row) {now : Nat} :
    ¬row.claimable now = true := by
  intro hclaimable
  rw [← h.row row hrow] at hclosed
  exact not_closed_of_claimable hclaimable hclosed

private theorem finished_goesOn (h : Finished id status a) {rest : List NotifyBatchMessage}
    {w : NotifyWorld} {a' : ConsumerState} (hnamed : w.Named id)
    (hclaims : ∀ other, w.claimedBy id = some other → other ≠ c →
      a.shared.claimedBy id = some other)
    (hrow : ∀ row, w.store.deliveries id = some row → row.status = status)
    (hunclaimed : a'.shared.claimedBy id ≠ some c) (hgo : GoesOn c rest w a a') :
    Finished id status a' := by
  refine ⟨hgo.passed.named hnamed, ?_, ?_⟩
  · intro other hother
    have hne : other ≠ c := fun heq => hunclaimed (heq ▸ hother)
    exact h.unclaimed other (hclaims other (hgo.passed.claims id other hother) hne)
  · intro row hrow'
    rw [hgo.passed.store] at hrow'
    exact hrow row hrow'

private theorem finished_resume (h : Finished id status a) (hclosed : status.Closed)
    (hguard : pos.site.call.NeedsClaim fault →
      a.shared.claimedBy pos.message.deliveryId = some c) :
    Finished id status (a.resume opts c pos fault) := by
  have hclaims : ∀ other, (pos.effect opts c a.shared).claimedBy id = some other →
      a.shared.claimedBy id = some other := by
    intro other hother
    rcases effect_claims hother with hold | ⟨_, _, now, _, hclaimable⟩
    · exact hold
    · cases hrow : a.shared.store.deliveries id with
      | none => simp [Store.claimable, hrow] at hclaimable
      | some row =>
        simp only [Store.claimable, hrow, Option.any_some] at hclaimable
        exact absurd hclaimable (finished_not_claimable h hclosed hrow)
  cases @ConsumerState.resume_cases opts a c pos fault with
  | stage stage _ hnext hstate =>
    rw [hstate]
    refine ⟨effect_named h.named, fun other hother => h.unclaimed other (hclaims other hother), ?_⟩
    · intro row hrow
      obtain ⟨old, hold, rfl | ⟨_, hmarks | ⟨now, _, hclaimable, _⟩⟩⟩ := effect_row hrow
      · exact h.row row hold
      · exact absurd hmarks (not_marks_of_next hnext)
      · exact absurd hclaimable (finished_not_claimable h hclosed hold)
  | ended w rest _ hworld hunclaimed _ hgo =>
    have heffect : EffectOf opts c pos fault a.shared w := hworld
    apply finished_goesOn h (heffect.named h.named) _ _ (hunclaimed id) hgo
    · intro other hother _
      rcases hworld with ⟨_, rfl⟩ | ⟨_, rfl⟩
      · exact hother
      · exact hclaims other hother
    · intro row hrow
      obtain ⟨old, hold, rfl | ⟨_, hmine | ⟨hopen, _⟩⟩⟩ := heffect.row hguard hrow
      · exact h.row row hold
      · exact absurd hmine (h.unclaimed c)
      · rw [← h.row old hold] at hclosed
        exact absurd hclosed hopen

/-- A finished delivery stays finished. -/
private theorem finished_step (h : Finished id status a) (hclosed : status.Closed)
    {e : NotifyEvent} (hallowed : e.Allowed (a.toPool opts))
    (hguard : claimsCurrent past (a.toPool opts) e) : Finished id status (a.move opts e) := by
  cases e with
  | tick now discord => exact ⟨h.named, h.unclaimed, h.row⟩
  | app store =>
    refine ⟨h.named, h.unclaimed, ?_⟩
    intro row hrow
    change store.deliveries id = some row at hrow
    rcases hallowed.deliveries id with hold | hnone | ⟨_, hfresh⟩
    · exact h.row row (hold.symm.trans hrow)
    · rw [hnone] at hrow
      contradiction
    · obtain ⟨m, msg, hmsg, hid⟩ := h.named
      exact absurd hid (hfresh m msg hmsg)
  | send m other => exact ⟨named_send h.named hallowed, h.unclaimed, h.row⟩
  | startBatch c webhookEncKey batch =>
    have hgo : GoesOn c batch (a.shared.startBatch c batch) a
        (a.move opts (.startBatch c webhookEncKey batch)) :=
      ConsumerState.reach_goOn webhookEncKey batch _
    exact finished_goesOn h (named_startBatch h.named) (fun _ hother _ => hother) h.row
      (fun hc => h.unclaimed c (hgo.passed.claims id c hc)) hgo
  | resume c fault =>
    obtain ⟨pos, hat⟩ := ConsumerState.position_of_allowed hallowed
    rw [ConsumerState.move_resume hat]
    exact finished_resume h hclosed (guard_of_claimsCurrent hat hguard)

end Finished

/-- A POST starts only under the current claim. -/
private theorem post_step {e : NotifyEvent} (hallowed : e.Allowed (a.toPool opts))
    (hguard : claimsCurrent past (a.toPool opts) e) {id : DeliveryId}
    (hpost : PostStarts c id (a.toPool opts) ((a.move opts e).toPool opts)) :
    a.shared.claimedBy id = some c := by
  obtain ⟨message, hid, hwaits, hnot⟩ := hpost
  rw [ConsumerState.waitsAt_toPool, Option.map_eq_some_iff] at hwaits
  rw [ConsumerState.waitsAt_toPool] at hnot
  obtain ⟨pos', hpos', hsite⟩ := hwaits
  have hstage : pos'.stage = .post := by
    have hcall := congrArg NotifySite.call hsite
    cases hstage : pos'.stage <;> simp [Position.site, hstage, NotifyStage.call] at hcall ⊢
  have hmessage : pos'.message = message := congrArg NotifySite.message hsite
  have hunmoved : (a.move opts e).consumers c ≠ a.consumers c := by
    intro heq
    rw [heq] at hpos'
    exact hnot (by rw [hpos', Option.map_some, hsite])
  have hgoOn : ∀ {other rest w a'}, GoesOn other rest w a a' →
      a'.consumers c = some pos' → a'.consumers c ≠ a.consumers c → False := by
    intro other rest w a' hgo hat' hne
    obtain ⟨next, hconsumers, hnext⟩ := hgo.reached
    rw [hconsumers] at hat' hne
    by_cases hc : c = other
    · subst hc
      rw [Function.update_self] at hat'
      have hclaim := (hnext pos' hat').1
      rw [hstage] at hclaim
      contradiction
    · rw [Function.update_of_ne hc] at hne
      exact hne rfl
  cases e with
  | tick now discord => exact absurd rfl hunmoved
  | app store => exact absurd rfl hunmoved
  | send m other => exact absurd rfl hunmoved
  | startBatch other webhookEncKey batch =>
    exact (hgoOn (ConsumerState.reach_goOn webhookEncKey batch _) hpos' hunmoved).elim
  | resume other fault =>
    obtain ⟨pos, hat⟩ := ConsumerState.position_of_allowed hallowed
    rw [ConsumerState.move_resume hat] at hpos' hunmoved
    cases @ConsumerState.resume_cases opts a other pos fault with
    | ended w rest _ _ _ _ hgo => exact (hgoOn hgo hpos' hunmoved).elim
    | stage stage hfault hnext hstate =>
      rw [hstate] at hpos' hunmoved
      by_cases hc : c = other
      · subst hc
        simp only [Function.update_self, Option.some.injEq] at hpos'
        subst hpos'
        obtain rfl : stage = .post := hstage
        obtain rfl : pos.message = message := hmessage
        obtain ⟨attemptCount, hfrom⟩ := decrypt_of_post hnext
        have hneeds : pos.site.call.NeedsClaim fault := by
          simp [Position.site, hfrom, NotifyStage.call, NotifyCall.NeedsClaim, hfault]
        have hclaimed := guard_of_claimsCurrent hat hguard hneeds
        rw [hid] at hclaimed
        exact hclaimed
      · simp [Function.update_of_ne hc] at hunmoved

/-- The machine behind a guarded run. -/
private theorem claimInv_run {es : List NotifyEvent} {s : NotifyState}
    (h : (notifySystemWith opts).Run claimsCurrent es s) :
    ∃ a : ConsumerState, a.toPool opts = s ∧ QueueInv a ∧ ClaimInv a := by
  induction h with
  | start hinit =>
    obtain ⟨a, rfl, hidle⟩ := notifySystemWith_init hinit
    have hqueue := queueInv_init hinit hidle
    obtain ⟨_, hnoRow, _, hunclaimed, _⟩ := hinit
    refine ⟨a, rfl, hqueue, ?_, ?_, ?_⟩
    · exact fun id c hc => absurd ((hunclaimed id).symm.trans hc) (by simp)
    · exact fun id c _ hc => absurd ((hunclaimed id).symm.trans hc) (by simp)
    · exact fun id _ hrow => absurd ((hnoRow id).symm.trans hrow) (by simp)
  | next _ hstep hguard ih =>
    obtain ⟨a, rfl, hqueue, hinv⟩ := ih
    obtain ⟨hallowed, rfl⟩ := hstep
    exact ⟨_, ConsumerState.toPool_move _, queueInv_step hqueue hallowed,
      claimInv_step hqueue hinv hallowed hguard⟩

private theorem finished_steps {id : DeliveryId} {status : DeliveryStatus} (hclosed : status.Closed)
    (h : Finished id status a) {newer : List NotifyEvent} {s' : NotifyState}
    (hsteps : (notifySystemWith opts).Steps claimsCurrent past (a.toPool opts) newer s') :
    ∃ a' : ConsumerState, a'.toPool opts = s' ∧ Finished id status a' := by
  induction hsteps with
  | refl => exact ⟨a, rfl, h⟩
  | next _ hstep hguard ih =>
    obtain ⟨a', rfl, hfinished⟩ := ih
    obtain ⟨hallowed, rfl⟩ := hstep
    exact ⟨_, ConsumerState.toPool_move _, finished_step hfinished hclosed hallowed hguard⟩

end Step

/-! ## Terminality -/

/-- In the runs whose steps meet `C`, a delivery that is delivered or dead keeps its status
whatever happens from then on, and no later step starts a POST of it. -/
def DeliveryTerminality (opts : ProcessNotifyBatchOptions)
    (C : StepCond NotifyState NotifyEvent) : Prop :=
  ∀ older s id row, (notifySystemWith opts).Run C older s →
    s.shared.store.deliveries id = some row → row.status.Closed →
    ∀ newer s', (notifySystemWith opts).Steps C older s newer s' →
      (∀ row', s'.shared.store.deliveries id = some row' → row'.status = row.status) ∧
      ∀ e s'' c, (notifySystemWith opts).step s' e s'' → C (newer ++ older) s' e →
        ¬PostStarts c id s' s''

/-- Delivery terminality holds in every run in which marks are made, and POSTs started, only
under the delivery's last claim. -/
theorem delivery_terminality (opts : ProcessNotifyBatchOptions) :
    DeliveryTerminality opts claimsCurrent := by
  intro older s id row hrun hrow hclosed newer s' hsteps
  obtain ⟨a, rfl, _, hinv⟩ := claimInv_run hrun
  have hfinished := finished_of_closed hinv hrow hclosed
  obtain ⟨a', rfl, hfinished'⟩ := finished_steps hclosed hfinished hsteps
  refine ⟨hfinished'.row, ?_⟩
  intro e s'' c hstep hguard hpost
  obtain ⟨hallowed, rfl⟩ := hstep
  rw [← ConsumerState.toPool_move] at hpost
  exact hfinished'.unclaimed c (post_step hallowed hguard hpost)

/-! ## A claim that was taken over -/

private def delivering : NotifyState → NotifyEvent → NotifyState := NotifyEvent.applyWith ⟨none⟩

private abbrev DeliveringReplays (C : StepCond NotifyState NotifyEvent) :
    List NotifyEvent → Prop :=
  Replays delivering quietQueue (fun s e => e.Allowed s) C

private theorem delivering_init : (notifySystemWith ⟨none⟩).init quietQueue := quietQueue_init

private theorem delivering_step (s : NotifyState) (e : NotifyEvent) (h : e.Allowed s) :
    (notifySystemWith ⟨none⟩).step s e (delivering s e) := ⟨h, rfl⟩

/-- Consumer 0 stalls after its claim; consumer 1 takes the claim over and delivers. -/
private def takenOver : List NotifyEvent :=
  [.resume 1 .none, .resume 1 .none, .resume 1 .none, .resume 1 .none, .resume 1 .none,
    .startBatch 1 (some "a2V5") [⟨1, oneDelivery⟩], .tick 300001 ⟨true, some 204, ""⟩,
    .resume 0 .none, .startBatch 0 (some "a2V5") [⟨0, oneDelivery⟩], .send 1 oneDelivery,
    .send 0 oneDelivery, .app (deliveryStore.insertDelivery oneDelivery)]

/-- Consumer 0 POSTs as well, in vain, and marks the delivery failed. -/
private def lateMark : List NotifyEvent :=
  [.resume 0 .none, .resume 0 .none, .tick 300002 ⟨false, some 500, "HTTP 500"⟩,
    .resume 0 .none, .resume 0 .none]

/-- Consumer 0 fails to decrypt the webhook URL, and gives its message back. -/
private def lateThrow : List NotifyEvent := [.resume 0 .throwBefore, .resume 0 .none]

private theorem resumes {C : StepCond NotifyState NotifyEvent} {past : List NotifyEvent}
    {s : NotifyState} {c : ConsumerId} {fault : Fault} (site : NotifySite)
    (hsite : s.waitsAt c = some site) (hC : C past s (.resume c fault)) :
    s.waitsAt c ≠ none ∧ C past s (.resume c fault) := ⟨by simp [hsite], hC⟩

private theorem current_resume {past : List NotifyEvent} {s : NotifyState} {c : ConsumerId}
    {fault : Fault} (site : NotifySite) (hsite : s.waitsAt c = some site)
    (h : site.call.NeedsClaim fault → s.shared.claimedBy site.message.deliveryId = some c) :
    s.waitsAt c ≠ none ∧ claimsCurrent past s (.resume c fault) := by
  refine ⟨by simp [hsite], fun other hother => ?_⟩
  obtain rfl := Option.some.inj (hsite.symm.trans hother)
  exact h

private theorem takenOver_replays : DeliveringReplays claimsCurrent takenOver := by
  have happ : DeliveringReplays claimsCurrent
      [.app (deliveryStore.insertDelivery oneDelivery)] := ⟨trivial, deliveryStore_app, trivial⟩
  refine ⟨⟨⟨⟨⟨⟨⟨⟨⟨⟨⟨happ, rfl, trivial⟩, rfl, trivial⟩, ⟨rfl, by decide, by decide⟩, trivial⟩, ?_⟩,
    (by decide : 0 ≤ 300001), trivial⟩, ⟨rfl, by decide, by decide⟩, trivial⟩, ?_⟩, ?_⟩, ?_⟩, ?_⟩,
    ?_⟩
  · exact current_resume ⟨⟨0, oneDelivery⟩, .claim 0⟩ rfl fun h => h.elim
  · exact current_resume ⟨⟨1, oneDelivery⟩, .claim 300001⟩ rfl fun h => h.elim
  · exact current_resume ⟨⟨1, oneDelivery⟩, .select⟩ rfl fun h => h.elim
  · exact current_resume ⟨⟨1, oneDelivery⟩, .decryptWebhookUrl⟩ rfl fun _ => rfl
  · exact current_resume ⟨⟨1, oneDelivery⟩, .sendToDiscord⟩ rfl fun h => h.elim
  · exact current_resume ⟨⟨1, oneDelivery⟩, .markDelivered⟩ rfl fun _ => rfl

private theorem lateMark_replays : DeliveringReplays anyStep (lateMark ++ takenOver) := by
  have hbefore : DeliveringReplays anyStep takenOver := takenOver_replays.weaken fun _ _ _ _ => trivial
  refine ⟨⟨⟨⟨⟨hbefore, ?_⟩, ?_⟩, (by decide : 300001 ≤ 300002), trivial⟩, ?_⟩, ?_⟩
  · exact resumes ⟨⟨0, oneDelivery⟩, .select⟩ rfl trivial
  · exact resumes ⟨⟨0, oneDelivery⟩, .decryptWebhookUrl⟩ rfl trivial
  · exact resumes ⟨⟨0, oneDelivery⟩, .sendToDiscord⟩ rfl trivial
  · exact resumes ⟨⟨0, oneDelivery⟩, .markFailed false⟩ rfl trivial

private theorem takenOver_delivered :
    (stateAfter delivering quietQueue takenOver).shared.store.deliveries oneDelivery =
      some ⟨oneDelivery, .delivered, 0, none, some 300001⟩ := by decide

/-- The delivered delivery is POSTed again and ends up failed. -/
theorem delivery_terminality_violated : ¬DeliveryTerminality ⟨none⟩ anyStep := by
  intro hall
  have hrun := lateMark_replays.older.run delivering_init delivering_step
  have hsteps := lateMark_replays.steps delivering_step
  obtain ⟨hstatus, _⟩ := hall takenOver _ oneDelivery _ hrun takenOver_delivered (Or.inl rfl)
    lateMark _ hsteps
  have hfailed := hstatus ⟨oneDelivery, .failed, 1, some "HTTP 500", some 300001⟩ (by decide)
  contradiction

private theorem lateThrow_replays : DeliveringReplays claimsCurrent (lateThrow ++ takenOver) := by
  refine ⟨⟨takenOver_replays, ?_⟩, ?_⟩
  · exact current_resume ⟨⟨0, oneDelivery⟩, .select⟩ rfl fun h => h.elim
  · exact current_resume ⟨⟨0, oneDelivery⟩, .decryptWebhookUrl⟩ rfl fun h => by contradiction

theorem delivery_terminality_lateThrow :
    ∀ row, (stateAfter delivering quietQueue (lateThrow ++ takenOver)).shared.store.deliveries
      oneDelivery = some row → row.status = .delivered :=
  (delivery_terminality ⟨none⟩ takenOver _ oneDelivery _
    (takenOver_replays.run delivering_init delivering_step) takenOver_delivered (Or.inl rfl)
    lateThrow _ (lateThrow_replays.steps delivering_step)).1

end Utsuroi
