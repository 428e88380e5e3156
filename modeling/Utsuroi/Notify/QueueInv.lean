import Mathlib.Tactic
import Utsuroi.Notify.Consumer

/-!
# What holds in every run of the consumers

Whatever fails, a consumer works on messages that were sent, and each delivery keeps its
foreign keys.
-/

namespace Utsuroi

open Async Transition

/-! ## What effects do to a delivery -/

def NotifyStage.Marks (stage : NotifyStage) : Prop :=
  stage.call = .markDelivered ∨ ∃ dead, stage.call = .markFailed dead

section Effects

variable {opts : ProcessNotifyBatchOptions} {c : ConsumerId} {pos : Position} {w : NotifyWorld}

/-- An UPDATE of one delivery. -/
private theorem updated_row {store : Store} {id other : DeliveryId}
    {f : DeliveryRow → DeliveryRow} {row' : DeliveryRow}
    (h : (store.updateDelivery id f).deliveries other = some row') :
    ∃ row, store.deliveries other = some row ∧ (row' = row ∨ other = id ∧ row' = f row) := by
  by_cases hid : other = id
  · subst hid
    simp only [Store.updateDelivery, Function.update_self, Option.map_eq_some_iff] at h
    obtain ⟨row, hrow, rfl⟩ := h
    exact ⟨row, hrow, Or.inr ⟨rfl, rfl⟩⟩
  · simp only [Store.updateDelivery, Function.update_of_ne hid] at h
    exact ⟨row', h, Or.inl rfl⟩

/-- A call leaves a delivery as it is, claims it or marks it. -/
theorem effect_row {id : DeliveryId} {row' : DeliveryRow}
    (h : (pos.effect opts c w).store.deliveries id = some row') :
    ∃ row, w.store.deliveries id = some row ∧
      (row' = row ∨ id = pos.message.deliveryId ∧
        (pos.stage.Marks ∨ ∃ now, pos.stage = .claim now ∧ row.claimable now = true ∧
          row' = { row with status := .sending, claimedAt := some now })) := by
  obtain ⟨webhookEncKey, message, rest, stage⟩ := pos
  have hmark : stage.Marks → ∀ f, (pos_eq : (Position.effect opts c
      ⟨webhookEncKey, message, rest, stage⟩ w).store =
        w.store.updateDelivery message.deliveryId f) → ∃ row, w.store.deliveries id = some row ∧
      (row' = row ∨ id = message.deliveryId ∧
        (stage.Marks ∨ ∃ now, stage = .claim now ∧ row.claimable now = true ∧
          row' = { row with status := .sending, claimedAt := some now })) := by
    intro hmarks f heq
    rw [heq] at h
    obtain ⟨row, hrow, hsame | ⟨hid, _⟩⟩ := updated_row h
    · exact ⟨row, hrow, Or.inl hsame⟩
    · exact ⟨row, hrow, Or.inr ⟨hid, Or.inl hmarks⟩⟩
  cases stage with
  | claim now =>
    obtain ⟨row, hrow, hsame | ⟨hid, hclaim⟩⟩ := updated_row h
    · exact ⟨row, hrow, Or.inl hsame⟩
    · unfold DeliveryRow.claim at hclaim
      cases hclaimable : row.claimable now with
      | false =>
        rw [hclaimable] at hclaim
        exact ⟨row, hrow, Or.inl hclaim⟩
      | true =>
        rw [hclaimable] at hclaim
        exact ⟨row, hrow, Or.inr ⟨hid, Or.inr ⟨now, rfl, hclaimable, hclaim⟩⟩⟩
  | select => exact ⟨row', h, Or.inl rfl⟩
  | decrypt attemptCount => exact ⟨row', h, Or.inl rfl⟩
  | post => exact ⟨row', h, Or.inl rfl⟩
  | markArchived => exact hmark (Or.inr ⟨_, rfl⟩) _ rfl
  | markExceeded => exact hmark (Or.inr ⟨_, rfl⟩) _ rfl
  | markDelivered => exact hmark (Or.inl rfl) _ rfl
  | markFailed result => exact hmark (Or.inr ⟨_, rfl⟩) _ rfl

/-- Only a claim changes who holds one, and only that of its own delivery. -/
theorem effect_claims {id : DeliveryId} {other : ConsumerId}
    (h : (pos.effect opts c w).claimedBy id = some other) :
    w.claimedBy id = some other ∨
      other = c ∧ id = pos.message.deliveryId ∧
        ∃ now, pos.stage = .claim now ∧ w.store.claimable now id = true := by
  obtain ⟨webhookEncKey, message, rest, stage⟩ := pos
  cases stage with
  | claim now =>
    cases hclaimable : w.store.claimable now message.deliveryId with
    | false =>
      simp only [Position.effect, NotifyWorld.claim, hclaimable] at h
      exact Or.inl h
    | true =>
      simp only [Position.effect, NotifyWorld.claim, hclaimable, if_true] at h
      by_cases hid : id = message.deliveryId
      · subst hid
        rw [Function.update_self] at h
        exact Or.inr ⟨(Option.some.inj h).symm, rfl, now, rfl, hclaimable⟩
      · rw [Function.update_of_ne hid] at h
        exact Or.inl h
  | _ => exact Or.inl h

theorem effect_messages : (pos.effect opts c w).messages = w.messages := by
  unfold Position.effect
  cases pos.stage <;> rfl

theorem effect_now : (pos.effect opts c w).now = w.now := by
  unfold Position.effect
  cases pos.stage <;> rfl

theorem effect_named {id : DeliveryId} (h : w.Named id) : (pos.effect opts c w).Named id := by
  unfold NotifyWorld.Named
  rw [effect_messages]
  exact h

/-- A call for one delivery leaves the others alone. -/
theorem effect_other {id : DeliveryId} (hid : id ≠ pos.message.deliveryId) :
    (pos.effect opts c w).store.deliveries id = w.store.deliveries id := by
  unfold Position.effect
  cases pos.stage <;> first | rfl | exact Function.update_of_ne hid _ _

theorem effect_keys (h : w.store.DeliveryKeys) : (pos.effect opts c w).store.DeliveryKeys := by
  have hdestinations : (pos.effect opts c w).store.destinations = w.store.destinations := by
    unfold Position.effect
    cases pos.stage <;> rfl
  have hchanges : (pos.effect opts c w).store.changes = w.store.changes := by
    unfold Position.effect
    cases pos.stage <;> rfl
  have hmonitors : (pos.effect opts c w).store.monitors = w.store.monitors := by
    unfold Position.effect
    cases pos.stage <;> rfl
  intro id row' hrow'
  obtain ⟨row, hrow, _⟩ := effect_row hrow'
  rw [hdestinations, hchanges, hmonitors]
  exact h id row hrow

/-- The next call for a message is no claim. -/
theorem next_not_claim {stage : NotifyStage} (h : pos.nextStage opts w = some stage) (now : Nat) :
    stage ≠ .claim now := by
  rintro rfl
  unfold Position.nextStage at h
  cases hstage : pos.stage with
  | select =>
    rw [hstage, Option.map_eq_some_iff] at h
    obtain ⟨row, _, hrow⟩ := h
    split at hrow <;> contradiction
  | claim now' =>
    rw [hstage] at h
    dsimp only at h
    split at h <;> simp at h
  | decrypt attemptCount =>
    rw [hstage] at h
    dsimp only at h
    split at h <;> simp at h
  | post =>
    rw [hstage] at h
    dsimp only at h
    split at h <;> simp at h
  | _ => simp [hstage] at h

end Effects

/-! ## The invariant of the queue -/

/-- Consumers work on messages that were sent, claim at times that have come, and the
deliveries have their foreign keys. -/
structure QueueInv (a : ConsumerState) : Prop where
  named : ∀ c pos, a.consumers c = some pos → ∀ message ∈ pos.message :: pos.rest,
    a.shared.Named message.deliveryId
  clock : ∀ c pos now, a.consumers c = some pos → pos.stage = .claim now → now ≤ a.shared.now
  keys : a.shared.store.DeliveryKeys

section Step

variable {opts : ProcessNotifyBatchOptions} {a : ConsumerState} {c : ConsumerId} {pos : Position}
  {fault : Fault}

theorem named_send {m : MessageId} {id other : DeliveryId} (h : a.shared.Named other)
    (hfresh : a.shared.messages m = none) : (a.move opts (.send m id)).shared.Named other := by
  obtain ⟨m', msg, hmsg, hid⟩ := h
  have hm : m' ≠ m := by
    intro heq
    rw [heq, hfresh] at hmsg
    contradiction
  exact ⟨m', msg, by simp [ConsumerState.move, Function.update_of_ne hm, hmsg], hid⟩

theorem named_startBatch {id : DeliveryId} {batch : List NotifyBatchMessage}
    (h : a.shared.Named id) : (a.shared.startBatch c batch).Named id :=
  (startBatch_passed c a.shared batch).named h

/-- The batch of a consumer that starts. -/
theorem named_batch {s : NotifyState} {webhookEncKey : Option String}
    {batch : List NotifyBatchMessage}
    (h : NotifyEvent.Allowed s (.startBatch c webhookEncKey batch)) :
    ∀ message ∈ batch, s.shared.Named message.deliveryId := by
  intro message hmessage
  have hany := h.2.2 message hmessage
  cases hmsg : s.shared.messages message.id with
  | none => simp [hmsg] at hany
  | some msg =>
    rw [hmsg, Option.any_some, decide_eq_true_eq] at hany
    exact ⟨message.id, msg, hmsg, hany.1⟩

private theorem queueInv_goesOn (h : QueueInv a) {w : NotifyWorld}
    {rest : List NotifyBatchMessage} {a' : ConsumerState} (hnow : w.now = a.shared.now)
    (hkeys : w.store.DeliveryKeys) (hnamed : ∀ id, a.shared.Named id → w.Named id)
    (hrest : ∀ message ∈ rest, w.Named message.deliveryId) (hgo : GoesOn c rest w a a') :
    QueueInv a' := by
  obtain ⟨next, hconsumers, hnext⟩ := hgo.reached
  have hother : ∀ other, other ≠ c → a'.consumers other = a.consumers other := by
    intro other hc
    rw [hconsumers, Function.update_of_ne hc]
  have hown : a'.consumers c = next := by rw [hconsumers, Function.update_self]
  constructor
  · intro other pos hpos message hmessage
    apply hgo.passed.named
    by_cases hc : other = c
    · subst hc
      rw [hown] at hpos
      rw [(hnext pos hpos).2] at hmessage
      exact hrest message hmessage
    · rw [hother other hc] at hpos
      exact hnamed _ (h.named other pos hpos message hmessage)
  · intro other pos now hpos hstage
    rw [hgo.passed.now, hnow]
    by_cases hc : other = c
    · subst hc
      rw [hown] at hpos
      rw [(hnext pos hpos).1, NotifyStage.claim.injEq] at hstage
      rw [← hstage, hnow]
    · rw [hother other hc] at hpos
      exact h.clock other pos now hpos hstage
  · rw [hgo.passed.store]
    exact hkeys

private theorem queueInv_stage (h : QueueInv a) (hat : a.consumers c = some pos)
    {stage : NotifyStage} (hnext : pos.nextStage opts a.shared = some stage) :
    QueueInv ⟨pos.effect opts c a.shared,
      Function.update a.consumers c (some { pos with stage })⟩ := by
  have hcases : ∀ {other pos'}, Function.update a.consumers c (some { pos with stage }) other =
      some pos' → other = c ∧ pos' = { pos with stage } ∨ a.consumers other = some pos' := by
    intro other pos' hpos'
    by_cases hc : other = c
    · subst hc
      rw [Function.update_self] at hpos'
      exact Or.inl ⟨rfl, (Option.some.inj hpos').symm⟩
    · rw [Function.update_of_ne hc] at hpos'
      exact Or.inr hpos'
  constructor
  · intro other pos' hpos' message hmessage
    apply effect_named
    rcases hcases hpos' with ⟨rfl, rfl⟩ | hold
    · exact h.named other pos hat message hmessage
    · exact h.named other pos' hold message hmessage
  · intro other pos' now hpos' hstage
    rw [effect_now]
    rcases hcases hpos' with ⟨rfl, rfl⟩ | hold
    · exact absurd hstage (next_not_claim hnext now)
    · exact h.clock other pos' now hold hstage
  · exact effect_keys h.keys

private theorem queueInv_resume (h : QueueInv a) (hat : a.consumers c = some pos) :
    QueueInv (a.resume opts c pos fault) := by
  cases @ConsumerState.resume_cases opts a c pos fault with
  | stage stage _ hnext hstate =>
    rw [hstate]
    exact queueInv_stage h hat hnext
  | ended w rest _ hworld _ hleft hgo =>
    have hmessages := h.named c pos hat
    have hrest : ∀ message ∈ rest, a.shared.Named message.deliveryId := by
      intro message hmessage
      rcases hleft with rfl | rfl
      · exact hmessages message (List.mem_cons_of_mem _ hmessage)
      · contradiction
    rcases hworld with ⟨_, rfl⟩ | ⟨_, rfl⟩
    · exact queueInv_goesOn h rfl h.keys (fun _ hid => hid) hrest hgo
    · exact queueInv_goesOn h effect_now (effect_keys h.keys) (fun _ => effect_named)
        (fun message hmessage => effect_named (hrest message hmessage)) hgo

theorem queueInv_step (h : QueueInv a) {e : NotifyEvent} (hallowed : e.Allowed (a.toPool opts)) :
    QueueInv (a.move opts e) := by
  cases e with
  | tick now discord =>
    exact ⟨h.named, fun c pos at_ hpos hstage => (h.clock c pos at_ hpos hstage).trans hallowed,
      h.keys⟩
  | app store => exact ⟨h.named, h.clock, hallowed.keys⟩
  | send m id =>
    have hkeys : (a.shared.store.send id).DeliveryKeys := h.keys
    exact ⟨fun c pos hpos message hmessage => named_send (h.named c pos hpos message hmessage)
      hallowed, h.clock, hkeys⟩
  | startBatch c webhookEncKey batch =>
    have hkeys : (a.shared.startBatch c batch).store.DeliveryKeys := h.keys
    have hnow : (a.shared.startBatch c batch).now = a.shared.now := rfl
    exact queueInv_goesOn h hnow hkeys (fun _ => named_startBatch)
      (fun message hmessage => named_startBatch (named_batch hallowed message hmessage))
      (ConsumerState.reach_goOn webhookEncKey batch _)
  | resume c fault =>
    obtain ⟨pos, hat⟩ := ConsumerState.position_of_allowed hallowed
    rw [ConsumerState.move_resume hat]
    exact queueInv_resume h hat

/-- A consumer that does not run waits nowhere. -/
theorem idle_of_allowed {webhookEncKey : Option String} {batch : List NotifyBatchMessage}
    (h : NotifyEvent.Allowed (a.toPool opts) (.startBatch c webhookEncKey batch)) :
    a.consumers c = none :=
  (ConsumerState.toPool_threads_none c).mp h.1

end Step

/-- A queue at rest. -/
theorem queueInv_init {opts : ProcessNotifyBatchOptions} {a : ConsumerState}
    (h : (notifySystemWith opts).init (a.toPool opts)) (hidle : ∀ c, a.consumers c = none) :
    QueueInv a := by
  refine ⟨fun c _ hpos => ?_, fun c _ _ hpos => ?_, fun id _ hrow => ?_⟩
  · exact absurd ((hidle c).symm.trans hpos) (by simp)
  · exact absurd ((hidle c).symm.trans hpos) (by simp)
  · exact absurd ((h.2.1 id).symm.trans hrow) (by simp)

end Utsuroi
