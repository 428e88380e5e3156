import Mathlib.Tactic
import Utsuroi.Notify.Delivery
import Utsuroi.Notify.QueueInv

/-!
# Exclusive deliveries

As long as nobody takes longer than `CLAIM_STALE_MS` between claim and mark, the claim keeps
all other consumers away, and the attempts the row counts bound the POSTs.
-/

namespace Utsuroi

open Async Transition

/-! ## The observer of a delivery -/

def NotifyCall.claimed : NotifyCall → Bool
  | .claim _ => false
  | .select | .decryptWebhookUrl | .sendToDiscord | .markDelivered | .markFailed _ => true

/-- Consumer `c` has claimed the delivery and is not through with it. -/
def WorksOn (c : ConsumerId) (id : DeliveryId) (s : NotifyState) : Prop :=
  ∃ site, s.waitsAt c = some site ∧ site.message.deliveryId = id ∧ site.call.claimed = true

/-- Consumer `c` waits for Discord's answer. -/
def postsTo (c : ConsumerId) (id : DeliveryId) (s : NotifyState) : Bool :=
  (s.waitsAt c).any fun site => site.message.deliveryId = id ∧ site.call = .sendToDiscord

/-- A consumer's claims of the delivery, when they succeed. -/
def claimOf (c : ConsumerId) (id : DeliveryId) (s : NotifyState) : Option Nat :=
  match s.waitsAt c with
  | some ⟨message, .claim now⟩ =>
    if message.deliveryId = id ∧ s.shared.store.claimable now id then some now else none
  | _ => none

def PostAccount.none : PostAccount := ⟨0, 0, fun _ => 0⟩

/-- What an observer of the delivery notes of a step without fault. -/
def PostAccount.see (id : DeliveryId) (account : PostAccount) (s : NotifyState) (e : NotifyEvent)
    (s' : NotifyState) : PostAccount :=
  match e with
  | .resume c _ =>
    { posts := if postsTo c id s' then account.posts + 1 else account.posts
      successes :=
        if postsTo c id s && s.shared.discord.ok then account.successes + 1 else account.successes
      claims := (claimOf c id s).elim account.claims (Function.update account.claims c) }
  | _ => account

/-- The queue under an observer of the delivery. -/
def observedQueue (opts : ProcessNotifyBatchOptions) (id : DeliveryId) :
    System (NotifyState × PostAccount) NotifyEvent :=
  (notifySystemWith opts).observe .none (PostAccount.see id)

def NotifyEvent.NoFault : NotifyEvent → Prop
  | .resume _ fault => fault = .none
  | .tick _ _ | .app _ | .send _ _ | .startBatch _ _ _ => True

/-- No consumer crashes and all calls succeed; nobody takes longer than `CLAIM_STALE_MS`
between claim and mark. -/
def inTime (id : DeliveryId) : StepCond (NotifyState × PostAccount) NotifyEvent
  | _, (s, account), e =>
    e.NoFault ∧ ∀ c, WorksOn c id s → s.shared.now ≤ account.claims c + CLAIM_STALE_MS

/-- The consumer whose call ends. -/
def NotifyEvent.resumed : NotifyEvent → Option ConsumerId
  | .resume c _ => some c
  | .tick _ _ | .app _ | .send _ _ | .startBatch _ _ _ => none

/-! ## The view of a delivery -/

def NotifyStage.claimed : NotifyStage → Bool
  | .claim _ => false
  | .select | .markArchived | .decrypt _ | .markExceeded | .post | .markDelivered
  | .markFailed _ => true

/-- Where consumer `c` is, if it has claimed the delivery. -/
def ConsumerState.stageOn (a : ConsumerState) (id : DeliveryId) (c : ConsumerId) :
    Option NotifyStage :=
  (a.consumers c).bind fun pos =>
    if pos.message.deliveryId = id ∧ pos.stage.claimed = true then some pos.stage else none

def ConsumerState.view (a : ConsumerState) (id : DeliveryId) (account : PostAccount) :
    DeliveryView where
  row := a.shared.store.deliveries id
  stages := a.stageOn id
  account := account
  named := a.shared.Named id
  now := a.shared.now

section View

variable {opts : ProcessNotifyBatchOptions} {id : DeliveryId} {a a' : ConsumerState}
  {account : PostAccount} {c : ConsumerId} {pos : Position}

theorem stage_call_claimed (stage : NotifyStage) : stage.call.claimed = stage.claimed := by
  cases stage <;> rfl

theorem stageOn_of (hat : a.consumers c = some pos) (hid : pos.message.deliveryId = id)
    (hclaimed : pos.stage.claimed = true) : a.stageOn id c = some pos.stage := by
  simp [ConsumerState.stageOn, hat, hid, hclaimed]

theorem stageOn_ne_none_iff : a.stageOn id c ≠ none ↔ WorksOn c id (a.toPool opts) := by
  unfold WorksOn ConsumerState.stageOn
  rw [ConsumerState.waitsAt_toPool]
  cases a.consumers c with
  | none => simp
  | some pos => simp [Position.site, stage_call_claimed]

theorem inTime_view {past : List NotifyEvent} {e : NotifyEvent}
    (h : inTime id past (a.toPool opts, account) e) : (a.view id account).InTime :=
  fun c hc => h.2 c (stageOn_ne_none_iff.mp hc)

/-- A consumer at an unclaimed delivery. -/
theorem stageOn_eq_none (h : ∀ pos, a.consumers c = some pos →
    pos.message.deliveryId ≠ id ∨ pos.stage.claimed = false) : a.stageOn id c = none := by
  unfold ConsumerState.stageOn
  cases hat : a.consumers c with
  | none => rfl
  | some pos =>
    rw [Option.bind_some]
    split
    · next hboth =>
      rcases h pos hat with hid | hclaimed
      · exact absurd hboth.1 hid
      · rw [hclaimed] at hboth
        exact absurd hboth.2 (by simp)
    · rfl

theorem stageOn_congr (h : a'.consumers c = a.consumers c) : a'.stageOn id c = a.stageOn id c := by
  unfold ConsumerState.stageOn
  rw [h]

theorem stageOn_update {next : Option Position} (hconsumers : a'.consumers =
    Function.update a.consumers c next) {stage : Option NotifyStage}
    (hstage : a'.stageOn id c = stage) :
    a'.stageOn id = Function.update (a.stageOn id) c stage := by
  funext other
  by_cases hc : other = c
  · subst hc
    rw [Function.update_self, hstage]
  · rw [Function.update_of_ne hc]
    apply stageOn_congr
    rw [hconsumers, Function.update_of_ne hc]

/-- A consumer that goes on with another message has claimed nothing. -/
theorem GoesOn.stageOn {rest : List NotifyBatchMessage} {w : NotifyWorld}
    (h : GoesOn c rest w a a') : a'.stageOn id = Function.update (a.stageOn id) c none := by
  obtain ⟨next, hconsumers, hnext⟩ := h.reached
  apply stageOn_update hconsumers
  apply stageOn_eq_none
  intro pos hpos
  rw [hconsumers, Function.update_self] at hpos
  exact Or.inr (by rw [(hnext pos hpos).1]; rfl)

end View

/-! ## Steps, seen from the delivery -/

section Simulation

variable {opts : ProcessNotifyBatchOptions} {id : DeliveryId} {a a' : ConsumerState}
  {account : PostAccount} {c : ConsumerId} {pos : Position}

private theorem postsTo_toPool : postsTo c id (a.toPool opts) = true ↔
    a.stageOn id c = some .post := by
  unfold postsTo ConsumerState.stageOn
  rw [ConsumerState.waitsAt_toPool]
  cases a.consumers c with
  | none => simp
  | some pos =>
    obtain ⟨_, message, _, stage⟩ := pos
    cases stage <;> simp [Position.site, NotifyStage.call, NotifyStage.claimed]

private theorem claimOf_eq_none (hat : a.consumers c = some pos)
    (h : pos.message.deliveryId = id → ∀ now, pos.stage = .claim now →
      a.shared.store.claimable now id = false) : claimOf c id (a.toPool opts) = none := by
  unfold claimOf
  rw [ConsumerState.waitsAt_toPool, hat]
  obtain ⟨_, message, _, stage⟩ := pos
  cases stage with
  | claim now =>
    apply if_neg
    rintro ⟨hid, hclaimable⟩
    have hnot : a.shared.store.claimable now id = false := h hid now rfl
    exact absurd (hclaimable.symm.trans hnot) (by simp)
  | _ => rfl

private theorem claimOf_eq_some (hat : a.consumers c = some pos) (hid : pos.message.deliveryId = id)
    {now : Nat} (hstage : pos.stage = .claim now)
    (hclaimable : a.shared.store.claimable now id = true) :
    claimOf c id (a.toPool opts) = some now := by
  unfold claimOf
  rw [ConsumerState.waitsAt_toPool, hat]
  obtain ⟨_, message, _, stage⟩ := pos
  obtain rfl : stage = .claim now := hstage
  exact if_pos ⟨hid, hclaimable⟩

/-- A step that starts no POST, ends none and claims nothing is nothing to the observer. -/
private theorem see_quiet {fault : Fault} (hbefore : a.stageOn id c ≠ some .post)
    (hafter : a'.stageOn id c ≠ some .post) (hclaim : claimOf c id (a.toPool opts) = none) :
    account.see id (a.toPool opts) (.resume c fault) (a'.toPool opts) = account := by
  have hno : postsTo c id (a.toPool opts) = false :=
    Bool.eq_false_iff.mpr fun h => hbefore (postsTo_toPool.mp h)
  have hno' : postsTo c id (a'.toPool opts) = false :=
    Bool.eq_false_iff.mpr fun h => hafter (postsTo_toPool.mp h)
  simp [PostAccount.see, hno, hno', hclaim]

private theorem claimDelivery_of_not {store : Store} {now : Nat}
    (h : store.claimable now id = false) :
    (store.claimDelivery now id).deliveries id = store.deliveries id := by
  simp only [Store.claimDelivery, Store.updateDelivery, Function.update_self]
  cases hrow : store.deliveries id with
  | none => rfl
  | some row =>
    have hnot : row.claimable now = false := by simpa [Store.claimable, hrow] using h
    simp [DeliveryRow.claim, hnot]

/-- Where the answer leads a consumer that has claimed the delivery. -/
private theorem advances_of_next {w : NotifyWorld} {stage' : NotifyStage}
    (hclaimed : pos.stage.claimed = true) (hnext : pos.nextStage opts w = some stage') :
    Advances opts (w.store.deliveries pos.message.deliveryId) pos.stage stage' ∧
      pos.effect opts c w = w ∧
        (stage' = .markDelivered ↔ pos.stage = .post ∧ w.discord.ok = true) := by
  obtain ⟨_, message, _, stage⟩ := pos
  cases stage with
  | claim now => contradiction
  | select =>
    simp only [Position.nextStage, Option.map_eq_some_iff] at hnext
    obtain ⟨found, hfound, hstage⟩ := hnext
    obtain ⟨row, hrow, hcount⟩ := pendingDelivery_row hfound
    cases harchived : found.destinationArchived with
    | true =>
      rw [harchived, if_pos rfl] at hstage
      subst hstage
      exact ⟨.archived (by simp [hrow]), rfl, by simp⟩
    | false =>
      simp only [harchived, Bool.false_eq_true, if_false] at hstage
      subst hstage
      rw [← hcount]
      exact ⟨.pending row hrow, rfl, by simp⟩
  | decrypt attemptCount =>
    simp only [Position.nextStage, Option.some.injEq] at hnext
    by_cases hused : maxAttemptsOf opts ≤ attemptCount
    · rw [if_pos hused] at hnext
      subst hnext
      exact ⟨.exceeded attemptCount hused, rfl, by simp⟩
    · rw [if_neg hused] at hnext
      subst hnext
      exact ⟨.post attemptCount (Nat.not_le.mp hused), rfl, by simp⟩
  | post =>
    simp only [Position.nextStage, Option.some.injEq] at hnext
    cases hok : w.discord.ok with
    | true =>
      rw [hok, if_pos rfl] at hnext
      subst hnext
      exact ⟨.delivered, rfl, by simp⟩
    | false =>
      simp only [hok, Bool.false_eq_true, if_false] at hnext
      subst hnext
      exact ⟨.failed _, rfl, by simp⟩
  | _ => contradiction

/-- How a consumer that has claimed the delivery is through with it. -/
private theorem ends_of_next {w : NotifyWorld} (hkeys : w.store.DeliveryKeys)
    (hclaimed : pos.stage.claimed = true) (hnext : pos.nextStage opts w = none) :
    pos.stage.Ends (w.store.deliveries pos.message.deliveryId) ∧
      (pos.effect opts c w).store.deliveries pos.message.deliveryId =
        (w.store.deliveries pos.message.deliveryId).map fun row => pos.stage.mark opts row := by
  obtain ⟨_, message, _, stage⟩ := pos
  cases stage with
  | claim now => contradiction
  | select =>
    simp only [Position.nextStage, Option.map_eq_none_iff] at hnext
    have hnone := hkeys.deliveries_eq_none hnext
    exact ⟨hnone, by simp [Position.effect, hnone]⟩
  | decrypt attemptCount => contradiction
  | post => contradiction
  | markArchived => exact ⟨trivial, Function.update_self _ _ _⟩
  | markExceeded => exact ⟨trivial, Function.update_self _ _ _⟩
  | markDelivered => exact ⟨trivial, Function.update_self _ _ _⟩
  | markFailed result => exact ⟨trivial, Function.update_self _ _ _⟩

private theorem update_none_of_none {stages : ConsumerId → Option NotifyStage}
    (h : stages c = none) : Function.update stages c none = stages := by
  rw [← h, Function.update_eq_self]

/-- A call that neither claims the delivery nor is made under a claim of it. -/
private theorem view_aside (hidle : a.stageOn id c = none) (hidle' : a'.stageOn id c = none)
    (hstages : a'.stageOn id = Function.update (a.stageOn id) c none)
    (hclaim : claimOf c id (a.toPool opts) = none)
    (hrow : a'.shared.store.deliveries id = a.shared.store.deliveries id)
    (hnamed : a.shared.Named id → a'.shared.Named id) (fault : Fault) :
    DeliveryStep opts id (some c) (a.view id account) (a'.view id
      (account.see id (a.toPool opts) (.resume c fault) (a'.toPool opts))) := by
  have hsee : account.see id (a.toPool opts) (.resume c fault) (a'.toPool opts) = account :=
    see_quiet (by simp [hidle]) (by simp [hidle']) hclaim
  rw [hsee]
  refine .quiet ?_ ?_ rfl (Or.inl hrow) hnamed
  · intro other hother
    obtain rfl := Option.some.inj hother
    exact hidle
  · exact hstages.trans (update_none_of_none hidle)

private theorem view_claimed (hinv : QueueInv a) (hat : a.consumers c = some pos)
    (hid : pos.message.deliveryId = id) {now : Nat} (hstage : pos.stage = .claim now)
    (hclaimable : a.shared.store.claimable now id = true)
    {stage : NotifyStage} (hselect : stage = .select) (hstate : a' = ⟨pos.effect opts c a.shared,
      Function.update a.consumers c (some { pos with stage })⟩) (fault : Fault) :
    DeliveryStep opts id (some c) (a.view id account) (a'.view id
      (account.see id (a.toPool opts) (.resume c fault) (a'.toPool opts))) := by
  subst hselect
  have hidle : a.stageOn id c = none :=
    stageOn_eq_none fun pos' hpos' => by
      obtain rfl := Option.some.inj (hat.symm.trans hpos')
      exact Or.inr (by rw [hstage]; rfl)
  have hafter : a'.stageOn id c = some .select := by
    have hat' : a'.consumers c = some { pos with stage := .select } := by simp [hstate]
    exact stageOn_of hat' hid rfl
  have hsee : account.see id (a.toPool opts) (.resume c fault) (a'.toPool opts) =
      { account with claims := Function.update account.claims c now } := by
    have hno : postsTo c id (a.toPool opts) = false :=
      Bool.eq_false_iff.mpr fun h => by simp [postsTo_toPool, hidle] at h
    have hno' : postsTo c id (a'.toPool opts) = false :=
      Bool.eq_false_iff.mpr fun h => by simp [postsTo_toPool, hafter] at h
    simp [PostAccount.see, hno, hno', claimOf_eq_some hat hid hstage hclaimable]
  obtain ⟨row, hrow, hrowClaimable⟩ := claimable_row hclaimable
  have hnamed := hinv.named c pos hat pos.message List.mem_cons_self
  rw [hid] at hnamed
  refine .claimed c row now rfl hrow hrowClaimable (hinv.clock c pos now hat hstage) ?_ ?_ hsee ?_
  · simp only [ConsumerState.view, hstate, Position.effect, hstage, hid, NotifyWorld.claim,
      Store.claimDelivery, Store.updateDelivery, Function.update_self, hrow, Option.map_some,
      DeliveryRow.claim, hrowClaimable, if_true]
  · exact stageOn_update (by rw [hstate]) hafter
  · simp only [ConsumerState.view, hstate]
    exact effect_named hnamed

private theorem view_advanced (hinv : QueueInv a) (hat : a.consumers c = some pos)
    (hid : pos.message.deliveryId = id) (hclaimed : pos.stage.claimed = true)
    {stage : NotifyStage} (hnext : pos.nextStage opts a.shared = some stage)
    (hstate : a' = ⟨pos.effect opts c a.shared,
      Function.update a.consumers c (some { pos with stage })⟩) (fault : Fault) :
    DeliveryStep opts id (some c) (a.view id account) (a'.view id
      (account.see id (a.toPool opts) (.resume c fault) (a'.toPool opts))) := by
  obtain ⟨hadvances, heffect, hok⟩ := advances_of_next (c := c) hclaimed hnext
  have hbefore := stageOn_of hat hid hclaimed
  have hclaimed' : stage.claimed = true := by
    cases stage with
    | claim now => exact absurd rfl (next_not_claim hnext now)
    | _ => rfl
  have hafter : a'.stageOn id c = some stage := by
    have hat' : a'.consumers c = some { pos with stage } := by simp [hstate]
    exact stageOn_of hat' hid hclaimed'
  have hclaim : claimOf c id (a.toPool opts) = none :=
    claimOf_eq_none hat fun _ now hstage => by rw [hstage] at hclaimed; contradiction
  have hsee : account.see id (a.toPool opts) (.resume c fault) (a'.toPool opts) =
      account.reached stage := by
    have hsuccess : (postsTo c id (a.toPool opts) && a.shared.discord.ok) = true ↔
        stage = .markDelivered := by
      rw [hok, Bool.and_eq_true, postsTo_toPool, hbefore, Option.some.injEq]
    have hpost : postsTo c id (a'.toPool opts) = true ↔ stage = .post := by
      rw [postsTo_toPool, hafter, Option.some.injEq]
    have hsuccess' : (postsTo c id (a.toPool opts) && (a.toPool opts).shared.discord.ok) =
        decide (stage = .markDelivered) := by
      rw [Bool.eq_iff_iff, decide_eq_true_iff]
      exact hsuccess
    have hpost' : postsTo c id (a'.toPool opts) = decide (stage = .post) := by
      rw [Bool.eq_iff_iff, decide_eq_true_iff]
      exact hpost
    simp only [PostAccount.see, hclaim, hsuccess', hpost', Option.elim_none]
    cases stage <;> rfl
  have hnamed := hinv.named c pos hat pos.message List.mem_cons_self
  rw [hid] at hnamed hadvances
  refine .advanced c pos.stage stage rfl hbefore hadvances ?_
    (stageOn_update (by rw [hstate]) hafter) hsee ?_
  · simp only [ConsumerState.view, hstate, heffect]
  · simp only [ConsumerState.view, hstate]
    exact effect_named hnamed

/-- A call that ends without fault. -/
private theorem view_resume (hinv : QueueInv a) (hat : a.consumers c = some pos) :
    DeliveryStep opts id (some c) (a.view id account)
      ((a.resume opts c pos .none).view id (account.see id (a.toPool opts) (.resume c .none)
        ((a.resume opts c pos .none).toPool opts))) := by
  have hunclaimed : (pos.message.deliveryId ≠ id ∨ pos.stage.claimed = false) →
      a.stageOn id c = none := fun h => stageOn_eq_none fun pos' hpos' => by
    obtain rfl := Option.some.inj (hat.symm.trans hpos')
    exact h
  cases @ConsumerState.resume_cases opts a c pos .none with
  | stage stage' _ hnext hstate =>
    by_cases hid : pos.message.deliveryId = id
    · cases hstage : pos.stage.claimed with
      | true => exact view_advanced hinv hat hid hstage hnext hstate .none
      | false =>
        obtain ⟨now, hclaim⟩ : ∃ now, pos.stage = .claim now := by
          cases hstage' : pos.stage <;> simp [hstage', NotifyStage.claimed] at hstage ⊢
        simp only [Position.nextStage, hclaim] at hnext
        split at hnext
        · next hclaimable =>
          obtain rfl := Option.some.inj hnext
          exact view_claimed hinv hat hid hclaim (hid ▸ hclaimable) rfl hstate .none
        · contradiction
    · have hafter : (a.resume opts c pos .none).stageOn id c = none :=
        stageOn_eq_none fun pos' hpos' => by
          simp only [hstate, Function.update_self, Option.some.injEq] at hpos'
          subst hpos'
          exact Or.inl hid
      refine view_aside (hunclaimed (Or.inl hid)) hafter ?_ ?_ ?_ ?_ .none
      · exact stageOn_update (by rw [hstate]) hafter
      · exact claimOf_eq_none hat fun heq => absurd heq hid
      · rw [hstate]
        exact effect_other (Ne.symm hid)
      · rw [hstate]
        exact effect_named
  | ended w rest hlast hworld _ _ hgo =>
    obtain rfl : w = pos.effect opts c a.shared :=
      (hworld.resolve_left fun h => Fault.not_before_none h.1).2
    have hnext := hlast rfl
    have hstages : (a.resume opts c pos .none).stageOn id =
        Function.update (a.stageOn id) c none := hgo.stageOn
    have hafter : (a.resume opts c pos .none).stageOn id c = none := by
      rw [hstages, Function.update_self]
    have hnamed : a.shared.Named id → (a.resume opts c pos .none).shared.Named id :=
      fun h => hgo.passed.named (effect_named h)
    by_cases hid : pos.message.deliveryId = id
    · cases hstage : pos.stage.claimed with
      | true =>
        have hbefore := stageOn_of hat hid hstage
        obtain ⟨hends, hrow⟩ := ends_of_next (c := c) hinv.keys hstage hnext
        have hclaim : claimOf c id (a.toPool opts) = none :=
          claimOf_eq_none hat fun _ now hnow => by rw [hnow] at hstage; contradiction
        have hnotPost : pos.stage ≠ .post := by
          intro hpost
          simp [Position.nextStage, hpost] at hnext
        have hsee : account.see id (a.toPool opts) (.resume c .none)
            ((a.resume opts c pos .none).toPool opts) = account :=
          see_quiet (by simpa [hbefore] using hnotPost) (by simp [hafter]) hclaim
        have hmessage := hinv.named c pos hat pos.message List.mem_cons_self
        rw [hid] at hends hrow hmessage
        refine .ended c pos.stage rfl hbefore hends ?_ hstages hsee (hnamed hmessage)
        simp only [ConsumerState.view, hgo.passed.store]
        exact hrow
      | false =>
        obtain ⟨now, hclaim⟩ : ∃ now, pos.stage = .claim now := by
          cases hstage' : pos.stage <;> simp [hstage', NotifyStage.claimed] at hstage ⊢
        have hnot : a.shared.store.claimable now id = false := by
          simp only [Position.nextStage, hclaim, hid] at hnext
          split at hnext
          · contradiction
          · next hnot => exact Bool.eq_false_iff.mpr hnot
        refine view_aside (hunclaimed (Or.inr hstage)) hafter hstages ?_ ?_ hnamed .none
        · apply claimOf_eq_none hat
          intro _ now' hnow'
          rw [hclaim, NotifyStage.claim.injEq] at hnow'
          exact hnow' ▸ hnot
        · rw [hgo.passed.store]
          simp only [Position.effect, hclaim, hid, NotifyWorld.claim]
          exact claimDelivery_of_not hnot
    · refine view_aside (hunclaimed (Or.inl hid)) hafter hstages ?_ ?_ hnamed .none
      · exact claimOf_eq_none hat fun heq => absurd heq hid
      · rw [hgo.passed.store]
        exact effect_other (Ne.symm hid)

/-- Every step without fault is a step of the delivery. -/
theorem view_step (hinv : QueueInv a) {e : NotifyEvent} (hallowed : e.Allowed (a.toPool opts))
    (hfault : e.NoFault) :
    DeliveryStep opts id e.resumed (a.view id account)
      ((a.move opts e).view id
        (account.see id (a.toPool opts) e ((a.move opts e).toPool opts))) := by
  cases e with
  | tick now discord => exact .quiet (fun _ h => by contradiction) rfl rfl (Or.inl rfl) fun h => h
  | app store =>
    refine .quiet (fun _ h => by contradiction) rfl rfl ?_ fun h => h
    rcases hallowed.deliveries id with hsame | hnone | ⟨hnew, hfresh⟩
    · exact Or.inl hsame
    · exact Or.inr (Or.inl hnone)
    · refine Or.inr (Or.inr ⟨hnew, ?_⟩)
      rintro ⟨m, msg, hmsg, hid⟩
      exact hfresh m msg hmsg hid
  | send m other =>
    exact .quiet (fun _ h => by contradiction) rfl rfl (Or.inl rfl) fun h => named_send h hallowed
  | startBatch c webhookEncKey batch =>
    have hgo : GoesOn c batch (a.shared.startBatch c batch) a
        (a.move opts (.startBatch c webhookEncKey batch)) :=
      ConsumerState.reach_goOn webhookEncKey batch _
    have hidle : a.stageOn id c = none :=
      stageOn_eq_none fun pos hpos => by
        rw [idle_of_allowed hallowed] at hpos
        contradiction
    refine .quiet (fun _ h => by contradiction) ?_ rfl ?_ ?_
    · exact hgo.stageOn.trans (update_none_of_none hidle)
    · simp only [ConsumerState.view, hgo.passed.store]
      exact Or.inl rfl
    · exact fun h => hgo.passed.named (named_startBatch h)
  | resume c fault =>
    obtain rfl : fault = .none := hfault
    obtain ⟨pos, hat⟩ := ConsumerState.position_of_allowed hallowed
    rw [ConsumerState.move_resume hat]
    exact view_resume hinv hat

end Simulation

/-! ## Runs -/

section Runs

variable {opts : ProcessNotifyBatchOptions} {id : DeliveryId} {past : List NotifyEvent}
  {a : ConsumerState} {account : PostAccount} {c : ConsumerId}

private theorem deliveryInv_init (h : (notifySystemWith opts).init (a.toPool opts))
    (hidle : ∀ c, a.consumers c = none) : DeliveryInv opts (a.view id .none) := by
  have hstages : ∀ c, a.stageOn id c = none := fun c => by simp [ConsumerState.stageOn, hidle c]
  have hrow : a.shared.store.deliveries id = none := h.2.1 id
  constructor
  · exact fun c _ hc => absurd (hstages c) hc
  · exact fun c stage hc => absurd (hc.symm.trans (hstages c)) (by simp)
  · exact fun _ row hfound => absurd (hfound.symm.trans hrow) (by simp)
  · exact ⟨Nat.zero_le _, Nat.zero_le _⟩
  · exact fun _ => ⟨hstages, rfl, rfl⟩

/-- The machine behind a run in time. -/
private theorem deliveryInv_run {es : List NotifyEvent} {s : NotifyState × PostAccount}
    (h : (observedQueue opts id).Run (inTime id) es s) :
    ∃ a : ConsumerState, a.toPool opts = s.1 ∧ QueueInv a ∧
      DeliveryInv opts (a.view id s.2) := by
  induction h with
  | @start s hinit =>
    obtain ⟨hinit, haccount⟩ := hinit
    obtain ⟨a, ha, hidle⟩ := notifySystemWith_init hinit
    rw [← ha] at hinit
    refine ⟨a, ha, queueInv_init hinit hidle, ?_⟩
    rw [haccount]
    exact deliveryInv_init hinit hidle
  | @next es s s' e _ hstep hC ih =>
    obtain ⟨s, account⟩ := s
    obtain ⟨a, rfl, hqueue, hinv⟩ := ih
    obtain ⟨⟨hallowed, hmoved⟩, hsee⟩ := hstep
    rw [← ConsumerState.toPool_move] at hmoved
    refine ⟨a.move opts e, hmoved.symm, queueInv_step hqueue hallowed, ?_⟩
    rw [hsee, hmoved]
    exact deliveryInv_step hinv (inTime_view hC) (view_step hqueue hallowed hC.1)

private theorem count_resumed (e : NotifyEvent) (es : List NotifyEvent) :
    ((e :: es).filterMap NotifyEvent.resumed).count c =
      if e.resumed = some c then (es.filterMap NotifyEvent.resumed).count c + 1
      else (es.filterMap NotifyEvent.resumed).count c := by
  cases hwho : e.resumed with
  | none => simp [hwho]
  | some other =>
    rw [List.filterMap_cons_some hwho, List.count_cons]
    by_cases hc : other = c <;> simp [hc]

/-- A consumer that finds the attempts used up, whatever goes on. -/
private theorem exhausted_steps {posts : Nat} (hqueue : QueueInv a)
    (hinv : DeliveryInv opts (a.view id account))
    (h : Exhausted opts c posts 0 (a.view id account)) {newer : List NotifyEvent}
    {s' : NotifyState × PostAccount}
    (hsteps : (observedQueue opts id).Steps (inTime id) past (a.toPool opts, account) newer s') :
    ∃ a' : ConsumerState, a'.toPool opts = s'.1 ∧ QueueInv a' ∧
      DeliveryInv opts (a'.view id s'.2) ∧
        Exhausted opts c posts ((newer.filterMap NotifyEvent.resumed).count c)
          (a'.view id s'.2) := by
  induction hsteps with
  | refl => exact ⟨a, rfl, hqueue, hinv, h⟩
  | @next newer s₁ s₂ e _ hstep hC ih =>
    obtain ⟨s₁, account₁⟩ := s₁
    obtain ⟨a₁, rfl, hqueue₁, hinv₁, hexhausted⟩ := ih
    obtain ⟨⟨hallowed, hmoved⟩, hsee⟩ := hstep
    rw [← ConsumerState.toPool_move] at hmoved
    have hdelivery : DeliveryStep opts id e.resumed (a₁.view id account₁)
        ((a₁.move opts e).view id s₂.2) := by
      rw [hsee, hmoved]
      exact view_step hqueue₁ hallowed hC.1
    refine ⟨a₁.move opts e, hmoved.symm, queueInv_step hqueue₁ hallowed,
      deliveryInv_step hinv₁ (inTime_view hC) hdelivery, ?_⟩
    rw [count_resumed]
    exact exhausted_step hexhausted hinv₁ (inTime_view hC) hdelivery

end Runs

/-! ## Exclusivity and the attempt bound -/

/-- At most one consumer is between claim and mark, at most one POST succeeded, and there were
at most `maxAttempts` POSTs.  A consumer that has just claimed a delivery with no attempts left
marks it dead within its next three calls, and no POST starts. -/
structure ExclusiveDelivery (opts : ProcessNotifyBatchOptions) (id : DeliveryId)
    (es : List NotifyEvent) (s : NotifyState × PostAccount) : Prop where
  one : ∀ c c', WorksOn c id s.1 → WorksOn c' id s.1 → c = c'
  successes : s.2.successes ≤ 1
  posts : s.2.posts ≤ maxAttemptsOf opts
  exhausted : ∀ c message row, s.1.waitsAt c = some ⟨message, .select⟩ →
    message.deliveryId = id → s.1.shared.store.deliveries id = some row →
    maxAttemptsOf opts ≤ row.attemptCount →
    ∀ newer s', (observedQueue opts id).Steps (inTime id) es s newer s' →
      s'.2.posts = s.2.posts ∧
        (3 ≤ (newer.filterMap NotifyEvent.resumed).count c →
          ∀ row', s'.1.shared.store.deliveries id = some row' → row'.status = .dead)

/-- Exclusivity and the attempt bound hold in every run in which nobody takes longer than
`CLAIM_STALE_MS` between claim and mark, no consumer crashes and the calls succeed. -/
theorem delivery_exclusive {opts : ProcessNotifyBatchOptions} {id : DeliveryId}
    {es : List NotifyEvent} {s : NotifyState × PostAccount}
    (h : (observedQueue opts id).Run (inTime id) es s) : ExclusiveDelivery opts id es s := by
  obtain ⟨s, account⟩ := s
  obtain ⟨a, rfl, hqueue, hinv⟩ := deliveryInv_run h
  constructor
  · intro c c' hc hc'
    exact hinv.one c c' (stageOn_ne_none_iff.mpr hc) (stageOn_ne_none_iff.mpr hc')
  · exact hinv.bounded.2
  · exact hinv.bounded.1
  · intro c message row hwaits hid hrow hused newer s' hsteps
    have hbefore : a.stageOn id c = some .select := by
      have hsite : (a.consumers c).map Position.site = some ⟨message, .select⟩ :=
        @ConsumerState.waitsAt_toPool opts a c ▸ hwaits
      rw [Option.map_eq_some_iff] at hsite
      obtain ⟨⟨_, message', _, stage⟩, hat, hsite⟩ := hsite
      obtain rfl : message' = message := congrArg NotifySite.message hsite
      have hcall : stage.call = .select := congrArg NotifySite.call hsite
      cases stage with
      | select => exact stageOn_of hat hid rfl
      | _ => contradiction
    have hexhausted : Exhausted opts c account.posts 0 (a.view id account) := by
      refine .underWay .select 3 hbefore rfl (by decide) ?_ rfl
      intro row' hrow'
      rw [Option.some.inj (hrow'.symm.trans hrow)]
      exact hused
    obtain ⟨a', hpool, _, _, hexhausted'⟩ := exhausted_steps hqueue hinv hexhausted hsteps
    rw [← hpool]
    cases hexhausted' with
    | underWay stage left _ hleft hfew _ hposts =>
      refine ⟨hposts, fun hthree => ?_⟩
      have hpos := callsLeft_pos hleft
      omega
    | dead _ hmarked _ hposts => exact ⟨hposts, fun _ => hmarked⟩

/-! ## A delivery with one attempt -/

private def oneAttempt : ProcessNotifyBatchOptions := ⟨some 1⟩

private def observing (s : NotifyState × PostAccount) (e : NotifyEvent) :
    NotifyState × PostAccount :=
  (e.applyWith oneAttempt s.1, s.2.see oneDelivery s.1 e (e.applyWith oneAttempt s.1))

private abbrev ObservingReplays : List NotifyEvent → Prop :=
  Replays observing (quietQueue, .none) (fun s e => e.Allowed s.1) (inTime oneDelivery)

/-- The POST of consumer 0 fails; consumer 1 claims the delivery again. -/
private def usedUp : List NotifyEvent :=
  [.resume 1 .none, .startBatch 1 (some "a2V5") [⟨0, oneDelivery⟩], .resume 0 .none,
    .resume 0 .none, .tick 1 ⟨false, some 500, "HTTP 500"⟩, .resume 0 .none, .resume 0 .none,
    .resume 0 .none, .startBatch 0 (some "a2V5") [⟨0, oneDelivery⟩], .send 0 oneDelivery,
    .app (deliveryStore.insertDelivery oneDelivery)]

private def givesUp : List NotifyEvent := [.resume 1 .none, .resume 1 .none, .resume 1 .none]

private theorem observing_init :
    (observedQueue oneAttempt oneDelivery).init (quietQueue, .none) := ⟨quietQueue_init, rfl⟩

private theorem observing_step (s : NotifyState × PostAccount) (e : NotifyEvent)
    (h : e.Allowed s.1) : (observedQueue oneAttempt oneDelivery).step s e (observing s e) :=
  ⟨⟨h, rfl⟩, rfl⟩

private theorem early {past : List NotifyEvent} {s : NotifyState × PostAccount} {e : NotifyEvent}
    (hfault : e.NoFault) (hnow : s.1.shared.now ≤ 1) : inTime oneDelivery past s e := by
  refine ⟨hfault, fun c _ => ?_⟩
  have hstale : 1 ≤ CLAIM_STALE_MS := by decide
  omega

private theorem usedUp_replays : ObservingReplays (givesUp ++ usedUp) := by
  have happ : ObservingReplays [.app (deliveryStore.insertDelivery oneDelivery)] :=
    ⟨trivial, deliveryStore_app, early trivial (by decide)⟩
  have hwaits : ∀ {s : NotifyState × PostAccount} {c : ConsumerId} (site : NotifySite),
      s.1.waitsAt c = some site → s.1.waitsAt c ≠ none := fun _ h => by simp [h]
  refine ⟨⟨⟨⟨⟨⟨⟨⟨⟨⟨⟨⟨⟨happ, rfl, early trivial (by decide)⟩, ⟨rfl, by decide, by decide⟩,
    early trivial (by decide)⟩, ?_, early rfl (by decide)⟩, ?_, early rfl (by decide)⟩, ?_,
    early rfl (by decide)⟩, (by decide : 0 ≤ 1), early trivial (by decide)⟩, ?_,
    early rfl (by decide)⟩, ?_, early rfl (by decide)⟩, ⟨rfl, by decide, by decide⟩,
    early trivial (by decide)⟩, ?_, early rfl (by decide)⟩, ?_, early rfl (by decide)⟩, ?_,
    early rfl (by decide)⟩, ?_, early rfl (by decide)⟩
  · exact hwaits ⟨⟨0, oneDelivery⟩, .claim 0⟩ rfl
  · exact hwaits ⟨⟨0, oneDelivery⟩, .select⟩ rfl
  · exact hwaits ⟨⟨0, oneDelivery⟩, .decryptWebhookUrl⟩ rfl
  · exact hwaits ⟨⟨0, oneDelivery⟩, .sendToDiscord⟩ rfl
  · exact hwaits ⟨⟨0, oneDelivery⟩, .markFailed false⟩ rfl
  · exact hwaits ⟨⟨0, oneDelivery⟩, .claim 1⟩ rfl
  · exact hwaits ⟨⟨0, oneDelivery⟩, .select⟩ rfl
  · exact hwaits ⟨⟨0, oneDelivery⟩, .decryptWebhookUrl⟩ rfl
  · exact hwaits ⟨⟨0, oneDelivery⟩, .markFailed true⟩ rfl

/-- Its second processing marks the delivery dead, and there is no second POST. -/
theorem delivery_exclusive_usedUp :
    (stateAfter observing (quietQueue, .none) (givesUp ++ usedUp)).2.posts =
        (stateAfter observing (quietQueue, .none) usedUp).2.posts ∧
      ∀ row, (stateAfter observing (quietQueue, .none)
        (givesUp ++ usedUp)).1.shared.store.deliveries oneDelivery = some row →
          row.status = .dead := by
  have hrun := usedUp_replays.older.run observing_init observing_step
  have hsteps := usedUp_replays.steps observing_step
  obtain ⟨hposts, hdead⟩ := (delivery_exclusive hrun).exhausted 1 ⟨0, oneDelivery⟩
    ⟨oneDelivery, .sending, 1, some "HTTP 500", some 1⟩ rfl rfl (by decide) (by decide) givesUp _
    hsteps
  exact ⟨hposts, hdead (by decide)⟩

end Utsuroi
