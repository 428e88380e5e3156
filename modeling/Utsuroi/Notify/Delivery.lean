import Mathlib.Tactic
import Utsuroi.Notify.Consumer

/-!
# One delivery

What the consumers do, seen from one delivery: its row, the consumers that have claimed it and
are not through with it, and the POSTs made for it.
-/

namespace Utsuroi

/-- The POSTs of a delivery: how many were started, how many Discord accepted, and when each
consumer last claimed the delivery. -/
structure PostAccount where
  posts : Nat
  successes : Nat
  claims : ConsumerId → Nat

structure DeliveryView where
  row : Option DeliveryRow
  /-- where the consumers are that have claimed the delivery -/
  stages : ConsumerId → Option NotifyStage
  account : PostAccount
  /-- a message for the delivery was sent -/
  named : Prop
  now : Nat

/-- Nobody takes longer than `CLAIM_STALE_MS` between claim and mark. -/
def DeliveryView.InTime (v : DeliveryView) : Prop :=
  ∀ c, v.stages c ≠ none → v.now ≤ v.account.claims c + CLAIM_STALE_MS

section Machine

variable (opts : ProcessNotifyBatchOptions)

/-- How a consumer that has claimed the delivery goes on with it. -/
inductive Advances (row : Option DeliveryRow) : NotifyStage → NotifyStage → Prop
  | archived (exists_ : row ≠ none) : Advances row .select .markArchived
  | pending (r : DeliveryRow) (found : row = some r) :
      Advances row .select (.decrypt r.attemptCount)
  | exceeded (attemptCount : Nat) (used : maxAttemptsOf opts ≤ attemptCount) :
      Advances row (.decrypt attemptCount) .markExceeded
  | post (attemptCount : Nat) (left : attemptCount < maxAttemptsOf opts) :
      Advances row (.decrypt attemptCount) .post
  | delivered : Advances row .post .markDelivered
  | failed (result : DiscordSendResult) : Advances row .post (.markFailed result)

/-- What a consumer leaves the row as when it is through with it. -/
def NotifyStage.mark (row : DeliveryRow) : NotifyStage → DeliveryRow
  | .claim _ | .select | .decrypt _ | .post => row
  | .markArchived =>
    { row with
      status := .dead
      lastError := some "destination archived"
      attemptCount := row.attemptCount + 1 }
  | .markExceeded =>
    { row with
      status := .dead
      lastError := some (exceededError opts)
      attemptCount := row.attemptCount + 1 }
  | .markDelivered => { row with status := .delivered }
  | .markFailed result =>
    { row with
      status := if result.dead then .dead else .failed
      lastError := some result.message
      attemptCount := row.attemptCount + 1 }

/-- A consumer is through with the delivery once it has marked it, or if it finds it gone. -/
def NotifyStage.Ends (row : Option DeliveryRow) : NotifyStage → Prop
  | .select => row = none
  | .markArchived | .markExceeded | .markDelivered | .markFailed _ => True
  | .claim _ | .decrypt _ | .post => False

def PostAccount.reached (account : PostAccount) (stage : NotifyStage) : PostAccount :=
  match stage with
  | .post => { account with posts := account.posts + 1 }
  | .markDelivered => { account with successes := account.successes + 1 }
  | _ => account

/-- What a step of the queue is to the delivery; `who` is the consumer whose call ends. -/
inductive DeliveryStep (id : DeliveryId) (who : Option ConsumerId) (v v' : DeliveryView) : Prop
  /-- nothing, unless the delivery is created, before its first message, or deleted -/
  | quiet (idle : ∀ c, who = some c → v.stages c = none) (stages : v'.stages = v.stages)
      (account : v'.account = v.account)
      (row : v'.row = v.row ∨ v'.row = none ∨ v'.row = some (newDelivery id) ∧ ¬v.named)
      (named : v.named → v'.named)
  | claimed (c : ConsumerId) (row : DeliveryRow) (now : Nat) (caller : who = some c)
      (found : v.row = some row) (claimable : row.claimable now = true) (past : now ≤ v.now)
      (rows : v'.row = some { row with status := .sending, claimedAt := some now })
      (stages : v'.stages = Function.update v.stages c (some .select))
      (account : v'.account =
        { v.account with claims := Function.update v.account.claims c now })
      (named : v'.named)
  | advanced (c : ConsumerId) (stage stage' : NotifyStage) (caller : who = some c)
      (before : v.stages c = some stage) (advances : Advances opts v.row stage stage')
      (row : v'.row = v.row) (stages : v'.stages = Function.update v.stages c (some stage'))
      (account : v'.account = v.account.reached stage') (named : v'.named)
  | ended (c : ConsumerId) (stage : NotifyStage) (caller : who = some c)
      (before : v.stages c = some stage) (ends : stage.Ends v.row)
      (row : v'.row = v.row.map fun row => stage.mark opts row)
      (stages : v'.stages = Function.update v.stages c none)
      (account : v'.account = v.account) (named : v'.named)

end Machine

/-! ## Exclusivity -/

/-- What the POSTs so far leave for a consumer at a stage, where the row counts `k` attempts. -/
def PostAccount.Within (opts : ProcessNotifyBatchOptions) (account : PostAccount) (k : Nat) :
    NotifyStage → Prop
  | .claim _ => False
  | .select | .markArchived => account.posts ≤ k ∧ account.successes = 0
  | .decrypt attemptCount => attemptCount = k ∧ account.posts ≤ k ∧ account.successes = 0
  | .markExceeded =>
    maxAttemptsOf opts ≤ k ∧ account.posts ≤ k ∧ account.successes = 0
  | .post | .markFailed _ =>
    k < maxAttemptsOf opts ∧ account.posts ≤ k + 1 ∧ account.successes = 0
  | .markDelivered => k < maxAttemptsOf opts ∧ account.posts ≤ k + 1

/-- At most one consumer is at work on the delivery, under the claim its row records; no POST
succeeded before it, and the row counts the POSTs that failed. -/
structure DeliveryInv (opts : ProcessNotifyBatchOptions) (v : DeliveryView) : Prop where
  one : ∀ c c', v.stages c ≠ none → v.stages c' ≠ none → c = c'
  working : ∀ c stage, v.stages c = some stage →
    ∃ k, v.account.Within opts k stage ∧ ∀ row, v.row = some row →
      row.status = .sending ∧ row.claimedAt = some (v.account.claims c) ∧ row.attemptCount = k
  resting : (∀ c, v.stages c = none) → ∀ row, v.row = some row →
    row.status.Closed ∨ v.account.successes = 0 ∧ v.account.posts ≤ row.attemptCount
  bounded : v.account.posts ≤ maxAttemptsOf opts ∧ v.account.successes ≤ 1
  unnamed : ¬v.named → (∀ c, v.stages c = none) ∧ v.account.posts = 0 ∧ v.account.successes = 0

section Exclusivity

variable {opts : ProcessNotifyBatchOptions} {id : DeliveryId} {who : Option ConsumerId}
  {v v' : DeliveryView}

/-- No claim succeeds while a consumer is at work. -/
theorem DeliveryInv.none_working (h : DeliveryInv opts v) (hin : v.InTime) {row : DeliveryRow}
    {now : Nat} (hrow : v.row = some row) (hclaimable : row.claimable now = true)
    (hnow : now ≤ v.now) (c : ConsumerId) : v.stages c = none := by
  cases hstage : v.stages c with
  | none => rfl
  | some stage =>
    obtain ⟨k, _, hsending⟩ := h.working c stage hstage
    obtain ⟨hstatus, hclaimedAt, _⟩ := hsending row hrow
    have hstale := stale_of_claimable hstatus hclaimedAt hclaimable
    have hfresh : v.now ≤ v.account.claims c + CLAIM_STALE_MS := hin c (by simp [hstage])
    exact absurd hstale (Nat.not_lt.mpr (hnow.trans hfresh))

theorem DeliveryInv.others (h : DeliveryInv opts v) {c : ConsumerId} {stage : NotifyStage}
    (hstage : v.stages c = some stage) {other : ConsumerId} (hother : other ≠ c) :
    v.stages other = none := by
  by_contra hne
  exact hother (h.one other c hne (by simp [hstage]))

theorem DeliveryInv.named (h : DeliveryInv opts v) {c : ConsumerId} {stage : NotifyStage}
    (hstage : v.stages c = some stage) : v.named := by
  by_contra hunnamed
  have hnone := (h.unnamed hunnamed).1 c
  rw [hstage] at hnone
  contradiction

private theorem one_of_update {stages : ConsumerId → Option NotifyStage} {c : ConsumerId}
    {next : Option NotifyStage} (h : ∀ other, other ≠ c → stages other = none) (c₁ c₂ : ConsumerId)
    (h₁ : Function.update stages c next c₁ ≠ none) (h₂ : Function.update stages c next c₂ ≠ none) :
    c₁ = c₂ := by
  have hown : ∀ other, Function.update stages c next other ≠ none → other = c := by
    intro other hother
    by_contra hne
    rw [Function.update_of_ne hne] at hother
    exact hother (h other hne)
  rw [hown c₁ h₁, hown c₂ h₂]

private theorem not_all_none {stages : ConsumerId → Option NotifyStage} {c : ConsumerId}
    {stage : NotifyStage} : ¬∀ other, Function.update stages c (some stage) other = none := by
  intro hall
  have hnone := hall c
  rw [Function.update_self] at hnone
  contradiction

/-- The one consumer at work goes on. -/
private theorem deliveryInv_one {c : ConsumerId} {stage : NotifyStage} {k : Nat}
    {stages : ConsumerId → Option NotifyStage}
    (hothers : ∀ other, other ≠ c → stages other = none)
    (hstages : v'.stages = Function.update stages c (some stage))
    (hwithin : v'.account.Within opts k stage)
    (hrow : ∀ row, v'.row = some row →
      row.status = .sending ∧ row.claimedAt = some (v'.account.claims c) ∧ row.attemptCount = k)
    (hbounded : v'.account.posts ≤ maxAttemptsOf opts ∧ v'.account.successes ≤ 1)
    (hnamed : v'.named) : DeliveryInv opts v' := by
  constructor
  · intro c₁ c₂ h₁ h₂
    rw [hstages] at h₁ h₂
    exact one_of_update hothers c₁ c₂ h₁ h₂
  · intro other stage' hother
    rw [hstages] at hother
    by_cases hc : other = c
    · subst hc
      rw [Function.update_self] at hother
      obtain rfl := Option.some.inj hother
      exact ⟨k, hwithin, hrow⟩
    · rw [Function.update_of_ne hc, hothers other hc] at hother
      contradiction
  · intro hall
    rw [hstages] at hall
    exact absurd hall not_all_none
  · exact hbounded
  · exact fun hunnamed => absurd hnamed hunnamed

/-- What the POSTs leave for the next stage. -/
private theorem within_advances {k : Nat} {stage stage' : NotifyStage} {account : PostAccount}
    (h : account.Within opts k stage) (hadvances : Advances opts v.row stage stage')
    (hrow : ∀ row, v.row = some row → row.attemptCount = k)
    (hbounded : account.posts ≤ maxAttemptsOf opts ∧ account.successes ≤ 1) :
    (account.reached stage').Within opts k stage' ∧
      (account.reached stage').posts ≤ maxAttemptsOf opts ∧
        (account.reached stage').successes ≤ 1 := by
  cases hadvances with
  | archived _ => exact ⟨h, hbounded⟩
  | pending r hfound => exact ⟨⟨hrow r hfound, h.1, h.2⟩, hbounded⟩
  | exceeded attemptCount hused =>
    obtain ⟨rfl, hposts, hsuccesses⟩ := h
    exact ⟨⟨hused, hposts, hsuccesses⟩, hbounded⟩
  | post attemptCount hleft =>
    obtain ⟨rfl, hposts, hsuccesses⟩ := h
    have hone : account.posts + 1 ≤ attemptCount + 1 := Nat.succ_le_succ hposts
    exact ⟨⟨hleft, hone, hsuccesses⟩, hone.trans hleft, hbounded.2⟩
  | delivered =>
    obtain ⟨hleft, hposts, hsuccesses⟩ := h
    exact ⟨⟨hleft, hposts⟩, hbounded.1, by simp [PostAccount.reached, hsuccesses]⟩
  | failed result => exact ⟨h, hbounded⟩

/-- A marked delivery is closed, or counts its POSTs. -/
private theorem mark_resting {k : Nat} {stage : NotifyStage} {account : PostAccount}
    (h : account.Within opts k stage) {row : DeliveryRow} (hends : stage.Ends (some row))
    (hk : row.attemptCount = k) :
    (stage.mark opts row).status.Closed ∨
      account.successes = 0 ∧ account.posts ≤ (stage.mark opts row).attemptCount := by
  subst hk
  cases stage with
  | claim now => exact hends.elim
  | select => contradiction
  | decrypt attemptCount => exact hends.elim
  | post => exact hends.elim
  | markArchived => exact Or.inl (Or.inr rfl)
  | markExceeded => exact Or.inl (Or.inr rfl)
  | markDelivered => exact Or.inl (Or.inl rfl)
  | markFailed result =>
    obtain ⟨_, hposts, hsuccesses⟩ := h
    exact Or.inr ⟨hsuccesses, hposts⟩

theorem deliveryInv_step (h : DeliveryInv opts v) (hin : v.InTime)
    (hstep : DeliveryStep opts id who v v') : DeliveryInv opts v' := by
  cases hstep with
  | quiet _ hstages haccount hrow hnamed =>
    have hold : ∀ row, v'.row = some row → v.row = some row ∨ row = newDelivery id ∧ ¬v.named := by
      intro row hrow'
      rcases hrow with hsame | hnone | ⟨hnew, hunnamed⟩
      · exact Or.inl (hsame ▸ hrow')
      · rw [hnone] at hrow'
        contradiction
      · exact Or.inr ⟨Option.some.inj (hrow'.symm.trans hnew), hunnamed⟩
    constructor
    · rw [hstages]
      exact h.one
    · intro c stage hstage
      rw [hstages] at hstage
      rw [haccount]
      obtain ⟨k, hwithin, hsending⟩ := h.working c stage hstage
      refine ⟨k, hwithin, fun row hrow' => ?_⟩
      rcases hold row hrow' with hsame | ⟨_, hunnamed⟩
      · exact hsending row hsame
      · exact absurd (h.named hstage) hunnamed
    · intro hnone row hrow'
      rw [hstages] at hnone
      rw [haccount]
      rcases hold row hrow' with hsame | ⟨rfl, hunnamed⟩
      · exact h.resting hnone row hsame
      · obtain ⟨_, hposts, hsuccesses⟩ := h.unnamed hunnamed
        exact Or.inr ⟨hsuccesses, hposts.le⟩
    · rw [haccount]
      exact h.bounded
    · rw [hstages, haccount]
      exact fun hunnamed => h.unnamed fun hnamed' => hunnamed (hnamed hnamed')
  | claimed c row now _ hfound hclaimable hpast hrow hstages haccount hnamed =>
    have hfree := h.none_working hin hfound hclaimable hpast
    have hresting := h.resting hfree row hfound
    have hopen : ¬row.status.Closed := by
      intro hclosed
      rcases hclosed with hstatus | hstatus <;> simp [DeliveryRow.claimable, hstatus] at hclaimable
    obtain ⟨hsuccesses, hposts⟩ := hresting.resolve_left hopen
    have hwithin : v'.account.Within opts row.attemptCount .select := by
      rw [haccount]
      exact ⟨hposts, hsuccesses⟩
    apply deliveryInv_one (fun other _ => hfree other) hstages hwithin _ _ hnamed
    · intro row' hrow'
      rw [hrow] at hrow'
      obtain rfl := Option.some.inj hrow'
      exact ⟨rfl, by simp [haccount], rfl⟩
    · rw [haccount]
      exact h.bounded
  | advanced c stage stage' _ hbefore hadvances hrow hstages haccount hnamed =>
    obtain ⟨k, hwithin, hsending⟩ := h.working c stage hbefore
    obtain ⟨hwithin', hbounded⟩ := within_advances hwithin hadvances
      (fun row hrow => (hsending row hrow).2.2) h.bounded
    rw [← haccount] at hwithin' hbounded
    have hclaims : v'.account.claims = v.account.claims := by
      rw [haccount]
      cases stage' <;> rfl
    apply deliveryInv_one (fun other => h.others hbefore) hstages hwithin' _ hbounded hnamed
    intro row hrow'
    rw [hclaims]
    exact hsending row (hrow ▸ hrow')
  | ended c stage _ hbefore hends hrow hstages haccount hnamed =>
    obtain ⟨k, hwithin, hsending⟩ := h.working c stage hbefore
    have hnone : ∀ other, v'.stages other = none := by
      intro other
      rw [hstages]
      by_cases hc : other = c
      · rw [hc, Function.update_self]
      · rw [Function.update_of_ne hc]
        exact h.others hbefore hc
    constructor
    · exact fun c₁ _ h₁ _ => absurd (hnone c₁) h₁
    · exact fun other stage' hother => absurd (hother.symm.trans (hnone other)) (by simp)
    · intro _ row' hrow'
      rw [hrow, Option.map_eq_some_iff] at hrow'
      obtain ⟨row, hfound, rfl⟩ := hrow'
      rw [haccount]
      rw [hfound] at hends
      exact mark_resting hwithin hends (hsending row hfound).2.2
    · rw [haccount]
      exact h.bounded
    · exact fun hunnamed => absurd hnamed hunnamed

end Exclusivity

/-! ## Used up attempts -/

/-- How many calls a consumer is away, at most, from marking a delivery whose attempts are used
up. -/
def NotifyStage.callsLeft (opts : ProcessNotifyBatchOptions) : NotifyStage → Option Nat
  | .select => some 3
  | .decrypt attemptCount => if maxAttemptsOf opts ≤ attemptCount then some 2 else none
  | .markArchived | .markExceeded => some 1
  | .claim _ | .post | .markDelivered | .markFailed _ => none

/-- After `calls` calls of consumer `c`, which found the attempts used up, it is about to mark
the delivery dead, or it is dead; there were `posts` POSTs all along. -/
inductive Exhausted (opts : ProcessNotifyBatchOptions) (c : ConsumerId) (posts calls : Nat)
    (v : DeliveryView) : Prop
  | underWay (stage : NotifyStage) (left : Nat) (before : v.stages c = some stage)
      (callsLeft : stage.callsLeft opts = some left) (few : left + calls ≤ 3)
      (used : ∀ row, v.row = some row → maxAttemptsOf opts ≤ row.attemptCount)
      (same : v.account.posts = posts)
  | dead (idle : ∀ other, v.stages other = none)
      (marked : ∀ row, v.row = some row → row.status = .dead) (named : v.named)
      (same : v.account.posts = posts)

section Exhausted

variable {opts : ProcessNotifyBatchOptions} {id : DeliveryId} {who : Option ConsumerId}
  {v v' : DeliveryView} {c : ConsumerId} {posts calls : Nat}

theorem callsLeft_pos {stage : NotifyStage} {left : Nat}
    (h : stage.callsLeft opts = some left) : 0 < left := by
  cases stage with
  | select =>
    obtain rfl : 3 = left := Option.some.inj h
    decide
  | decrypt attemptCount =>
    simp only [NotifyStage.callsLeft] at h
    split at h
    · obtain rfl := Option.some.inj h
      decide
    · contradiction
  | markArchived =>
    obtain rfl : 1 = left := Option.some.inj h
    decide
  | markExceeded =>
    obtain rfl : 1 = left := Option.some.inj h
    decide
  | _ => contradiction

/-- A consumer that is to mark the delivery dead starts no POST and comes closer to the mark. -/
private theorem callsLeft_advances {stage stage' : NotifyStage} {left : Nat}
    (hleft : stage.callsLeft opts = some left) (hadvances : Advances opts v.row stage stage')
    (hused : ∀ row, v.row = some row → maxAttemptsOf opts ≤ row.attemptCount) :
    ∃ left', stage'.callsLeft opts = some left' ∧ left' < left ∧
      (v.account.reached stage').posts = v.account.posts := by
  cases hadvances with
  | archived _ =>
    obtain rfl : 3 = left := Option.some.inj hleft
    exact ⟨1, rfl, by decide, rfl⟩
  | pending r hfound =>
    obtain rfl : 3 = left := Option.some.inj hleft
    exact ⟨2, by simp [NotifyStage.callsLeft, hused r hfound], by decide, rfl⟩
  | exceeded attemptCount hexceeded =>
    simp only [NotifyStage.callsLeft, hexceeded, if_true] at hleft
    obtain rfl := Option.some.inj hleft
    exact ⟨1, rfl, by decide, rfl⟩
  | post attemptCount hposting =>
    simp [NotifyStage.callsLeft, Nat.not_le.mpr hposting] at hleft
  | delivered => contradiction
  | failed result => contradiction

private theorem mark_dead {stage : NotifyStage} {left : Nat}
    (hleft : stage.callsLeft opts = some left) {row : DeliveryRow}
    (hends : stage.Ends (some row)) : (stage.mark opts row).status = .dead := by
  cases stage with
  | select => contradiction
  | decrypt attemptCount => exact hends.elim
  | markArchived => rfl
  | markExceeded => rfl
  | _ => contradiction

theorem exhausted_step (h : Exhausted opts c posts calls v) (hinv : DeliveryInv opts v)
    (hin : v.InTime) (hstep : DeliveryStep opts id who v v') :
    Exhausted opts c posts (if who = some c then calls + 1 else calls) v' := by
  cases h with
  | underWay stage left hbefore hleft hfew hused hposts =>
    have hnamed := hinv.named hbefore
    cases hstep with
    | quiet hidle hstages haccount hrow _ =>
      have hwho : who ≠ some c := by
        intro hwho
        rw [hidle c hwho] at hbefore
        contradiction
      rw [if_neg hwho]
      refine .underWay stage left (hstages ▸ hbefore) hleft hfew ?_ (haccount ▸ hposts)
      intro row hrow'
      rcases hrow with hsame | hnone | ⟨_, hunnamed⟩
      · exact hused row (hsame ▸ hrow')
      · rw [hnone] at hrow'
        contradiction
      · exact absurd hnamed hunnamed
    | claimed other row now _ hfound hclaimable hpast =>
      have hidle := hinv.none_working hin hfound hclaimable hpast c
      rw [hidle] at hbefore
      contradiction
    | advanced other stage₀ stage' hwho hother hadvances hrow hstages haccount _ =>
      obtain rfl : other = c := hinv.one other c (by simp [hother]) (by simp [hbefore])
      obtain rfl := Option.some.inj (hbefore.symm.trans hother)
      obtain ⟨left', hleft', hless, hsame⟩ := callsLeft_advances hleft hadvances hused
      rw [if_pos hwho]
      refine .underWay stage' left' (by simp [hstages]) hleft' (by omega) ?_ ?_
      · rw [hrow]
        exact hused
      · rw [haccount, hsame, hposts]
    | ended other stage₀ hwho hother hends hrow hstages haccount hnamed' =>
      obtain rfl : other = c := hinv.one other c (by simp [hother]) (by simp [hbefore])
      obtain rfl := Option.some.inj (hbefore.symm.trans hother)
      refine .dead ?_ ?_ hnamed' (haccount ▸ hposts)
      · intro c'
        rw [hstages]
        by_cases hc : c' = other
        · rw [hc, Function.update_self]
        · rw [Function.update_of_ne hc]
          exact hinv.others hbefore hc
      · intro row' hrow'
        rw [hrow, Option.map_eq_some_iff] at hrow'
        obtain ⟨row, hfound, rfl⟩ := hrow'
        rw [hfound] at hends
        exact mark_dead hleft hends
  | dead hidle hmarked hnamed hposts =>
    cases hstep with
    | quiet _ hstages haccount hrow hkept =>
      refine .dead (hstages ▸ hidle) ?_ (hkept hnamed) (haccount ▸ hposts)
      intro row hrow'
      rcases hrow with hsame | hnone | ⟨_, hunnamed⟩
      · exact hmarked row (hsame ▸ hrow')
      · rw [hnone] at hrow'
        contradiction
      · exact absurd hnamed hunnamed
    | claimed other row now _ hfound hclaimable =>
      simp [DeliveryRow.claimable, hmarked row hfound] at hclaimable
    | advanced other stage _ _ hother =>
      rw [hidle other] at hother
      contradiction
    | ended other stage _ hother =>
      rw [hidle other] at hother
      contradiction

end Exhausted

end Utsuroi
