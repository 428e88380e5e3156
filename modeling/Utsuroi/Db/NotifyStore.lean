import Utsuroi.Db.Deliveries

/-!
# The delivery store of the notification consumer

The statements `getPendingDelivery` sends to D1: the UPDATE that claims a delivery and the
SELECT that reads it.
-/

namespace Utsuroi

/-- A claim older than this may be taken over. -/
def CLAIM_STALE_MS : Nat := 5 * 60 * 1000

/-- `status IN ('pending', 'failed') OR (status = 'sending' AND claimed_at < ?)` -/
def DeliveryRow.claimable (now : Nat) (row : DeliveryRow) : Bool :=
  match row.status with
  | .pending | .failed => true
  | .sending => row.claimedAt.any (· + CLAIM_STALE_MS < now)
  | .delivered | .dead => false

/-- A claim is taken over only once it is stale. -/
theorem stale_of_claimable {row : DeliveryRow} {now claimedAt : Nat} (hstatus : row.status = .sending)
    (hclaimedAt : row.claimedAt = some claimedAt) (h : row.claimable now = true) :
    claimedAt + CLAIM_STALE_MS < now := by
  have hsending : row.claimable now = row.claimedAt.any (· + CLAIM_STALE_MS < now) := by
    unfold DeliveryRow.claimable
    rw [hstatus]
  rw [hsending, hclaimedAt, Option.any_some] at h
  exact of_decide_eq_true h

/-- Whether the claiming UPDATE writes a row. -/
def Store.claimable (now : Nat) (id : DeliveryId) (store : Store) : Bool :=
  (store.deliveries id).any (·.claimable now)

theorem claimable_row {store : Store} {now : Nat} {id : DeliveryId}
    (h : store.claimable now id = true) :
    ∃ row, store.deliveries id = some row ∧ row.claimable now = true := by
  unfold Store.claimable at h
  cases hrow : store.deliveries id with
  | none => simp [hrow] at h
  | some row => exact ⟨row, rfl, by simpa [hrow] using h⟩

def DeliveryRow.claim (now : Nat) (row : DeliveryRow) : DeliveryRow :=
  if row.claimable now then { row with status := .sending, claimedAt := some now } else row

def Store.claimDelivery (now : Nat) (id : DeliveryId) (store : Store) : Store :=
  store.updateDelivery id (·.claim now)

/-- The columns of the joined row that decide what happens to the delivery. -/
structure PendingDeliveryQueryRow where
  attemptCount : Nat
  destinationArchived : Bool
  deriving DecidableEq, Repr

/-- The SELECT: the delivery joined with its destination, its change and the change's
monitor.  A monitor's source and site exist as long as it does. -/
def Store.pendingDelivery (id : DeliveryId) (store : Store) : Option PendingDeliveryQueryRow :=
  match store.deliveries id, store.destinations id.destinationId, store.changes id.changeId,
    store.monitors id.changeId.monitorId with
  | some row, some destination, some _, some _ => some ⟨row.attemptCount, destination.archived⟩
  | _, _, _, _ => none

theorem pendingDelivery_row {store : Store} {id : DeliveryId} {found : PendingDeliveryQueryRow}
    (h : store.pendingDelivery id = some found) :
    ∃ row, store.deliveries id = some row ∧ row.attemptCount = found.attemptCount := by
  unfold Store.pendingDelivery at h
  split at h
  · next row destination change monitor hrow _ _ _ =>
    exact ⟨row, hrow, by rw [← Option.some.inj h]⟩
  · contradiction

/-- The foreign keys of a delivery. -/
def Store.DeliveryKeys (store : Store) : Prop :=
  ∀ id row, store.deliveries id = some row →
    store.destinations id.destinationId ≠ none ∧ store.changes id.changeId ≠ none ∧
      store.monitors id.changeId.monitorId ≠ none

/-- The join finds every delivery there is. -/
theorem Store.DeliveryKeys.deliveries_eq_none {store : Store} (h : store.DeliveryKeys)
    {id : DeliveryId} (hnone : store.pendingDelivery id = none) : store.deliveries id = none := by
  cases hrow : store.deliveries id with
  | none => rfl
  | some row =>
    obtain ⟨hdestination, hchange, hmonitor⟩ := h id row hrow
    obtain ⟨_, hdestination⟩ := Option.ne_none_iff_exists'.mp hdestination
    obtain ⟨_, hchange⟩ := Option.ne_none_iff_exists'.mp hchange
    obtain ⟨_, hmonitor⟩ := Option.ne_none_iff_exists'.mp hmonitor
    simp [Store.pendingDelivery, hrow, hdestination, hchange, hmonitor] at hnone

end Utsuroi
