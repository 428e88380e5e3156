import Utsuroi.Db.Store

/-!
# Monitors, targets, changes, snapshots and R2
-/

namespace Utsuroi

open Async

/-! ## Monitors -/

def getMonitor (id : MonitorId) : Prog Site Store (Option MonitorRow) :=
  .query .getMonitor fun store => store.monitors id

/-- `UPDATE monitors SET … WHERE id = ?` -/
def Store.updateMonitor (id : MonitorId) (f : MonitorRow → MonitorRow) (store : Store) : Store :=
  { store with monitors := Function.update store.monitors id ((store.monitors id).map f) }

def setMonitorLastChecked (id : MonitorId) (lastCheckedAt : Nat) : Prog Site Store Unit :=
  .call .setMonitorLastChecked
    (Store.updateMonitor id fun row => { row with lastCheckedAt := some lastCheckedAt })
    fun _ => ()

def setMonitorNextRun (id : MonitorId) (nextRunAt : Option Nat) : Prog Site Store Unit :=
  .call .setMonitorNextRun (Store.updateMonitor id fun row => { row with nextRunAt }) fun _ => ()

/-- The reason of a stop goes with the status. -/
def updateMonitorStatus (id : MonitorId) (status : MonitorStatus) : Prog Site Store Unit :=
  .call (.updateMonitorStatus status)
    (Store.updateMonitor id fun row =>
      { row with status, stopReason := none, robotsEvaluationId := none })
    fun _ => ()

def updateMonitorInterval (id : MonitorId) (intervalSeconds : Nat) : Prog Site Store Unit :=
  .call .updateMonitorInterval
    (Store.updateMonitor id fun row => { row with intervalSeconds }) fun _ => ()

/-- A monitor that robots.txt stops is not scheduled again. -/
def policyStopMonitor (id : MonitorId) (stopReason : String) (robotsEvaluationId : Nat) :
    Prog Site Store Unit :=
  .call .policyStopMonitor
    (Store.updateMonitor id fun row =>
      { row with
        status := .blockedByRobots
        stopReason := some stopReason
        robotsEvaluationId := some robotsEvaluationId
        nextRunAt := none })
    fun _ => ()

/-! ## Targets -/

structure ExistingTargetWatermark where
  present : Bool
  lastKnownUpdatedAt : Option String
  deriving DecidableEq, Repr

def getExistingTargetWatermark (id : TargetId) : Prog Site Store ExistingTargetWatermark :=
  .query (.getExistingTargetWatermark id) fun store =>
    match store.targets id with
    | some row => ⟨true, row.lastKnownUpdatedAt⟩
    | none => ⟨false, none⟩

/-- `lastKnownUpdatedAt` is `none` when the caller passes `undefined`. -/
structure CreateTargetInput where
  id : TargetId
  discoveredFrom : Option String
  lastKnownUpdatedAt : Option (Option String)
  deriving DecidableEq, Repr

def newTarget (input : CreateTargetInput) : TargetRow where
  id := input.id
  discoveredFrom := input.discoveredFrom
  lastCheckedAt := none
  lastKnownUpdatedAt := input.lastKnownUpdatedAt.getD none

def Store.insertTarget (input : CreateTargetInput) (store : Store) : Store :=
  { store with targets := insertIfNew store.targets input.id (newTarget input) }

/-- `UPDATE targets SET … WHERE …` -/
def Store.updateTarget (id : TargetId) (f : TargetRow → TargetRow) (store : Store) : Store :=
  { store with targets := Function.update store.targets id ((store.targets id).map f) }

def upsertTarget (input : CreateTargetInput) : Prog Site Store TargetRow := do
  let inserted ← Prog.call (.insertTarget input.id) (Store.insertTarget input)
    fun store => (store.targets input.id).isNone
  if inserted then return newTarget input
  if let some lastKnownUpdatedAt := input.lastKnownUpdatedAt then
    Prog.call (.updateTarget input.id)
      (Store.updateTarget input.id fun row => { row with lastKnownUpdatedAt }) fun _ => ()
  let existing ← Prog.query (.selectTarget input.id) fun store => store.targets input.id
  match existing with
  | some row => return row
  | none => .fail

def setTargetLastChecked (id : TargetId) (lastCheckedAt : Nat) : Prog Site Store Unit :=
  .call (.setTargetLastChecked id)
    (Store.updateTarget id fun row => { row with lastCheckedAt := some lastCheckedAt }) fun _ => ()

/-- `last_known_updated_at IS NULL OR last_known_updated_at < ?` -/
def advanceWatermark (lastKnownUpdatedAt : String) (row : TargetRow) : TargetRow :=
  match row.lastKnownUpdatedAt with
  | none => { row with lastKnownUpdatedAt := some lastKnownUpdatedAt }
  | some known =>
    if known < lastKnownUpdatedAt then { row with lastKnownUpdatedAt := some lastKnownUpdatedAt }
    else row

def setTargetLastKnownUpdatedAt (id : TargetId) (lastKnownUpdatedAt : String) :
    Prog Site Store Unit :=
  .call (.setTargetLastKnownUpdatedAt id)
    (Store.updateTarget id (advanceWatermark lastKnownUpdatedAt)) fun _ => ()

/-! ## Changes -/

/-- `row` is the row as inserted, its tags null. -/
def Store.insertChange (row : ChangeRow) (store : Store) : Store :=
  { store with changes := insertIfNew store.changes row.id row }

def insertChangeIfNew (row : ChangeRow) : Prog Site Store (InsertResult ChangeRow) := do
  let inserted ← Prog.call (.insertChange row.id) (Store.insertChange row)
    fun store => (store.changes row.id).isNone
  if inserted then return ⟨true, row⟩
  let existing ← Prog.query (.selectChange row.id) fun store => store.changes row.id
  match existing with
  | some row => return ⟨false, row⟩
  | none => .fail

/-- `UPDATE changes SET … WHERE id = ?` -/
def Store.updateChange (id : ChangeId) (f : ChangeRow → ChangeRow) (store : Store) : Store :=
  { store with changes := Function.update store.changes id ((store.changes id).map f) }

def updateChangeTitle (id : ChangeId) (title : String) : Prog Site Store Unit :=
  .call (.updateChangeTitle id)
    (Store.updateChange id fun row => { row with title := some title }) fun _ => ()

/-- `WHERE tags IS NULL` -/
def tagIfNull (tags : List String) (row : ChangeRow) : ChangeRow :=
  if row.tags = none then { row with tags := some tags } else row

/-- Answers the tags the change has afterwards. -/
def setChangeTagsIfNull (id : ChangeId) (tags : List String) :
    Prog Site Store (Option (List String)) := do
  let written ← Prog.call (.setChangeTagsIfNull id) (Store.updateChange id (tagIfNull tags))
    fun store => (store.changes id).any fun row => row.tags.isNone
  if written then return some tags
  Prog.query (.selectChangeTags id) fun store => (store.changes id).bind ChangeRow.tags

/-! ## Snapshots -/

/-- The id is filled in by the store. -/
def Store.addSnapshot (row : SnapshotRow) (store : Store) : Store :=
  { store with snapshots := { row with id := store.snapshots.length } :: store.snapshots }

/-- Answers the id of the new row. -/
def createSnapshot (row : SnapshotRow) : Prog Site Store SnapshotId :=
  .call .createSnapshot (Store.addSnapshot row) fun store => store.snapshots.length

/-- `ORDER BY fetched_at DESC LIMIT 1` -/
def latestOf : List SnapshotRow → Option SnapshotRow
  | [] => none
  | row :: rows =>
    match latestOf rows with
    | none => some row
    | some best => if row.fetchedAt < best.fetchedAt then some best else some row

def latestSnapshotForTarget (targetId : TargetId) (store : Store) : Option SnapshotRow :=
  latestOf (store.snapshots.filter fun row => decide (row.targetId = targetId))

def getLatestSnapshotForTarget (targetId : TargetId) : Prog Site Store (Option SnapshotRow) :=
  .query .getLatestSnapshot (latestSnapshotForTarget targetId)

theorem latestOf_mem {rows : List SnapshotRow} {best : SnapshotRow}
    (h : latestOf rows = some best) : best ∈ rows := by
  induction rows generalizing best with
  | nil => simp [latestOf] at h
  | cons row rows ih =>
    simp only [latestOf] at h
    cases hlatest : latestOf rows with
    | none =>
      simp only [hlatest, Option.some.injEq] at h
      simp [h]
    | some b =>
      simp only [hlatest] at h
      split at h
      · exact List.mem_cons_of_mem _ (ih (hlatest.trans h))
      · injection h with h
        simp [h]

theorem latestOf_cons {row : SnapshotRow} {rows : List SnapshotRow}
    (h : ∀ old ∈ rows, old.fetchedAt ≤ row.fetchedAt) : latestOf (row :: rows) = some row := by
  simp only [latestOf]
  cases hlatest : latestOf rows with
  | none => rfl
  | some best =>
    have hle := h best (latestOf_mem hlatest)
    simp only [if_neg (Nat.not_lt.mpr hle)]

theorem latest_addSnapshot {row : SnapshotRow} {s : Store}
    (h : ∀ old ∈ s.snapshots, old.targetId = row.targetId → old.fetchedAt ≤ row.fetchedAt) :
    latestSnapshotForTarget row.targetId (s.addSnapshot row) =
      some { row with id := s.snapshots.length } := by
  unfold latestSnapshotForTarget Store.addSnapshot
  simp only [List.filter_cons, decide_true, if_true]
  apply latestOf_cons
  intro old hold
  simp only [List.mem_filter, decide_eq_true_eq] at hold
  exact h old hold.1 hold.2

/-! ## R2 -/

/-- `putIfAbsent`: HEAD, then PUT when there is no object. -/
def putIfAbsent (present : Store → Bool) (put : Store → Store) : Prog Site Store Unit := do
  let existing ← Prog.query .bodiesHead present
  unless existing do
    Prog.call .bodiesPut put fun _ => ()

/-- `putIfAbsent(env.BODIES, bodyKey(hash), body)` -/
def putBody (hash : Hash) (body : List UInt8) : Prog Site Store Unit :=
  putIfAbsent (fun store => (store.bodies hash).isSome) fun store =>
    { store with bodies := Function.update store.bodies hash (some body) }

/-- `putIfAbsent(env.BODIES, normalizedKey(hash), text)` -/
def putNormalized (hash : Hash) (text : String) : Prog Site Store Unit :=
  putIfAbsent (fun store => (store.normalized hash).isSome) fun store =>
    { store with normalized := Function.update store.normalized hash (some text) }

/-- `env.BODIES.get(normalizedKey(hash))` and its text, empty when there is no object. -/
def getNormalized (hash : Option Hash) : Prog Site Store String :=
  match hash with
  | none => return ""
  | some hash => .query .bodiesGet fun store => (store.normalized hash).getD ""

/-- `env.BODIES.put(diffKey(changeId), unifiedDiff)` -/
def putDiff (changeId : ChangeId) (unifiedDiff : String) : Prog Site Store Unit :=
  .call .bodiesPut
    (fun store => { store with diffs := Function.update store.diffs changeId (some unifiedDiff) })
    fun _ => ()

end Utsuroi
