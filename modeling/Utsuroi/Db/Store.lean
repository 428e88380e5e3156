import Mathlib.Logic.Function.Basic
import Utsuroi.Framework.Program
import Utsuroi.Db.Types

/-!
# The store

Everything a check writes outside the worker's memory: the tables of D1, the objects of R2,
the messages handed to the notification queue and the alarms of the monitor objects.
-/

namespace Utsuroi

open Async

structure Store where
  monitors : MonitorId → Option MonitorRow
  checkJobs : CheckJobId → Option CheckJobRow
  /-- newest first -/
  robotsEvaluations : List RobotsEvaluationRow
  targets : TargetId → Option TargetRow
  /-- newest first -/
  snapshots : List SnapshotRow
  changes : ChangeId → Option ChangeRow
  /-- in the order of `created_at` -/
  subscriptions : List SubscriptionRow
  destinations : DestinationId → Option DestinationRow
  deliveries : DeliveryId → Option DeliveryRow
  /-- every message sent to `NOTIFY_QUEUE`, newest first -/
  queue : List DeliveryId
  /-- `bodies/<hash>` -/
  bodies : Hash → Option (List UInt8)
  /-- `normalized/<hash>` -/
  normalized : Hash → Option String
  /-- `diffs/<change id>` -/
  diffs : ChangeId → Option String
  /-- `ctx.storage.setAlarm` -/
  alarms : MonitorId → Option Nat

def emptyStore : Store where
  monitors := fun _ => none
  checkJobs := fun _ => none
  robotsEvaluations := []
  targets := fun _ => none
  snapshots := []
  changes := fun _ => none
  subscriptions := []
  destinations := fun _ => none
  deliveries := fun _ => none
  queue := []
  bodies := fun _ => none
  normalized := fun _ => none
  diffs := fun _ => none
  alarms := fun _ => none

/-- The awaited calls, named after the functions that await them. -/
inductive Site
  | getMonitor
  | setMonitorLastChecked
  | setMonitorNextRun
  | policyStopMonitor
  | updateMonitorStatus (status : MonitorStatus)
  | updateMonitorInterval
  | bindMonitorId
  | listMonitorsDue
  | getSource
  | getSite
  | getFetcherPolicy
  | insertCheckJob (id : CheckJobId)
  | selectCheckJob (id : CheckJobId)
  | updateCheckJobStatus (id : CheckJobId) (status : CheckJobStatus)
  | createCheckAttempt
  | fetchPage (url : Url)
  | fetchTarget (url : Url)
  | recordAuditEvent
  | extractHtmlTitle
  | extractItems
  | resolveAndCheck (url : Url)
  | getRobotsMode (origin : String)
  | checkRobots (origin : String) (url : Url)
  | createRobotsEvaluation
  | countConsecutiveUnavailableRobotsEvaluations
  | acquire
  | release (leaseId : Option Nat)
  | putLastResult
  | setAlarm
  | getExistingTargetWatermark (id : TargetId)
  | insertTarget (id : TargetId)
  | updateTarget (id : TargetId)
  | selectTarget (id : TargetId)
  | setTargetLastChecked (id : TargetId)
  | setTargetLastKnownUpdatedAt (id : TargetId)
  | insertChange (id : ChangeId)
  | selectChange (id : ChangeId)
  | updateChangeTitle (id : ChangeId)
  | setChangeTagsIfNull (id : ChangeId)
  | selectChangeTags (id : ChangeId)
  | createSnapshot
  | getLatestSnapshot
  | bodiesHead
  | bodiesPut
  | bodiesGet
  | listMatchingSubscriptions
  | insertDelivery (id : DeliveryId)
  | selectDelivery (id : DeliveryId)
  | queueSend (id : DeliveryId)
  deriving DecidableEq, Repr

/-- What an insert-if-new function answers. -/
structure InsertResult (α : Type) where
  inserted : Bool
  row : α
  deriving DecidableEq, Repr

/-- `INSERT … ON CONFLICT DO NOTHING` on a table keyed by its unique columns. -/
def insertIfNew {κ ρ : Type} [DecidableEq κ] (table : κ → Option ρ) (key : κ) (row : ρ) :
    κ → Option ρ :=
  if (table key).isSome then table else Function.update table key (some row)

section InsertIfNew

variable {κ ρ : Type} [DecidableEq κ] {table : κ → Option ρ} {key other : κ} {row old : ρ}

theorem insertIfNew_of_none (h : table key = none) :
    insertIfNew table key row = Function.update table key (some row) := by
  simp [insertIfNew, h]

theorem insertIfNew_of_some (h : table key = some old) : insertIfNew table key row = table := by
  simp [insertIfNew, h]

theorem insertIfNew_other (h : other ≠ key) : insertIfNew table key row other = table other := by
  unfold insertIfNew
  split
  · rfl
  · exact Function.update_of_ne h _ _

/-- An insert-if-new keeps the rows there are. -/
theorem insertIfNew_keeps (h : table other = some old) :
    insertIfNew table key row other = some old := by
  by_cases heq : other = key
  · subst heq
    rw [insertIfNew_of_some h, h]
  · rw [insertIfNew_other heq, h]

/-- Afterwards there is a row. -/
theorem insertIfNew_isSome : (insertIfNew table key row key).isSome := by
  cases h : table key with
  | none => simp [insertIfNew_of_none h]
  | some old => simp [insertIfNew_keeps h]

end InsertIfNew

end Utsuroi
