import Utsuroi.Framework.Run
import Utsuroi.Pipeline.RunCheck

/-!
# The monitor object

One object per monitor holds its alarm and lets one check run at a time: an alarm or a
manual run starts one, and the result sets the next alarm.  The reconciliation sets the
alarm of a monitor that is overdue.
-/

namespace Utsuroi

open Async Transition

def setAlarm (monitorId : MonitorId) (time : Option Nat) : RunProg Unit :=
  inRegion .loading (.call .setAlarm
    (fun store => { store with alarms := Function.update store.alarms monitorId time })
    fun _ => ())

section MonitorObject

variable (world : CheckWorld) (monitorId : MonitorId)

def applyResult (result : CheckRunResult) : RunProg Unit := do
  inRegion .loading (.query .putLastResult fun _ => ())
  match result.kind with
  | .policyStopped => setAlarm monitorId none
  | .deferred => setAlarm monitorId (some (world.appliedNow + result.retryAfterMs.getD 5000))
  | .skipped => pure ()
  | .completed =>
    match result.nextRunAt with
    | some nextRunAt => setAlarm monitorId (some nextRunAt)
    | none => pure ()

/-- `alarm()` and, for a manual run, `runNowMonitor`. -/
def runCheckAndApply : RunProg Unit := do
  let result ← runMonitorCheck world monitorId
  applyResult world monitorId result

end MonitorObject

def DEFAULT_RECONCILE_GRACE_MS : Nat := 5 * 60000

/-- `next_run_at IS NOT NULL AND next_run_at <= ?` of an active monitor -/
def MonitorRow.due (asOf : Nat) (row : MonitorRow) : Bool :=
  row.status == .active && row.nextRunAt.any (· ≤ asOf)

/-- `runReconciliation`, as far as it concerns one monitor. -/
def runReconciliation (now : Nat) (monitorId : MonitorId) : RunProg Unit := do
  let due ← inRegion .loading (.query .listMonitorsDue fun store =>
    (store.monitors monitorId).filter (MonitorRow.due (now - DEFAULT_RECONCILE_GRACE_MS)))
  match due with
  | some monitor => (setAlarm monitorId monitor.nextRunAt).tryCatch (pure ())
  | none => pure ()

/-! ## The runs of a monitor -/

inductive MonitorEvent
  /-- a check, by alarm or by hand, whose calls meet the faults -/
  | check (world : CheckWorld) (faults : List Fault)
  | reconcile (now : Nat) (faults : List Fault)
  /-- whatever happens to other monitors and other tables -/
  | others (store : Store)

def MonitorEvent.apply (monitorId : MonitorId) (s : Store) : MonitorEvent → Store
  | .check world faults => ((runCheckAndApply world monitorId).exec faults [] s).state
  | .reconcile now faults => ((runReconciliation now monitorId).exec faults [] s).state
  | .others store => store

/-- One check at a time, as the object's `running` flag has it. -/
def monitorSystem (monitorId : MonitorId) : System Store MonitorEvent where
  init s := (∀ row, s.monitors monitorId = some row → row.id = monitorId) ∧
    ∀ slot, s.checkJobs ⟨monitorId, slot⟩ = none
  step s e s' :=
    s' = e.apply monitorId s ∧
      match e with
      | .others store => store.monitors monitorId = s.monitors monitorId ∧
          ∀ slot, store.checkJobs ⟨monitorId, slot⟩ = s.checkJobs ⟨monitorId, slot⟩
      | _ => True

end Utsuroi
