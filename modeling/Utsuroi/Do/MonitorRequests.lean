import Utsuroi.Do.MonitorObject
import Utsuroi.Framework.PoolRun

/-!
# Requests beside running checks

The handlers of requests write the monitor's row and call its object, while a check of the monitor
may be under way.  An object runs one check at a time; the handlers and the checks interleave
at every await.
-/

namespace Utsuroi

open Async Transition

/-- Where a call is awaited: in a check, in another method of the object or in a handler. -/
inductive ThreadSite
  | check (site : RunSite)
  | object (site : Site)
  | route (site : Site)
  deriving DecidableEq, Repr

abbrev ThreadProg := Prog ThreadSite Store

def inObject {α : Type} (p : Prog Site Store α) : ThreadProg α := p.relabel .object

def inRoute {α : Type} (p : Prog Site Store α) : ThreadProg α := p.relabel .route

def Store.setAlarm (id : MonitorId) (time : Option Nat) (store : Store) : Store :=
  { store with alarms := Function.update store.alarms id time }

/-! ## The object's methods -/

section Object

variable (id : MonitorId)

def storeAlarm (time : Option Nat) : Prog Site Store Unit :=
  .call .setAlarm (Store.setAlarm id time) fun _ => ()

def bindMonitorId : Prog Site Store Unit := .query .bindMonitorId fun _ => ()

def scheduleMonitor (nextRunAt : Option Nat) : ThreadProg Unit := do
  inObject bindMonitorId
  inObject (storeAlarm id nextRunAt)

def pauseMonitor : ThreadProg Unit := do
  inObject bindMonitorId
  inObject (storeAlarm id none)
  inObject (updateMonitorStatus id .paused)

/-- The alarm follows the row's `next_run_at`, which is set where there is none. -/
def armResumed (now : Nat) (monitor : Option MonitorRow) : ThreadProg Unit :=
  match monitor.bind MonitorRow.nextRunAt with
  | some nextRunAt => inObject (storeAlarm id (some nextRunAt))
  | none => do
    inObject (setMonitorNextRun id (some now))
    inObject (storeAlarm id (some now))

def resumeMonitor (now : Nat) : ThreadProg Unit := do
  inObject bindMonitorId
  inObject (updateMonitorStatus id .active)
  let monitor ← inObject (getMonitor id)
  armResumed id now monitor

end Object

/-! ## The handlers -/

section Routes

variable (id : MonitorId)

def orNotFound : Option MonitorRow → ThreadProg MonitorRow
  | some monitor => pure monitor
  | none => .fail

def pauseRoute : ThreadProg PUnit := do
  let monitor ← inRoute (getMonitor id)
  let _ ← orNotFound monitor
  pauseMonitor id
  inRoute (updateMonitorStatus id .paused)
  let _ ← inRoute (getMonitor id)

def resumeRoute (now : Nat) : ThreadProg PUnit := do
  let monitor ← inRoute (getMonitor id)
  let _ ← orNotFound monitor
  resumeMonitor id now
  inRoute (updateMonitorStatus id .active)
  let _ ← inRoute (getMonitor id)

/-- When a monitor with a new interval is to run next. -/
def candidateMs (now lastCheckedAt intervalSeconds : Nat) : Nat :=
  max now (lastCheckedAt + intervalSeconds * 1000)

/-- The time to which a new interval moves the next run, if it is earlier. -/
def rescheduledTo (monitor : MonitorRow) (intervalSeconds now : Nat) : Option Nat :=
  match monitor.lastCheckedAt with
  | none => none
  | some lastCheckedAt =>
    let candidate := candidateMs now lastCheckedAt intervalSeconds
    if monitor.status = .active ∧ monitor.nextRunAt.all (candidate < ·) then some candidate else none

def reschedule : Option Nat → ThreadProg Unit
  | none => pure ()
  | some candidate => do
    inRoute (setMonitorNextRun id (some candidate))
    scheduleMonitor id (some candidate)

def patchRoute (intervalSeconds now : Nat) : ThreadProg PUnit := do
  let monitor ← inRoute (getMonitor id)
  let monitor ← orNotFound monitor
  inRoute (updateMonitorInterval id intervalSeconds)
  reschedule id (rescheduledTo monitor intervalSeconds now)
  inRoute (.query .recordAuditEvent fun _ => ())
  let _ ← inRoute (getMonitor id)

end Routes

/-! ## The threads -/

inductive Thread
  /-- the check that the monitor's object runs -/
  | check (id : MonitorId)
  | request (n : Nat)
  deriving DecidableEq, Repr

inductive MonitorRequest
  | pause (id : MonitorId)
  | resume (id : MonitorId) (now : Nat)
  | patch (id : MonitorId) (intervalSeconds now : Nat)
  /-- the part of a reconciliation that concerns one monitor -/
  | reconcile (id : MonitorId) (now : Nat)
  deriving DecidableEq, Repr

def MonitorRequest.monitorId : MonitorRequest → MonitorId
  | .pause id | .resume id _ | .patch id _ _ | .reconcile id _ => id

def MonitorRequest.prog : MonitorRequest → ThreadProg PUnit
  | .pause id => pauseRoute id
  | .resume id now => resumeRoute id now
  | .patch id intervalSeconds now => patchRoute id intervalSeconds now
  | .reconcile id now => (runReconciliation now id).relabel fun site => .object site.site

inductive MonitorTask
  /-- a check begins, by the alarm or by hand -/
  | alarm (world : CheckWorld)
  | runNow (world : CheckWorld)
  | request (request : MonitorRequest)

/-- The check a task stands for. -/
def MonitorTask.world? : MonitorTask → Option CheckWorld
  | .alarm world => some { world with trigger := .scheduled }
  | .runNow world => some { world with trigger := .manual }
  | .request _ => none

/-- What the check fetches and processes does nothing to monitors, jobs and alarms. -/
structure CheckWorld.Reports (world : CheckWorld) : Prop where
  fetchTarget : ∀ etag lastModified, (world.fetchTarget etag lastModified).prog.Frames Store.control
  processor : ∀ ctx input, (world.processor ctx input).prog.Frames Store.control

def checkThread (id : MonitorId) (world : CheckWorld) : ThreadProg PUnit :=
  (runCheckAndApply world id).relabel .check

/-- An alarm is gone once it fires; it may be lost at any time. -/
def monitorTasks : Tasks Thread ThreadSite Store MonitorTask where
  init s := (∀ id row, s.monitors id = some row → row.id = id) ∧ ∀ job, s.checkJobs job = none
  fits
    | .check _, task => ∃ world, task.world? = some world ∧ world.Reports
    | .request _, task => ∃ request, task = .request request
  prog
    | .check id, task => task.world?.elim (.ret ⟨⟩) (checkThread id)
    | .request _, .request request => request.prog
    | .request _, _ => .ret ⟨⟩
  enter
    | .check id, .alarm _ => Store.setAlarm id none
    | _, _ => id
  others s s' := s'.schedule = s.schedule ∧ s'.robotsEvaluations = s.robotsEvaluations ∧
    ∀ id, s'.alarms id = s.alarms id ∨ s'.alarms id = none

abbrev MonitorEvents := List (PoolEvent Thread ThreadSite Store MonitorTask)

abbrev MonitorPool := Pool Thread ThreadSite Store

/-- Monitors with their objects, under requests. -/
abbrev monitorPool : System MonitorPool (PoolEvent Thread ThreadSite Store MonitorTask) :=
  poolSystem monitorTasks

end Utsuroi
