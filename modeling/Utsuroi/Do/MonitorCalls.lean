import Mathlib.Tactic
import Utsuroi.Do.MonitorRequests

/-!
# What the threads of a monitor do

Each call of a check or a handler with its effect, and where in its task it may come.
-/

namespace Utsuroi

open Async Prog Transition

/-- The calls of a check, newest first. -/
abbrev RunLog := List (Prog.Call RunSite Store)

abbrev ThreadLog := List (Prog.Call ThreadSite Store)

/-- Rows are found under their own ids. -/
structure Store.IdsMatch (s : Store) : Prop where
  monitor : ∀ id row, s.monitors id = some row → row.id = id
  job : ∀ id row, s.checkJobs id = some row → row.id = id

/-- Monitors, jobs, evaluations and alarms are as they were. -/
def Quiet (eff : Store → Store) : Prop := ∀ s, (eff s).control = s.control

/-! ## Checks -/

/-- How a check ended that got as far. -/
inductive CheckEnd
  | deferred
  | completed
  | policyStopped
  deriving DecidableEq, Repr

/-- How far a check has got. -/
inductive CheckPhase
  | loading
  | claimed
  | running
  /-- robots.txt was evaluated -/
  | evaluated
  | closed
  | checked
  /-- the job is closed as policy-stopped -/
  | stopping
  /-- all is written but the alarm -/
  | ended (kind : CheckEnd)
  | armed (kind : CheckEnd)
  deriving DecidableEq, Repr

def CheckPhase.arm : CheckPhase → CheckPhase
  | .ended kind => .armed kind
  | phase => phase

def CheckPhase.note : Site → CheckPhase → CheckPhase
  | .insertCheckJob _, _ => .claimed
  | .updateCheckJobStatus _ .running, _ => .running
  | .createRobotsEvaluation, _ => .evaluated
  | .updateCheckJobStatus _ .pending, _ => .ended .deferred
  | .updateCheckJobStatus _ .succeeded, _ => .closed
  | .updateCheckJobStatus _ .failed, _ => .closed
  | .setMonitorLastChecked, _ => .checked
  | .setMonitorNextRun, _ => .ended .completed
  | .updateCheckJobStatus _ .policyStopped, _ => .stopping
  | .policyStopMonitor, _ => .ended .policyStopped
  | .setAlarm, phase => phase.arm
  | _, phase => phase

/-- How far the check with this log has got; its calls in the guarded region do not count. -/
def checkPhase : RunLog → CheckPhase
  | [] => .loading
  | call :: log =>
    if call.site.region = .guarded then checkPhase log else (checkPhase log).note call.site.site

/-- The first call of the check read this row. -/
def FirstRead (id : MonitorId) (monitor : MonitorRow) (log : RunLog) : Prop :=
  ∃ s, log.getLast? = some ⟨⟨.loading, .getMonitor⟩, s, .none⟩ ∧ s.monitors id = some monitor

/-- robots.txt forbids the source, and the site does not ignore it. -/
def CheckWorld.Disallowed (world : CheckWorld) : Prop :=
  world.robots.allowed = false ∧ world.robotsMode = .enforce

/-- It does so by a rule, not because it could not be fetched. -/
def CheckWorld.ExplicitlyDisallowed (world : CheckWorld) : Prop :=
  world.Disallowed ∧ world.robots.unavailable = false

/-- The check counted as many evaluations of the origin in a row that found robots.txt unavailable
as stop a monitor. -/
def CountedUnavailable (world : CheckWorld) (log : RunLog) : Prop :=
  ∃ s, ⟨⟨.unguarded, .countConsecutiveUnavailableRobotsEvaluations⟩, s, .none⟩ ∈ log ∧
    ROBOTS_UNAVAILABLE_STOP_THRESHOLD ≤
      countConsecutiveUnavailable world.origin ROBOTS_UNAVAILABLE_STOP_THRESHOLD s

/-- The job of a check that read the row. -/
def CheckWorld.jobOf (world : CheckWorld) (id : MonitorId) (monitor : MonitorRow) : CheckJobId :=
  ⟨id, world.scheduledFor monitor.nextRunAt⟩

/-- When the alarm is set after a check that ended like this. -/
def CheckWorld.alarmAfter (world : CheckWorld) (monitor : MonitorRow) : CheckEnd → Option Nat
  | .deferred => some (world.appliedNow + world.lease.retryAfterMs.getD 5000)
  | .completed => some (world.nextRunAt monitor)
  | .policyStopped => none

/-- The status with which a job is closed. -/
def Closes (status : CheckJobStatus) : Prop := status = .succeeded ∨ status = .failed

/-- What a check of a monitor may do next, once it has read the row. -/
inductive CheckEffect (id : MonitorId) (world : CheckWorld) (monitor : MonitorRow)
    (log : RunLog) : Site → (Store → Store) → Prop
  | claim (hphase : checkPhase log = .loading)
      (hstatus : skipForStatus monitor.status world.trigger = false) :
      CheckEffect id world monitor log (.insertCheckJob (world.jobOf id monitor))
        (Store.insertCheckJob (world.jobOf id monitor) world.trigger)
  | run (hphase : checkPhase log = .claimed) :
      CheckEffect id world monitor log (.updateCheckJobStatus (world.jobOf id monitor) .running)
        (Store.updateCheckJob (world.jobOf id monitor) .running)
  | evaluate (hphase : checkPhase log = .running) :
      CheckEffect id world monitor log .createRobotsEvaluation fun s =>
        { s with robotsEvaluations :=
          ⟨world.origin, world.robots.fetchedAt, world.robots.unavailable⟩ :: s.robotsEvaluations }
  | defer (hphase : checkPhase log = .evaluated) (hrobots : ¬world.Disallowed) :
      CheckEffect id world monitor log (.updateCheckJobStatus (world.jobOf id monitor) .pending)
        (Store.updateCheckJob (world.jobOf id monitor) .pending)
  | close {status : CheckJobStatus} (hstatus : Closes status)
      (hphase : checkPhase log = .running ∨
        checkPhase log = .evaluated ∧ ¬world.ExplicitlyDisallowed) :
      CheckEffect id world monitor log (.updateCheckJobStatus (world.jobOf id monitor) status)
        (Store.updateCheckJob (world.jobOf id monitor) status)
  | lastChecked (hphase : checkPhase log = .closed) :
      CheckEffect id world monitor log .setMonitorLastChecked (Store.updateMonitor id fun row =>
        { row with lastCheckedAt := some world.finishNow })
  | nextRun (hphase : checkPhase log = .checked) :
      CheckEffect id world monitor log .setMonitorNextRun (Store.updateMonitor id fun row =>
        { row with nextRunAt := some (world.nextRunAt monitor) })
  | stop (hphase : checkPhase log = .evaluated) (hrobots : world.Disallowed)
      (hcount : world.robots.unavailable = true → CountedUnavailable world log) :
      CheckEffect id world monitor log
        (.updateCheckJobStatus (world.jobOf id monitor) .policyStopped)
        (Store.updateCheckJob (world.jobOf id monitor) .policyStopped)
  | policyStop {evaluationId : Nat} (hphase : checkPhase log = .stopping)
      (hrobots : world.Disallowed)
      (hcount : world.robots.unavailable = true → CountedUnavailable world log) :
      CheckEffect id world monitor log .policyStopMonitor (Store.updateMonitor id fun row =>
        { row with
          status := .blockedByRobots
          stopReason := some (robotsStopReason world.robots.matchedRule)
          robotsEvaluationId := some evaluationId
          nextRunAt := none })
  | arm {kind : CheckEnd} (hphase : checkPhase log = .ended kind) :
      CheckEffect id world monitor log .setAlarm (Store.setAlarm id (world.alarmAfter monitor kind))

/-- The call is none of those by which a check gets on. -/
def Site.idle (site : Site) : Prop := ∀ phase : CheckPhase, phase.note site = phase

/-- The calls of a check. -/
inductive CheckCall (id : MonitorId) (world : CheckWorld) (log : RunLog) :
    Option RunSite → (Store → Store) → Prop
  | quiet {site : RunSite} {eff : Store → Store} (hquiet : Quiet eff)
      (hsite : site.region = .guarded ∨ site.site.idle) :
      CheckCall id world log (some site) eff
  | silent {eff : Store → Store} (hquiet : Quiet eff) : CheckCall id world log none eff
  | effect {monitor : MonitorRow} {region : Region} {site : Site} {eff : Store → Store}
      (hread : FirstRead id monitor log) (hregion : region ≠ .guarded)
      (heffect : CheckEffect id world monitor log site eff) :
      CheckCall id world log (some ⟨region, site⟩) eff

/-- The last call was disturbed. -/
def Cut {ι : Type} : List (Prog.Call ι Store) → Prop
  | [] => False
  | call :: _ => call.fault ≠ .none

/-- robots.txt was not evaluated yet. -/
def CheckPhase.early : CheckPhase → Prop
  | .loading | .claimed | .running => True
  | _ => False

/-- How a check that threw has got on: by itself it throws only where no rule stops it. -/
def CheckThrown (world : CheckWorld) (log : RunLog) : Prop :=
  Cut log ∨ ¬world.ExplicitlyDisallowed ∨ (checkPhase log).early

/-- How a check that returned has got on. -/
def CheckReturned (log : RunLog) : Prop :=
  checkPhase log = .loading ∨ checkPhase log = .claimed ∨ ∃ kind, checkPhase log = .armed kind

/-! ## Requests -/

/-- How far a resume request has got. -/
inductive ResumePhase
  | opening
  | activated
  /-- the object has read this `next_run_at` -/
  | found (nextRunAt : Option Nat)
  | scheduled
  | armed
  | answered
  deriving DecidableEq, Repr

def ResumePhase.note (id : MonitorId) (call : Prog.Call ThreadSite Store) (phase : ResumePhase) :
    ResumePhase :=
  match call.site with
  | .object (.updateMonitorStatus _) => .activated
  | .object .getMonitor => .found ((call.before.monitors id).bind MonitorRow.nextRunAt)
  | .object .setMonitorNextRun => .scheduled
  | .object .setAlarm => .armed
  | .route (.updateMonitorStatus _) => .answered
  | _ => phase

def resumePhase (id : MonitorId) : ThreadLog → ResumePhase
  | [] => .opening
  | call :: log => (resumePhase id log).note id call

/-- How far a PATCH request has got, and the row that it has read. -/
inductive PatchPhase
  | opening
  | found (monitor : MonitorRow)
  /-- the interval is written -/
  | changed (monitor : MonitorRow)
  /-- `next_run_at` is written -/
  | moved (monitor : MonitorRow)
  | armed (monitor : MonitorRow)
  | audited (monitor : MonitorRow)
  deriving DecidableEq, Repr

def PatchPhase.monitor? : PatchPhase → Option MonitorRow
  | .opening => none
  | .found monitor | .changed monitor | .moved monitor | .armed monitor | .audited monitor =>
    some monitor

/-- Only the first read counts. -/
def PatchPhase.note (id : MonitorId) (call : Prog.Call ThreadSite Store) (phase : PatchPhase) :
    PatchPhase :=
  match phase.monitor?, call.site with
  | none, .route .getMonitor => (call.before.monitors id).elim .opening .found
  | some monitor, .route .updateMonitorInterval => .changed monitor
  | some monitor, .route .setMonitorNextRun => .moved monitor
  | some monitor, .object .setAlarm => .armed monitor
  | some monitor, .route .recordAuditEvent => .audited monitor
  | _, _ => phase

def patchPhase (id : MonitorId) : ThreadLog → PatchPhase
  | [] => .opening
  | call :: log => (patchPhase id log).note id call

section Requests

variable (id : MonitorId) (log : ThreadLog)

inductive PauseCall : ThreadSite → (Store → Store) → Prop
  | quiet {site : ThreadSite} {eff : Store → Store} (hquiet : Quiet eff) : PauseCall site eff
  | disarm : PauseCall (.object .setAlarm) (Store.setAlarm id none)
  | pause {site : ThreadSite} (hsite : site = .object (.updateMonitorStatus .paused) ∨
      site = .route (.updateMonitorStatus .paused)) :
      PauseCall site (Store.updateMonitor id fun row =>
        { row with status := .paused, stopReason := none, robotsEvaluationId := none })

inductive ResumeCall (now : Nat) : ThreadSite → (Store → Store) → Prop
  | quiet {site : ThreadSite} {eff : Store → Store} (hquiet : Quiet eff)
      (hphase : resumePhase id log = .opening ∨ resumePhase id log = .answered)
      (hidle : ∀ s fault, (resumePhase id log).note id ⟨site, s, fault⟩ = resumePhase id log) :
      ResumeCall now site eff
  | activate (hphase : resumePhase id log = .opening) :
      ResumeCall now (.object (.updateMonitorStatus .active)) (Store.updateMonitor id fun row =>
        { row with status := .active, stopReason := none, robotsEvaluationId := none })
  | read {eff : Store → Store} (hquiet : Quiet eff) (hphase : resumePhase id log = .activated) :
      ResumeCall now (.object .getMonitor) eff
  | setNextRun (hphase : resumePhase id log = .found none) :
      ResumeCall now (.object .setMonitorNextRun) (Store.updateMonitor id fun row =>
        { row with nextRunAt := some now })
  | arm {time : Nat} (hphase : resumePhase id log = .found (some time) ∨
      resumePhase id log = .scheduled ∧ time = now) :
      ResumeCall now (.object .setAlarm) (Store.setAlarm id (some time))
  | answer (hphase : resumePhase id log = .armed) :
      ResumeCall now (.route (.updateMonitorStatus .active)) (Store.updateMonitor id fun row =>
        { row with status := .active, stopReason := none, robotsEvaluationId := none })

inductive PatchCall (intervalSeconds now : Nat) : ThreadSite → (Store → Store) → Prop
  | read {eff : Store → Store} (hquiet : Quiet eff) (hphase : patchPhase id log = .opening) :
      PatchCall intervalSeconds now (.route .getMonitor) eff
  | quiet {site : ThreadSite} {eff : Store → Store} (hquiet : Quiet eff)
      (hidle : ∀ s fault, (patchPhase id log).note id ⟨site, s, fault⟩ = patchPhase id log) :
      PatchCall intervalSeconds now site eff
  | change {monitor : MonitorRow} (hphase : patchPhase id log = .found monitor) :
      PatchCall intervalSeconds now (.route .updateMonitorInterval)
        (Store.updateMonitor id fun row => { row with intervalSeconds })
  | move {monitor : MonitorRow} {candidate : Nat} (hphase : patchPhase id log = .changed monitor)
      (hcandidate : rescheduledTo monitor intervalSeconds now = some candidate) :
      PatchCall intervalSeconds now (.route .setMonitorNextRun)
        (Store.updateMonitor id fun row => { row with nextRunAt := some candidate })
  | arm {monitor : MonitorRow} {candidate : Nat} (hphase : patchPhase id log = .moved monitor)
      (hcandidate : rescheduledTo monitor intervalSeconds now = some candidate) :
      PatchCall intervalSeconds now (.object .setAlarm) (Store.setAlarm id (some candidate))
  | audit {eff : Store → Store} {monitor : MonitorRow} (hquiet : Quiet eff)
      (hphase : patchPhase id log = .armed monitor ∨ patchPhase id log = .changed monitor ∧
        rescheduledTo monitor intervalSeconds now = none) :
      PatchCall intervalSeconds now (.route .recordAuditEvent) eff

inductive ReconcileCall : ThreadSite → (Store → Store) → Prop
  | quiet {site : ThreadSite} {eff : Store → Store} (hquiet : Quiet eff) : ReconcileCall site eff
  | arm {time : Option Nat} : ReconcileCall (.object .setAlarm) (Store.setAlarm id time)

end Requests

/-- What a request may do next. -/
def RequestCall (log : ThreadLog) : MonitorRequest → ThreadSite → (Store → Store) → Prop
  | .pause id => PauseCall id
  | .resume id now => ResumeCall id log now
  | .patch id intervalSeconds now => PatchCall id log intervalSeconds now
  | .reconcile id _ => ReconcileCall id

/-- How a request that returned has got on. -/
def RequestReturned (log : ThreadLog) : MonitorRequest → Prop
  | .resume id _ => resumePhase id log = .answered
  | .patch id _ _ => ∃ monitor, patchPhase id log = .audited monitor
  | _ => True

/-- How a request that threw has got on. -/
def RequestThrown (log : ThreadLog) : MonitorRequest → Prop
  | .resume id _ => resumePhase id log = .opening ∨ Cut log
  | _ => True

/-! ## The conditions of all tasks -/

def ThreadSite.run? : ThreadSite → Option RunSite
  | .check site => some site
  | _ => none

/-- The calls of a check as its own. -/
def runLog (log : ThreadLog) : RunLog :=
  log.filterMap fun call => call.site.run?.map fun site => ⟨site, call.before, call.fault⟩

inductive CheckThreadCall (id : MonitorId) (world : CheckWorld) (log : ThreadLog) :
    Option ThreadSite → (Store → Store) → Prop
  | run {site : Option RunSite} {eff : Store → Store}
      (h : CheckCall id world (runLog log) site eff) :
      CheckThreadCall id world log (site.map .check) eff

/-- What a thread does with each of its tasks. -/
def monitorConds : TaskConds Thread ThreadSite Store MonitorTask where
  inv := Store.IdsMatch
  cond
    | .check id, task, log, site, eff =>
      ∃ world, task.world? = some world ∧ CheckThreadCall id world log site eff
    | .request _, .request request, log, site, eff =>
      ∃ site', site = some site' ∧ RequestCall log request site' eff
    | .request _, _, _, _, _ => False
  ret
    | .check _, _, log => CheckReturned (runLog log)
    | .request _, .request request, log => RequestReturned log request
    | .request _, _, _ => False
  thrown
    | .check _, task, log => ∃ world, task.world? = some world ∧ CheckThrown world (runLog log)
    | .request _, .request request, log => RequestThrown log request
    | .request _, _, _ => False

end Utsuroi
