import Utsuroi.Db.Items
import Utsuroi.Db.Jobs
import Utsuroi.Do.HostObject
import Utsuroi.Framework.Frame
import Utsuroi.Pipeline.Types

/-!
# One check of a monitor

`runMonitorCheck` claims the job of its slot, checks the source URL, robots.txt and the
host, fetches and processes the document and closes the job.  Only the middle is under a
try: each call is labelled with the part of the function that awaits it.
-/

namespace Utsuroi

open Async

def ROBOTS_UNAVAILABLE_STOP_THRESHOLD : Nat := 3

/-- The parts of `runMonitorCheck`, by what they leave of its job. -/
inductive Region
  /-- before the job is marked running, and after the function -/
  | loading
  /-- the write of `running` -/
  | starting
  /-- the job is running -/
  | unguarded
  /-- the write of `pending` of a run that is deferred -/
  | deferring
  /-- the job is running, and what is thrown is caught -/
  | guarded
  /-- the write of a terminal status -/
  | closing
  /-- the job is closed and `next_run_at` is its slot -/
  | closed
  /-- the write of `next_run_at` -/
  | moving
  deriving DecidableEq, Repr

structure RunSite where
  region : Region
  site : Site
  deriving DecidableEq, Repr

abbrev RunProg := Prog RunSite Store

def inRegion {α : Type} (region : Region) (p : Prog Site Store α) : RunProg α :=
  p.relabel (RunSite.mk region)

/-- What schedules a monitor. -/
def Store.schedule (store : Store) :
    (MonitorId → Option MonitorRow) × (CheckJobId → Option CheckJobRow) :=
  (store.monitors, store.checkJobs)

/-- What a check does to monitors beside reporting what it found. -/
def Store.control (store : Store) :
    ((MonitorId → Option MonitorRow) × (CheckJobId → Option CheckJobRow)) ×
      List RobotsEvaluationRow × (MonitorId → Option Nat) :=
  (store.schedule, store.robotsEvaluations, store.alarms)

/-- A part of a check that leaves the schedule alone. -/
structure ContentProg (α : Type) where
  prog : Prog Site Store α
  frames : prog.Frames Store.schedule

structure ContentInput where
  target : TargetRow
  previousSnapshot : Option SnapshotRow
  outcome : FetchSuccess
  body : List UInt8
  deriving DecidableEq, Repr

/-- What a run is called with and what the world answers it. -/
structure CheckWorld where
  trigger : Trigger
  /-- the clock when the slot is chosen -/
  now : Nat
  source : Option SourceRow
  site : Option SiteRow
  policy : Option Unit
  /-- `checkUrlForSsrf` -/
  staticSsrfAllowed : Bool
  /-- `resolveAndCheck` -/
  resolvedAllowed : Bool
  origin : String
  robotsMode : RobotsMode
  robots : RobotsDecision
  lease : HostLeaseResult
  /-- `fetchTargetThroughPolicy` with an etag and a last-modified -/
  fetchTarget : Option String → Option String → ContentProg FetchOutcome
  /-- `resolveContentProcessor(source)`; answers `ctx.changeIds` -/
  processor : CheckContext → ContentInput → ContentProg (List ChangeId)
  /-- the clock when the target was checked -/
  checkedNow : Nat
  /-- the clock when the job is closed -/
  finishNow : Nat
  random : Nat
  /-- the clock when the result is applied -/
  appliedNow : Nat

inductive CheckRunKind
  | completed
  | policyStopped
  | deferred
  | skipped
  deriving DecidableEq, Repr

structure CheckRunResult where
  kind : CheckRunKind
  nextRunAt : Option Nat
  retryAfterMs : Option Nat
  changeIds : List ChangeId
  deriving DecidableEq, Repr

/-- `random` stands for the random choice of a number below the cap. -/
def jitterMs (random intervalSeconds : Nat) : Nat :=
  let capMs := min (intervalSeconds * 100) (60 * 1000)
  if capMs = 0 then 0 else random % capMs

section Run

variable (world : CheckWorld)

/-- `next_run_at` as a finished run sets it. -/
def CheckWorld.nextRunAt (monitor : MonitorRow) : Nat :=
  world.finishNow + monitor.intervalSeconds * 1000 + jitterMs world.random monitor.intervalSeconds

/-- `'succeeded' | 'failed'` -/
inductive FinishStatus
  | succeeded
  | failed
  deriving DecidableEq, Repr

def FinishStatus.toCheckJobStatus : FinishStatus → CheckJobStatus
  | .succeeded => .succeeded
  | .failed => .failed

def finishJob (monitor : MonitorRow) (job : CheckJobId) (status : FinishStatus)
    (changeIds : List ChangeId) : RunProg CheckRunResult := do
  inRegion .closing (updateCheckJobStatus job status.toCheckJobStatus)
  inRegion .closed (setMonitorLastChecked monitor.id world.finishNow)
  let nextRunAt := world.nextRunAt monitor
  inRegion .moving (setMonitorNextRun monitor.id (some nextRunAt))
  return ⟨.completed, some nextRunAt, none, changeIds⟩

/-- What the try block found out. -/
structure CheckOutcome where
  status : FinishStatus
  changeIds : List ChangeId
  deriving DecidableEq, Repr

def fetchAndProcess (ctx : CheckContext) (target : TargetRow)
    (latestSnapshot : Option SnapshotRow) : Prog Site Store CheckOutcome := do
  let outcome ← (world.fetchTarget (latestSnapshot.bind SnapshotRow.etag)
    (latestSnapshot.bind SnapshotRow.lastModified)).prog
  match outcome with
  | .failure _ _ => return ⟨.failed, []⟩
  | .success result notModified body =>
    setTargetLastChecked target.id world.checkedNow
    match notModified, body with
    | false, some body =>
      let changeIds ← (world.processor ctx ⟨target, latestSnapshot, result, body⟩).prog
      return ⟨.succeeded, changeIds⟩
    | _, _ => return ⟨.succeeded, []⟩

/-- The check under a lease.  The try block returns the promise of `finishJob` without
awaiting it: what that throws is not caught, and the lease is released all the same. -/
def checkUnderLease (ctx : CheckContext) (job : CheckJobId) (target : TargetRow)
    (latestSnapshot : Option SnapshotRow) : RunProg CheckRunResult :=
  Prog.tryFinally
    (do
      let outcome ← Prog.tryCatch
        (inRegion .guarded (fetchAndProcess world ctx target latestSnapshot))
        (do
          let _ ← finishJob world ctx.monitor job .failed []
          .fail)
      finishJob world ctx.monitor job outcome.status outcome.changeIds)
    (inRegion .loading (.query (.release world.lease.leaseId) fun _ => ()))

def acquireAndCheck (ctx : CheckContext) (job : CheckJobId) (target : TargetRow) :
    RunProg CheckRunResult := do
  let lease ← inRegion .unguarded (.query .acquire fun _ => world.lease)
  if !lease.granted then
    inRegion .deferring (updateCheckJobStatus job .pending)
    return ⟨.deferred, ctx.monitor.nextRunAt, some (lease.retryAfterMs.getD 5000), []⟩
  else
    let latestSnapshot ← inRegion .unguarded (getLatestSnapshotForTarget target.id)
    checkUnderLease world ctx job target latestSnapshot

def robotsStopReason (matchedRule : Option String) : String :=
  if matchedRule.getD "" != "" then "robots.txt disallow: " ++ matchedRule.getD ""
  else
    "robots.txt unavailable (5xx/network error) " ++
      toString ROBOTS_UNAVAILABLE_STOP_THRESHOLD ++ " times in a row"

/-- Counted only when robots.txt was unavailable this time. -/
def consecutiveUnavailable (decision : RobotsDecision) : RunProg Nat :=
  if decision.unavailable then
    inRegion .unguarded (countConsecutiveUnavailableRobotsEvaluations world.origin
      ROBOTS_UNAVAILABLE_STOP_THRESHOLD)
  else .ret 0

def checkRobotsAndHost (ctx : CheckContext) (job : CheckJobId) (target : TargetRow) :
    RunProg CheckRunResult := do
  let robotsMode ← inRegion .unguarded (.query (.getRobotsMode world.origin) fun _ => world.robotsMode)
  let decision ← inRegion .unguarded (.query (.checkRobots world.origin ctx.source.url)
    fun _ => world.robots)
  let evaluationId ← inRegion .unguarded
    (createRobotsEvaluation ⟨world.origin, decision.fetchedAt, decision.unavailable⟩)
  if !decision.allowed && robotsMode == .enforce then
    let count ← consecutiveUnavailable world decision
    inRegion .unguarded createCheckAttempt
    if decision.unavailable && count < ROBOTS_UNAVAILABLE_STOP_THRESHOLD then
      finishJob world ctx.monitor job .failed []
    else
      inRegion .closing (updateCheckJobStatus job .policyStopped)
      inRegion .moving
        (policyStopMonitor ctx.monitor.id (robotsStopReason decision.matchedRule) evaluationId)
      return ⟨.policyStopped, none, none, []⟩
  else
    acquireAndCheck world ctx job target

/-- The name is resolved only when the URL itself is allowed. -/
def ssrfAllowed (url : Url) : RunProg Bool :=
  if world.staticSsrfAllowed then
    inRegion .unguarded (.query (.resolveAndCheck url) fun _ => world.resolvedAllowed)
  else .ret false

def checkSource (ctx : CheckContext) (job : CheckJobId) : RunProg CheckRunResult := do
  let target ← inRegion .unguarded (upsertTarget ⟨⟨ctx.monitor.id, ctx.source.url⟩, none, none⟩)
  let allowed ← ssrfAllowed world ctx.source.url
  if !allowed then
    inRegion .unguarded createCheckAttempt
    finishJob world ctx.monitor job .failed []
  else
    checkRobotsAndHost world ctx job target

def skipForStatus (status : MonitorStatus) (trigger : Trigger) : Bool :=
  status == .archived || status == .blockedByRobots || (status == .paused && trigger != .manual)

/-- `scheduled_for` of the run's job. -/
def CheckWorld.scheduledFor (nextRunAt : Option Nat) : Nat :=
  if world.trigger = .manual then world.now else nextRunAt.getD world.now

def orThrow {α : Type} : Option α → RunProg α
  | some a => pure a
  | none => .fail

def runMonitorCheck (monitorId : MonitorId) : RunProg CheckRunResult := do
  let monitor ← inRegion .loading (getMonitor monitorId)
  let monitor ← orThrow monitor
  if skipForStatus monitor.status world.trigger then
    return ⟨.skipped, monitor.nextRunAt, none, []⟩
  else
    let source ← inRegion .loading (.query .getSource fun _ => world.source)
    let source ← orThrow source
    let site ← inRegion .loading (.query .getSite fun _ => world.site)
    let site ← orThrow site
    let policy ← inRegion .loading (.query .getFetcherPolicy fun _ => world.policy)
    let _ ← orThrow policy
    let jobResult ← inRegion .loading (createCheckJobIfNew
      ⟨monitorId, world.scheduledFor monitor.nextRunAt⟩ world.trigger)
    -- a pending job is that of a deferred run, which this one continues
    if !jobResult.inserted && jobResult.row.status != .pending then
      return ⟨.skipped, monitor.nextRunAt, none, []⟩
    else
      inRegion .starting (updateCheckJobStatus jobResult.row.id .running)
      checkSource world ⟨monitor, source, site, world.now⟩ jobResult.row.id

end Run

end Utsuroi
