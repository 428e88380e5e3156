import Utsuroi.Framework.Run

/-!
# The home runner

Two loops, the tasks of the jobs and `stop` share the set of jobs in flight.  Code runs without
interruption from one await to the next; what comes next where several awaits have ended is open.
-/

namespace Utsuroi.HomeRunner

open Transition

abbrev JobId := String

structure LeasedJob where
  jobId : JobId
  fetchMode : String
  /-- `Date.parse(job.leaseExpiresAt)`, `none` for `NaN` -/
  leaseExpiresAt : Option Int
  deriving DecidableEq, Repr

structure RunnerOptions where
  concurrency : Nat
  heartbeatIntervalMs : Nat
  backoffBaseMs : Nat
  backoffMaxMs : Nat
  authBackoffMaxMs : Nat
  deriving DecidableEq, Repr

def LEASE_SAFETY_MARGIN_MS : Int := 3000

namespace RunnerOptions

/-- What the constructor's callers leave open. -/
def standard (concurrency : Nat) : RunnerOptions := ⟨concurrency, 15000, 1000, 30000, 300000⟩

def nextBackoff (o : RunnerOptions) (current : Nat) (auth : Bool) : Nat :=
  min (if current = 0 then o.backoffBaseMs else current * 2)
    (if auth then o.authBackoffMaxMs else o.backoffMaxMs)

end RunnerOptions

/-! ## States -/

/-- What the heartbeat loop waits for. -/
inductive HeartbeatAt
  | response (backoff : Nat)
  | pause (ms backoff : Nat)
  /-- nothing any more; the loop has yet to go on -/
  | resumed (backoff : Nat)
  | done
  deriving DecidableEq, Repr

/-- What the lease loop waits for. -/
inductive LeaseAt
  | firstHeartbeat
  /-- the answer to a request for `free` jobs -/
  | response (free backoff : Nat)
  | pause (ms : Nat) (onSlot : Bool) (backoff : Nat)
  | resumed (backoff : Nat)
  | done
  deriving DecidableEq, Repr

/-- How far `execute` has come. -/
inductive TaskAt
  | fetching
  | sending
  /-- it has returned or thrown; the job has yet to leave -/
  | settled
  deriving DecidableEq, Repr

structure Task where
  jobId : JobId
  phase : TaskAt
  deriving DecidableEq, Repr

/-- The coroutine that resolves `drained`. -/
inductive DrainAt
  /-- `Promise.allSettled(this.loops)`; there are none before `start` -/
  | loops (started : Bool)
  /-- the tasks that were in flight when it looked last -/
  | tasks (ids : List JobId)
  | drained
  deriving DecidableEq, Repr

inductive StopOutcome
  | drained
  | timeout
  deriving DecidableEq, Repr

/-- The call of `stop`: `outcome` is what the race has resolved to. -/
structure StopCall where
  drain : DrainAt
  outcome : Option StopOutcome
  returned : Bool
  deriving DecidableEq, Repr

/-- The fields of the runner and where its coroutines stand.  The wake-up sets hold the pauses of
the loops that pause. -/
structure RunnerState where
  inflight : List JobId
  tasks : List Task
  stopping : Bool
  maintenance : Bool
  /-- `none` before `start` -/
  heartbeatLoop : Option HeartbeatAt
  leaseLoop : Option LeaseAt
  stop : Option StopCall
  deriving DecidableEq, Repr

/-- What can be seen of the runner, or is heard by it. -/
inductive RunnerEffect
  | leaseStarted (max : Nat)
  | heartbeatSaid (maintenance : Bool)
  | dispatched (id : JobId)
  /-- the job leaves the set of jobs in flight -/
  | left (id : JobId)
  | stopCalled
  | graceOver
  | stopReturned
  deriving DecidableEq, Repr

namespace RunnerState

def init : RunnerState := ⟨[], [], false, false, none, none, none⟩

/-! ## Waking the loops -/

/-- The pauses in `slotWake` end. -/
def wakeLeaseLoop (s : RunnerState) : RunnerState :=
  match s.leaseLoop with
  | some (.pause _ true backoff) => { s with leaseLoop := some (.resumed backoff) }
  | _ => s

/-- The pauses in `stopWake` end. -/
def wakeAll (s : RunnerState) : RunnerState :=
  { s with
    heartbeatLoop :=
      match s.heartbeatLoop with
      | some (.pause _ backoff) => some (.resumed backoff)
      | loop => loop
    leaseLoop :=
      match s.leaseLoop with
      | some (.pause _ _ backoff) => some (.resumed backoff)
      | loop => loop }

def onFirstAttempt (s : RunnerState) : RunnerState :=
  match s.leaseLoop with
  | some .firstHeartbeat => { s with leaseLoop := some (.resumed 0) }
  | _ => s

/-! ## From one await to the next -/

/-- The head of the heartbeat loop. -/
def heartbeatHead (s : RunnerState) (backoff : Nat) : RunnerState :=
  if s.stopping then onFirstAttempt { s with heartbeatLoop := some .done }
  else { s with heartbeatLoop := some (.response backoff) }

/-- The heartbeat loop behind a response. -/
def heartbeatAnswered (o : RunnerOptions) (s : RunnerState) (maintenance : Bool) : RunnerState :=
  let heard := { s with maintenance := maintenance }
  let woken := if maintenance then heard else heard.wakeLeaseLoop
  { woken.onFirstAttempt with heartbeatLoop := some (.pause o.heartbeatIntervalMs 0) }

def heartbeatFailed (o : RunnerOptions) (s : RunnerState) (backoff : Nat) (auth : Bool) :
    RunnerState :=
  let next := o.nextBackoff backoff auth
  { s.onFirstAttempt with
    heartbeatLoop := some (.pause (max o.heartbeatIntervalMs next) next) }

/-- The head of the lease loop. -/
def leaseHead (o : RunnerOptions) (s : RunnerState) (backoff : Nat) :
    RunnerState × List RunnerEffect :=
  if s.stopping then ({ s with leaseLoop := some .done }, [])
  else
    let free := o.concurrency - s.inflight.length
    if free = 0 || s.maintenance then
      ({ s with leaseLoop := some (.pause 5000 true backoff) }, [])
    else ({ s with leaseLoop := some (.response free backoff) }, [.leaseStarted free])

/-- `execute` returns before its first await. -/
def skips (job : LeasedJob) (now : Int) : Bool :=
  job.fetchMode != "http" ||
    match job.leaseExpiresAt with
    | none => true
    | some expiry => decide (expiry - now - LEASE_SAFETY_MARGIN_MS ≤ 0)

def dispatch (now : Int) (s : RunnerState) (job : LeasedJob) : RunnerState :=
  { s with
    tasks := s.tasks ++ [⟨job.jobId, if skips job now then .settled else .fetching⟩]
    inflight :=
      if s.inflight.contains job.jobId then s.inflight else s.inflight ++ [job.jobId] }

/-- The lease loop behind a response. -/
def leaseAnswered (o : RunnerOptions) (s : RunnerState) (free : Nat) (now : Int)
    (jobs : List LeasedJob) : RunnerState × List RunnerEffect :=
  let taken := jobs.take free
  let (next, effects) := leaseHead o (taken.foldl (dispatch now) s) 0
  (next, taken.map (fun job => .dispatched job.jobId) ++ effects)

def leaseFailed (o : RunnerOptions) (s : RunnerState) (backoff : Nat) (auth : Bool) :
    RunnerState :=
  if s.stopping then { s with leaseLoop := some .done }
  else
    let next := o.nextBackoff backoff auth
    { s with leaseLoop := some (.pause next false next) }

/-- `execute` goes on with a job. -/
def moveTask (s : RunnerState) (id : JobId) (before after : TaskAt) : RunnerState :=
  { s with tasks := s.tasks.replace ⟨id, before⟩ ⟨id, after⟩ }

/-- The `finally` of a task. -/
def leave (s : RunnerState) (id : JobId) : RunnerState :=
  wakeLeaseLoop
    { s with
      tasks := s.tasks.erase ⟨id, .settled⟩
      inflight := s.inflight.filter fun other => other ≠ id }

def start (s : RunnerState) : RunnerState :=
  heartbeatHead { s with leaseLoop := some .firstHeartbeat } 0

/-- Until the first await; a second call returns at once and does nothing. -/
def stopCall (s : RunnerState) : RunnerState :=
  wakeAll
    { s with
      stopping := true
      stop := some ⟨.loops s.leaseLoop.isSome, none, false⟩ }

/-- The loop of the coroutine that resolves `drained`. -/
def drainHead (s : RunnerState) (call : StopCall) : RunnerState :=
  if s.inflight.length > 0 then { s with stop := some { call with drain := .tasks s.inflight } }
  else
    { s with
      stop := some { call with
        drain := .drained
        outcome := some (call.outcome.getD .drained) } }

/-- What the coroutine waits for has settled. -/
def settled (s : RunnerState) : DrainAt → Bool
  | .loops started => !started || s.heartbeatLoop == some .done && s.leaseLoop == some .done
  | .tasks ids => ids.all fun id => s.tasks.all fun task => task.jobId ≠ id
  | .drained => false

end RunnerState

/-! ## Steps -/

inductive RunnerEvent
  | start
  | heartbeatAnswered (maintenance : Bool)
  | heartbeatFailed (auth : Bool)
  | heartbeatTimer
  | heartbeatResumes
  | leaseAnswered (now : Int) (jobs : List LeasedJob)
  | leaseFailed (auth : Bool)
  | leaseTimer
  | leaseResumes
  /-- a job's fetch has ended, well or not, and its result is sent -/
  | fetched (id : JobId)
  /-- the result has been delivered or given up -/
  | sent (id : JobId)
  /-- `execute` throws -/
  | threw (id : JobId) (phase : TaskAt)
  | leaves (id : JobId)
  | stop
  | drainResumes
  | graceTimer
  | stopReturns
  deriving DecidableEq, Repr

/-- The jobs of a response. -/
def RunnerEvent.jobIds : RunnerEvent → List JobId
  | leaseAnswered _ jobs => jobs.map LeasedJob.jobId
  | _ => []

/-- What the event leads to and what is seen of it; `none` where it cannot happen. -/
def runnerStep (o : RunnerOptions) (s : RunnerState) :
    RunnerEvent → Option (RunnerState × List RunnerEffect)
  | .start => if s.heartbeatLoop = none then some (s.start, []) else none
  | .heartbeatAnswered maintenance =>
    match s.heartbeatLoop with
    | some (.response _) => some (s.heartbeatAnswered o maintenance, [.heartbeatSaid maintenance])
    | _ => none
  | .heartbeatFailed auth =>
    match s.heartbeatLoop with
    | some (.response backoff) => some (s.heartbeatFailed o backoff auth, [])
    | _ => none
  | .heartbeatTimer =>
    match s.heartbeatLoop with
    | some (.pause _ backoff) => some ({ s with heartbeatLoop := some (.resumed backoff) }, [])
    | _ => none
  | .heartbeatResumes =>
    match s.heartbeatLoop with
    | some (.resumed backoff) => some (s.heartbeatHead backoff, [])
    | _ => none
  | .leaseAnswered now jobs =>
    match s.leaseLoop with
    | some (.response free _) => some (s.leaseAnswered o free now jobs)
    | _ => none
  | .leaseFailed auth =>
    match s.leaseLoop with
    | some (.response _ backoff) => some (s.leaseFailed o backoff auth, [])
    | _ => none
  | .leaseTimer =>
    match s.leaseLoop with
    | some (.pause _ _ backoff) => some ({ s with leaseLoop := some (.resumed backoff) }, [])
    | _ => none
  | .leaseResumes =>
    match s.leaseLoop with
    | some (.resumed backoff) => some (s.leaseHead o backoff)
    | _ => none
  | .fetched id =>
    if ⟨id, .fetching⟩ ∈ s.tasks then some (s.moveTask id .fetching .sending, []) else none
  | .sent id =>
    if ⟨id, .sending⟩ ∈ s.tasks then some (s.moveTask id .sending .settled, []) else none
  | .threw id phase =>
    if ⟨id, phase⟩ ∈ s.tasks ∧ phase ≠ .settled then some (s.moveTask id phase .settled, [])
    else none
  | .leaves id => if ⟨id, .settled⟩ ∈ s.tasks then some (s.leave id, [.left id]) else none
  | .stop => if s.stop = none then some (s.stopCall, [.stopCalled]) else none
  | .drainResumes =>
    match s.stop with
    | some call => if s.settled call.drain then some (s.drainHead call, []) else none
    | none => none
  | .graceTimer =>
    match s.stop with
    | some call =>
      if call.outcome = none then
        some ({ s with stop := some { call with outcome := some .timeout } }, [.graceOver])
      else none
    | none => none
  | .stopReturns =>
    match s.stop with
    | some call =>
      if call.outcome ≠ none ∧ call.returned = false then
        some ({ s with stop := some { call with returned := true } }, [.stopReturned])
      else none
    | none => none

/-- The runner and all that has been seen of it, oldest first. -/
def runnerSystem (o : RunnerOptions) :
    System (RunnerState × List RunnerEffect) RunnerEvent where
  init s := s = (.init, [])
  step s e s' := ∃ effects, runnerStep o s.1 e = some (s'.1, effects) ∧ s'.2 = s.2 ++ effects

end Utsuroi.HomeRunner
