import Mathlib.Algebra.Ring.Nat
import Utsuroi.Framework.Run
import Utsuroi.Shared.Types

/-!
# The host object

One object per origin hands out leases: a minimum interval between grants, a bound on
concurrent leases, a back-off after failures and a circuit breaker.  Each call runs alone
(the object's storage awaits let no other call in), so a call is a function of the stored
state.  Times are epoch milliseconds.
-/

namespace Utsuroi

def MIN_ACCESS_INTERVAL_MS : Nat := 10000
def MAX_CONCURRENT_LEASES : Nat := 2
def LEASE_TTL_MS : Nat := 60000
def CIRCUIT_BREAKER_THRESHOLD : Nat := 5
def CIRCUIT_OPEN_MS : Nat := 5 * 60000
def BASE_BACKOFF_MS : Nat := 10000
def MAX_BACKOFF_MS : Nat := 5 * 60000

/-- A lease id (`crypto.randomUUID()`); ids are only compared. -/
abbrev LeaseId := Nat

structure HostState where
  /-- lease id and the time it was granted at -/
  activeLeases : List (LeaseId × Nat)
  lastAcquireAt : Option Nat
  nextAllowedAt : Option Nat
  failureStreak : Nat
  circuitOpenUntil : Option Nat
  halfOpenProbeLeaseId : Option LeaseId
  deriving DecidableEq, Repr

def emptyState : HostState where
  activeLeases := []
  lastAcquireAt := none
  nextAllowedAt := none
  failureStreak := 0
  circuitOpenUntil := none
  halfOpenProbeLeaseId := none

def backoffMsFor (failureStreak : Nat) : Nat :=
  if failureStreak = 0 then 0
  else min MAX_BACKOFF_MS (BASE_BACKOFF_MS * 2 ^ (failureStreak - 1))

structure HostLeaseResult where
  granted : Bool
  leaseId : Option LeaseId
  retryAfterMs : Option Nat
  deriving DecidableEq, Repr

/-- What a check reports about its fetch when it releases its lease. -/
structure ReleaseOutcome where
  failureClass : Option FailureClass
  retryAfterSeconds : Option Nat
  deriving DecidableEq, Repr

/-- A lease of this age is expired. -/
def leaseExpired (now : Nat) (lease : LeaseId × Nat) : Bool :=
  decide (LEASE_TTL_MS ≤ now - lease.2)

def expireStaleLeases (state : HostState) (now : Nat) : HostState :=
  { state with
    activeLeases := state.activeLeases.filter fun lease => !leaseExpired now lease
    -- an expired probe frees the half-open slot
    halfOpenProbeLeaseId :=
      if state.activeLeases.any fun lease =>
          leaseExpired now lease && decide (state.halfOpenProbeLeaseId = some lease.1)
      then none
      else state.halfOpenProbeLeaseId }

/-- `delete state.activeLeases[leaseId]` -/
def deleteLease (leases : List (LeaseId × Nat)) (leaseId : LeaseId) : List (LeaseId × Nat) :=
  leases.filter fun lease => decide (lease.1 ≠ leaseId)

/-- `state.activeLeases[leaseId] = now` -/
def putLease (leases : List (LeaseId × Nat)) (leaseId : LeaseId) (now : Nat) :
    List (LeaseId × Nat) :=
  deleteLease leases leaseId ++ [(leaseId, now)]

def leaseGranted (leaseId : LeaseId) : HostLeaseResult := ⟨true, some leaseId, none⟩

def leaseDenied (retryAfterMs : Nat) : HostLeaseResult := ⟨false, none, some retryAfterMs⟩

/-- The earliest time the interval and the back-off allow another grant. -/
def earliestNext (state : HostState) : Nat :=
  max (state.lastAcquireAt.elim 0 (· + MIN_ACCESS_INTERVAL_MS)) (state.nextAllowedAt.getD 0)

/-- `leaseId` is the id minted for the lease should it be granted.  The second component is
the state left in storage: the denial of an open breaker saves nothing. -/
def acquireLease (now : Nat) (leaseId : LeaseId) (stored : HostState) :
    HostLeaseResult × HostState :=
  let state := expireStaleLeases stored now
  match state.circuitOpenUntil with
  | some openUntil =>
    if now < openUntil then (leaseDenied (openUntil - now), stored)
    else if state.halfOpenProbeLeaseId ≠ none then (leaseDenied MIN_ACCESS_INTERVAL_MS, state)
    else
      (leaseGranted leaseId,
        { state with
          activeLeases := putLease state.activeLeases leaseId now
          lastAcquireAt := some now
          halfOpenProbeLeaseId := some leaseId
          circuitOpenUntil := none })
  | none =>
    if MAX_CONCURRENT_LEASES ≤ state.activeLeases.length then
      (leaseDenied MIN_ACCESS_INTERVAL_MS, state)
    else if now < earliestNext state then (leaseDenied (earliestNext state - now), state)
    else
      (leaseGranted leaseId,
        { state with
          activeLeases := putLease state.activeLeases leaseId now
          lastAcquireAt := some now })

/-- How long a failed release makes the host wait. -/
def releaseWaitMs (failureStreak : Nat) (outcome : ReleaseOutcome) : Nat :=
  match outcome.failureClass, outcome.retryAfterSeconds with
  | some .http429, some retryAfterSeconds =>
    max (backoffMsFor failureStreak) (retryAfterSeconds * 1000)
  | _, _ => backoffMsFor failureStreak

def releaseLease (now : Nat) (leaseId : LeaseId) (outcome : ReleaseOutcome)
    (stored : HostState) : HostState :=
  let state :=
    { stored with
      activeLeases := deleteLease stored.activeLeases leaseId
      halfOpenProbeLeaseId :=
        if stored.halfOpenProbeLeaseId = some leaseId then none
        else stored.halfOpenProbeLeaseId }
  match outcome.failureClass with
  | some .executorUnavailable => state
  | none => { state with failureStreak := 0, circuitOpenUntil := none, nextAllowedAt := none }
  | some _ =>
    let failureStreak := state.failureStreak + 1
    { state with
      failureStreak := failureStreak
      nextAllowedAt := some (now + releaseWaitMs failureStreak outcome)
      circuitOpenUntil :=
        if CIRCUIT_BREAKER_THRESHOLD ≤ failureStreak then some (now + CIRCUIT_OPEN_MS)
        else state.circuitOpenUntil }

/-! ## Runs of one object -/

/-- A call with the time it came at and, for an acquire, whether it found the breaker
open or half-open and what it was answered. -/
inductive HostEvent
  | acquire (now : Nat) (leaseId : LeaseId) (fromOpen : Bool) (result : HostLeaseResult)
  | release (now : Nat) (leaseId : LeaseId) (outcome : ReleaseOutcome)
  deriving DecidableEq, Repr

def HostEvent.time : HostEvent → Nat
  | .acquire now _ _ _ => now
  | .release now _ _ => now

/-- The object with the clock of its last call. -/
structure HostClock where
  clock : Nat
  host : HostState
  deriving DecidableEq, Repr

/-- What a call does to the stored state. -/
def HostEvent.apply : HostEvent → HostState → HostState
  | .acquire now leaseId _ _, host => (acquireLease now leaseId host).2
  | .release now leaseId outcome, host => releaseLease now leaseId outcome host

/-- The event tells what the call really answered. -/
def HostEvent.Recorded : HostEvent → HostState → Prop
  | .acquire now leaseId fromOpen result, host =>
    fromOpen = host.circuitOpenUntil.isSome ∧ result = (acquireLease now leaseId host).1
  | .release _ _ _, _ => True

/-- Calls come one at a time on a clock that never goes back. -/
def hostSystem : Transition.System HostClock HostEvent where
  init c := c.host = emptyState
  step c e c' :=
    c.clock ≤ e.time ∧ e.Recorded c.host ∧ c' = ⟨e.time, e.apply c.host⟩

theorem hostSystem_start : hostSystem.Run Transition.anyStep [] ⟨0, emptyState⟩ := .start rfl

/-! ## Replaying calls -/

inductive HostCall
  | acquire (now : Nat) (leaseId : LeaseId)
  | release (now : Nat) (leaseId : LeaseId) (outcome : ReleaseOutcome)
  deriving DecidableEq, Repr

def HostCall.time : HostCall → Nat
  | .acquire now _ => now
  | .release now _ _ => now

/-- The event of a call that finds the object in state `host`. -/
def HostCall.event (host : HostState) : HostCall → HostEvent
  | .acquire now leaseId =>
    .acquire now leaseId host.circuitOpenUntil.isSome (acquireLease now leaseId host).1
  | .release now leaseId outcome => .release now leaseId outcome

/-- The run of `calls`, oldest call first, continuing the history `es`. -/
def replay : List HostCall → List HostEvent → HostClock → List HostEvent × HostClock
  | [], es, c => (es, c)
  | call :: calls, es, c =>
    let e := call.event c.host
    replay calls (e :: es) ⟨e.time, e.apply c.host⟩

theorem HostCall.recorded (host : HostState) (call : HostCall) :
    (call.event host).Recorded host := by
  cases call with
  | acquire now leaseId => exact ⟨rfl, rfl⟩
  | release now leaseId outcome => trivial

/-- Every call of the replay meets `C` when it comes. -/
def ReplayMeets (C : Transition.StepCond HostClock HostEvent) :
    List HostCall → List HostEvent → HostClock → Prop
  | [], _, _ => True
  | call :: calls, es, c =>
    let e := call.event c.host
    C es c e ∧ ReplayMeets C calls (e :: es) ⟨e.time, e.apply c.host⟩

/-- Calls at non-decreasing times replay to a run of the object. -/
theorem replay_run_of_meets {C : Transition.StepCond HostClock HostEvent}
    {es : List HostEvent} {c : HostClock} (calls : List HostCall) (h : hostSystem.Run C es c)
    (hsorted : (c.clock :: calls.map HostCall.time).Pairwise (· ≤ ·))
    (hmeets : ReplayMeets C calls es c) :
    hostSystem.Run C (replay calls es c).1 (replay calls es c).2 := by
  induction calls generalizing es c with
  | nil => exact h
  | cons call calls ih =>
    have htime : (call.event c.host).time = call.time := by cases call <;> rfl
    obtain ⟨hhead, htail⟩ := List.pairwise_cons.mp hsorted
    obtain ⟨hC, hmeets⟩ := hmeets
    refine ih (.next h ⟨?_, call.recorded c.host, rfl⟩ hC) ?_ hmeets
    · rw [htime]
      exact hhead _ (by simp)
    · rw [htime]
      simpa using htail

theorem replay_run {es : List HostEvent} {c : HostClock} (calls : List HostCall)
    (h : hostSystem.Run Transition.anyStep es c)
    (hsorted : (c.clock :: calls.map HostCall.time).Pairwise (· ≤ ·)) :
    hostSystem.Run Transition.anyStep (replay calls es c).1 (replay calls es c).2 := by
  refine replay_run_of_meets calls h hsorted ?_
  clear h hsorted
  induction calls generalizing es c with
  | nil => trivial
  | cons call calls ih => exact ⟨trivial, ih⟩

end Utsuroi
