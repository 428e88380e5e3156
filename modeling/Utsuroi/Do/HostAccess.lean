import Utsuroi.Do.HostObject

/-!
# Checks that share a host

The checks of all monitors of one origin and the origin's host object.  A check (one
`runMonitorCheck`) asks for a lease once, works under it for as long as its fetches take and
calls `release` on its way out; the call reaches the object some time later.  A check that
is killed calls nothing.
-/

namespace Utsuroi

open Transition

/-- The object and the executions around it. -/
structure HostAccess where
  object : HostClock
  /-- the executions granted a lease that have not called release: their lease, granted at -/
  holding : List (LeaseId × Nat)
  /-- the release calls made so far -/
  releasing : List (LeaseId × ReleaseOutcome)
  /-- the lease ids minted so far -/
  minted : List LeaseId
  deriving DecidableEq, Repr

inductive AccessEvent
  /-- a call reaches the object -/
  | object (e : HostEvent)
  /-- the execution that holds the lease calls `limiter.release` -/
  | callRelease (leaseId : LeaseId) (outcome : ReleaseOutcome)
  /-- the execution that holds the lease is killed -/
  | kill (leaseId : LeaseId)
  deriving DecidableEq, Repr

/-- The calls among `es` that reached the object. -/
def objectEvents : List AccessEvent → List HostEvent
  | [] => []
  | .object e :: es => e :: objectEvents es
  | .callRelease _ _ :: es => objectEvents es
  | .kill _ :: es => objectEvents es

/-- What an event does to the executions. -/
def AccessEvent.apply (s : HostAccess) : AccessEvent → HostAccess
  | .object e =>
    let object : HostClock := ⟨e.time, e.apply s.object.host⟩
    match e with
    | .acquire now leaseId _ result =>
      { s with
        object := object
        holding := if result.granted then (leaseId, now) :: s.holding else s.holding
        minted := leaseId :: s.minted }
    | .release _ _ _ => { s with object := object }
  | .callRelease leaseId outcome =>
    { s with
      holding := deleteLease s.holding leaseId
      releasing := (leaseId, outcome) :: s.releasing }
  | .kill leaseId => { s with holding := deleteLease s.holding leaseId }

/-- An acquire mints a new id; the object is only told releases that were called, once or
more; only an execution that holds a lease calls its release. -/
def AccessEvent.Allowed (s : HostAccess) : AccessEvent → Prop
  | .object e =>
    s.object.clock ≤ e.time ∧ e.Recorded s.object.host ∧
      match e with
      | .acquire _ leaseId _ _ => leaseId ∉ s.minted
      | .release _ leaseId outcome => (leaseId, outcome) ∈ s.releasing
  | .callRelease leaseId _ => leaseId ∈ s.holding.map Prod.fst
  | .kill leaseId => leaseId ∈ s.holding.map Prod.fst

def accessSystem : System HostAccess AccessEvent where
  init s := s.object.host = emptyState ∧ s.holding = [] ∧ s.releasing = [] ∧ s.minted = []
  step s e s' := e.Allowed s ∧ s' = e.apply s

/-- What the object is called is a run of the object. -/
theorem accessSystem_object {C : StepCond HostAccess AccessEvent} {es : List AccessEvent}
    {s : HostAccess} (h : accessSystem.Run C es s) :
    hostSystem.Run anyStep (objectEvents es) s.object := by
  induction h with
  | start hinit => exact .start hinit.1
  | @next es s s' e _ hstep _ ih =>
    obtain ⟨hallowed, rfl⟩ := hstep
    cases e with
    | object e =>
      obtain ⟨hclock, hrec, _⟩ := hallowed
      refine .next ih ⟨hclock, hrec, ?_⟩ trivial
      cases e <;> rfl
    | callRelease leaseId outcome => exact ih
    | kill leaseId => exact ih

end Utsuroi
