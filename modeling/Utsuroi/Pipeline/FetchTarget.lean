import Utsuroi.Fetch.Http
import Utsuroi.Pipeline.Requests

/-!
# The fetch of one target

Each attempt is recorded.  All fetches of a check share the time that may be spent waiting for
fetchers whose runner has to ask for its jobs, and what is known of fetchers without an executor.
-/

namespace Utsuroi

/-- What a check may wait for pull fetchers in all. -/
def PULL_WAIT_BUDGET_MS : Int := 55000

def MIN_PULL_WAIT_MS : Int := 5000

structure PullLimits where
  leaseWaitMs : Int
  resultWaitMs : Int
  deriving DecidableEq, Repr

/-- What `runFetcher` resolves to, and how far it has moved the clock. -/
structure FetcherAnswer where
  outcome : HttpOutcome
  durationMs : Nat
  executorJobId : Option String
  elapsedMs : Nat
  deriving DecidableEq, Repr

/-- What the attempts of one fetch meet, attempt by attempt. -/
structure FetchWorld where
  runFetcher : Nat → String → Option PullLimits → FetcherAnswer
  /-- how far the clock moves where no fetcher is run -/
  idleMs : Nat → Nat
  /-- `crypto.randomUUID` -/
  attemptIds : Nat → String
  /-- `createCheckAttempt` resolves -/
  recorded : Nat → Bool

/-- A row of `check_attempts`. -/
structure CheckAttempt where
  id : String
  checkJobId : String
  targetId : String
  fetcherId : String
  attemptIndex : Nat
  ok : Bool
  failureClass : Option FailureClass
  statusCode : Option Nat
  durationMs : Option Nat
  errorMessage : Option String
  executorJobId : Option String
  deriving DecidableEq, Repr

/-- A call of `runFetcher` with the budget that remained then. -/
structure Invocation where
  fetcherId : String
  remainingMs : Int
  submitLimits : Option PullLimits
  answer : FetcherAnswer
  deriving DecidableEq, Repr

/-- The fields of `ctx` that are shared by the fetches of a check, and the variables of one fetch. -/
structure FetchState where
  pullWaitUsedMs : Nat
  unavailableFetchers : List String
  attemptIndex : Nat
  lastAttemptId : Option String
  /-- the attempts this fetch has recorded -/
  attempts : List CheckAttempt
  /-- what the check has invoked, oldest first -/
  invocations : List Invocation
  deriving DecidableEq, Repr

/-- The target of a fetch and the job it belongs to. -/
structure FetchedTarget where
  checkJobId : String
  targetId : String
  deriving DecidableEq, Repr

def isPull (fetcherId : String) : Bool := PULL_FETCHER_IDS.contains fetcherId

namespace HttpOutcome

def isUnavailable : HttpOutcome → Bool
  | .success .. => false
  | .failure failureClass .. => failureClass == .executorUnavailable

def status? : HttpOutcome → Option Nat
  | .success status .. => some status
  | .failure _ status .. => status

def failureClass? : HttpOutcome → Option FailureClass
  | .success .. => none
  | .failure failureClass .. => some failureClass

def message? : HttpOutcome → Option String
  | .success .. => none
  | .failure _ _ message _ => some message

end HttpOutcome

namespace FetchState

def remainingMs (s : FetchState) : Int := PULL_WAIT_BUDGET_MS - s.pullWaitUsedMs

def leaseWaitMs (s : FetchState) : Int := min 10000 (s.remainingMs / 5)

def submitLimits (s : FetchState) (fetcherId : String) : Option PullLimits :=
  if isPull fetcherId then some ⟨s.leaseWaitMs, min 40000 (s.remainingMs - s.leaseWaitMs)⟩ else none

/-- Why the fetcher is not run. -/
def refusal (s : FetchState) (fetcherId : String) : Option HttpOutcome :=
  if s.unavailableFetchers.contains fetcherId then
    some (.failure .executorUnavailable none
      (fetcherId ++ ": executor was unavailable earlier in this check") none)
  else if isPull fetcherId && decide (s.remainingMs < MIN_PULL_WAIT_MS) then
    some (.failure .executorUnavailable none
      (fetcherId ++ ": wait budget for this check is exhausted") none)
  else none

/-- The time of an attempt and what its outcome says of the executor. -/
def noteOutcome (s : FetchState) (fetcherId : String) (answer : FetcherAnswer) : FetchState :=
  { s with
    attemptIndex := s.attemptIndex + 1
    pullWaitUsedMs :=
      if isPull fetcherId then s.pullWaitUsedMs + answer.elapsedMs else s.pullWaitUsedMs
    unavailableFetchers :=
      if answer.outcome.isUnavailable then s.unavailableFetchers ++ [fetcherId]
      else s.unavailableFetchers }

end FetchState

def attemptRow (target : FetchedTarget) (id fetcherId : String) (index : Nat)
    (answer : FetcherAnswer) : CheckAttempt where
  id := id
  checkJobId := target.checkJobId
  targetId := target.targetId
  fetcherId := fetcherId
  attemptIndex := index
  ok := answer.outcome.failureClass?.isNone
  failureClass := answer.outcome.failureClass?
  statusCode := answer.outcome.status?
  durationMs := if answer.outcome.failureClass?.isNone then some answer.durationMs else none
  errorMessage := answer.outcome.message?
  executorJobId := answer.executorJobId

section Fetch

variable (world : FetchWorld) (target : FetchedTarget)

/-- The answer of an attempt, and the state once its outcome is noted. -/
def attempt (s : FetchState) (fetcherId : String) : FetcherAnswer × FetchState :=
  match s.refusal fetcherId with
  | some outcome =>
    let answer : FetcherAnswer := ⟨outcome, 0, none, world.idleMs s.attemptIndex⟩
    (answer, s.noteOutcome fetcherId answer)
  | none =>
    let limits := s.submitLimits fetcherId
    let answer := world.runFetcher s.attemptIndex fetcherId limits
    let invocation : Invocation := ⟨fetcherId, s.remainingMs, limits, answer⟩
    (answer, { s.noteOutcome fetcherId answer with invocations := s.invocations ++ [invocation] })

/-- `executeFetcher`; `none` when the attempt could not be recorded. -/
def executeFetcher (s : FetchState) (fetcherId : String) : Option HttpOutcome × FetchState :=
  let answer := (attempt world s fetcherId).1
  let noted := (attempt world s fetcherId).2
  let id := world.attemptIds s.attemptIndex
  if world.recorded s.attemptIndex then
    (some answer.outcome,
      { noted with
        lastAttemptId := some id
        attempts := noted.attempts ++ [attemptRow target id fetcherId s.attemptIndex answer] })
  else (none, { noted with lastAttemptId := some id })

/-- The state after the fetchers have been executed one after the other. -/
def replayFetchers (s : FetchState) (fetcherIds : List String) : FetchState :=
  fetcherIds.foldl (fun s fetcherId => (executeFetcher world target s fetcherId).2) s

/-- `executeFetcher` as the sequence sees it: the state is what its calls so far have made of it. -/
def targetBehaviour (s : FetchState) : FetcherBehaviour := fun executions fetcherId =>
  (executeFetcher world target (replayFetchers world target s (executions.map Execution.fetcherId))
    fetcherId).1.map HttpOutcome.toFetchOutcome

structure FetchTargetResult where
  outcome : FetchOutcome
  lastAttemptId : Option String
  deriving DecidableEq, Repr

def fetchTargetThroughPolicy (policy : FetcherPolicy) (s : FetchState) :
    Except SequenceError FetchTargetResult × FetchState :=
  let start := { s with attemptIndex := 0, lastAttemptId := none, attempts := [] }
  let (result, log) := runFetchSequence targetOpts (targetBehaviour world target start) policy
  let after := replayFetchers world target start (log.executions.map Execution.fetcherId)
  (result.map fun result => ⟨result.outcome, after.lastAttemptId⟩, after)

end Fetch

/-! ## The fetches of a check -/

/-- `ctx` when the check starts. -/
def FetchState.init : FetchState := ⟨0, [], 0, none, [], []⟩

/-- The states after each fetch of a check: the source's, and those of the child sitemaps. -/
def fetchTargets (policy : FetcherPolicy) :
    List (FetchWorld × FetchedTarget) → FetchState → List FetchState
  | [], _ => []
  | (world, target) :: rest, s =>
    let after := (fetchTargetThroughPolicy world target policy s).2
    after :: fetchTargets policy rest after

end Utsuroi
