import Mathlib.Data.List.Dedup
import Utsuroi.Shared.Contracts

/-!
# The fetcher policy

A policy lists the fetchers a site allows and the order in which they are tried.
`runFetchSequence` tries them one after the other; a fetcher that failed for the moment is tried
again before the next one.
-/

namespace Utsuroi

structure FetcherPolicyEntry where
  fetcherId : String
  /-- with which failures the next fetcher is tried -/
  proceedOn : Option (List FailureClass)
  deriving DecidableEq, Repr

structure FetcherPolicy where
  allowList : List String
  orderList : List FetcherPolicyEntry
  deriving DecidableEq, Repr

def DEFAULT_PROCEEDABLE_FAILURES : List FailureClass :=
  [.networkError, .timeout, .http5xx, .executorUnavailable]

def NEVER_PROCEEDABLE_FAILURES : List FailureClass :=
  [.blockedByRobots, .ssrfBlocked, .notFound, .authRequired, .tooLarge, .captchaChallenge]

def TRANSIENT_RETRY_FAILURE_CLASSES : List FailureClass := [.http5xx, .networkError]

def DEFAULT_TRANSIENT_RETRIES : Nat := 2

def DEFAULT_RETRY_BACKOFF_MS : Nat := 250

/-! ## Validation -/

structure FetcherPolicyValidation where
  valid : Bool
  errors : List String
  deriving DecidableEq, Repr

namespace FetcherPolicy

variable (policy : FetcherPolicy)

def orderCount (fetcherId : String) : Nat :=
  (policy.orderList.map FetcherPolicyEntry.fetcherId).count fetcherId

def emptyErrors : List String :=
  if policy.allowList.length = 0 then ["allowList must not be empty"] else []

def duplicateErrors : List String :=
  if policy.allowList.dedup.length ≠ policy.allowList.length then
    ["allowList must not contain duplicate fetcherId entries"]
  else []

def strangerErrors : List String :=
  (policy.orderList.filter fun entry => !policy.allowList.contains entry.fetcherId).map
    fun entry => "orderList contains fetcherId not present in allowList: '" ++ entry.fetcherId ++ "'"

def countErrors : List String :=
  (policy.allowList.filter fun fetcherId => policy.orderCount fetcherId ≠ 1).map
    fun fetcherId => "allowList fetcherId '" ++ fetcherId ++ "' appears " ++
      toString (policy.orderCount fetcherId) ++ " time(s) in orderList (expected exactly 1)"

end FetcherPolicy

def validateFetcherPolicy (policy : FetcherPolicy) : FetcherPolicyValidation :=
  let errors := policy.emptyErrors ++ policy.duplicateErrors ++ policy.strangerErrors ++
    policy.countErrors
  ⟨errors.isEmpty, errors⟩

/-- The order list is an arrangement of a non-empty allow list without repetitions. -/
structure FetcherPolicy.WellFormed (policy : FetcherPolicy) : Prop where
  allowed : policy.allowList ≠ []
  distinct : policy.allowList.Nodup
  arranged : (policy.orderList.map FetcherPolicyEntry.fetcherId).Perm policy.allowList

theorem dedup_length_iff (l : List String) : l.dedup.length = l.length ↔ l.Nodup := by
  constructor
  · intro hlength
    have heq : l.dedup = l := (List.dedup_sublist l).eq_of_length hlength
    exact heq ▸ List.nodup_dedup l
  · exact fun hnodup => by rw [hnodup.dedup]

theorem validateFetcherPolicy_valid_iff (policy : FetcherPolicy) :
    (validateFetcherPolicy policy).valid = true ↔ policy.WellFormed := by
  have herrors : (validateFetcherPolicy policy).valid = true ↔
      policy.allowList ≠ [] ∧ policy.allowList.Nodup ∧
        (∀ entry ∈ policy.orderList, entry.fetcherId ∈ policy.allowList) ∧
        ∀ fetcherId ∈ policy.allowList, policy.orderCount fetcherId = 1 := by
    simp [validateFetcherPolicy, FetcherPolicy.emptyErrors, FetcherPolicy.duplicateErrors,
      FetcherPolicy.strangerErrors, FetcherPolicy.countErrors, dedup_length_iff]
  rw [herrors]
  constructor
  · intro ⟨hallowed, hdistinct, hmem, hcount⟩
    refine ⟨hallowed, hdistinct, List.perm_iff_count.mpr fun fetcherId => ?_⟩
    by_cases hin : fetcherId ∈ policy.allowList
    · rw [List.count_eq_one_of_mem hdistinct hin]
      exact hcount fetcherId hin
    · rw [List.count_eq_zero_of_not_mem hin, List.count_eq_zero]
      intro hlisted
      obtain ⟨entry, hentry, rfl⟩ := List.mem_map.mp hlisted
      exact hin (hmem entry hentry)
  · intro h
    refine ⟨h.allowed, h.distinct, fun entry hentry => ?_, fun fetcherId hin => ?_⟩
    · exact h.arranged.mem_iff.mp (List.mem_map_of_mem hentry)
    · rw [FetcherPolicy.orderCount, h.arranged.count_eq]
      exact List.count_eq_one_of_mem h.distinct hin

/-! ## The plan -/

/-- A number, as far as `Number.isInteger` tells. -/
inductive Count
  | integer (n : Int)
  /-- a fraction, `Infinity` or `NaN`, with its text -/
  | other (text : String)
  deriving DecidableEq, Repr

/-- The number, if it is an integer and not negative. -/
def Count.toNat? : Count → Option Nat
  | .integer n => if n < 0 then none else some n.toNat
  | .other _ => none

def Count.text : Count → String
  | .integer n => toString n
  | .other text => text

structure SequenceOpts where
  maxAttempts : Option Count
  transientRetries : Option Nat
  retryBackoffMs : Option Nat
  isRetryable : Option (String → Bool)

/-- Why `runFetchSequence` throws. -/
inductive SequenceError
  | policyInvalid (errors : List String)
  /-- a fetcher threw -/
  | rejected
  deriving DecidableEq, Repr

def SequenceError.message : SequenceError → Option String
  | .policyInvalid errors => some ("FetcherPolicy is invalid: " ++ String.intercalate "; " errors)
  | .rejected => none

namespace SequenceOpts

def DEFAULT_MAX_ATTEMPTS : Nat := 3

variable (opts : SequenceOpts)

def attemptCount : Count := opts.maxAttempts.getD (.integer DEFAULT_MAX_ATTEMPTS)

/-- How many entries are tried at most. -/
def attemptLimit : Nat := opts.attemptCount.toNat?.getD 0

def retries : Nat := opts.transientRetries.getD DEFAULT_TRANSIENT_RETRIES

def backoffMs : Nat := opts.retryBackoffMs.getD DEFAULT_RETRY_BACKOFF_MS

def retryable (fetcherId : String) : Bool :=
  opts.isRetryable.elim true fun isRetryable => isRetryable fetcherId

end SequenceOpts

def planAttempts (policy : FetcherPolicy) (opts : SequenceOpts) :
    Except SequenceError (List FetcherPolicyEntry) :=
  let validation := validateFetcherPolicy policy
  if !validation.valid then .error (.policyInvalid validation.errors)
  else
    match opts.attemptCount.toNat? with
    | none => .error (.policyInvalid
        ["maxAttempts must be a finite non-negative integer, got: " ++ opts.attemptCount.text])
    | some maxAttempts => .ok (policy.orderList.take maxAttempts)

def shouldProceedToNext (entry : FetcherPolicyEntry) (failure : FailureClass) : Bool :=
  if NEVER_PROCEEDABLE_FAILURES.contains failure then false
  else (entry.proceedOn.getD DEFAULT_PROCEEDABLE_FAILURES).contains failure

/-! ## The sequence -/

/-- A fetcher was executed; `none` is one that threw. -/
structure Execution where
  fetcherId : String
  outcome : Option FetchOutcome
  deriving DecidableEq, Repr

/-- What was executed and slept so far, oldest first. -/
structure FetchLog where
  executions : List Execution
  sleeps : List Nat
  deriving DecidableEq, Repr

/-- `executeFetcher`; what it answers may depend on all that was executed before. -/
abbrev FetcherBehaviour := List Execution → String → Option FetchOutcome

structure FetchSequenceResult where
  outcome : FetchOutcome
  attempts : List Execution
  deriving DecidableEq, Repr

def FetchOutcome.failure? : FetchOutcome → Option FailureClass
  | .success _ _ _ => none
  | .failure failureClass _ => some failureClass

def Execution.failure? (x : Execution) : Option FailureClass :=
  x.outcome.bind FetchOutcome.failure?

section Sequence

variable (opts : SequenceOpts) (executeFetcher : FetcherBehaviour)

/-- One execution of a fetcher. -/
def FetchLog.execute (log : FetchLog) (fetcherId : String) : Option FetchOutcome × FetchLog :=
  let outcome := executeFetcher log.executions fetcherId
  (outcome, { log with executions := log.executions ++ [⟨fetcherId, outcome⟩] })

/-- The loop condition, but for the number of retries. -/
def wantsRetry (fetcherId : String) (outcome : FetchOutcome) : Bool :=
  outcome.failure?.any fun failureClass =>
    opts.retryable fetcherId && TRANSIENT_RETRY_FAILURE_CLASSES.contains failureClass

/-- The retry loop, with `left` retries to go. -/
def retryFetcher (fetcherId : String) : Nat → FetchOutcome → FetchLog → Option FetchOutcome × FetchLog
  | 0, outcome, log => (some outcome, log)
  | left + 1, outcome, log =>
    if wantsRetry opts fetcherId outcome then
      let slept := { log with sleeps := log.sleeps ++ [opts.backoffMs * (opts.retries - left)] }
      match slept.execute executeFetcher fetcherId with
      | (none, log) => (none, log)
      | (some outcome, log) => retryFetcher fetcherId left outcome log
    else (some outcome, log)

/-- An entry of the plan with its retries. -/
def tryEntry (entry : FetcherPolicyEntry) (log : FetchLog) : Option FetchOutcome × FetchLog :=
  match log.execute executeFetcher entry.fetcherId with
  | (none, log) => (none, log)
  | (some outcome, log) => retryFetcher opts executeFetcher entry.fetcherId opts.retries outcome log

/-- The outcome ends the sequence. -/
def stopsAt (entry : FetcherPolicyEntry) (outcome : FetchOutcome) : Bool :=
  outcome.failure?.all fun failureClass => !shouldProceedToNext entry failureClass

/-- The loop over the plan. -/
def tryEntries (entry : FetcherPolicyEntry) :
    List FetcherPolicyEntry → FetchLog → Option FetchOutcome × FetchLog
  | [], log => tryEntry opts executeFetcher entry log
  | next :: rest, log =>
    match tryEntry opts executeFetcher entry log with
    | (none, log) => (none, log)
    | (some outcome, log) =>
      if stopsAt entry outcome then (some outcome, log) else tryEntries next rest log

/-- What the call comes to and what it has executed. -/
def runFetchSequence (policy : FetcherPolicy) :
    Except SequenceError FetchSequenceResult × FetchLog :=
  match planAttempts policy opts with
  | .error error => (.error error, ⟨[], []⟩)
  | .ok [] =>
    (.error (.policyInvalid ["no fetcher attempts available (maxAttempts is 0)"]), ⟨[], []⟩)
  | .ok (entry :: rest) =>
    match tryEntries opts executeFetcher entry rest ⟨[], []⟩ with
    | (none, log) => (.error .rejected, log)
    | (some outcome, log) => (.ok ⟨outcome, log.executions⟩, log)

end Sequence

end Utsuroi
