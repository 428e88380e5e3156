import Mathlib.Logic.Function.Basic
import Mathlib.Data.List.Basic
import Utsuroi.Framework.Run
import Utsuroi.Shared.Utf16

/-!
# The crawler object

One object per executor takes jobs from `submitAndWait`, leases each to one of the runners that
poll it and hands the runner's result to the waiting submission.  Its rows are stored; waiters,
timers and parked polls live in memory.  The entry points interleave at their awaits, and the
memory may be lost at any time.
-/

namespace Utsuroi.Crawler

abbrev JobId := String
abbrev CallId := Nat

def RUNNER_ALIVE_WINDOW_MS : Nat := 60000
def LEASE_WAIT_MS : Nat := 10000
def RESULT_WAIT_MS : Nat := 40000
def TERMINAL_RETENTION_MS : Nat := 60 * 60000
def RUNNER_RETENTION_MS : Nat := 24 * 60 * 60000
def MAX_RUNNER_ROWS : Nat := 32
def MAX_LEASE_WAIT_MS : Nat := 20000

inductive UnavailableReason
  | runner_offline
  | maintenance
  | lease_timeout
  | result_timeout
  deriving DecidableEq, Repr

structure JobRequest where
  url : String
  maxBytes : Nat
  headers : List (String × String)
  deriving DecidableEq, Repr

structure CrawlerJobInput where
  executorId : String
  jobId : JobId
  fetchMode : String
  request : JobRequest
  deriving DecidableEq, Repr

structure SubmitLimits where
  aliveWindowMs : Option Nat
  leaseWaitMs : Option Nat
  resultWaitMs : Option Nat
  deriving DecidableEq, Repr

inductive RunnerResult
  | response (status : Nat) (url : String) (contentType : Option String)
      (headers : List (String × String)) (body : String) (truncated : Bool) (durationMs : Nat)
  | error (failureClass message : String)
  deriving DecidableEq, Repr

inductive SubmitOutcome
  | result (result : RunnerResult)
  | unavailable (reason : UnavailableReason)
  deriving DecidableEq, Repr

structure RunnerInfo where
  executorId : String
  runnerId : String
  fetchModes : List String
  deriving DecidableEq, Repr

inductive CompleteOutcome
  | accepted
  | duplicate
  | lease_mismatch
  | lease_expired
  | not_found
  | too_large
  deriving DecidableEq, Repr

structure LeasedJob where
  jobId : JobId
  leaseToken : String
  leaseExpiresAt : Nat
  fetchMode : String
  request : JobRequest
  deriving DecidableEq, Repr

/-! ## The tables -/

inductive JobState
  | queued
  | leased
  | completed
  | expired
  deriving DecidableEq, Repr

structure JobRow where
  jobId : JobId
  fetchMode : String
  payload : JobRequest
  state : JobState
  tokenHash : Option String
  runnerId : Option String
  createdAt : Nat
  queueDeadline : Nat
  resultWaitMs : Nat
  leaseDeadline : Option Nat
  terminalAt : Option Nat
  deriving DecidableEq, Repr

structure RunnerRow where
  runnerId : String
  lastSeen : Nat
  fetchModes : List String
  offline : Bool
  deriving DecidableEq, Repr

/-! ## The memory -/

/-- The stage of a job whose wait a timer ends. -/
inductive Stage
  | lease
  | result
  deriving DecidableEq, Repr

def Stage.fromState : Stage → JobState
  | .lease => .queued
  | .result => .leased

def Stage.reason : Stage → UnavailableReason
  | .lease => .lease_timeout
  | .result => .result_timeout

/-- A timer that `setTimeout` made: when it fires it expires its job. -/
structure Timer where
  id : Nat
  jobId : JobId
  stage : Stage
  deriving DecidableEq, Repr

/-- A job that `claim` has leased and whose token is not stored yet. -/
structure Claimed where
  row : JobRow
  token : String
  expiresAt : Nat
  deriving DecidableEq, Repr

def Claimed.job (c : Claimed) : LeasedJob :=
  ⟨c.row.jobId, c.token, c.expiresAt, c.row.fetchMode, c.row.payload⟩

/-- Where a call waits. -/
inductive Call
  /-- `submitAndWait`: for `isMaintenance` -/
  | submitting (input : CrawlerJobInput) (limits : SubmitLimits)
  /-- `lease`: for `isMaintenance` -/
  | entering (info : RunnerInfo) (max : Nat) (waitMs : Nat)
  /-- `claim`: for the hashes of the tokens -/
  | hashing (info : RunnerInfo) (max : Nat) (deadline : Nat) (claimed : List Claimed)
  /-- `waitForJob` -/
  | parked (info : RunnerInfo) (max : Nat) (deadline : Nat)
  | woken (info : RunnerInfo) (max : Nat) (deadline : Nat)
  /-- `complete`: for the hash of the token -/
  | presenting (jobId : JobId) (leaseToken : String) (result : RunnerResult)
  deriving DecidableEq, Repr

/-- What the object has answered and done. -/
inductive Entry
  /-- `submitAndWait` answered without storing the job -/
  | refused (jobId : JobId) (reason : UnavailableReason)
  | accepted (jobId : JobId)
  /-- the promise of `submitAndWait` -/
  | settled (jobId : JobId) (outcome : SubmitOutcome)
  | expired (jobId : JobId)
  | leaseResponse (max : Nat) (fetchModes : List String) (jobs : List LeasedJob)
  | completeResponse (jobId : JobId) (leaseToken : String) (result : RunnerResult)
      (outcome : CompleteOutcome)
  /-- the memory was lost -/
  | reset
  deriving DecidableEq, Repr

structure CrawlerState where
  now : Nat
  /-- `executors.status = 'maintenance'`, in D1 -/
  maintenance : String → Bool
  /-- in the order of their insertion -/
  jobs : List JobRow
  runners : List RunnerRow
  waiters : JobId → Bool
  queueTimers : JobId → Option Timer
  resultTimers : JobId → Option Timer
  leaseWakers : List CallId
  /-- the timers that have neither fired nor been cleared -/
  armed : List Timer
  nextTimer : Nat
  calls : CallId → Option Call
  /-- newest first -/
  log : List Entry

/-- Equality of hex strings, in constant time. -/
def equalHex (a b : String) : Bool :=
  if utf16Length a.toList ≠ utf16Length b.toList then false
  else ((utf16Units a).zipWith Nat.xor (utf16Units b)).foldl Nat.lor 0 = 0

private theorem foldl_lor_eq_zero (units : List Nat) (diff : Nat) :
    units.foldl Nat.lor diff = 0 ↔ diff = 0 ∧ ∀ unit ∈ units, unit = 0 := by
  induction units generalizing diff with
  | nil => simp
  | cons unit units ih =>
    have hor : Nat.lor diff unit = 0 ↔ diff = 0 ∧ unit = 0 := Nat.or_eq_zero_iff
    rw [List.foldl_cons, ih, hor]
    simp [and_assoc]

private theorem zipWith_xor_eq_zero (as bs : List Nat) (hlength : as.length = bs.length) :
    (∀ unit ∈ as.zipWith Nat.xor bs, unit = 0) ↔ as = bs := by
  induction as generalizing bs with
  | nil =>
    cases bs with
    | nil => simp
    | cons b bs => simp at hlength
  | cons a as ih =>
    cases bs with
    | nil => simp at hlength
    | cons b bs =>
      have hrest := ih bs (Nat.succ.inj hlength)
      simp only [List.zipWith_cons_cons, List.forall_mem_cons, hrest, List.cons.injEq]
      exact and_congr_left fun _ => Nat.xor_eq_zero_iff

theorem equalHex_iff {a b : String} : equalHex a b = true ↔ a = b := by
  unfold equalHex
  rw [utf16Length_eq, utf16Length_eq, ← utf16Units_eq, ← utf16Units_eq]
  by_cases hlength : (utf16Units a).length = (utf16Units b).length
  · rw [if_neg fun hne => hne hlength, decide_eq_true_eq, foldl_lor_eq_zero,
      zipWith_xor_eq_zero _ _ hlength, utf16Units_injective.eq_iff]
    exact and_iff_right rfl
  · rw [if_pos hlength]
    refine iff_of_false Bool.false_ne_true ?_
    rintro rfl
    exact hlength rfl

def maxBase64Length (maxBytes : Nat) : Nat := (maxBytes + 2) / 3 * 4

namespace CrawlerState

variable (s : CrawlerState)

/-- `job_id` is the primary key. -/
def row (jobId : JobId) : Option JobRow := s.jobs.find? (·.jobId = jobId)

def note (e : Entry) : CrawlerState := { s with log := e :: s.log }

/-- `UPDATE jobs SET … WHERE job_id = ?` -/
def updateJob (jobId : JobId) (f : JobRow → JobRow) : CrawlerState :=
  { s with jobs := s.jobs.map fun row => if row.jobId = jobId then f row else row }

def endCall (c : CallId) : CrawlerState := { s with calls := Function.update s.calls c none }

def await (c : CallId) (call : Call) : CrawlerState :=
  { s with calls := Function.update s.calls c (some call) }

/-! ## Runners -/

def liveRunners (aliveWindowMs : Nat) : List RunnerRow :=
  s.runners.filter fun r => s.now ≤ r.lastSeen + aliveWindowMs ∧ r.offline = false

def touchRunner (info : RunnerInfo) : CrawlerState :=
  let touched : RunnerRow := ⟨info.runnerId, s.now, info.fetchModes, false⟩
  let runners :=
    if s.runners.any (·.runnerId = info.runnerId) then
      s.runners.map fun r => if r.runnerId = info.runnerId then touched else r
    else s.runners ++ [touched]
  { s with runners := (runners.mergeSort fun a b => b.lastSeen ≤ a.lastSeen).take MAX_RUNNER_ROWS }

/-! ## Timers and waiters -/

def clearTimeout (t : Option Timer) : CrawlerState :=
  { s with armed := s.armed.filter fun timer => t ≠ some timer }

def clearTimers (jobId : JobId) : CrawlerState :=
  let s₁ := s.clearTimeout (s.queueTimers jobId)
  let s₂ := { s₁ with queueTimers := Function.update s₁.queueTimers jobId none }
  let s₃ := s₂.clearTimeout (s₂.resultTimers jobId)
  { s₃ with resultTimers := Function.update s₃.resultTimers jobId none }

/-- The timer that `setTimeout` makes next. -/
def newTimer (jobId : JobId) (stage : Stage) : Timer := ⟨s.nextTimer, jobId, stage⟩

def setTimeout (t : Timer) : CrawlerState :=
  { s with armed := t :: s.armed, nextTimer := s.nextTimer + 1 }

def resolveWaiter (jobId : JobId) (outcome : SubmitOutcome) : CrawlerState :=
  if s.waiters jobId then
    { s with waiters := Function.update s.waiters jobId false }.note (.settled jobId outcome)
  else s

/-- After a timed out lease the runner is offline until it is heard of again. -/
def markOffline (runnerId : Option String) : CrawlerState :=
  { s with
    runners := s.runners.map fun r =>
      if runnerId = some r.runnerId then { r with offline := true } else r }

def expireJob (jobId : JobId) (stage : Stage) : CrawlerState :=
  match (s.row jobId).filter fun row => row.state = stage.fromState with
  | none => s
  | some row =>
    let s₁ := s.updateJob jobId fun row =>
      { row with state := .expired, terminalAt := some s.now }
    let s₂ := (s₁.clearTimers jobId).note (.expired jobId)
    let s₃ := if stage = .result then s₂.markOffline row.runnerId else s₂
    s₃.resolveWaiter jobId (.unavailable stage.reason)

/-! ## `submitAndWait` -/

def wakeLeasers : CrawlerState :=
  { s with
    leaseWakers := []
    calls := fun c =>
      match s.calls c with
      | some (.parked info max deadline) =>
        if c ∈ s.leaseWakers then some (.woken info max deadline)
        else some (.parked info max deadline)
      | call => call }

/-- The job is stored and its submission waits. -/
def enqueue (input : CrawlerJobInput) (limits : SubmitLimits) : CrawlerState :=
  let row : JobRow :=
    { jobId := input.jobId
      fetchMode := input.fetchMode
      payload := input.request
      state := .queued
      tokenHash := none
      runnerId := none
      createdAt := s.now
      queueDeadline := s.now + limits.leaseWaitMs.getD LEASE_WAIT_MS
      resultWaitMs := limits.resultWaitMs.getD RESULT_WAIT_MS
      leaseDeadline := none
      terminalAt := none }
  let timer := s.newTimer input.jobId .lease
  let s₁ := { s with
    jobs := s.jobs ++ [row]
    waiters := Function.update s.waiters input.jobId true }
  let s₂ := { s₁.setTimeout timer with
    queueTimers := Function.update s.queueTimers input.jobId (some timer) }
  (s₂.note (.accepted input.jobId)).wakeLeasers

/-- `submitAndWait` from the answer of `isMaintenance` on. -/
def submit (input : CrawlerJobInput) (limits : SubmitLimits) : CrawlerState :=
  if s.maintenance input.executorId then s.note (.refused input.jobId .maintenance)
  else
    let alive := (s.liveRunners (limits.aliveWindowMs.getD RUNNER_ALIVE_WINDOW_MS)).any
      fun r => r.fetchModes.contains input.fetchMode
    if !alive then s.note (.refused input.jobId .runner_offline)
    else s.enqueue input limits

/-! ## `lease` -/

/-- Only jobs that somebody waits for: orphans of a lost memory are not handed out. -/
def candidates (max : Nat) (fetchModes : List String) : List JobRow :=
  if fetchModes = [] then []
  else
    (((s.jobs.filter fun row => row.state = .queued ∧ row.fetchMode ∈ fetchModes).mergeSort
      fun a b => a.createdAt ≤ b.createdAt).filter fun row => s.waiters row.jobId).take max

def leaseJob (info : RunnerInfo) (now : Nat) (row : JobRow) : CrawlerState :=
  let s₁ := s.updateJob row.jobId fun r =>
    if r.state = .queued then
      { r with
        state := .leased
        runnerId := some info.runnerId
        leaseDeadline := some (now + row.resultWaitMs) }
    else r
  let s₂ := s₁.clearTimeout (s₁.queueTimers row.jobId)
  let s₃ := { s₂ with queueTimers := Function.update s₂.queueTimers row.jobId none }
  let timer := s₃.newTimer row.jobId .result
  { s₃.setTimeout timer with
    resultTimers := Function.update s₃.resultTimers row.jobId (some timer) }

/-- `claim` up to the await of the hashes. -/
def claim (c : CallId) (info : RunnerInfo) (max deadline : Nat) (tokens : JobId → String) :
    CrawlerState :=
  let rows := s.candidates max info.fetchModes
  let claimed := rows.map fun row =>
    (⟨row, tokens row.jobId, s.now + row.resultWaitMs⟩ : Claimed)
  (rows.foldl (fun s' row => s'.leaseJob info s.now row) s).await c
    (.hashing info max deadline claimed)

/-- `lease` from the answer of `isMaintenance` on. -/
def enter (c : CallId) (info : RunnerInfo) (max waitMs : Nat) (tokens : JobId → String) :
    CrawlerState :=
  if s.maintenance info.executorId then
    (s.endCall c).note (.leaseResponse max info.fetchModes [])
  else s.claim c info max (s.now + min waitMs MAX_LEASE_WAIT_MS) tokens

section Hashed

variable (sha256Hex : String → String)

def storeHash (claimed : Claimed) : CrawlerState :=
  s.updateJob claimed.row.jobId fun row => { row with tokenHash := some (sha256Hex claimed.token) }

/-- `claim` and `lease` from the hashes on. -/
def claimed (c : CallId) (info : RunnerInfo) (max deadline : Nat) (claimed : List Claimed) :
    CrawlerState :=
  let s₁ := claimed.foldl (fun s' claim => s'.storeHash sha256Hex claim) s
  if claimed ≠ [] then
    (s₁.endCall c).note (.leaseResponse max info.fetchModes (claimed.map Claimed.job))
  else if deadline ≤ s.now then (s₁.endCall c).note (.leaseResponse max info.fetchModes [])
  else { s₁.await c (.parked info max deadline) with leaseWakers := c :: s₁.leaseWakers }

/-! ## `complete` -/

/-- The answer of `complete`, from the hash of the token on. -/
def completeOutcome (jobId : JobId) (leaseToken : String) (result : RunnerResult) :
    CompleteOutcome :=
  match s.row jobId with
  | none => .not_found
  | some row =>
    if !row.tokenHash.any (equalHex (sha256Hex leaseToken)) then .lease_mismatch
    else if row.state = .completed then .duplicate
    else if row.state ≠ .leased then .lease_expired
    else
      match result with
      | .response _ _ _ _ body _ _ =>
        if maxBase64Length row.payload.maxBytes < utf16Length body.toList then .too_large
        else .accepted
      | .error _ _ => .accepted

def complete (jobId : JobId) (leaseToken : String) (result : RunnerResult) : CrawlerState :=
  let outcome := s.completeOutcome sha256Hex jobId leaseToken result
  let s₁ := s.note (.completeResponse jobId leaseToken result outcome)
  if outcome = .accepted then
    let s₂ := s₁.updateJob jobId fun row =>
      { row with state := .completed, terminalAt := some s.now }
    (s₂.clearTimers jobId).resolveWaiter jobId (.result result)
  else s₁

end Hashed

/-! ## `alarm` -/

def expireAll (stage : Stage) (ids : List JobId) : CrawlerState :=
  ids.foldl (fun s' jobId => s'.expireJob jobId stage) s

def lateQueued : List JobId :=
  (s.jobs.filter fun row => row.state = .queued ∧ row.queueDeadline ≤ s.now).map JobRow.jobId

def lateLeased : List JobId :=
  (s.jobs.filter fun row => row.state = .leased ∧ row.leaseDeadline.any (· ≤ s.now)).map
    JobRow.jobId

def alarm : CrawlerState :=
  let s₁ := s.expireAll .lease s.lateQueued
  let s₂ := s₁.expireAll .result s₁.lateLeased
  { s₂ with
    jobs := s₂.jobs.filter fun row => !row.terminalAt.any (· + TERMINAL_RETENTION_MS ≤ s.now)
    runners := s₂.runners.filter fun r => !(r.lastSeen + RUNNER_RETENTION_MS ≤ s.now) }

/-- The memory is lost; what was stored stays. -/
def reset : CrawlerState :=
  { s with
    waiters := fun _ => false
    queueTimers := fun _ => none
    resultTimers := fun _ => none
    leaseWakers := []
    armed := []
    calls := fun _ => none }.note .reset

end CrawlerState

/-! ## Runs of the object -/

inductive CrawlerEvent
  | submitAndWait (c : CallId) (input : CrawlerJobInput) (limits : SubmitLimits)
  | lease (c : CallId) (info : RunnerInfo) (max waitMs : Nat)
  | complete (c : CallId) (jobId : JobId) (leaseToken : String) (result : RunnerResult)
  | heartbeat (info : RunnerInfo)
  /-- what the call waits for has come; the tokens are what it draws at random -/
  | resume (c : CallId) (tokens : JobId → String)
  /-- D1 fails a call -/
  | abort (c : CallId)
  /-- the time of a parked poll is over -/
  | timeout (c : CallId)
  | fire (t : Timer)
  | alarm
  | reset
  | world (now : Nat) (maintenance : String → Bool)

namespace CrawlerEvent

/-- Job ids are fresh: no two submissions with one id are accepted. -/
def Allowed (s : CrawlerState) : CrawlerEvent → Prop
  | .submitAndWait c _ _ | .lease c _ _ _ | .complete c _ _ _ => s.calls c = none
  | .resume c _ =>
    match s.calls c with
    | some (.submitting input _) => .accepted input.jobId ∉ s.log
    | some (.parked _ _ _) => False
    | some _ => True
    | none => False
  | .abort c =>
    match s.calls c with
    | some (.submitting _ _) | some (.entering _ _ _) => True
    | _ => False
  | .timeout c =>
    match s.calls c with
    | some (.parked _ _ _) => True
    | _ => False
  | .fire t => t ∈ s.armed
  | .heartbeat _ | .alarm | .reset | .world _ _ => True

instance (s : CrawlerState) : ∀ e : CrawlerEvent, Decidable (e.Allowed s)
  | .submitAndWait c _ _ | .lease c _ _ _ | .complete c _ _ _ =>
    inferInstanceAs (Decidable (s.calls c = none))
  | .resume c _ => by
    unfold Allowed
    dsimp only
    split <;> infer_instance
  | .abort c => by
    unfold Allowed
    dsimp only
    split <;> infer_instance
  | .timeout c => by
    unfold Allowed
    dsimp only
    split <;> infer_instance
  | .fire t => inferInstanceAs (Decidable (t ∈ s.armed))
  | .heartbeat _ | .alarm | .reset | .world _ _ => inferInstanceAs (Decidable True)

def apply (sha256Hex : String → String) (s : CrawlerState) : CrawlerEvent → CrawlerState
  | .submitAndWait c input limits => s.await c (.submitting input limits)
  | .lease c info max waitMs => (s.touchRunner info).await c (.entering info max waitMs)
  | .complete c jobId leaseToken result => s.await c (.presenting jobId leaseToken result)
  | .heartbeat info => s.touchRunner info
  | .resume c tokens =>
    match s.calls c with
    | some (.submitting input limits) => (s.endCall c).submit input limits
    | some (.entering info max waitMs) => s.enter c info max waitMs tokens
    | some (.hashing info max deadline claimed) =>
      s.claimed sha256Hex c info max deadline claimed
    | some (.woken info max deadline) => s.claim c info max deadline tokens
    | some (.presenting jobId leaseToken result) =>
      (s.endCall c).complete sha256Hex jobId leaseToken result
    | some (.parked _ _ _) | none => s
  | .abort c => s.endCall c
  | .timeout c =>
    match s.calls c with
    | some (.parked info max deadline) =>
      { s.await c (.woken info max deadline) with leaseWakers := s.leaseWakers.erase c }
    | _ => s
  | .fire t => { s with armed := s.armed.erase t }.expireJob t.jobId t.stage
  | .alarm => s.alarm
  | .reset => s.reset
  | .world now maintenance => { s with now, maintenance }

end CrawlerEvent

/-- Runs of the object, from its creation on. -/
def crawlerSystem (sha256Hex : String → String) :
    Transition.System CrawlerState CrawlerEvent where
  init s := s.jobs = [] ∧ s.runners = [] ∧ (∀ jobId, s.waiters jobId = false) ∧
    (∀ jobId, s.queueTimers jobId = none) ∧ (∀ jobId, s.resultTimers jobId = none) ∧
    s.leaseWakers = [] ∧ s.armed = [] ∧ (∀ c, s.calls c = none) ∧ s.log = []
  step s e s' := e.Allowed s ∧ s' = e.apply sha256Hex s

end Utsuroi.Crawler
