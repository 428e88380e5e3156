import Mathlib.Tactic
import Utsuroi.Do.CrawlerEvents

/-!
# The alarm of the crawler object

The object has one alarm.  `scheduleAlarm` sets it to the earliest moment at which some row needs
it; timers may be lost with the memory, the alarm stays.
-/

namespace Utsuroi.Crawler

open Transition

/-- When the alarm has something to do about the row. -/
def JobRow.due (row : JobRow) : Option Nat :=
  match row.state with
  | .queued => some row.queueDeadline
  | .leased => row.leaseDeadline
  | .completed | .expired => row.terminalAt.map (· + TERMINAL_RETENTION_MS)

namespace CrawlerState

variable (s : CrawlerState)

/-- `SELECT MIN(queue_deadline) FROM jobs WHERE state = 'queued'` -/
def firstQueueDeadline : Option Nat :=
  ((s.jobs.filter (·.state = .queued)).map JobRow.queueDeadline).min?

/-- `SELECT MIN(lease_deadline) FROM jobs WHERE state = 'leased'` -/
def firstLeaseDeadline : Option Nat :=
  ((s.jobs.filter (·.state = .leased)).filterMap JobRow.leaseDeadline).min?

/-- `SELECT MIN(terminal_at) FROM jobs WHERE terminal_at IS NOT NULL` -/
def firstTerminal : Option Nat := (s.jobs.filterMap JobRow.terminalAt).min?

def alarmCandidates (markedOnline : Bool) : List Nat :=
  let lastSeen := s.runners.map RunnerRow.lastSeen
  s.firstQueueDeadline.toList ++ s.firstLeaseDeadline.toList ++
    (s.firstTerminal.map (· + TERMINAL_RETENTION_MS)).toList ++
    (lastSeen.min?.map (· + RUNNER_RETENTION_MS)).toList ++
    if markedOnline then (lastSeen.max?.map (· + RUNNER_ALIVE_WINDOW_MS + 1)).toList else []

/-- `submitAndWait` stores the job. -/
def accepts (input : CrawlerJobInput) (limits : SubmitLimits) : Bool :=
  !s.maintenance input.executorId &&
    (s.liveRunners (limits.aliveWindowMs.getD RUNNER_ALIVE_WINDOW_MS)).any
      fun r => r.fetchModes.contains input.fetchMode

/-- The timer still finds its job. -/
def finds (t : Timer) : Bool := (s.row t.jobId).any (·.state = t.stage.fromState)

end CrawlerState

structure AlarmedState where
  object : CrawlerState
  /-- `ctx.storage.getAlarm()` -/
  alarm : Option Nat
  /-- the value of `online` in the table `meta` is `'1'` -/
  markedOnline : Bool
  /-- when `scheduleAlarm` ran last -/
  scheduledAt : Nat

namespace AlarmedState

def checkTransition (s : AlarmedState) : AlarmedState :=
  { s with markedOnline := !(s.object.liveRunners RUNNER_ALIVE_WINDOW_MS).isEmpty }

def scheduleAlarm (s : AlarmedState) : AlarmedState :=
  { s with
    alarm := (s.object.alarmCandidates s.markedOnline).min?.map (max · (s.object.now + 1000))
    scheduledAt := s.object.now }

end AlarmedState

namespace CrawlerEvent

/-- The event runs `checkTransition`. -/
def marks (s : CrawlerState) : CrawlerEvent → Bool
  | .lease _ _ _ _ | .heartbeat _ | .alarm => true
  | .fire t => t.stage = .result && s.finds t
  | _ => false

/-- The event ends with `scheduleAlarm`. -/
def schedules (sha256Hex : String → String) (s : CrawlerState) : CrawlerEvent → Bool
  | .heartbeat _ | .alarm => true
  | .fire t => s.finds t
  | .resume c _ =>
    match s.calls c with
    | some (.submitting input limits) => s.accepts input limits
    | some (.hashing _ _ _ claimed) => claimed ≠ []
    | some (.presenting jobId leaseToken result) =>
      s.completeOutcome sha256Hex jobId leaseToken result = .accepted
    | _ => false
  | _ => false

end CrawlerEvent

def AlarmedState.apply (sha256Hex : String → String) (s : AlarmedState) (e : CrawlerEvent) :
    AlarmedState :=
  let s₁ := { s with object := e.apply sha256Hex s.object }
  let s₂ := if e.marks s.object then s₁.checkTransition else s₁
  if e.schedules sha256Hex s.object then s₂.scheduleAlarm else s₂

/-- Runs of the object with its alarm. -/
def alarmedSystem (sha256Hex : String → String) : System AlarmedState CrawlerEvent where
  init s := (crawlerSystem sha256Hex).init s.object ∧ s.alarm = none
  step s e s' := e.Allowed s.object ∧ s' = s.apply sha256Hex e

section Projection

variable {sha256Hex : String → String} {s s' : AlarmedState} {e : CrawlerEvent}
  {C : StepCond AlarmedState CrawlerEvent} {es : List CrawlerEvent}

@[simp] theorem checkTransition_object : s.checkTransition.object = s.object := rfl

@[simp] theorem scheduleAlarm_object : s.scheduleAlarm.object = s.object := rfl

theorem apply_object : (s.apply sha256Hex e).object = e.apply sha256Hex s.object := by
  unfold AlarmedState.apply
  dsimp only
  split <;> split <;> rfl

/-- The object's run does not depend on its alarm. -/
theorem object_run (h : (alarmedSystem sha256Hex).Run C es s) :
    (crawlerSystem sha256Hex).Run anyStep es s.object := by
  induction h with
  | start hinit => exact .start hinit.1
  | next _ hstep _ ih =>
    obtain ⟨hallowed, rfl⟩ := hstep
    exact .next ih ⟨hallowed, apply_object⟩ trivial

end Projection

/-! ## Coverage -/

/-- The alarm is set, and no later than the row needs it. -/
def AlarmedState.Covers (s : AlarmedState) (row : JobRow) : Prop :=
  ∃ due alarm, row.due = some due ∧ s.alarm = some alarm ∧ alarm ≤ max due (s.scheduledAt + 1000)

section Schedule

variable {s : AlarmedState} {row : JobRow}

private theorem min?_le_of_mem {times : List Nat} {time : Nat} (h : time ∈ times) :
    ∃ first, times.min? = some first ∧ first ≤ time := by
  obtain ⟨first, hfirst⟩ := Option.ne_none_iff_exists'.mp
    (fun hnone => List.ne_nil_of_mem h (List.min?_eq_none_iff.mp hnone))
  exact ⟨first, hfirst, (List.min?_eq_some_iff.mp hfirst).2 time h⟩

private theorem terminal_le {object : CrawlerState} {markedOnline : Bool}
    (hrow : row ∈ object.jobs) {due : Nat}
    (hdue : row.terminalAt.map (· + TERMINAL_RETENTION_MS) = some due) :
    ∃ time ∈ object.alarmCandidates markedOnline, time ≤ due := by
  obtain ⟨terminalAt, hterminal, rfl⟩ := Option.map_eq_some_iff.mp hdue
  have hmem : terminalAt ∈ object.jobs.filterMap JobRow.terminalAt :=
    List.mem_filterMap.mpr ⟨row, hrow, hterminal⟩
  obtain ⟨first, hfirst, hle⟩ := min?_le_of_mem hmem
  refine ⟨first + TERMINAL_RETENTION_MS, ?_, Nat.add_le_add_right hle _⟩
  simp [CrawlerState.alarmCandidates, CrawlerState.firstTerminal, hfirst]

/-- Some candidate is no later than the row is due. -/
private theorem candidate_le {object : CrawlerState} {markedOnline : Bool}
    (hrow : row ∈ object.jobs) {due : Nat} (hdue : row.due = some due) :
    ∃ time ∈ object.alarmCandidates markedOnline, time ≤ due := by
  unfold JobRow.due at hdue
  cases hstate : row.state with
  | queued =>
    rw [hstate] at hdue
    have hmem : due ∈ (object.jobs.filter (·.state = .queued)).map JobRow.queueDeadline :=
      List.mem_map.mpr ⟨row, List.mem_filter.mpr ⟨hrow, by simp [hstate]⟩, Option.some.inj hdue⟩
    obtain ⟨first, hfirst, hle⟩ := min?_le_of_mem hmem
    refine ⟨first, ?_, hle⟩
    simp [CrawlerState.alarmCandidates, CrawlerState.firstQueueDeadline, hfirst]
  | leased =>
    rw [hstate] at hdue
    have hmem : due ∈ (object.jobs.filter (·.state = .leased)).filterMap JobRow.leaseDeadline :=
      List.mem_filterMap.mpr ⟨row, List.mem_filter.mpr ⟨hrow, by simp [hstate]⟩, hdue⟩
    obtain ⟨first, hfirst, hle⟩ := min?_le_of_mem hmem
    refine ⟨first, ?_, hle⟩
    simp [CrawlerState.alarmCandidates, CrawlerState.firstLeaseDeadline, hfirst]
  | completed => exact terminal_le hrow (by simpa [hstate] using hdue)
  | expired => exact terminal_le hrow (by simpa [hstate] using hdue)

/-- After `scheduleAlarm` every row is covered. -/
theorem scheduleAlarm_covers (hrow : row ∈ s.object.jobs) (hdated : row.due ≠ none) :
    s.scheduleAlarm.Covers row := by
  obtain ⟨due, hdue⟩ := Option.ne_none_iff_exists'.mp hdated
  obtain ⟨time, htime, hle⟩ : ∃ time ∈ s.object.alarmCandidates s.markedOnline, time ≤ due :=
    candidate_le hrow hdue
  obtain ⟨first, hfirst, hle'⟩ := min?_le_of_mem htime
  refine ⟨due, max first (s.object.now + 1000), hdue, ?_, max_le_max_right _ (hle'.trans hle)⟩
  simp [AlarmedState.scheduleAlarm, hfirst]

end Schedule

/-! ## What the callers promise -/

/-- The result is waited for at least as long as the lease. -/
def SubmitLimits.LeaseWithinResult (limits : SubmitLimits) : Prop :=
  limits.leaseWaitMs.getD LEASE_WAIT_MS ≤ limits.resultWaitMs.getD RESULT_WAIT_MS

instance (limits : SubmitLimits) : Decidable limits.LeaseWithinResult :=
  inferInstanceAs (Decidable (_ ≤ _))

/-- Submissions come with such limits, and the clock does not go back. -/
def orderedWaits : StepCond AlarmedState CrawlerEvent
  | _, _, .submitAndWait _ _ limits => limits.LeaseWithinResult
  | _, s, .world now _ => s.object.now ≤ now
  | _, _, _ => True

instance : ∀ past s e, Decidable (orderedWaits past s e)
  | _, _, .submitAndWait _ _ limits => inferInstanceAs (Decidable limits.LeaseWithinResult)
  | _, s, .world now _ => inferInstanceAs (Decidable (s.object.now ≤ now))
  | _, _, .lease .. | _, _, .complete .. | _, _, .heartbeat _ | _, _, .resume .. | _, _, .abort _
  | _, _, .timeout _ | _, _, .fire _ | _, _, .alarm | _, _, .reset =>
    inferInstanceAs (Decidable True)

section Submissions

variable {sha256Hex : String → String} {s s' s'' : CrawlerState} {e : CrawlerEvent} {c : CallId}
  {call : Option Call} {jobId : JobId} {input : CrawlerJobInput} {limits : SubmitLimits}

/-- The submissions that wait for their maintenance check waited before. -/
private def NoneSubmitted (s s' : CrawlerState) : Prop :=
  ∀ c input limits, s'.calls c = some (.submitting input limits) →
    s.calls c = some (.submitting input limits)

private theorem noneSubmitted_of_calls (hcalls : s'.calls = s.calls) : NoneSubmitted s s' :=
  fun c _ _ hcall => (congrFun hcalls c).symm.trans hcall

private theorem NoneSubmitted.trans (h : NoneSubmitted s s') (h' : NoneSubmitted s' s'') :
    NoneSubmitted s s'' :=
  fun c input limits hcall => h c input limits (h' c input limits hcall)

private theorem noneSubmitted_update (hcall : ∀ input limits, call ≠ some (.submitting input limits)) :
    NoneSubmitted s { s with calls := Function.update s.calls c call } := by
  intro c' input limits hcall'
  change Function.update s.calls c call c' = _ at hcall'
  by_cases hc : c' = c
  · rw [hc, Function.update_self] at hcall'
    exact absurd hcall' (hcall input limits)
  · rwa [Function.update_of_ne hc] at hcall'

private theorem calls_resolveWaiter (outcome : SubmitOutcome) :
    (s.resolveWaiter jobId outcome).calls = s.calls := by
  unfold CrawlerState.resolveWaiter
  split <;> rfl

private theorem calls_expireJob {stage : Stage} : (s.expireJob jobId stage).calls = s.calls := by
  rw [expireJob_eq]
  split
  · rfl
  · dsimp only
    split <;> exact calls_resolveWaiter _

private theorem calls_expireAll {stage : Stage} (ids : List JobId) :
    (s.expireAll stage ids).calls = s.calls := by
  unfold CrawlerState.expireAll
  induction ids generalizing s with
  | nil => rfl
  | cons jobId ids ih => exact ih.trans calls_expireJob

private theorem calls_alarm : s.alarm.calls = s.calls :=
  (calls_expireAll (s.expireAll .lease s.lateQueued).lateLeased).trans (calls_expireAll s.lateQueued)

private theorem calls_leaseJob {info : RunnerInfo} {now : Nat} {row : JobRow} :
    (s.leaseJob info now row).calls = s.calls := rfl

private theorem calls_storeHash {claim : Claimed} :
    (s.storeHash sha256Hex claim).calls = s.calls := rfl

private theorem calls_foldl {α : Type} {op : CrawlerState → α → CrawlerState}
    (hop : ∀ s a, (op s a).calls = s.calls) (items : List α) :
    (items.foldl op s).calls = s.calls := by
  induction items generalizing s with
  | nil => rfl
  | cons a items ih => exact ih.trans (hop s a)

private theorem noneSubmitted_wakeLeasers : NoneSubmitted s s.wakeLeasers := by
  intro c input limits hcall
  unfold CrawlerState.wakeLeasers at hcall
  dsimp only at hcall
  split at hcall
  · split at hcall <;> cases hcall
  · exact hcall

private theorem noneSubmitted_submit : NoneSubmitted s (s.submit input limits) := by
  unfold CrawlerState.submit
  split
  · exact noneSubmitted_of_calls rfl
  · dsimp only
    split
    · exact noneSubmitted_of_calls rfl
    · unfold CrawlerState.enqueue
      exact (noneSubmitted_of_calls rfl).trans noneSubmitted_wakeLeasers

private theorem noneSubmitted_claim {info : RunnerInfo} {max deadline : Nat}
    {tokens : JobId → String} : NoneSubmitted s (s.claim c info max deadline tokens) := by
  have hleased : ∀ rows : List JobRow, NoneSubmitted s
      (rows.foldl (fun s' row => s'.leaseJob info s.now row) s) :=
    fun rows => noneSubmitted_of_calls (calls_foldl (fun _ _ => calls_leaseJob) rows)
  rw [claim_eq]
  exact (hleased _).trans (noneSubmitted_update fun _ _ heq => by cases heq)

private theorem noneSubmitted_claimed {info : RunnerInfo} {max deadline : Nat}
    {claimed : List Claimed} :
    NoneSubmitted s (s.claimed sha256Hex c info max deadline claimed) := by
  have hstored : NoneSubmitted s
      (claimed.foldl (fun s' claim => s'.storeHash sha256Hex claim) s) :=
    noneSubmitted_of_calls (calls_foldl (fun _ _ => calls_storeHash) claimed)
  unfold CrawlerState.claimed
  dsimp only
  split
  · exact hstored.trans (noneSubmitted_update fun _ _ heq => by cases heq)
  · split
    · exact hstored.trans (noneSubmitted_update fun _ _ heq => by cases heq)
    · exact hstored.trans (noneSubmitted_update fun _ _ heq => by cases heq)

private theorem noneSubmitted_complete {leaseToken : String} {result : RunnerResult} :
    NoneSubmitted s (s.complete sha256Hex jobId leaseToken result) := by
  by_cases haccepted : s.completeOutcome sha256Hex jobId leaseToken result = .accepted
  · rw [complete_accepted haccepted]
    exact noneSubmitted_of_calls (calls_resolveWaiter _)
  · rw [complete_rejected haccepted]
    exact noneSubmitted_of_calls rfl

private theorem noneSubmitted_endCall : NoneSubmitted s (s.endCall c) :=
  noneSubmitted_update fun _ _ heq => by cases heq

/-- A submission that waits has waited before or has just come. -/
theorem submitting_apply {c' : CallId}
    (h : (e.apply sha256Hex s).calls c' = some (.submitting input limits)) :
    s.calls c' = some (.submitting input limits) ∨ e = .submitAndWait c' input limits := by
  have hnone (hsubmitted : NoneSubmitted s (e.apply sha256Hex s)) :
      s.calls c' = some (.submitting input limits) ∨ e = .submitAndWait c' input limits :=
    Or.inl (hsubmitted c' input limits h)
  cases e with
  | submitAndWait c input' limits' =>
    change Function.update s.calls c (some (.submitting input' limits')) c' = _ at h
    by_cases hc : c' = c
    · rw [hc, Function.update_self] at h
      obtain ⟨rfl, rfl⟩ := Call.submitting.inj (Option.some.inj h)
      exact Or.inr (hc ▸ rfl)
    · rw [Function.update_of_ne hc] at h
      exact Or.inl h
  | lease c info max waitMs => exact hnone (noneSubmitted_update fun _ _ heq => by cases heq)
  | complete c jobId leaseToken result =>
    exact hnone (noneSubmitted_update fun _ _ heq => by cases heq)
  | heartbeat info => exact Or.inl h
  | resume c tokens =>
    apply hnone
    simp only [CrawlerEvent.apply]
    split
    · exact noneSubmitted_endCall.trans noneSubmitted_submit
    · unfold CrawlerState.enter
      split
      · exact noneSubmitted_endCall
      · exact noneSubmitted_claim
    · exact noneSubmitted_claimed
    · exact noneSubmitted_claim
    · exact noneSubmitted_endCall.trans noneSubmitted_complete
    · exact noneSubmitted_of_calls rfl
    · exact noneSubmitted_of_calls rfl
  | abort c => exact hnone noneSubmitted_endCall
  | timeout c =>
    apply hnone
    simp only [CrawlerEvent.apply]
    split
    · exact noneSubmitted_update fun _ _ heq => by cases heq
    · exact noneSubmitted_of_calls rfl
  | fire t => exact hnone (noneSubmitted_of_calls calls_expireJob)
  | alarm => exact hnone (noneSubmitted_of_calls calls_alarm)
  | reset => contradiction
  | world now maintenance => exact Or.inl h

/-- Only the world moves the clock. -/
theorem now_apply (h : ∀ now maintenance, e ≠ .world now maintenance) :
    (e.apply sha256Hex s).now = s.now := by
  cases e with
  | resume c tokens =>
    simp only [CrawlerEvent.apply]
    split
    · unfold CrawlerState.submit
      split
      · rfl
      · dsimp only
        split <;> rfl
    · unfold CrawlerState.enter
      split
      · rfl
      · exact leaseJob_oneJob.foldl_now
    · have hstored : ∀ claimed : List Claimed,
          (claimed.foldl (fun s' claim => s'.storeHash sha256Hex claim) s).now = s.now :=
        fun _ => storeHash_oneJob.foldl_now
      unfold CrawlerState.claimed
      dsimp only
      split
      · exact hstored _
      · split <;> exact hstored _
    · exact leaseJob_oneJob.foldl_now
    · unfold CrawlerState.complete CrawlerState.resolveWaiter
      dsimp only
      split
      · split <;> rfl
      · rfl
    · rfl
    · rfl
  | timeout c =>
    simp only [CrawlerEvent.apply]
    split <;> rfl
  | fire t => exact expireJob_oneJob.now
  | alarm => exact now_expireAll.trans now_expireAll
  | world now maintenance => exact absurd rfl (h now maintenance)
  | submitAndWait c input limits => rfl
  | lease c info max waitMs => rfl
  | complete c jobId leaseToken result => rfl
  | heartbeat info => rfl
  | abort c => rfl
  | reset => rfl

end Submissions

/-! ## Rows and their times -/

/-- The row says when the alarm has something to do about it, and was not to wait longer for its
lease than for its result. -/
structure JobRow.Timely (now : Nat) (row : JobRow) : Prop where
  dated : row.due ≠ none
  created : row.createdAt ≤ now
  patient : row.queueDeadline ≤ row.createdAt + row.resultWaitMs

def Timely (now : Nat) (s : CrawlerState) : Prop := ∀ row ∈ s.jobs, row.Timely now

section Timely

variable {sha256Hex : String → String} {s : CrawlerState} {e : CrawlerEvent} {jobId : JobId}
  {row : JobRow} {now : Nat}

private theorem timely_updateJob {f : JobRow → JobRow}
    (hf : ∀ row, row.Timely now → (f row).Timely now) (h : Timely now s) :
    Timely now (s.updateJob jobId f) := by
  intro row hrow
  obtain ⟨old, hold, rfl⟩ := List.mem_map.mp hrow
  split
  · exact hf old (h old hold)
  · exact h old hold

private theorem JobRow.Timely.ended {state : JobState} {at_ : Nat} (h : row.Timely now)
    (hclosed : ¬state.Open) : (row.ended state at_).Timely now := by
  refine ⟨?_, h.created, h.patient⟩
  cases state with
  | queued => exact absurd (Or.inl rfl) hclosed
  | leased => exact absurd (Or.inr rfl) hclosed
  | completed => simp [JobRow.ended, JobRow.due]
  | expired => simp [JobRow.ended, JobRow.due]

private theorem jobs_resolveWaiter (outcome : SubmitOutcome) :
    (s.resolveWaiter jobId outcome).jobs = s.jobs := by
  unfold CrawlerState.resolveWaiter
  split <;> rfl

private theorem timely_finish {f : JobRow → JobRow} {entry : Entry} {outcome : SubmitOutcome}
    (hf : ∀ row, row.Timely now → (f row).Timely now) (h : Timely now s) :
    Timely now (finish s jobId f entry outcome) := by
  have hupdated : Timely now ((s.note entry).updateJob jobId f) := timely_updateJob hf h
  intro row hrow
  rw [finish, jobs_resolveWaiter] at hrow
  exact hupdated row hrow

private theorem not_open_expired : ¬JobState.expired.Open := by simp [JobState.Open]

private theorem not_open_completed : ¬JobState.completed.Open := by simp [JobState.Open]

private theorem timely_expireJob {stage : Stage} (h : Timely now s) :
    Timely now (s.expireJob jobId stage) := by
  rw [expireJob_eq]
  split
  · exact h
  · dsimp only
    split <;> exact timely_finish (fun _ hrow => hrow.ended not_open_expired) h

private theorem timely_expireAll {stage : Stage} (ids : List JobId) (h : Timely now s) :
    Timely now (s.expireAll stage ids) := by
  unfold CrawlerState.expireAll
  induction ids generalizing s with
  | nil => exact h
  | cons id ids ih => exact ih (timely_expireJob h)

private theorem timely_alarm (h : Timely now s) : Timely now s.alarm := by
  have hexpired : Timely now ((s.expireAll .lease s.lateQueued).expireAll .result
      (s.expireAll .lease s.lateQueued).lateLeased) :=
    timely_expireAll _ (timely_expireAll s.lateQueued h)
  exact fun row hrow => hexpired row (List.mem_of_mem_filter hrow)

private theorem timely_submit {input : CrawlerJobInput} {limits : SubmitLimits}
    (hlimits : limits.LeaseWithinResult) (h : Timely s.now s) :
    Timely s.now (s.submit input limits) := by
  unfold CrawlerState.submit
  split
  · exact h
  · dsimp only
    split
    · exact h
    · intro row hrow
      rcases List.mem_append.mp hrow with hold | hnew
      · exact h row hold
      · rw [List.mem_singleton.mp hnew]
        exact ⟨by simp [JobRow.due], Nat.le_refl _, Nat.add_le_add_left hlimits s.now⟩

private theorem timely_leaseJob {info : RunnerInfo} {leasedAt : Nat} (h : Timely now s) :
    Timely now (s.leaseJob info leasedAt row) := by
  refine timely_updateJob (s := s) ?_ h
  intro old hold
  split
  · exact ⟨by simp [JobRow.due], hold.created, hold.patient⟩
  · exact hold

private theorem timely_claim {c : CallId} {info : RunnerInfo} {max deadline : Nat}
    {tokens : JobId → String} (h : Timely now s) :
    Timely now (s.claim c info max deadline tokens) := by
  rw [claim_eq]
  generalize s.candidates max info.fetchModes = rows
  generalize claimsOf s rows tokens = claims
  have hfold : ∀ leasedAt,
      Timely now (rows.foldl (fun s' row => s'.leaseJob info leasedAt row) s) := by
    intro leasedAt
    induction rows generalizing s with
    | nil => exact h
    | cons row rows ih => exact ih (timely_leaseJob h)
  exact hfold s.now

private theorem timely_claimed {c : CallId} {info : RunnerInfo} {max deadline : Nat}
    {claimed : List Claimed} (h : Timely now s) :
    Timely now (s.claimed sha256Hex c info max deadline claimed) := by
  have hfold : Timely now (claimed.foldl (fun s' claim => s'.storeHash sha256Hex claim) s) := by
    induction claimed generalizing s with
    | nil => exact h
    | cons claim claimed ih =>
      exact ih (timely_updateJob (fun _ hrow => ⟨hrow.dated, hrow.created, hrow.patient⟩) h)
  unfold CrawlerState.claimed
  dsimp only
  split
  · exact hfold
  · split <;> exact hfold

private theorem timely_complete {leaseToken : String} {result : RunnerResult} (h : Timely now s) :
    Timely now (s.complete sha256Hex jobId leaseToken result) := by
  by_cases haccepted : s.completeOutcome sha256Hex jobId leaseToken result = .accepted
  · rw [complete_accepted haccepted]
    exact timely_finish (fun _ hrow => hrow.ended not_open_completed) h
  · rw [complete_rejected haccepted]
    exact h

/-- No event makes a row late for what it was promised. -/
theorem timely_apply (h : Timely s.now s)
    (hlimits : ∀ c input limits, s.calls c = some (.submitting input limits) →
      limits.LeaseWithinResult) : Timely s.now (e.apply sha256Hex s) := by
  cases e with
  | submitAndWait c input limits => exact h
  | lease c info max waitMs => exact h
  | complete c jobId leaseToken result => exact h
  | heartbeat info => exact h
  | resume c tokens =>
    simp only [CrawlerEvent.apply]
    split
    · next input limits hcall =>
      exact timely_submit (s := s.endCall c) (hlimits c input limits hcall) h
    · unfold CrawlerState.enter
      split
      · exact h
      · exact timely_claim h
    · exact timely_claimed h
    · exact timely_claim h
    · exact timely_complete h
    · exact h
    · exact h
  | abort c => exact h
  | timeout c =>
    simp only [CrawlerEvent.apply]
    split <;> exact h
  | fire t => exact timely_expireJob (s := { s with armed := s.armed.erase t }) h
  | alarm => exact timely_alarm h
  | reset => exact h
  | world now maintenance => exact h

end Timely

/-! ## Events that do not schedule -/

/-- The alarm has something to do about the row no sooner than about the old one. -/
def JobRow.NoSooner (row old : JobRow) : Prop :=
  ∀ due, old.due = some due → ∃ due', row.due = some due' ∧ due ≤ due'

theorem JobRow.noSooner_self (row : JobRow) : row.NoSooner row :=
  fun due hdue => ⟨due, hdue, Nat.le_refl due⟩

section Unscheduled

variable {sha256Hex : String → String} {s s' s'' : CrawlerState} {e : CrawlerEvent} {c : CallId}
  {info : RunnerInfo} {now : Nat} {row : JobRow} {rows : List JobRow}

/-- The rows need the alarm no sooner than rows of before. -/
private def Later (s s' : CrawlerState) : Prop := ∀ row ∈ s'.jobs, ∃ old ∈ s.jobs, row.NoSooner old

private theorem later_of_jobs (hjobs : s'.jobs = s.jobs) : Later s s' :=
  fun row hrow => ⟨row, hjobs ▸ hrow, row.noSooner_self⟩

private theorem Later.trans (h : Later s s') (h' : Later s' s'') : Later s s'' := by
  intro row hrow
  obtain ⟨between, hbetween, hrow'⟩ := h' row hrow
  obtain ⟨old, hold, hbetween'⟩ := h between hbetween
  refine ⟨old, hold, fun due hdue => ?_⟩
  obtain ⟨due', hdue', hle⟩ := hbetween' due hdue
  obtain ⟨due'', hdue'', hle'⟩ := hrow' due' hdue'
  exact ⟨due'', hdue'', hle.trans hle'⟩

/-- A lease writes one row, if that is still queued. -/
private theorem mem_leaseJob {new : JobRow} (h : new ∈ (s.leaseJob info now row).jobs) :
    new ∈ s.jobs ∨ ∃ old ∈ s.jobs, old.jobId = row.jobId ∧ old.state = .queued ∧
      new = { old with
        state := .leased
        runnerId := some info.runnerId
        leaseDeadline := some (now + row.resultWaitMs) } := by
  obtain ⟨old, hold, rfl⟩ := List.mem_map.mp h
  by_cases hwritten : old.jobId = row.jobId ∧ old.state = .queued
  · refine Or.inr ⟨old, hold, hwritten.1, hwritten.2, ?_⟩
    rw [if_pos hwritten.1]
    exact if_pos hwritten.2
  · apply Or.inl
    split
    · next hid =>
      dsimp only
      rwa [if_neg fun hqueued => hwritten ⟨hid, hqueued⟩]
    · exact hold

/-- A lease of `row` now ends no sooner than the queue of the rows it is written to. -/
private def LeasePatient (now : Nat) (row : JobRow) (s : CrawlerState) : Prop :=
  ∀ old ∈ s.jobs, old.jobId = row.jobId → old.state = .queued →
    old.queueDeadline ≤ now + row.resultWaitMs

private theorem later_leaseJob (h : LeasePatient now row s) : Later s (s.leaseJob info now row) := by
  intro new hnew
  rcases mem_leaseJob hnew with hold | ⟨old, hold, hid, hstate, rfl⟩
  · exact ⟨new, hold, new.noSooner_self⟩
  · refine ⟨old, hold, fun due hdue => ?_⟩
    rw [JobRow.due, hstate] at hdue
    obtain rfl := Option.some.inj hdue
    exact ⟨now + row.resultWaitMs, rfl, h old hold hid hstate⟩

/-- A row that is still queued is as it was. -/
private theorem leasePatient_leaseJob {row' : JobRow} (h : LeasePatient now row' s) :
    LeasePatient now row' (s.leaseJob info now row) := by
  intro new hnew hid hstate
  rcases mem_leaseJob hnew with hold | ⟨old, _, _, _, rfl⟩
  · exact h new hold hid hstate
  · contradiction

private theorem later_leaseJobs (h : ∀ row ∈ rows, LeasePatient now row s) :
    Later s (rows.foldl (fun s' row => s'.leaseJob info now row) s) := by
  induction rows generalizing s with
  | nil => exact later_of_jobs rfl
  | cons row rows ih =>
    rw [List.forall_mem_cons] at h
    exact (later_leaseJob h.1).trans (ih fun row' hrow' => leasePatient_leaseJob (h.2 row' hrow'))

private theorem later_claim {max deadline : Nat} {tokens : JobId → String} (hinv : ObjectInv s)
    (h : Timely s.now s) : Later s (s.claim c info max deadline tokens) := by
  apply later_leaseJobs
  intro row hrow old hold hid _
  obtain ⟨hmem, _⟩ := mem_candidates hrow
  have hfound := row_of_mem hinv.ids hold
  rw [hid, row_of_mem hinv.ids hmem] at hfound
  obtain rfl := Option.some.inj hfound
  have htimely := h row hmem
  exact htimely.patient.trans (Nat.add_le_add_right htimely.created _)

private theorem submit_refused {input : CrawlerJobInput} {limits : SubmitLimits}
    (h : s.accepts input limits = false) :
    ∃ reason, s.submit input limits = s.note (.refused input.jobId reason) := by
  unfold CrawlerState.accepts at h
  unfold CrawlerState.submit
  cases hmaintenance : s.maintenance input.executorId with
  | true => exact ⟨_, if_pos rfl⟩
  | false =>
    rw [hmaintenance, Bool.not_false, Bool.true_and] at h
    dsimp only
    rw [if_neg Bool.false_ne_true, h]
    exact ⟨_, rfl⟩

/-- A claim that found nothing. -/
private theorem later_claimed {max deadline : Nat} :
    Later s (s.claimed sha256Hex c info max deadline []) := by
  unfold CrawlerState.claimed
  dsimp only [List.foldl_nil]
  rw [if_neg (fun hne => hne rfl)]
  split <;> exact later_of_jobs rfl

private theorem later_resume {tokens : JobId → String} (hinv : ObjectInv s) (h : Timely s.now s)
    (hnot : (CrawlerEvent.resume c tokens).schedules sha256Hex s = false) :
    Later s ((CrawlerEvent.resume c tokens).apply sha256Hex s) := by
  cases hcall : s.calls c with
  | none =>
    simp only [CrawlerEvent.apply, hcall]
    exact later_of_jobs rfl
  | some call =>
    cases call with
    | submitting input limits =>
      simp only [CrawlerEvent.schedules, hcall] at hnot
      obtain ⟨reason, heq⟩ := submit_refused (s := s.endCall c) hnot
      simp only [CrawlerEvent.apply, hcall, heq]
      exact later_of_jobs rfl
    | entering info max waitMs =>
      simp only [CrawlerEvent.apply, hcall]
      unfold CrawlerState.enter
      split
      · exact later_of_jobs rfl
      · exact later_claim hinv h
    | hashing info max deadline claimed =>
      simp only [CrawlerEvent.schedules, hcall, decide_eq_false_iff_not, not_not] at hnot
      subst hnot
      simp only [CrawlerEvent.apply, hcall]
      exact later_claimed
    | parked info max deadline =>
      simp only [CrawlerEvent.apply, hcall]
      exact later_of_jobs rfl
    | woken info max deadline =>
      simp only [CrawlerEvent.apply, hcall]
      exact later_claim hinv h
    | presenting jobId leaseToken result =>
      simp only [CrawlerEvent.schedules, hcall, decide_eq_false_iff_not] at hnot
      have hrejected : (s.endCall c).completeOutcome sha256Hex jobId leaseToken result ≠ .accepted :=
        hnot
      simp only [CrawlerEvent.apply, hcall, complete_rejected hrejected]
      exact later_of_jobs rfl

/-- After an event that does not schedule no row needs the alarm sooner: what it leases was not to
wait longer for its lease. -/
theorem unscheduled (hinv : ObjectInv s) (h : Timely s.now s)
    (hnot : e.schedules sha256Hex s = false) (hrow : row ∈ (e.apply sha256Hex s).jobs) :
    ∃ old ∈ s.jobs, row.NoSooner old := by
  have hlater : Later s (e.apply sha256Hex s) := by
    cases e with
    | submitAndWait c input limits => exact later_of_jobs rfl
    | lease c info max waitMs => exact later_of_jobs rfl
    | complete c jobId leaseToken result => exact later_of_jobs rfl
    | resume c tokens => exact later_resume hinv h hnot
    | abort c => exact later_of_jobs rfl
    | timeout c =>
      simp only [CrawlerEvent.apply]
      split <;> exact later_of_jobs rfl
    | fire t =>
      have hlate : ∀ row, ({ s with armed := s.armed.erase t } : CrawlerState).row t.jobId =
          some row → row.state ≠ t.stage.fromState := by
        intro row hrow
        have hrow' : s.row t.jobId = some row := hrow
        simpa [CrawlerEvent.schedules, CrawlerState.finds, hrow'] using hnot
      rw [CrawlerEvent.apply, expireJob_late hlate]
      exact later_of_jobs rfl
    | reset => exact later_of_jobs rfl
    | world now maintenance => exact later_of_jobs rfl
    | heartbeat info => contradiction
    | alarm => contradiction
  exact hlater row hrow

end Unscheduled

end Utsuroi.Crawler
