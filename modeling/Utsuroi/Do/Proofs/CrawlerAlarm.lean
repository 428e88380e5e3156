import Mathlib.Tactic
import Utsuroi.Do.CrawlerAlarm
import Utsuroi.Do.Proofs.Crawler
import Utsuroi.Pipeline.FetchTarget

/-!
# The alarm covers the rows

After every event the alarm is set no later than any row needs it.  A lease is written before the
alarm is set, with an await between, and a loss of the memory there leaves the alarm as it was: for
the end of the queue, which is no later than that of the lease.
-/

namespace Utsuroi.Crawler

open Transition

/-- The alarm covers every row. -/
def AlarmedState.Covered (s : AlarmedState) : Prop := ∀ row ∈ s.object.jobs, s.Covers row

/-! ## What the alarm does -/

section Alarm

variable {s : CrawlerState} {stage : Stage} {jobId : JobId} {row : JobRow}

private theorem mem_expireJob (h : ObjectInv s) (hrow : row ∈ (s.expireJob jobId stage).jobs) :
    (row ∈ s.jobs ∧ (row.jobId = jobId → row.state ≠ stage.fromState)) ∨ row.state = .expired := by
  rw [expireJob_eq] at hrow
  cases hfound : (s.row jobId).filter fun row => row.state = stage.fromState with
  | none =>
    rw [hfound] at hrow
    apply Or.inl
    refine ⟨hrow, fun hid hstate => ?_⟩
    have hself := row_of_mem h.ids hrow
    rw [hid] at hself
    rw [hself, Option.filter_some, if_pos (decide_eq_true hstate)] at hfound
    contradiction
  | some found =>
    rw [hfound] at hrow
    have hjobs : row ∈ (s.updateJob jobId fun row => row.ended .expired s.now).jobs := by
      dsimp only at hrow
      unfold finish CrawlerState.resolveWaiter at hrow
      split at hrow <;> split at hrow <;> exact hrow
    obtain ⟨old, hold, rfl⟩ := List.mem_map.mp hjobs
    split
    · exact Or.inr rfl
    · next hid => exact Or.inl ⟨hold, fun heq => absurd heq hid⟩

private theorem mem_expireAll (h : ObjectInv s) {ids : List JobId}
    (hrow : row ∈ (s.expireAll stage ids).jobs) :
    (row ∈ s.jobs ∧ (row.jobId ∈ ids → row.state ≠ stage.fromState)) ∨ row.state = .expired := by
  unfold CrawlerState.expireAll at hrow
  induction ids generalizing s with
  | nil => exact Or.inl ⟨hrow, fun hmem => by contradiction⟩
  | cons id ids ih =>
    rcases ih (objectInv_expireJob h stage) hrow with ⟨hmem, hrest⟩ | hexpired
    · rcases mem_expireJob h hmem with ⟨hold, hhead⟩ | hexpired
      · exact Or.inl ⟨hold, fun hid => (List.mem_cons.mp hid).elim hhead hrest⟩
      · exact Or.inr hexpired
    · exact Or.inr hexpired

/-- What the alarm leaves is expired, or a row of before that was not late. -/
private theorem mem_alarm (h : ObjectInv s) (hrow : row ∈ s.alarm.jobs) :
    row.state = .expired ∨ row ∈ s.jobs ∧
      (row.state = .queued → s.now < row.queueDeadline) ∧
        (row.state = .leased → ∀ deadline, row.leaseDeadline = some deadline →
          s.now < deadline) := by
  have hkept : row ∈ ((s.expireAll .lease s.lateQueued).expireAll .result
      (s.expireAll .lease s.lateQueued).lateLeased).jobs := List.mem_of_mem_filter hrow
  rcases mem_expireAll (objectInv_expireAll h) hkept with ⟨hmem, hleased⟩ | hexpired
  · rcases mem_expireAll h hmem with ⟨hold, hqueued⟩ | hexpired
    · refine Or.inr ⟨hold, fun hstate => ?_, fun hstate deadline hdeadline => ?_⟩
      · by_contra hlate
        refine hqueued (List.mem_map.mpr ⟨row, List.mem_filter.mpr ⟨hold, ?_⟩, rfl⟩) hstate
        simp [hstate, Nat.le_of_not_lt hlate]
      · by_contra hlate
        refine hleased (List.mem_map.mpr ⟨row, List.mem_filter.mpr ⟨hmem, ?_⟩, rfl⟩) hstate
        rw [now_expireAll]
        simp [hstate, hdeadline, Nat.le_of_not_lt hlate]
    · exact Or.inl hexpired
  · exact Or.inl hexpired

/-- A row that is neither queued nor leased after the alarm is kept for its retention only. -/
private theorem retained_alarm (hrow : row ∈ s.alarm.jobs) {terminalAt : Nat}
    (hterminal : row.terminalAt = some terminalAt) :
    s.now < terminalAt + TERMINAL_RETENTION_MS := by
  have hkept := (List.mem_filter.mp hrow).2
  rw [hterminal, Option.any_some, Bool.not_eq_true', decide_eq_false_iff_not] at hkept
  exact Nat.lt_of_not_le hkept

end Alarm

/-! ## Runs -/

section Runs

variable {sha256Hex : String → String} {C : StepCond AlarmedState CrawlerEvent}
  {es : List CrawlerEvent} {s s' : AlarmedState} {e : CrawlerEvent} {row : JobRow}

/-- An alarm that was early enough is early enough for a row that needs it no sooner. -/
private theorem covers_noSooner {old : JobRow} (halarm : s'.alarm = s.alarm)
    (hat : s'.scheduledAt = s.scheduledAt) (hrow : row.NoSooner old) (h : s.Covers old) :
    s'.Covers row := by
  obtain ⟨due, alarm, hdue, hset, hle⟩ := h
  obtain ⟨due', hdue', hlater⟩ := hrow due hdue
  rw [← halarm] at hset
  rw [← hat] at hle
  exact ⟨due', alarm, hdue', hset, hle.trans (max_le_max_right _ hlater)⟩

private theorem apply_scheduled (h : e.schedules sha256Hex s.object = true) :
    ∃ s₁ : AlarmedState, s₁.object = e.apply sha256Hex s.object ∧
      s.apply sha256Hex e = s₁.scheduleAlarm := by
  unfold AlarmedState.apply
  dsimp only
  rw [if_pos h]
  split
  · exact ⟨_, rfl, rfl⟩
  · exact ⟨_, rfl, rfl⟩

private theorem apply_unscheduled (h : e.schedules sha256Hex s.object = false) :
    (s.apply sha256Hex e).alarm = s.alarm ∧ (s.apply sha256Hex e).scheduledAt = s.scheduledAt := by
  unfold AlarmedState.apply
  dsimp only
  rw [if_neg (by simp [h])]
  split <;> exact ⟨rfl, rfl⟩

/-- What the coverage rests on. -/
structure AlarmInv (s : AlarmedState) : Prop where
  timely : Timely s.object.now s.object
  limits : ∀ c input limits, s.object.calls c = some (.submitting input limits) →
    limits.LeaseWithinResult
  covered : s.Covered

private theorem timely_step (h : AlarmInv s) (he : orderedWaits es s e) :
    Timely (e.apply sha256Hex s.object).now (e.apply sha256Hex s.object) := by
  have htimely : Timely s.object.now (e.apply sha256Hex s.object) := timely_apply h.timely h.limits
  cases e with
  | world now maintenance =>
    intro row hrow
    have hold := htimely row hrow
    exact ⟨hold.dated, hold.created.trans he, hold.patient⟩
  | _ => rwa [now_apply (by simp)]

private theorem covered_scheduled (htimely : Timely s.object.now (e.apply sha256Hex s.object))
    (h : e.schedules sha256Hex s.object = true) : (s.apply sha256Hex e).Covered := by
  obtain ⟨s₁, hobject, heq⟩ := apply_scheduled h
  rw [heq]
  intro row hrow
  rw [scheduleAlarm_object] at hrow
  have hdated : row.due ≠ none := (htimely row (hobject ▸ hrow)).dated
  exact scheduleAlarm_covers hrow hdated

/-- An event that does not set the alarm has no row need it sooner. -/
private theorem covered_unscheduled (hobject : ObjectInv s.object) (h : AlarmInv s)
    (hnot : e.schedules sha256Hex s.object = false) : (s.apply sha256Hex e).Covered := by
  obtain ⟨halarm, hat⟩ := apply_unscheduled hnot
  intro row hrow
  rw [apply_object] at hrow
  obtain ⟨old, hold, hsooner⟩ := unscheduled hobject h.timely hnot hrow
  exact covers_noSooner halarm hat hsooner (h.covered old hold)

theorem alarmInv_step (hobject : ObjectInv s.object) (h : AlarmInv s) (he : orderedWaits es s e) :
    AlarmInv (s.apply sha256Hex e) := by
  constructor
  · rw [apply_object]
    exact timely_step h he
  · intro c input limits hcall
    rw [apply_object] at hcall
    rcases submitting_apply hcall with hwaiting | rfl
    · exact h.limits c input limits hwaiting
    · exact he
  · cases hschedules : e.schedules sha256Hex s.object with
    | true => exact covered_scheduled (timely_apply h.timely h.limits) hschedules
    | false => exact covered_unscheduled hobject h hschedules

theorem alarmInv_run (h : (alarmedSystem sha256Hex).Run orderedWaits es s) : AlarmInv s := by
  induction h with
  | start hinit =>
    obtain ⟨⟨hjobs, _, _, _, _, _, _, hcalls, _⟩, _⟩ := hinit
    constructor
    · simp [Timely, hjobs]
    · simp [hcalls]
    · simp [AlarmedState.Covered, hjobs]
  | next hrun hstep he ih =>
    obtain ⟨_, rfl⟩ := hstep
    exact alarmInv_step (crawlerInv_run (object_run hrun)).object ih he

/-- After the alarm no row is overdue. -/
private theorem alarm_due (h : ObjectInv s.object) {row : JobRow} (hrow : row ∈ s.object.alarm.jobs)
    {due : Nat} (hdue : row.due = some due) : s.object.now < due := by
  have hterminal : row.terminalAt.map (· + TERMINAL_RETENTION_MS) = some due →
      s.object.now < due := by
    intro hmap
    obtain ⟨terminalAt, hat, rfl⟩ := Option.map_eq_some_iff.mp hmap
    exact retained_alarm hrow hat
  unfold JobRow.due at hdue
  rcases mem_alarm h hrow with hexpired | ⟨_, hqueued, hleased⟩
  · rw [hexpired] at hdue
    exact hterminal hdue
  · cases hstate : row.state with
    | queued =>
      rw [hstate] at hdue
      exact Option.some.inj hdue ▸ hqueued hstate
    | leased =>
      rw [hstate] at hdue
      exact hleased hstate due hdue
    | completed =>
      rw [hstate] at hdue
      exact hterminal hdue
    | expired =>
      rw [hstate] at hdue
      exact hterminal hdue

/-- The alarm expires what is overdue, whether somebody waits for it or not. -/
private theorem alarm_expires (h : CrawlerInv sha256Hex s.object) {row : JobRow}
    (hrow : row ∈ s.object.jobs) (hopen : row.state.Open) {due : Nat} (hdue : row.due = some due)
    (hlate : due ≤ s.object.now) :
    ∃ row' ∈ s.object.alarm.jobs, row'.jobId = row.jobId ∧ row'.state = .expired := by
  have hfound := row_of_mem h.object.ids hrow
  have hjob : JobStep sha256Hex row.jobId _ (s.object.alarm.view row.jobId) := view_alarm h.object
  have hstep : RowStep (s.object.row row.jobId) (s.object.alarm.row row.jobId) :=
    hjob.rowStep (h.memory row.jobId)
  rw [hfound] at hstep
  cases hafter : s.object.alarm.row row.jobId with
  | none =>
    rw [hafter] at hstep
    exact absurd hopen hstep
  | some row' =>
    have hmem : row' ∈ s.object.alarm.jobs := List.mem_of_find?_eq_some hafter
    refine ⟨row', hmem, row_jobId hafter, ?_⟩
    rcases mem_alarm h.object hmem with hexpired | ⟨hold, _, _⟩
    · exact hexpired
    · exfalso
      have hsame := row_of_mem h.object.ids hold
      rw [row_jobId hafter, hfound] at hsame
      obtain rfl := Option.some.inj hsame
      exact absurd (alarm_due h.object hmem hdue) (Nat.not_lt.mpr hlate)

/-- In every run whose submissions wait for their results at least as long as for their leases the
alarm covers every row, also after a loss of the memory.  It expires what is overdue, deletes what
was kept long enough and covers the rest. -/
theorem alarm_covers_rows (h : (alarmedSystem sha256Hex).Run orderedWaits es s) :
    s.Covered ∧ (s.apply sha256Hex .reset).Covered ∧ (s.apply sha256Hex .alarm).Covered ∧
      (∀ row ∈ (s.apply sha256Hex .alarm).object.jobs, ∀ due, row.due = some due →
        s.object.now < due) ∧
      ∀ row ∈ s.object.jobs, row.state.Open → ∀ due, row.due = some due → due ≤ s.object.now →
        ∃ row' ∈ (s.apply sha256Hex .alarm).object.jobs, row'.jobId = row.jobId ∧
          row'.state = .expired := by
  have hinv := crawlerInv_run (object_run h)
  have halarm := alarmInv_run h
  have hreset : AlarmInv (s.apply sha256Hex .reset) :=
    alarmInv_step hinv.object halarm (show orderedWaits es s .reset from trivial)
  have hafter : AlarmInv (s.apply sha256Hex .alarm) :=
    alarmInv_step hinv.object halarm (show orderedWaits es s .alarm from trivial)
  refine ⟨halarm.covered, hreset.covered, hafter.covered, ?_, ?_⟩
  · intro row hrow due hdue
    rw [apply_object] at hrow
    exact alarm_due hinv.object hrow hdue
  · intro row hrow hopen due hdue hlate
    rw [apply_object]
    exact alarm_expires hinv hrow hopen hdue hlate

end Runs

/-! ## The callers -/

/-- What `homeHttp` hands to `submitAndWait`. -/
def submittedLimits (limits : Option PullLimits) : SubmitLimits where
  aliveWindowMs := none
  leaseWaitMs := limits.map fun limits => limits.leaseWaitMs.toNat
  resultWaitMs := limits.map fun limits => limits.resultWaitMs.toNat

/-- A fetch of a check keeps what `orderedWaits` asks for, whatever is left of its budget, and so
does one without limits of its own. -/
theorem submittedLimits_leaseWithinResult (s : FetchState) (fetcherId : String) :
    (submittedLimits (s.submitLimits fetcherId)).LeaseWithinResult := by
  cases hpull : isPull fetcherId with
  | false =>
    have hlimits : s.submitLimits fetcherId = none := if_neg (by simp [hpull])
    rw [hlimits]
    exact (by decide : LEASE_WAIT_MS ≤ RESULT_WAIT_MS)
  | true =>
    have hlimits : s.submitLimits fetcherId = some _ := if_pos hpull
    rw [hlimits]
    simp only [SubmitLimits.LeaseWithinResult, submittedLimits, Option.map_some, Option.getD_some,
      FetchState.leaseWaitMs]
    omega

/-! ## A lease and a loss of the memory -/

def quietAlarm : AlarmedState := ⟨quietObject, none, false, 0⟩

/-- The limits of a check whose budget is full. -/
def checkLimits : SubmitLimits := ⟨none, some 10000, some 40000⟩

/-- A job is leased 4 s after it came, and the memory is lost while its token is hashed. -/
def lostLease : List CrawlerEvent :=
  [.reset,
    .resume 1 fun _ => "token",
    .world 4000 fun _ => false,
    .resume 0 fun _ => "",
    .submitAndWait 0 ⟨"pi", "job", "static", ⟨"https://a.example/", 100, []⟩⟩ checkLimits,
    .lease 1 ⟨"pi", "runner", ["static"]⟩ 1 1000]

/-- With the token for its own hash. -/
def alarmAfter (es : List CrawlerEvent) : AlarmedState :=
  stateAfter (AlarmedState.apply id) quietAlarm es

private theorem alarmAfter_run {es : List CrawlerEvent} {C : StepCond AlarmedState CrawlerEvent}
    (h : Replays (AlarmedState.apply id) quietAlarm (fun s e => e.Allowed s.object) C es) :
    (alarmedSystem id).Run C es (alarmAfter es) := by
  have hinit : (alarmedSystem id).init quietAlarm := ⟨quietObject_init, rfl⟩
  have hstep : ∀ (s : AlarmedState) (e : CrawlerEvent), e.Allowed s.object →
      (alarmedSystem id).step s e (s.apply id e) := fun _ _ hallowed => ⟨hallowed, rfl⟩
  exact h.run hinit hstep

/-- The alarm is left at the end of the queue, and when it comes it is set for the lease. -/
theorem alarm_covers_rows_lostLease :
    (alarmAfter lostLease).Covered ∧ (alarmAfter lostLease).alarm = some 10000 ∧
      (alarmAfter lostLease).object.jobs.map JobRow.due = [some 44000] ∧
      (alarmAfter (.alarm :: .world 10000 (fun _ => false) :: lostLease)).alarm = some 44000 ∧
      (alarmAfter (.alarm :: .world 44000 (fun _ => false) :: lostLease)).object.jobs.map
        JobRow.state = [.expired] :=
  ⟨(alarm_covers_rows (alarmAfter_run (by decide +kernel))).1, by decide +kernel, by decide +kernel,
    by decide +kernel, by decide +kernel⟩

end Utsuroi.Crawler
