import Mathlib.Tactic
import Utsuroi.Do.MonitorObject
import Utsuroi.Pipeline.Frames

/-!
# The schedule is never wedged

A scheduled run is answered with `skipped` when the job of its slot is running or closed.
A run closes its job and then moves `next_run_at` past the slot, by separate writes.
-/

namespace Utsuroi

open Async Prog Transition

/-- The job is not run again. -/
def CheckJobStatus.Closed (status : CheckJobStatus) : Prop :=
  status = .succeeded ∨ status = .failed ∨ status = .policyStopped

def Store.nextRunAt (id : MonitorId) (s : Store) : Option Nat :=
  (s.monitors id).bind MonitorRow.nextRunAt

/-- The monitor is scheduled later than `slot`, or not at all. -/
def Store.SlotPassed (id : MonitorId) (slot : Nat) (s : Store) : Prop :=
  ∀ nextRunAt, s.nextRunAt id = some nextRunAt → slot < nextRunAt

/-- No job was left running, and no slot whose job is closed comes up again. -/
def NotWedged (id : MonitorId) (s : Store) : Prop :=
  ∀ slot job, s.checkJobs ⟨id, slot⟩ = some job →
    job.status ≠ .running ∧ (job.status.Closed → s.SlotPassed id slot)

/-- A scheduled run of the monitor, active and due, is not answered with `skipped`. -/
def NeverSkipped (id : MonitorId) (s : Store) : Prop :=
  ∀ world faults row nextRunAt result, world.trigger = .scheduled → s.monitors id = some row →
    row.status = .active → row.nextRunAt = some nextRunAt → nextRunAt ≤ world.now →
    ((runMonitorCheck world id).exec faults [] s).exit = .ok result → result.kind ≠ .skipped

/-! ## When a run leaves the schedule in order -/

/-- Stopped like this, the run leaves its job running. -/
def Region.CutsRunning (fault : Fault) : Region → Prop
  | .starting => fault.After
  | .unguarded => fault ≠ .none
  | .deferring | .closing => fault.Before
  | .guarded => fault = .killBefore ∨ fault = .killAfter
  | .loading | .closed | .moving => False

/-- Stopped like this, the run leaves its job closed and `next_run_at` where it was. -/
def Region.CutsClosing (fault : Fault) : Region → Prop
  | .closing => fault.After
  | .closed => fault ≠ .none
  | .moving => fault.Before
  | .loading | .starting | .unguarded | .deferring | .guarded => False

/-- The time the run would move `next_run_at` to is past its slot and all closed ones. -/
def MovesPast (id : MonitorId) (world : CheckWorld) (s : Store) : Prop :=
  ∀ monitor slot, s.monitors id = some monitor →
    (slot = world.scheduledFor monitor.nextRunAt ∨
      ∃ job, s.checkJobs ⟨id, slot⟩ = some job ∧ job.status.Closed) →
    slot < world.nextRunAt monitor

/-- The condition on the calls of a run that starts in the state `s`. -/
def runCallGuarded (id : MonitorId) (world : CheckWorld) (s : Store)
    (call : Call RunSite Store) : Prop :=
  ¬call.site.region.CutsRunning call.fault ∧
    (¬call.site.region.CutsClosing call.fault ∨
      s.SlotPassed id (world.scheduledFor (s.nextRunAt id))) ∧
    (call.site.site = .setMonitorNextRun → MovesPast id world s)

/-- The condition on a check: it is stopped neither while its job is running, unless by an
exception the run catches, nor between closing the job and moving `next_run_at`, unless the
slot is passed already; and it moves `next_run_at` past the closed slots. -/
def monitorGuarded (id : MonitorId) : StepCond Store MonitorEvent
  | _, s, .check world faults =>
    ∀ call ∈ ((runCheckAndApply world id).exec faults [] s).log, runCallGuarded id world s call
  | _, _, .reconcile _ _ => True
  | _, _, .others _ => True

/-! ## One run -/

structure ScheduleInv (id : MonitorId) (s : Store) : Prop where
  monitor : ∀ row, s.monitors id = some row → row.id = id
  job : ∀ slot job, s.checkJobs ⟨id, slot⟩ = some job → job.id = ⟨id, slot⟩
  notWedged : NotWedged id s

/-- A run that started in `s₀` has its job in the status; nothing else has changed. -/
structure JobAt (id : MonitorId) (s₀ : Store) (slot : Nat) (status : CheckJobStatus)
    (s : Store) : Prop where
  monitor : ∀ row, s.monitors id = some row → row.id = id
  nextRunAt : s.nextRunAt id = s₀.nextRunAt id
  others : ∀ other, other ≠ slot → s.checkJobs ⟨id, other⟩ = s₀.checkJobs ⟨id, other⟩
  own : ∃ job, s.checkJobs ⟨id, slot⟩ = some job ∧ job.id = ⟨id, slot⟩ ∧ job.status = status

section Run

variable {id : MonitorId} {s₀ s s' : Store} {slot : Nat} {status status' : CheckJobStatus}

private theorem SlotPassed.of_eq {other : Nat} (h : s₀.SlotPassed id other)
    (heq : s.nextRunAt id = s₀.nextRunAt id) : s.SlotPassed id other :=
  fun nextRunAt hnext => h nextRunAt (heq ▸ hnext)

private theorem JobAt.of_schedule (h : JobAt id s₀ slot status s)
    (hs : s'.schedule = s.schedule) : JobAt id s₀ slot status s' := by
  obtain ⟨hmonitors, hjobs⟩ := Prod.mk.inj hs
  refine ⟨?_, ?_, ?_, ?_⟩
  · rw [hmonitors]
    exact h.monitor
  · rw [← h.nextRunAt, Store.nextRunAt, Store.nextRunAt, hmonitors]
  · rw [hjobs]
    exact h.others
  · rw [hjobs]
    exact h.own

private theorem JobAt.update (h : JobAt id s₀ slot status s) (status' : CheckJobStatus) :
    JobAt id s₀ slot status' (s.updateCheckJob ⟨id, slot⟩ status') := by
  refine ⟨h.monitor, h.nextRunAt, ?_, ?_⟩
  · intro other hne
    rw [← h.others other hne]
    exact Function.update_of_ne (by simp [hne]) _ _
  · obtain ⟨job, hjob, hid, _⟩ := h.own
    exact ⟨{ job with status := status' }, by simp [Store.updateCheckJob, hjob], hid, rfl⟩

private theorem JobAt.inv (h : JobAt id s₀ slot status s) (hinv : ScheduleInv id s₀)
    (hrunning : status ≠ .running) (hclosed : status.Closed → s₀.SlotPassed id slot) :
    ScheduleInv id s := by
  obtain ⟨own, hown, hid, hstatus⟩ := h.own
  refine ⟨h.monitor, ?_, ?_⟩
  · intro other job hjob
    by_cases hother : other = slot
    · subst hother
      obtain rfl := Option.some.inj (hown.symm.trans hjob)
      exact hid
    · rw [h.others other hother] at hjob
      exact hinv.job other job hjob
  · intro other job hjob
    by_cases hother : other = slot
    · subst hother
      obtain rfl := Option.some.inj (hown.symm.trans hjob)
      rw [hstatus]
      exact ⟨hrunning, fun hc => SlotPassed.of_eq (hclosed hc) h.nextRunAt⟩
    · rw [h.others other hother] at hjob
      obtain ⟨hnot, hpassed⟩ := hinv.notWedged other job hjob
      exact ⟨hnot, fun hc => SlotPassed.of_eq (hpassed hc) h.nextRunAt⟩

/-- Once `next_run_at` is past all closed slots, the schedule is in order. -/
private theorem JobAt.inv_moved (h : JobAt id s₀ slot status s) (hinv : ScheduleInv id s₀)
    (hclosed : status.Closed) (hjobs : s'.checkJobs = s.checkJobs)
    (hmonitor : ∀ row, s'.monitors id = some row → row.id = id)
    (hpast : ∀ other, other = slot ∨
      (∃ job, s₀.checkJobs ⟨id, other⟩ = some job ∧ job.status.Closed) →
      s'.SlotPassed id other) : ScheduleInv id s' := by
  obtain ⟨own, hown, hid, hstatus⟩ := h.own
  have hold : ∀ other job, other ≠ slot → s'.checkJobs ⟨id, other⟩ = some job →
      s₀.checkJobs ⟨id, other⟩ = some job := by
    intro other job hne hjob
    rwa [hjobs, h.others other hne] at hjob
  refine ⟨hmonitor, ?_, ?_⟩
  · intro other job hjob
    by_cases hother : other = slot
    · subst hother
      rw [hjobs, hown] at hjob
      obtain rfl := Option.some.inj hjob
      exact hid
    · exact hinv.job other job (hold other job hother hjob)
  · intro other job hjob
    by_cases hother : other = slot
    · subst hother
      rw [hjobs, hown] at hjob
      obtain rfl := Option.some.inj hjob
      refine ⟨?_, fun _ => hpast other (Or.inl rfl)⟩
      rw [hstatus]
      rintro rfl
      simp [CheckJobStatus.Closed] at hclosed
    · have hjob := hold other job hother hjob
      exact ⟨(hinv.notWedged other job hjob).1, fun hc => hpast other (Or.inr ⟨job, hjob, hc⟩)⟩

/-! ## The parts of a run -/

abbrev runCond (id : MonitorId) (world : CheckWorld) (s₀ : Store) : CallCond RunSite Store :=
  fun _ => runCallGuarded id world s₀

/-- A demand on the state when the part returns; when it is stopped the schedule is in
order. -/
abbrev partEnds {α : Type} (id : MonitorId) (ret : α → Store → Prop) : Post RunSite Store α :=
  .orStop (fun a _ => ret a) fun _ => ScheduleInv id

variable {world : CheckWorld} {monitor : MonitorRow} {α : Type}
  {log : List (Call RunSite Store)} {ret : α → Store → Prop}

private theorem wp_region {region : Region} {site : Site} {eff : Store → Store}
    {answer : Store → α}
    (hret : runCallGuarded id world s₀ ⟨⟨region, site⟩, s, .none⟩ → ret (answer s) (eff s))
    (hbefore : ∀ fault, fault.Before → runCallGuarded id world s₀ ⟨⟨region, site⟩, s, fault⟩ →
      ScheduleInv id s)
    (hafter : ∀ fault, fault.After → runCallGuarded id world s₀ ⟨⟨region, site⟩, s, fault⟩ →
      ScheduleInv id (eff s)) :
    (inRegion region (.call site eff answer)).wp (runCond id world s₀) (partEnds id ret) log s :=
  wp_call_orStop hret hbefore hafter

private theorem ne_none_of_before {fault : Fault} (h : fault.Before) : fault ≠ .none := by
  rintro rfl
  exact Fault.not_before_none h

private theorem ne_none_of_after {fault : Fault} (h : fault.After) : fault ≠ .none := by
  rintro rfl
  exact Fault.not_after_none h

/-- Where the job is running and nothing is caught, nothing is stopped. -/
private theorem wp_unguarded {p : Prog Site Store α} (hframes : p.Frames Store.schedule)
    (hreturns : p.Returns s fun _ _ => True) (h : JobAt id s₀ slot status s) :
    (inRegion .unguarded p).wp (runCond id world s₀)
      (partEnds id fun _ => JobAt id s₀ slot status) log s := by
  have hkeeps : p.Returns s fun _ => JobAt id s₀ slot status := by
    have hsame := hframes.run s
    obtain ⟨a, s', hrun, _⟩ := returns_iff.mp hreturns
    rw [hrun] at hsame
    exact returns_iff.mpr ⟨a, s', hrun, h.of_schedule hsame⟩
  refine wp_relabel_of_returns hkeeps ?_ fun _ _ _ h => h
  intro past site found fault hA
  by_contra hfault
  exact hA.1 hfault

private theorem updateMonitor_nextRunAt (f : MonitorRow → MonitorRow) :
    (s.updateMonitor id f).nextRunAt id =
      ((s.monitors id).map f).bind MonitorRow.nextRunAt := by
  simp [Store.updateMonitor, Store.nextRunAt]

private theorem updateMonitor_row {f : MonitorRow → MonitorRow} (hf : ∀ row, (f row).id = row.id)
    (h : ∀ row, s.monitors id = some row → row.id = id) :
    ∀ row, (s.updateMonitor id f).monitors id = some row → row.id = id := by
  intro row hrow
  simp only [Store.updateMonitor, Function.update_self, Option.map_eq_some_iff] at hrow
  obtain ⟨old, hold, rfl⟩ := hrow
  rw [hf]
  exact h old hold

private theorem JobAt.lastChecked (h : JobAt id s₀ slot status s) (now : Nat) :
    JobAt id s₀ slot status
      (s.updateMonitor id fun row => { row with lastCheckedAt := some now }) := by
  refine ⟨updateMonitor_row (fun _ => rfl) h.monitor, ?_, h.others, h.own⟩
  rw [updateMonitor_nextRunAt, ← h.nextRunAt, Store.nextRunAt]
  cases s.monitors id <;> rfl

private theorem passed_of_guarded {call : Call RunSite Store}
    (hslot : slot = world.scheduledFor (s₀.nextRunAt id))
    (hA : runCallGuarded id world s₀ call)
    (hcuts : call.site.region.CutsClosing call.fault) : s₀.SlotPassed id slot := by
  rcases hA.2.1 with hnot | hpassed
  · exact absurd hcuts hnot
  · exact hslot ▸ hpassed

private theorem finishStatus_closed (finish : FinishStatus) : finish.toCheckJobStatus.Closed := by
  cases finish with
  | succeeded => exact Or.inl rfl
  | failed => exact Or.inr (Or.inl rfl)

private theorem finishJob_wp {changeIds : List ChangeId} (hinv : ScheduleInv id s₀)
    (hmonitor : s₀.monitors id = some monitor)
    (hslot : slot = world.scheduledFor monitor.nextRunAt) (finish : FinishStatus)
    (h : JobAt id s₀ slot .running s) :
    (finishJob world monitor ⟨id, slot⟩ finish changeIds).wp (runCond id world s₀)
      (partEnds id fun _ => ScheduleInv id) log s := by
  obtain ⟨status, hstatus⟩ : ∃ status, status = finish.toCheckJobStatus := ⟨_, rfl⟩
  have hclosed : status.Closed := hstatus ▸ finishStatus_closed finish
  have hid : monitor.id = id := hinv.monitor monitor hmonitor
  have hnext : s₀.nextRunAt id = monitor.nextRunAt := by
    rw [Store.nextRunAt, hmonitor]
    rfl
  have hslot₀ : slot = world.scheduledFor (s₀.nextRunAt id) := by rw [hnext, hslot]
  have hrunning : status ≠ .running := by
    rintro rfl
    simp [CheckJobStatus.Closed] at hclosed
  have hstop : ∀ s, JobAt id s₀ slot status s → s₀.SlotPassed id slot → ScheduleInv id s :=
    fun s h hpassed => h.inv hinv hrunning fun _ => hpassed
  unfold finishJob
  rw [hid, ← hstatus]
  refine wp_seq (M := fun _ _ => JobAt id s₀ slot status) (wp_region ?_ ?_ ?_) ?_
  · exact fun _ => h.update status
  · exact fun fault hfault hA => absurd hfault hA.1
  · intro fault hfault hA
    exact hstop _ (h.update status) (passed_of_guarded hslot₀ hA hfault)
  rintro _ log s h
  refine wp_seq (M := fun _ _ => JobAt id s₀ slot status) (wp_region ?_ ?_ ?_) ?_
  · exact fun _ => h.lastChecked world.finishNow
  · intro fault hfault hA
    exact hstop s h (passed_of_guarded hslot₀ hA (ne_none_of_before hfault))
  · intro fault hfault hA
    exact hstop _ (h.lastChecked _) (passed_of_guarded hslot₀ hA (ne_none_of_after hfault))
  rintro _ log s h
  have hmoved : ∀ {fault}, runCallGuarded id world s₀
      ⟨⟨.moving, .setMonitorNextRun⟩, s, fault⟩ → ScheduleInv id
        (s.updateMonitor id fun row => { row with nextRunAt := some (world.nextRunAt monitor) }) := by
    intro fault hA
    refine h.inv_moved hinv hclosed rfl (updateMonitor_row (fun _ => rfl) h.monitor) ?_
    intro other hother nextRunAt hnextRunAt
    rw [updateMonitor_nextRunAt] at hnextRunAt
    have htime : nextRunAt = world.nextRunAt monitor := by
      cases hrow : s.monitors id with
      | none => simp [hrow] at hnextRunAt
      | some row => simpa [hrow] using hnextRunAt.symm
    rw [htime]
    exact hA.2.2 rfl monitor other hmonitor (hslot ▸ hother)
  refine wp_seq (M := fun _ _ => ScheduleInv id) (wp_region ?_ ?_ ?_) ?_
  · exact fun hA => hmoved hA
  · intro fault hfault hA
    exact hstop s h (passed_of_guarded hslot₀ hA hfault)
  · exact fun fault _ hA => hmoved hA
  · exact fun _ _ _ h => h

private theorem fetchAndProcess_frames (ctx : CheckContext) (target : TargetRow)
    (latestSnapshot : Option SnapshotRow) :
    (fetchAndProcess world ctx target latestSnapshot).Frames Store.schedule := by
  unfold fetchAndProcess
  refine frames_bind (world.fetchTarget _ _).frames fun outcome => ?_
  cases outcome with
  | failure failureClass retryAfterSeconds => trivial
  | success result notModified body =>
    refine frames_bind (frames_call.mpr fun _ => rfl) fun _ => ?_
    split
    · exact frames_bind (world.processor _ _).frames fun _ => trivial
    · trivial

/-- The part under the try: whatever is thrown in it, the job is still running. -/
private theorem fetchAndProcess_wp (ctx : CheckContext) (target : TargetRow)
    (latestSnapshot : Option SnapshotRow) (h : JobAt id s₀ slot .running s)
    {Q : Post RunSite Store CheckOutcome}
    (hret : ∀ outcome log s, JobAt id s₀ slot .running s → Q.ret outcome log s)
    (hthrown : ∀ log s, JobAt id s₀ slot .running s → Q.thrown log s) :
    (inRegion .guarded (fetchAndProcess world ctx target latestSnapshot)).wp
      (runCond id world s₀) Q log s := by
  refine wp_relabel_of_frames (fetchAndProcess_frames ctx target latestSnapshot) rfl ?_ ?_ ?_
  · intro past site s fault hA
    exact not_or.mp hA.1
  · exact fun outcome log s hs => hret outcome log s (h.of_schedule hs)
  · exact fun log s hs => hthrown log s (h.of_schedule hs)

section UnderJob

variable {ctx : CheckContext} {target : TargetRow}

private theorem release_wp {stop : Store → Prop} {ret : Store → Prop} (hret : ret s)
    (hstop : stop s) :
    (inRegion .loading (.query (.release world.lease.leaseId) fun _ => ())).wp
      (runCond id world s₀) (.orStop (fun _ _ => ret) fun _ => stop) log s :=
  wp_call_orStop (fun _ => hret) (fun _ _ _ => hstop) fun _ _ _ => hstop

private theorem checkUnderLease_wp (hinv : ScheduleInv id s₀)
    (hmonitor : s₀.monitors id = some ctx.monitor)
    (hslot : slot = world.scheduledFor ctx.monitor.nextRunAt)
    (latestSnapshot : Option SnapshotRow) (h : JobAt id s₀ slot .running s) :
    (checkUnderLease world ctx ⟨id, slot⟩ target latestSnapshot).wp (runCond id world s₀)
      (partEnds id fun _ => ScheduleInv id) log s := by
  have hrelease : ∀ log s, ScheduleInv id s →
      (inRegion .loading (.query (.release world.lease.leaseId) fun _ => ())).wp
        (runCond id world s₀) (partEnds id fun _ => ScheduleInv id) log s :=
    fun log s hs => release_wp hs hs
  unfold checkUnderLease
  rw [wp_tryFinally, wp_bind, wp_tryCatch]
  refine fetchAndProcess_wp ctx target latestSnapshot h ?_ ?_
  · intro outcome log s hs
    refine wp_mono (finishJob_wp hinv hmonitor hslot outcome.status hs) ?_ ?_ fun _ _ hs => hs
    · exact fun _ log s hs => hrelease log s hs
    · exact fun log s hs => hrelease log s hs
  · intro log s hs
    refine wp_bind.mpr ?_
    refine wp_mono (finishJob_wp hinv hmonitor hslot .failed hs) ?_ ?_ fun _ _ hs => hs
    · exact fun _ log s hs => hrelease log s hs
    · exact fun log s hs => hrelease log s hs

private theorem acquireAndCheck_wp (hinv : ScheduleInv id s₀)
    (hmonitor : s₀.monitors id = some ctx.monitor)
    (hslot : slot = world.scheduledFor ctx.monitor.nextRunAt)
    (h : JobAt id s₀ slot .running s) :
    (acquireAndCheck world ctx ⟨id, slot⟩ target).wp (runCond id world s₀)
      (partEnds id fun _ => ScheduleInv id) log s := by
  unfold acquireAndCheck
  refine wp_seq (wp_unguarded (by simp) (by simp) h) ?_
  intro lease log s h
  split
  · have hpending : ScheduleInv id (s.updateCheckJob ⟨id, slot⟩ .pending) :=
      (h.update .pending).inv hinv (by simp) (by simp [CheckJobStatus.Closed])
    refine wp_seq (M := fun _ _ => ScheduleInv id) (wp_region ?_ ?_ ?_) fun _ _ _ hs => hs
    · exact fun _ => hpending
    · exact fun fault hfault hA => absurd hfault hA.1
    · exact fun _ _ _ => hpending
  · refine wp_seq (wp_unguarded (by simp [getLatestSnapshotForTarget])
      (by simp [getLatestSnapshotForTarget]) h) ?_
    intro latestSnapshot log s h
    exact checkUnderLease_wp hinv hmonitor hslot latestSnapshot h

private theorem JobAt.inv_policyStopped (hinv : ScheduleInv id s₀)
    (h : JobAt id s₀ slot .policyStopped s) (stopReason : String) (evaluationId : Nat) :
    ScheduleInv id (s.updateMonitor id fun row =>
      { row with
        status := .blockedByRobots
        stopReason := some stopReason
        robotsEvaluationId := some evaluationId
        nextRunAt := none }) := by
  refine h.inv_moved hinv (Or.inr (Or.inr rfl)) rfl
    (updateMonitor_row (fun _ => rfl) h.monitor) ?_
  intro other _ nextRunAt hnextRunAt
  rw [updateMonitor_nextRunAt] at hnextRunAt
  cases hrow : s.monitors id <;> simp [hrow] at hnextRunAt

private theorem checkRobotsAndHost_wp (hinv : ScheduleInv id s₀)
    (hmonitor : s₀.monitors id = some ctx.monitor)
    (hslot : slot = world.scheduledFor ctx.monitor.nextRunAt)
    (h : JobAt id s₀ slot .running s) :
    (checkRobotsAndHost world ctx ⟨id, slot⟩ target).wp (runCond id world s₀)
      (partEnds id fun _ => ScheduleInv id) log s := by
  have hid : ctx.monitor.id = id := hinv.monitor ctx.monitor hmonitor
  have hslot₀ : slot = world.scheduledFor (s₀.nextRunAt id) := by
    rw [hslot, Store.nextRunAt, hmonitor]
    rfl
  unfold checkRobotsAndHost
  refine wp_seq (wp_unguarded (by simp) (by simp) h) ?_
  intro robotsMode log s h
  refine wp_seq (wp_unguarded (by simp) (by simp) h) ?_
  intro decision log s h
  refine wp_seq (wp_unguarded (frames_call.mpr fun _ => rfl) (by simp [createRobotsEvaluation]) h) ?_
  intro evaluationId log s h
  split
  · have hcount : (consecutiveUnavailable world decision).wp (runCond id world s₀)
        (partEnds id fun _ => JobAt id s₀ slot .running) log s := by
      unfold consecutiveUnavailable
      split
      · exact wp_unguarded (by simp [countConsecutiveUnavailableRobotsEvaluations])
          (by simp [countConsecutiveUnavailableRobotsEvaluations]) h
      · exact h
    refine wp_seq hcount ?_
    intro count log s h
    refine wp_seq (wp_unguarded (by simp [createCheckAttempt]) (by simp [createCheckAttempt]) h) ?_
    intro _ log s h
    split
    · exact finishJob_wp hinv hmonitor hslot .failed h
    · rw [hid]
      have hstop : ∀ s, JobAt id s₀ slot .policyStopped s → s₀.SlotPassed id slot →
          ScheduleInv id s := fun s h hpassed => h.inv hinv (by simp) fun _ => hpassed
      refine wp_seq (M := fun _ _ => JobAt id s₀ slot .policyStopped) (wp_region ?_ ?_ ?_) ?_
      · exact fun _ => h.update .policyStopped
      · exact fun fault hfault hA => absurd hfault hA.1
      · intro fault hfault hA
        exact hstop _ (h.update .policyStopped) (passed_of_guarded hslot₀ hA hfault)
      intro _ log s h
      refine wp_seq (M := fun _ _ => ScheduleInv id) (wp_region ?_ ?_ ?_) fun _ _ _ hs => hs
      · exact fun _ => h.inv_policyStopped hinv _ _
      · intro fault hfault hA
        exact hstop s h (passed_of_guarded hslot₀ hA hfault)
      · exact fun _ _ _ => h.inv_policyStopped hinv _ _
  · exact acquireAndCheck_wp hinv hmonitor hslot h

private theorem upsertTarget_returns (input : CreateTargetInput) (s : Store) :
    (upsertTarget input).Returns s fun _ _ => True := by
  unfold upsertTarget
  rw [returns_bind, returns_call]
  cases hold : s.targets input.id with
  | none => exact trivial
  | some row =>
    have hrow : (s.insertTarget input).targets input.id = some row := insertIfNew_keeps hold
    cases hupdated : input.lastKnownUpdatedAt with
    | none =>
      change Returns _ _ _
      simp [hrow]
    | some lastKnownUpdatedAt => simp [Store.updateTarget, hrow]

private theorem checkSource_wp (hinv : ScheduleInv id s₀)
    (hmonitor : s₀.monitors id = some ctx.monitor)
    (hslot : slot = world.scheduledFor ctx.monitor.nextRunAt)
    (h : JobAt id s₀ slot .running s) :
    (checkSource world ctx ⟨id, slot⟩).wp (runCond id world s₀)
      (partEnds id fun _ => ScheduleInv id) log s := by
  unfold checkSource
  have hframes (input : CreateTargetInput) : (upsertTarget input).Frames Store.schedule :=
    upsertTarget_frames (fun _ _ => rfl) (fun _ _ _ => rfl) input
  refine wp_seq (wp_unguarded (hframes _) (upsertTarget_returns _ s) h) ?_
  intro target log s h
  have hallowed : (ssrfAllowed world ctx.source.url).wp (runCond id world s₀)
      (partEnds id fun _ => JobAt id s₀ slot .running) log s := by
    unfold ssrfAllowed
    split
    · exact wp_unguarded (by simp) (by simp) h
    · exact h
  refine wp_seq hallowed ?_
  intro allowed log s h
  split
  · refine wp_seq (wp_unguarded (by simp [createCheckAttempt]) (by simp [createCheckAttempt]) h) ?_
    exact fun _ log s h => finishJob_wp hinv hmonitor hslot .failed h
  · exact checkRobotsAndHost_wp hinv hmonitor hslot h

end UnderJob

/-! ## A whole run -/

private theorem wp_loading {site : Site} {answer : Store → α} {R : α → Store → Prop}
    (hinv : ScheduleInv id s) (hret : R (answer s) s) :
    (inRegion .loading (.query site answer)).wp (runCond id world s₀) (partEnds id R) log s :=
  wp_region (fun _ => hret) (fun _ _ _ => hinv) fun _ _ _ => hinv

private theorem JobAt.start (hinv : ScheduleInv id s) {job : CheckJobRow}
    (hjob : s.checkJobs ⟨id, slot⟩ = some job) : JobAt id s slot job.status s :=
  ⟨hinv.monitor, rfl, fun _ _ => rfl, job, hjob, hinv.job slot job hjob, rfl⟩

private theorem JobAt.insert (hinv : ScheduleInv id s)
    (hnone : s.checkJobs ⟨id, slot⟩ = none) (trigger : Trigger) :
    JobAt id s slot .pending (s.insertCheckJob ⟨id, slot⟩ trigger) := by
  have hjobs : (s.insertCheckJob ⟨id, slot⟩ trigger).checkJobs =
      Function.update s.checkJobs ⟨id, slot⟩ (some (newCheckJob ⟨id, slot⟩ trigger)) :=
    insertIfNew_of_none hnone
  refine ⟨hinv.monitor, rfl, ?_, newCheckJob ⟨id, slot⟩ trigger, ?_, rfl, rfl⟩
  · intro other hne
    rw [hjobs]
    exact Function.update_of_ne (by simp [hne]) _ _
  · rw [hjobs]
    exact Function.update_self _ _ _

private theorem JobAt.inv_pending (h : JobAt id s₀ slot .pending s) (hinv : ScheduleInv id s₀) :
    ScheduleInv id s :=
  h.inv hinv (by simp) (by simp [CheckJobStatus.Closed])

/-- The job that a run claims is its own, and pending. -/
private theorem createCheckJobIfNew_wp (hinv : ScheduleInv id s) (trigger : Trigger) :
    (inRegion .loading (createCheckJobIfNew ⟨id, slot⟩ trigger)).wp (runCond id world s)
      (partEnds id fun result s' =>
        ScheduleInv id s' ∧ (result.inserted = true ∨ result.row.status = .pending →
          result.row.id = ⟨id, slot⟩ ∧ JobAt id s slot .pending s')) log s := by
  have hinsert : (inRegion .loading (.call (.insertCheckJob ⟨id, slot⟩)
      (Store.insertCheckJob ⟨id, slot⟩ trigger)
      fun store => (store.checkJobs ⟨id, slot⟩).isNone)).wp (runCond id world s)
      (partEnds id fun inserted s' => ScheduleInv id s' ∧
        (inserted = true ∧ JobAt id s slot .pending s' ∨ inserted = false ∧ s' = s ∧
          ∃ job, s.checkJobs ⟨id, slot⟩ = some job)) log s := by
    cases hjob : s.checkJobs ⟨id, slot⟩ with
    | none =>
      have hpending := JobAt.insert hinv hjob trigger
      refine wp_region ?_ (fun _ _ _ => hinv) fun _ _ _ => hpending.inv_pending hinv
      exact fun _ => ⟨hpending.inv_pending hinv, Or.inl ⟨by simp [hjob], hpending⟩⟩
    | some job =>
      have hsame : s.insertCheckJob ⟨id, slot⟩ trigger = s := by
        rw [Store.insertCheckJob, insertIfNew_of_some hjob]
      refine wp_region ?_ (fun _ _ _ => hinv) fun _ _ _ => hsame.symm ▸ hinv
      exact fun _ => ⟨hsame.symm ▸ hinv, Or.inr ⟨by simp [hjob], hsame, job, rfl⟩⟩
  rw [createCheckJobIfNew, inRegion, relabel_bind]
  refine wp_seq hinsert ?_
  rintro inserted log s' ⟨hinv', ⟨rfl, hpending⟩ | ⟨rfl, rfl, job, hjob⟩⟩
  · exact ⟨hinv', fun _ => ⟨rfl, hpending⟩⟩
  · change (relabel _ (Prog.query _ _ >>= _)).wp _ _ _ _
    rw [relabel_bind]
    refine wp_seq (wp_loading (R := fun existing s'' => existing = some job ∧ s'' = s')
      hinv ⟨hjob, rfl⟩) ?_
    rintro _ log _ ⟨rfl, rfl⟩
    refine ⟨hinv, fun hcontinue => ?_⟩
    have hstatus : job.status = .pending := by simpa using hcontinue
    exact ⟨hinv.job slot job hjob, hstatus ▸ JobAt.start hinv hjob⟩

private theorem orThrow_wp (a : Option α) {R : α → Store → Prop} (hinv : ScheduleInv id s)
    (hret : ∀ b, a = some b → R b s) :
    (orThrow a).wp (runCond id world s₀) (partEnds id R) log s := by
  cases a with
  | none => exact hinv
  | some b => exact hret b rfl

private theorem runMonitorCheck_wp (hinv : ScheduleInv id s) :
    (runMonitorCheck world id).wp (runCond id world s)
      (partEnds id fun _ => ScheduleInv id) log s := by
  unfold runMonitorCheck
  refine wp_seq (wp_loading (R := fun row s' => row = s.monitors id ∧ s' = s)
    hinv ⟨rfl, rfl⟩) ?_
  rintro _ log s ⟨rfl, rfl⟩
  refine wp_seq (orThrow_wp (R := fun monitor s' => s.monitors id = some monitor ∧ s' = s)
    (s.monitors id) hinv fun monitor hmonitor => ⟨hmonitor, rfl⟩) ?_
  rintro monitor log s ⟨hmonitor, rfl⟩
  split
  · exact hinv
  refine wp_seq (wp_loading (R := fun _ s' => s' = s) hinv rfl) ?_
  rintro source log s rfl
  refine wp_seq (orThrow_wp (R := fun _ s' => s' = s) source hinv fun _ _ => rfl) ?_
  rintro source log s rfl
  refine wp_seq (wp_loading (R := fun _ s' => s' = s) hinv rfl) ?_
  rintro site log s rfl
  refine wp_seq (orThrow_wp (R := fun _ s' => s' = s) site hinv fun _ _ => rfl) ?_
  rintro site log s rfl
  refine wp_seq (wp_loading (R := fun _ s' => s' = s) hinv rfl) ?_
  rintro policy log s rfl
  refine wp_seq (orThrow_wp (R := fun _ s' => s' = s) policy hinv fun _ _ => rfl) ?_
  rintro _ log s rfl
  refine wp_seq (createCheckJobIfNew_wp hinv world.trigger) ?_
  rintro result log s' ⟨hinv', hclaimed⟩
  split
  · exact hinv'
  · rename_i hcontinue
    obtain ⟨hid, hpending⟩ := hclaimed (by
      cases hinserted : result.inserted <;> simp_all)
    rw [hid]
    refine wp_seq (M := fun _ _ => JobAt id s (world.scheduledFor monitor.nextRunAt) .running)
      (wp_region ?_ ?_ ?_) ?_
    · exact fun _ => hpending.update .running
    · exact fun _ _ _ => hinv'
    · exact fun fault hfault hA => absurd hfault hA.1
    · exact fun _ log s'' hrunning => checkSource_wp hinv hmonitor rfl hrunning

/-- The alarm and the object's storage are no part of the schedule. -/
private theorem ScheduleInv.of_schedule (hinv : ScheduleInv id s)
    (hs : s'.schedule = s.schedule) : ScheduleInv id s' := by
  obtain ⟨hmonitors, hjobs⟩ := Prod.mk.inj hs
  have hnext : s'.nextRunAt id = s.nextRunAt id := by
    rw [Store.nextRunAt, Store.nextRunAt, hmonitors]
  refine ⟨by rw [hmonitors]; exact hinv.monitor, by rw [hjobs]; exact hinv.job, ?_⟩
  intro slot job hjob
  rw [hjobs] at hjob
  obtain ⟨hnot, hpassed⟩ := hinv.notWedged slot job hjob
  exact ⟨hnot, fun hc => SlotPassed.of_eq (hpassed hc) hnext⟩

private theorem setAlarm_frames (time : Option Nat) :
    (setAlarm id time).Frames Store.schedule :=
  frames_call.mpr fun _ => rfl

private theorem applyResult_frames (result : CheckRunResult) :
    (applyResult world id result).Frames Store.schedule := by
  unfold applyResult
  refine frames_bind (frames_query.mpr trivial) fun _ => ?_
  cases result.kind with
  | completed =>
    cases result.nextRunAt with
    | none => trivial
    | some nextRunAt => exact setAlarm_frames _
  | policyStopped => exact setAlarm_frames _
  | deferred => exact setAlarm_frames _
  | skipped => trivial

private theorem runReconciliation_frames (id : MonitorId) (now : Nat) :
    (runReconciliation now id).Frames Store.schedule := by
  unfold runReconciliation
  refine frames_bind (frames_query.mpr trivial) fun due => ?_
  cases due with
  | none => trivial
  | some monitor => exact frames_tryCatch (setAlarm_frames _) trivial

private theorem runCheckAndApply_wp (hinv : ScheduleInv id s) :
    (runCheckAndApply world id).wp (runCond id world s)
      (partEnds id fun _ => ScheduleInv id) log s := by
  unfold runCheckAndApply
  refine wp_seq (runMonitorCheck_wp hinv) ?_
  intro result log s' hinv'
  have hkept : ∀ s, s.schedule = s'.schedule → ScheduleInv id s :=
    fun s hs => hinv'.of_schedule hs
  exact wp_of_frames (applyResult_frames result) rfl (fun _ _ => hkept) (fun _ => hkept)
    fun _ => hkept

/-! ## What a run answers -/

private theorem finishJob_answers {job : CheckJobId} {finish : FinishStatus}
    {changeIds : List ChangeId} :
    (finishJob world monitor job finish changeIds).Answers (·.kind ≠ .skipped) :=
  answers_bind fun _ => answers_bind fun _ => answers_bind fun _ => by
    simp [Answers]

private theorem checkSource_answers (ctx : CheckContext) (job : CheckJobId) :
    (checkSource world ctx job).Answers (·.kind ≠ .skipped) := by
  have hlease : ∀ target latestSnapshot,
      (checkUnderLease world ctx job target latestSnapshot).Answers (·.kind ≠ .skipped) := by
    intro target latestSnapshot
    exact answers_tryFinally (answers_bind fun _ => finishJob_answers)
  have hhost : ∀ target, (acquireAndCheck world ctx job target).Answers (·.kind ≠ .skipped) := by
    intro target
    refine answers_bind fun lease => ?_
    split
    · exact answers_bind fun _ => by simp [Answers]
    · exact answers_bind fun latestSnapshot => hlease target latestSnapshot
  have hrobots : ∀ target,
      (checkRobotsAndHost world ctx job target).Answers (·.kind ≠ .skipped) := by
    intro target
    refine answers_bind fun _ => answers_bind fun decision => answers_bind fun _ => ?_
    split
    · refine answers_bind fun count => answers_bind fun _ => ?_
      split
      · exact finishJob_answers
      · exact answers_bind fun _ => answers_bind fun _ => by simp [Answers]
    · exact hhost target
  refine answers_bind fun target => answers_bind fun allowed => ?_
  split
  · exact answers_bind fun _ => finishJob_answers
  · exact hrobots target

/-- A demand on what is answered alone. -/
abbrev answerEnds {α : Type} (R : α → List (Call RunSite Store) → Store → Prop) :
    Post RunSite Store α :=
  .orStop R fun _ _ => True

private theorem wp_answer {site : Site} {eff : Store → Store} {answer : Store → α}
    {R : α → List (Call RunSite Store) → Store → Prop}
    (hret : ∀ log, R (answer s) log (eff s)) :
    (inRegion .loading (.call site eff answer)).wp anyCall (answerEnds R) log s :=
  wp_call_orStop (fun _ => hret _) (fun _ _ _ => trivial) fun _ _ _ => trivial

private theorem orThrow_answer (a : Option α)
    {R : α → List (Call RunSite Store) → Store → Prop}
    (hret : ∀ b, a = some b → R b log s) : (orThrow a).wp anyCall (answerEnds R) log s := by
  cases a with
  | none => trivial
  | some b => exact hret b rfl

/-- The job of a slot that has not passed is new or that of a deferred run. -/
private theorem createCheckJobIfNew_answer (hfree : ∀ job, s.checkJobs ⟨id, slot⟩ = some job →
    job.status = .pending) (trigger : Trigger) :
    (inRegion .loading (createCheckJobIfNew ⟨id, slot⟩ trigger)).wp anyCall
      (answerEnds fun result _ _ => result.inserted = true ∨ result.row.status = .pending)
      log s := by
  rw [createCheckJobIfNew, inRegion, relabel_bind]
  refine wp_seq (M := fun inserted _ s' =>
    inserted = false → ∃ job, s'.checkJobs ⟨id, slot⟩ = some job ∧ job.status = .pending)
    (wp_answer ?_) ?_
  · intro log hinserted
    cases hjob : s.checkJobs ⟨id, slot⟩ with
    | none => simp [hjob] at hinserted
    | some job => exact ⟨job, insertIfNew_keeps hjob, hfree job hjob⟩
  rintro (_ | _) log s' hexisting
  · obtain ⟨job, hjob, hstatus⟩ := hexisting rfl
    change (relabel _ (Prog.query _ _ >>= _)).wp _ _ _ _
    rw [relabel_bind]
    refine wp_seq (wp_answer (R := fun existing _ _ => existing = some job) fun _ => hjob) ?_
    rintro _ log s'' rfl
    exact Or.inr hstatus
  · exact Or.inl rfl

private theorem neverSkipped_of_notWedged (h : NotWedged id s) : NeverSkipped id s := by
  intro world faults row nextRunAt result htrigger hrow hactive hnext _ hexit
  have hslot : world.scheduledFor row.nextRunAt = nextRunAt := by
    simp [CheckWorld.scheduledFor, htrigger, hnext]
  have hfree : ∀ job, s.checkJobs ⟨id, nextRunAt⟩ = some job → job.status = .pending := by
    intro job hjob
    obtain ⟨hnot, hpassed⟩ := h nextRunAt job hjob
    have hopen : ¬job.status.Closed := by
      intro hclosed
      have hlt := hpassed hclosed nextRunAt (by simp [Store.nextRunAt, hrow, hnext])
      exact lt_irrefl _ hlt
    cases hstatus : job.status <;> simp_all [CheckJobStatus.Closed]
  have hwp : (runMonitorCheck world id).wp anyCall
      (answerEnds fun result _ _ => result.kind ≠ .skipped) [] s := by
    unfold runMonitorCheck
    refine wp_seq (wp_answer (R := fun found _ s' => found = some row ∧ s' = s)
      fun _ => ⟨hrow, rfl⟩) ?_
    rintro _ log s ⟨rfl, rfl⟩
    change (if skipForStatus row.status world.trigger then _ else _ : RunProg CheckRunResult).wp
      _ _ _ _
    rw [if_neg (by simp [skipForStatus, hactive])]
    refine wp_seq (wp_answer (R := fun _ _ s' => s' = s) fun _ => rfl) ?_
    rintro source log s rfl
    refine wp_seq (orThrow_answer (R := fun _ _ s' => s' = s) source fun _ _ => rfl) ?_
    rintro source log s rfl
    refine wp_seq (wp_answer (R := fun _ _ s' => s' = s) fun _ => rfl) ?_
    rintro site log s rfl
    refine wp_seq (orThrow_answer (R := fun _ _ s' => s' = s) site fun _ _ => rfl) ?_
    rintro site log s rfl
    refine wp_seq (wp_answer (R := fun _ _ s' => s' = s) fun _ => rfl) ?_
    rintro policy log s rfl
    refine wp_seq (orThrow_answer (R := fun _ _ s' => s' = s) policy fun _ _ => rfl) ?_
    rintro _ log s rfl
    rw [hslot]
    refine wp_seq (createCheckJobIfNew_answer hfree world.trigger) ?_
    rintro jobResult log s' hclaimed
    rw [if_neg (by rcases hclaimed with h | h <;> simp [h])]
    refine wp_seq (M := fun _ _ _ => True) ?_ fun _ log s _ => (checkSource_answers _ _).wp log s
    exact wp_call_orStop (fun _ => trivial) (fun _ _ _ => trivial) fun _ _ _ => trivial
  have hholds := wp_exec_any faults hwp
  rw [Post.Holds, hexit] at hholds
  exact hholds

end Run

/-! ## Runs -/

private theorem scheduleInv_step {id : MonitorId} {past : List MonitorEvent} {s s' : Store}
    {e : MonitorEvent} (hinv : ScheduleInv id s) (hstep : (monitorSystem id).step s e s')
    (hguard : monitorGuarded id past s e) : ScheduleInv id s' := by
  obtain ⟨rfl, hothers⟩ := hstep
  cases e with
  | check world faults =>
    have hwp : (runCheckAndApply world id).wp (runCond id world s)
        (partEnds id fun _ => ScheduleInv id) [] s := runCheckAndApply_wp hinv
    have hholds := wp_exec hwp (logMeets_of_forall hguard)
    unfold Post.Holds at hholds
    simp only [MonitorEvent.apply]
    split at hholds <;> exact hholds
  | reconcile now faults =>
    have hframes := runReconciliation_frames id now
    have hwp : (runReconciliation now id).wp anyCall (partEnds id fun _ => ScheduleInv id) [] s := by
      have hkept : ∀ s', s'.schedule = s.schedule → ScheduleInv id s' :=
        fun s' hs => hinv.of_schedule hs
      exact wp_of_frames hframes rfl (fun _ _ => hkept) (fun _ => hkept) fun _ => hkept
    have hholds := wp_exec_any faults hwp
    unfold Post.Holds at hholds
    simp only [MonitorEvent.apply]
    split at hholds <;> exact hholds
  | others store =>
    obtain ⟨hmonitor, hjobs⟩ := hothers
    refine ⟨?_, ?_, ?_⟩
    · intro row hrow
      exact hinv.monitor row (hmonitor ▸ hrow)
    · intro slot job hjob
      exact hinv.job slot job (hjobs slot ▸ hjob)
    · intro slot job hjob
      obtain ⟨hnot, hpassed⟩ := hinv.notWedged slot job (hjobs slot ▸ hjob)
      refine ⟨hnot, fun hc => SlotPassed.of_eq (hpassed hc) ?_⟩
      exact congrArg (·.bind MonitorRow.nextRunAt) hmonitor

/-- The schedule is never wedged: in every run of checks, alarms and reconciliations whose
checks are not stopped where they leave the schedule out of order, no job is left running,
every closed slot is passed, and no scheduled run that is due is answered with `skipped`. -/
theorem monitor_neverWedged {id : MonitorId} {es : List MonitorEvent} {s : Store}
    (h : (monitorSystem id).Run (monitorGuarded id) es s) :
    NotWedged id s ∧ NeverSkipped id s := by
  have hinv : ScheduleInv id s := by
    refine h.invariant (I := fun _ s => ScheduleInv id s) ?_ ?_
    · rintro s ⟨hmonitor, hjobs⟩
      have hnone : ∀ slot job, s.checkJobs ⟨id, slot⟩ ≠ some job := by
        intro slot job hjob
        rw [hjobs slot] at hjob
        contradiction
      exact ⟨hmonitor, fun slot job hjob => absurd hjob (hnone slot job),
        fun slot job hjob => absurd hjob (hnone slot job)⟩
    · exact fun _ _ _ _ _ hinv hstep hguard => scheduleInv_step hinv hstep hguard
  exact ⟨hinv.notWedged, neverSkipped_of_notWedged hinv.notWedged⟩

/-! ## A run that leaves its job running -/

private def hourlyMonitor : MonitorRow :=
  ⟨1, 1, .active, 3600, some 1000, none, none, none⟩

private def hourlyStore : Store :=
  { emptyStore with monitors := fun id => if id = 1 then some hourlyMonitor else none }

/-- A scheduled run whose fetch is answered with 304. -/
private def unmodified (now : Nat) : CheckWorld where
  trigger := .scheduled
  now := now
  source := some ⟨1, .rss, "https://example.com/feed", none⟩
  site := some ⟨1, none⟩
  policy := some ()
  staticSsrfAllowed := true
  resolvedAllowed := true
  origin := "https://example.com"
  robotsMode := .enforce
  robots := ⟨true, none, false, now, "none"⟩
  lease := ⟨true, some 1, none⟩
  fetchTarget _ _ :=
    { prog := createCheckAttempt >>= fun _ => .ret (.success ⟨none, none, none⟩ true none)
      frames := frames_bind (by simp [createCheckAttempt]) fun _ => trivial }
  processor _ _ := ⟨.ret [], trivial⟩
  checkedNow := now
  finishNow := now
  random := 0
  appliedNow := now

private theorem hourlyStore_init : (monitorSystem 1).init hourlyStore := by
  refine ⟨?_, fun _ => rfl⟩
  intro row hrow
  have hsame : hourlyMonitor = row := Option.some.inj hrow
  exact hsame ▸ rfl

/-- The read of the robots mode throws: nothing catches it. -/
private def robotsModeThrows : MonitorEvent :=
  .check (unmodified 1000) (List.replicate 8 .none ++ [.throwBefore])

/-- The next scheduled run, due, finds the job running. -/
theorem monitor_neverWedged_violated :
    ¬∀ id es s, (monitorSystem id).Run anyStep es s → NotWedged id s ∧ NeverSkipped id s := by
  intro hall
  have hrun : (monitorSystem 1).Run anyStep [robotsModeThrows]
      (robotsModeThrows.apply 1 hourlyStore) :=
    .next (.start hourlyStore_init) ⟨rfl, trivial⟩ trivial
  have hskipped := (hall _ _ _ hrun).2 (unmodified 301000) [] hourlyMonitor 1000
    ⟨.skipped, some 1000, none, []⟩ rfl rfl rfl rfl (by decide) (by decide)
  exact absurd rfl hskipped

/-- The fetch throws: the run catches it and closes its job. -/
private def fetchThrows : MonitorEvent :=
  .check (unmodified 1000) (List.replicate 13 .none ++ [.throwBefore])

private theorem fetchThrows_guarded : monitorGuarded 1 [] hourlyStore fetchThrows := by
  have hquiet : ((runCheckAndApply (unmodified 1000) 1).exec
      (List.replicate 13 .none ++ [.throwBefore]) [] hourlyStore).log.all (fun call =>
        call.fault == .none || call.site.region == .guarded && call.fault == .throwBefore) = true := by
    decide
  intro call hcall
  have hfault := List.all_eq_true.mp hquiet call hcall
  have hmoves : MovesPast 1 (unmodified 1000) hourlyStore := by
    intro monitor slot hmonitor hslot
    obtain rfl : hourlyMonitor = monitor := Option.some.inj hmonitor
    rcases hslot with rfl | ⟨job, hjob, _⟩
    · decide
    · contradiction
  rcases (Bool.or_eq_true _ _).mp hfault with hnone | hcaught
  · have hnone : call.fault = .none := eq_of_beq hnone
    refine ⟨?_, Or.inl ?_, fun _ => hmoves⟩
    · rw [hnone]
      cases call.site.region <;> simp [Region.CutsRunning, Fault.Before, Fault.After]
    · rw [hnone]
      cases call.site.region <;> simp [Region.CutsClosing, Fault.Before, Fault.After]
  · obtain ⟨hregion, hthrow⟩ := Bool.and_eq_true_iff.mp hcaught
    have hregion : call.site.region = .guarded := eq_of_beq hregion
    have hthrow : call.fault = .throwBefore := eq_of_beq hthrow
    refine ⟨?_, Or.inl ?_, fun _ => hmoves⟩
    · simp [hregion, hthrow, Region.CutsRunning]
    · simp [hregion, Region.CutsClosing]

theorem monitor_neverWedged_fetchThrows :
    NotWedged 1 (fetchThrows.apply 1 hourlyStore) ∧
      NeverSkipped 1 (fetchThrows.apply 1 hourlyStore) :=
  monitor_neverWedged
    (.next (.start hourlyStore_init) ⟨rfl, trivial⟩ fetchThrows_guarded)

end Utsuroi
