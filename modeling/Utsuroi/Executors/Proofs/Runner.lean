import Mathlib.Data.List.Count
import Mathlib.Data.List.Nodup
import Utsuroi.Executors.Runner
import Utsuroi.Framework.Log

/-!
# Admission to the home runner

A request for jobs is made for the slots that are free then.  Until it is answered jobs can only
leave, so that its jobs find the slots free.
-/

namespace Utsuroi.HomeRunner

open Transition

/-! ## What the effects tell -/

def RunnerEffect.said? : RunnerEffect → Option Bool
  | heartbeatSaid maintenance => some maintenance
  | _ => none

/-- What the last heartbeat said. -/
def lastSaid (log : List RunnerEffect) : Option Bool :=
  (log.filterMap RunnerEffect.said?).getLast?

/-- Every job that was dispatched has left. -/
def AllLeft (log : List RunnerEffect) : Prop :=
  ∀ id, .dispatched id ∈ log → .left id ∈ log

/-- When an effect may be seen. -/
def Allowed (before : List RunnerEffect) : RunnerEffect → Prop
  | .leaseStarted _ => .stopCalled ∉ before ∧ lastSaid before ≠ some true
  | .stopReturned => .graceOver ∈ before ∨ AllLeft before
  | _ => True

namespace RunnerState

variable {s : RunnerState}

/-- How many jobs the open request asks for. -/
def asked (s : RunnerState) : Option Nat :=
  match s.leaseLoop with
  | some (.response free _) => some free
  | _ => none

/-! ## What the loops leave alone -/

/-- The loops have moved without making a request. -/
structure Quiet (s s' : RunnerState) : Prop where
  inflight : s'.inflight = s.inflight
  tasks : s'.tasks = s.tasks
  stopping : s'.stopping = s.stopping
  maintenance : s'.maintenance = s.maintenance
  stop : s'.stop = s.stop
  asked : s'.asked = none ∨ s'.asked = s.asked

theorem Quiet.refl (s : RunnerState) : Quiet s s := ⟨rfl, rfl, rfl, rfl, rfl, .inr rfl⟩

theorem Quiet.trans {s s' s'' : RunnerState} (h : Quiet s s') (h' : Quiet s' s'') :
    Quiet s s'' where
  inflight := h'.inflight.trans h.inflight
  tasks := h'.tasks.trans h.tasks
  stopping := h'.stopping.trans h.stopping
  maintenance := h'.maintenance.trans h.maintenance
  stop := h'.stop.trans h.stop
  asked := by
    rcases h'.asked with hnone | hsame
    · exact Or.inl hnone
    · rw [hsame]
      exact h.asked

theorem quiet_heartbeatLoop (s : RunnerState) (loop : Option HeartbeatAt) :
    Quiet s { s with heartbeatLoop := loop } := ⟨rfl, rfl, rfl, rfl, rfl, .inr rfl⟩

/-- The lease loop does not wait for a response. -/
theorem quiet_leaseLoop (s : RunnerState) (loop : LeaseAt)
    (hloop : ∀ free backoff, loop ≠ .response free backoff) :
    Quiet s { s with leaseLoop := some loop } := by
  refine ⟨rfl, rfl, rfl, rfl, rfl, Or.inl ?_⟩
  cases loop with
  | response free backoff => exact absurd rfl (hloop free backoff)
  | firstHeartbeat => rfl
  | pause ms onSlot backoff => rfl
  | resumed backoff => rfl
  | done => rfl

theorem quiet_wakeLeaseLoop (s : RunnerState) : Quiet s s.wakeLeaseLoop := by
  rw [wakeLeaseLoop]
  split
  · exact quiet_leaseLoop s _ nofun
  · exact .refl s

theorem quiet_onFirstAttempt (s : RunnerState) : Quiet s s.onFirstAttempt := by
  rw [onFirstAttempt]
  split
  · exact quiet_leaseLoop s _ nofun
  · exact .refl s

theorem quiet_heartbeatHead (s : RunnerState) (backoff : Nat) :
    Quiet s (s.heartbeatHead backoff) := by
  rw [heartbeatHead]
  split
  · exact (quiet_heartbeatLoop s _).trans (quiet_onFirstAttempt _)
  · exact quiet_heartbeatLoop s _

theorem quiet_heartbeatFailed (o : RunnerOptions) (s : RunnerState) (backoff : Nat) (auth : Bool) :
    Quiet s (s.heartbeatFailed o backoff auth) :=
  (quiet_onFirstAttempt s).trans (quiet_heartbeatLoop _ _)

theorem quiet_leaseFailed (o : RunnerOptions) (s : RunnerState) (backoff : Nat) (auth : Bool) :
    Quiet s (s.leaseFailed o backoff auth) := by
  rw [leaseFailed]
  split
  · exact quiet_leaseLoop s _ nofun
  · exact quiet_leaseLoop s _ nofun

theorem quiet_wakeAll (s : RunnerState) : Quiet s s.wakeAll := by
  have hlease : Quiet s { s with leaseLoop := s.wakeAll.leaseLoop } := by
    rw [wakeAll]
    dsimp only
    split
    · exact quiet_leaseLoop s _ nofun
    · exact .refl s
  exact hlease.trans (quiet_heartbeatLoop _ _)

end RunnerState

/-! ## The invariant -/

/-- What holds while `stop` waits, and behind it. -/
structure Draining (s : RunnerState) (log : List RunnerEffect) (call : StopCall) : Prop where
  stopping : s.stopping = true
  /-- Once the loops have ended there is no request any more. -/
  quiet : call.drain ≠ .loops true → s.asked = none
  drained : call.drain = .drained → s.inflight = []
  outcome : call.outcome = some .drained → call.drain = .drained
  timeout : call.outcome = some .timeout → .graceOver ∈ log

structure Inv (o : RunnerOptions) (events : List RunnerEvent) (s : RunnerState)
    (log : List RunnerEffect) : Prop where
  ids : s.inflight = s.tasks.map Task.jobId
  nodup : s.inflight.Nodup
  /-- The slots that an open request was made for are still free. -/
  fits : s.inflight.length + s.asked.getD 0 ≤ o.concurrency
  counted : ∀ id, log.count (.dispatched id) = log.count (.left id) + s.inflight.count id
  known : ∀ id, log.count (.dispatched id) ≤ (events.flatMap RunnerEvent.jobIds).count id
  stopped : s.stopping = true ↔ .stopCalled ∈ log
  said : s.maintenance = (lastSaid log).getD false
  stop : ∀ call, s.stop = some call → Draining s log call
  allowed : Log.Each Allowed log

section Logs

variable {log : List RunnerEffect} {e : RunnerEffect}

theorem lastSaid_silent (h : e.said? = none) : lastSaid (log ++ [e]) = lastSaid log := by
  simp [lastSaid, List.filterMap_append, h]

theorem lastSaid_said (maintenance : Bool) :
    lastSaid (log ++ [.heartbeatSaid maintenance]) = some maintenance := by
  simp [lastSaid, List.filterMap_append, RunnerEffect.said?]

theorem count_concat_ne {other : RunnerEffect} (h : e ≠ other) :
    (log ++ [e]).count other = log.count other := by
  rw [List.count_append, List.count_singleton, if_neg (by simpa using h), Nat.add_zero]

end Logs

section Steps

variable {o : RunnerOptions} {events : List RunnerEvent} {s s' : RunnerState}
  {log : List RunnerEffect}

theorem inv_init (o : RunnerOptions) : Inv o [] .init [] where
  ids := rfl
  nodup := List.nodup_nil
  fits := Nat.zero_le _
  counted := fun _ => rfl
  known := fun _ => Nat.zero_le _
  stopped := by simp [RunnerState.init]
  said := rfl
  stop := nofun
  allowed := Log.each_nil

/-- More events know of more jobs. -/
theorem Inv.later (h : Inv o events s log) (e : RunnerEvent) : Inv o (e :: events) s log :=
  { h with
    known := fun id => by
      rw [List.flatMap_cons, List.count_append]
      exact Nat.le_trans (h.known id) (Nat.le_add_left _ _) }

theorem Inv.quiet (h : Inv o events s log) (hquiet : RunnerState.Quiet s s') :
    Inv o events s' log where
  ids := by rw [hquiet.inflight, hquiet.tasks, h.ids]
  nodup := hquiet.inflight ▸ h.nodup
  fits := by
    have hfits := h.fits
    rw [hquiet.inflight]
    rcases hquiet.asked with hnone | hsame
    · rw [hnone]
      exact Nat.le_of_add_right_le hfits
    · rwa [hsame]
  counted := hquiet.inflight ▸ h.counted
  known := h.known
  stopped := hquiet.stopping ▸ h.stopped
  said := hquiet.maintenance ▸ h.said
  stop := by
    intro call hcall
    rw [hquiet.stop] at hcall
    have hdraining := h.stop call hcall
    refine ⟨hquiet.stopping ▸ hdraining.stopping, ?_, ?_, hdraining.outcome, hdraining.timeout⟩
    · intro hloops
      rcases hquiet.asked with hnone | hsame
      · exact hnone
      · rw [hsame]
        exact hdraining.quiet hloops
    · rw [hquiet.inflight]
      exact hdraining.drained
  allowed := h.allowed

/-- An effect that is about no job and changes no flag. -/
theorem Inv.noted (h : Inv o events s log) {e : RunnerEffect}
    (hdispatched : ∀ id, e ≠ .dispatched id) (hleft : ∀ id, e ≠ .left id) (hstop : e ≠ .stopCalled)
    (hsaid : e.said? = none) (hallowed : Allowed log e) : Inv o events s (log ++ [e]) where
  ids := h.ids
  nodup := h.nodup
  fits := h.fits
  counted := by
    intro id
    rw [count_concat_ne (hdispatched id), count_concat_ne (hleft id)]
    exact h.counted id
  known := by
    intro id
    rw [count_concat_ne (hdispatched id)]
    exact h.known id
  stopped := by
    rw [List.mem_append, List.mem_singleton, or_iff_left hstop.symm]
    exact h.stopped
  said := by
    rw [lastSaid_silent hsaid]
    exact h.said
  stop := by
    intro call hcall
    have hdraining := h.stop call hcall
    exact { hdraining with
      timeout := fun htimeout => List.mem_append_left _ (hdraining.timeout htimeout) }
  allowed := h.allowed.concat hallowed

/-- What has been dispatched and has not left is in flight. -/
theorem Inv.allLeft (h : Inv o events s log) (hempty : s.inflight = []) : AllLeft log := by
  intro id hid
  have hcounted := h.counted id
  rw [hempty, List.count_nil, Nat.add_zero] at hcounted
  rw [← List.count_pos_iff, ← hcounted, List.count_pos_iff]
  exact hid

/-! ## Requests -/

theorem Inv.leaseHead (h : Inv o events s log) (backoff : Nat) :
    Inv o events (s.leaseHead o backoff).1 (log ++ (s.leaseHead o backoff).2) := by
  have hpaused : ∀ loop : LeaseAt, (∀ free backoff, loop ≠ .response free backoff) →
      Inv o events { s with leaseLoop := some loop } (log ++ []) := by
    intro loop hloop
    rw [List.append_nil]
    exact h.quiet (RunnerState.quiet_leaseLoop s loop hloop)
  rw [RunnerState.leaseHead]
  split
  · exact hpaused .done nofun
  · next hgoing =>
      dsimp only
      split
      · exact hpaused (.pause 5000 true backoff) nofun
      · next hfree =>
          rw [Bool.or_eq_true, not_or] at hfree
          have hstop : .stopCalled ∉ log := fun hcalled => hgoing (h.stopped.mpr hcalled)
          have hsaid : lastSaid log ≠ some true := by
            intro hmaintenance
            have hflag := h.said
            rw [hmaintenance] at hflag
            exact hfree.2 hflag
          have hasked : Inv o events
              { s with leaseLoop := some (.response (o.concurrency - s.inflight.length) backoff) }
              log :=
            { h with
              fits := by
                have hfits := h.fits
                change s.inflight.length + (o.concurrency - s.inflight.length) ≤ o.concurrency
                omega
              stop := fun call hcall =>
                absurd (h.stop call hcall).stopping hgoing }
          exact hasked.noted nofun nofun nofun
            rfl ⟨hstop, hsaid⟩

/-! ## Jobs -/

/-- What dispatching jobs with new ids comes to. -/
theorem dispatch_all (now : Int) (jobs : List LeasedJob) (s : RunnerState)
    (hdistinct : (s.inflight ++ jobs.map LeasedJob.jobId).Nodup) :
    jobs.foldl (RunnerState.dispatch now) s =
      { s with
        tasks := s.tasks ++ jobs.map fun job =>
          ⟨job.jobId, if RunnerState.skips job now then .settled else .fetching⟩
        inflight := s.inflight ++ jobs.map LeasedJob.jobId } := by
  induction jobs generalizing s with
  | nil => simp
  | cons job jobs ih =>
      rw [List.map_cons, List.append_cons] at hdistinct
      have hnew : job.jobId ∉ s.inflight := by
        have hfirst := (List.nodup_append.mp hdistinct).1
        rw [List.nodup_append] at hfirst
        exact fun hmem => hfirst.2.2 _ hmem _ (List.mem_singleton_self _) rfl
      have hdispatch : (s.dispatch now job).inflight = s.inflight ++ [job.jobId] := by
        simp [RunnerState.dispatch, hnew]
      rw [List.foldl_cons, ih (s.dispatch now job) (hdispatch ▸ hdistinct), hdispatch]
      simp [RunnerState.dispatch]

theorem count_dispatched (ids : List JobId) (id : JobId) :
    (ids.map RunnerEffect.dispatched).count (.dispatched id) = ids.count id :=
  List.count_map_of_injective ids RunnerEffect.dispatched
    (fun _ _ h => RunnerEffect.dispatched.inj h) id

/-- Jobs of a response are dispatched: their slots are free and their ids are new. -/
theorem Inv.dispatch (h : Inv o events s log) (now : Int) {jobs taken : List LeasedJob}
    {free : Nat} (hasked : s.asked = some free) (htaken : taken.Sublist jobs)
    (hfree : taken.length ≤ free)
    (hdistinct : ((RunnerEvent.leaseAnswered now jobs :: events).flatMap
      RunnerEvent.jobIds).Nodup) :
    Inv o (.leaseAnswered now jobs :: events)
      { taken.foldl (RunnerState.dispatch now) s with leaseLoop := some .done }
      (log ++ taken.map fun job => .dispatched job.jobId) := by
  have hids : (taken.map LeasedJob.jobId).Sublist (jobs.map LeasedJob.jobId) :=
    htaken.map LeasedJob.jobId
  rw [List.flatMap_cons, List.nodup_append] at hdistinct
  obtain ⟨hjobs, -, hnew⟩ := hdistinct
  have hundispatched : ∀ id ∈ taken.map LeasedJob.jobId, log.count (.dispatched id) = 0 := by
    intro id hid
    have hknown := h.known id
    have habsent : id ∉ events.flatMap RunnerEvent.jobIds :=
      fun hmem => hnew id (hids.subset hid) id hmem rfl
    rw [List.count_eq_zero_of_not_mem habsent] at hknown
    exact Nat.le_zero.mp hknown
  have hfresh : (s.inflight ++ taken.map LeasedJob.jobId).Nodup := by
    rw [List.nodup_append]
    refine ⟨h.nodup, hjobs.sublist hids, ?_⟩
    intro id hid other hother heq
    have hcounted := h.counted id
    rw [hundispatched id (heq ▸ hother)] at hcounted
    have hpositive := List.count_pos_iff.mpr hid
    omega
  have heffects : (taken.map fun job => RunnerEffect.dispatched job.jobId) =
      (taken.map LeasedJob.jobId).map RunnerEffect.dispatched := by
    rw [List.map_map]
    rfl
  have hother : ∀ e : RunnerEffect, (∀ id, e ≠ .dispatched id) →
      e ∉ (taken.map LeasedJob.jobId).map RunnerEffect.dispatched := by
    intro e he hmem
    obtain ⟨id, -, rfl⟩ := List.mem_map.mp hmem
    exact he id rfl
  rw [heffects, dispatch_all now taken s hfresh]
  refine ⟨?_, hfresh, ?_, ?_, ?_, ?_, ?_, ?_, ?_⟩
  · simp [h.ids, Function.comp_def]
  · have hfits := h.fits
    rw [hasked, Option.getD_some] at hfits
    simp only [List.length_append, List.length_map]
    change _ + 0 ≤ _
    omega
  · intro id
    have hcounted := h.counted id
    rw [List.count_append, List.count_append, List.count_append, count_dispatched,
      List.count_eq_zero_of_not_mem (hother (.left id) nofun)]
    omega
  · intro id
    have hknown := h.known id
    have hcount := hids.count_le id
    rw [List.count_append, count_dispatched, List.flatMap_cons, List.count_append]
    change _ ≤ (jobs.map LeasedJob.jobId).count id + _
    omega
  · rw [List.mem_append, or_iff_left (hother .stopCalled nofun)]
    exact h.stopped
  · have hsilent : ((taken.map LeasedJob.jobId).map RunnerEffect.dispatched).filterMap
        RunnerEffect.said? = [] := by
      rw [List.filterMap_eq_nil_iff]
      intro e he
      obtain ⟨id, -, rfl⟩ := List.mem_map.mp he
      rfl
    rw [lastSaid, List.filterMap_append, hsilent, List.append_nil]
    exact h.said
  · intro call hcall
    have hdraining := h.stop call hcall
    refine ⟨hdraining.stopping, fun _ => rfl, ?_, hdraining.outcome, ?_⟩
    · intro hdrained
      have hquiet := hdraining.quiet (by rw [hdrained]; exact nofun)
      rw [hasked] at hquiet
      cases hquiet
    · exact fun htimeout => List.mem_append_left _ (hdraining.timeout htimeout)
  · apply h.allowed.append
    intro e he before
    obtain ⟨id, -, rfl⟩ := List.mem_map.mp he
    trivial

theorem map_replace_jobId (tasks : List Task) (id : JobId) (before after : TaskAt) :
    (tasks.replace ⟨id, before⟩ ⟨id, after⟩).map Task.jobId = tasks.map Task.jobId := by
  induction tasks with
  | nil => rfl
  | cons task tasks ih =>
      rw [List.replace_cons]
      split
      · next hfound =>
          rw [← beq_iff_eq.mp hfound]
          rfl
      · rw [List.map_cons, ih, List.map_cons]

theorem Inv.moveTask (h : Inv o events s log) (id : JobId) (before after : TaskAt) :
    Inv o events (s.moveTask id before after) log :=
  { h with
    ids := h.ids.trans (map_replace_jobId s.tasks id before after).symm
    stop := fun call hcall => { h.stop call hcall with } }

theorem map_erase_jobId {tasks : List Task} {task : Task} (hmem : task ∈ tasks)
    (hnodup : (tasks.map Task.jobId).Nodup) :
    (tasks.erase task).map Task.jobId =
      (tasks.map Task.jobId).filter fun id => id ≠ task.jobId := by
  induction tasks with
  | nil => cases hmem
  | cons first tasks ih =>
      rw [List.map_cons, List.nodup_cons] at hnodup
      by_cases hfirst : first = task
      · subst hfirst
        have hothers : (tasks.map Task.jobId).filter (fun id => id ≠ first.jobId) =
            tasks.map Task.jobId := by
          rw [List.filter_eq_self]
          intro id hid
          exact decide_eq_true fun heq => hnodup.1 (heq ▸ hid)
        rw [List.erase_cons_head, List.map_cons, List.filter_cons_of_neg (by simp), hothers]
      · have hmem' : task ∈ tasks := (List.mem_cons.mp hmem).resolve_left (Ne.symm hfirst)
        have hne : first.jobId ≠ task.jobId :=
          fun heq => hnodup.1 (heq ▸ List.mem_map_of_mem hmem')
        rw [List.erase_cons_tail (by simpa using hfirst), List.map_cons, List.map_cons,
          List.filter_cons_of_pos (by simpa using hne), ih hmem' hnodup.2]

/-- A job that is in flight leaves, and is in flight no more. -/
theorem Inv.leave (h : Inv o events s log) {id : JobId} (hmem : ⟨id, .settled⟩ ∈ s.tasks) :
    Inv o events (s.leave id) (log ++ [.left id]) := by
  have hinflight : id ∈ s.inflight := h.ids ▸ List.mem_map.mpr ⟨_, hmem, rfl⟩
  have hleft : Inv o events
      { s with
        tasks := s.tasks.erase ⟨id, .settled⟩
        inflight := s.inflight.filter fun other => other ≠ id } (log ++ [.left id]) := by
    refine ⟨?_, h.nodup.filter _, ?_, ?_, ?_, ?_, ?_, ?_, ?_⟩
    · rw [map_erase_jobId hmem (h.ids ▸ h.nodup), ← h.ids]
    · have hfits := h.fits
      have hless := List.length_filter_le (fun other => decide (other ≠ id)) s.inflight
      change _ + s.asked.getD 0 ≤ _
      dsimp only
      omega
    · intro other
      have hcounted := h.counted other
      rw [count_concat_ne (by exact nofun)]
      by_cases hother : other = id
      · subst hother
        rw [List.count_eq_one_of_mem h.nodup hinflight] at hcounted
        have hgone : (s.inflight.filter fun id => id ≠ other).count other = 0 := by
          apply List.count_eq_zero_of_not_mem
          exact fun hin => of_decide_eq_true (List.mem_filter.mp hin).2 rfl
        dsimp only
        rw [hgone, List.count_append, List.count_singleton_self]
        omega
      · have hkept : (s.inflight.filter fun next => next ≠ id).count other =
            s.inflight.count other :=
          List.count_filter (by simpa using hother)
        dsimp only
        rw [hkept, count_concat_ne fun h => hother (RunnerEffect.left.inj h).symm]
        exact hcounted
    · intro other
      rw [count_concat_ne (by exact nofun)]
      exact h.known other
    · rw [List.mem_append, or_iff_left (by simp)]
      exact h.stopped
    · rw [lastSaid_silent rfl]
      exact h.said
    · intro call hcall
      have hdraining := h.stop call hcall
      refine ⟨hdraining.stopping, hdraining.quiet, ?_, hdraining.outcome, ?_⟩
      · intro hdrained
        dsimp only
        rw [hdraining.drained hdrained, List.filter_nil]
      · exact fun htimeout => List.mem_append_left _ (hdraining.timeout htimeout)
    · exact h.allowed.concat trivial
  exact hleft.quiet (RunnerState.quiet_wakeLeaseLoop _)

/-! ## Stopping -/

theorem Inv.stopCall (h : Inv o events s log) :
    Inv o events s.stopCall (log ++ [.stopCalled]) := by
  have hcalled : Inv o events
      { s with stopping := true, stop := some ⟨.loops s.leaseLoop.isSome, none, false⟩ }
      (log ++ [.stopCalled]) := by
    refine ⟨h.ids, h.nodup, h.fits, ?_, ?_, by simp, ?_, ?_, h.allowed.concat trivial⟩
    · intro id
      rw [count_concat_ne (by exact nofun), count_concat_ne (by exact nofun)]
      exact h.counted id
    · intro id
      rw [count_concat_ne (by exact nofun)]
      exact h.known id
    · rw [lastSaid_silent rfl]
      exact h.said
    · intro call hcall
      cases hcall
      refine ⟨rfl, ?_, nofun, nofun, nofun⟩
      intro hloops
      cases hloop : s.leaseLoop with
      | none => simp [RunnerState.asked]
      | some loop =>
          rw [hloop] at hloops
          exact absurd rfl hloops
  exact hcalled.quiet (RunnerState.quiet_wakeAll _)

theorem Inv.drainHead (h : Inv o events s log) {call : StopCall} (hcall : s.stop = some call)
    (hsettled : s.settled call.drain = true) : Inv o events (s.drainHead call) log := by
  have hdraining := h.stop call hcall
  have hopen : call.outcome ≠ some .drained := by
    intro houtcome
    rw [hdraining.outcome houtcome] at hsettled
    cases hsettled
  have hquiet : s.asked = none := by
    cases hdrain : call.drain with
    | loops started =>
        cases started with
        | false => exact hdraining.quiet (by rw [hdrain]; exact nofun)
        | true =>
            rw [hdrain] at hsettled
            have hdone : s.leaseLoop = some .done := by
              simpa [RunnerState.settled] using (Bool.and_eq_true _ _).mp hsettled |>.2
            simp [RunnerState.asked, hdone]
    | tasks ids => exact hdraining.quiet (by rw [hdrain]; exact nofun)
    | drained => exact hdraining.quiet (by rw [hdrain]; exact nofun)
  rw [RunnerState.drainHead]
  split
  · refine { h with stop := ?_ }
    intro next hnext
    cases hnext
    exact ⟨hdraining.stopping, fun _ => hquiet, nofun, fun houtcome => absurd houtcome hopen,
      hdraining.timeout⟩
  · next hempty =>
      have hnil : s.inflight = [] := List.length_eq_zero_iff.mp (by omega)
      refine { h with stop := ?_ }
      intro next hnext
      cases hnext
      refine ⟨hdraining.stopping, fun _ => hquiet, fun _ => hnil, fun _ => rfl, ?_⟩
      intro htimeout
      apply hdraining.timeout
      cases houtcome : call.outcome with
      | none =>
          rw [houtcome] at htimeout
          cases htimeout
      | some outcome =>
          rw [houtcome] at htimeout
          exact htimeout

theorem Inv.graceTimer (h : Inv o events s log) {call : StopCall} (hcall : s.stop = some call) :
    Inv o events { s with stop := some { call with outcome := some .timeout } }
      (log ++ [.graceOver]) := by
  have hdraining := h.stop call hcall
  have hnoted := h.noted (e := .graceOver) nofun nofun nofun rfl trivial
  refine { hnoted with stop := ?_ }
  intro next hnext
  cases hnext
  exact ⟨hdraining.stopping, hdraining.quiet, hdraining.drained, nofun, fun _ => by simp⟩

theorem Inv.stopReturns (h : Inv o events s log) {call : StopCall} (hcall : s.stop = some call)
    (houtcome : call.outcome ≠ none) :
    Inv o events { s with stop := some { call with returned := true } }
      (log ++ [.stopReturned]) := by
  have hdraining := h.stop call hcall
  have hallowed : Allowed log .stopReturned := by
    cases hrace : call.outcome with
    | none => exact absurd hrace houtcome
    | some outcome =>
        cases outcome with
        | drained => exact Or.inr (h.allLeft (hdraining.drained (hdraining.outcome hrace)))
        | timeout => exact Or.inl (hdraining.timeout hrace)
  have hnoted := h.noted (e := .stopReturned) nofun nofun nofun rfl hallowed
  refine { hnoted with stop := ?_ }
  intro next hnext
  cases hnext
  exact ⟨hdraining.stopping, hdraining.quiet, hdraining.drained, hdraining.outcome,
    fun htimeout => List.mem_append_left _ (hdraining.timeout htimeout)⟩

/-! ## Every step -/

theorem Inv.answered (h : Inv o events s log) (maintenance : Bool) :
    Inv o events (s.heartbeatAnswered o maintenance) (log ++ [.heartbeatSaid maintenance]) := by
  have hheard : Inv o events { s with maintenance := maintenance }
      (log ++ [.heartbeatSaid maintenance]) := by
    refine ⟨h.ids, h.nodup, h.fits, ?_, ?_, ?_, ?_, ?_, h.allowed.concat trivial⟩
    · intro id
      rw [count_concat_ne (by exact nofun), count_concat_ne (by exact nofun)]
      exact h.counted id
    · intro id
      rw [count_concat_ne (by exact nofun)]
      exact h.known id
    · rw [List.mem_append, or_iff_left (by simp)]
      exact h.stopped
    · rw [lastSaid_said]
      rfl
    · intro call hcall
      have hdraining := h.stop call hcall
      exact ⟨hdraining.stopping, hdraining.quiet, hdraining.drained, hdraining.outcome,
        fun htimeout => List.mem_append_left _ (hdraining.timeout htimeout)⟩
  have hwoken : RunnerState.Quiet { s with maintenance := maintenance }
      (if maintenance then { s with maintenance := maintenance }
        else RunnerState.wakeLeaseLoop { s with maintenance := maintenance }) := by
    split
    · exact .refl _
    · exact RunnerState.quiet_wakeLeaseLoop _
  exact hheard.quiet ((hwoken.trans (RunnerState.quiet_onFirstAttempt _)).trans
    (RunnerState.quiet_heartbeatLoop _ _))

theorem Inv.leaseAnswered (h : Inv o events s log) {free : Nat} (hasked : s.asked = some free)
    (now : Int) (jobs : List LeasedJob)
    (hdistinct : ((RunnerEvent.leaseAnswered now jobs :: events).flatMap
      RunnerEvent.jobIds).Nodup) :
    Inv o (.leaseAnswered now jobs :: events) (s.leaseAnswered o free now jobs).1
      (log ++ (s.leaseAnswered o free now jobs).2) := by
  have hdispatched := h.dispatch now hasked (List.take_sublist free jobs)
    (List.length_take_le free jobs) hdistinct
  have hhead : ∀ t : RunnerState,
      RunnerState.leaseHead o { t with leaseLoop := some .done } 0 = t.leaseHead o 0 := by
    intro t
    rfl
  have hanswered := hdispatched.leaseHead 0
  rw [hhead, List.append_assoc] at hanswered
  exact hanswered

/-- Whatever happens next keeps the invariant. -/
theorem Inv.step (h : Inv o events s log) {e : RunnerEvent} {effects : List RunnerEffect}
    (hstep : runnerStep o s e = some (s', effects))
    (hdistinct : ((e :: events).flatMap RunnerEvent.jobIds).Nodup) :
    Inv o (e :: events) s' (log ++ effects) := by
  have hlater := h.later e
  have hquiet : ∀ {t : RunnerState}, RunnerState.Quiet s t → Inv o (e :: events) t (log ++ []) := by
    intro t ht
    rw [List.append_nil]
    exact hlater.quiet ht
  cases e with
  | start =>
      simp only [runnerStep, Option.ite_none_right_eq_some, Option.some.injEq, Prod.mk.injEq]
        at hstep
      obtain ⟨-, rfl, rfl⟩ := hstep
      exact hquiet ((RunnerState.quiet_leaseLoop s .firstHeartbeat nofun).trans
        (RunnerState.quiet_heartbeatHead _ 0))
  | heartbeatAnswered maintenance =>
      rw [runnerStep] at hstep
      split at hstep
      · cases hstep
        exact hlater.answered maintenance
      · cases hstep
  | heartbeatFailed auth =>
      rw [runnerStep] at hstep
      split at hstep
      · cases hstep
        exact hquiet (RunnerState.quiet_heartbeatFailed o s _ auth)
      · cases hstep
  | heartbeatTimer =>
      rw [runnerStep] at hstep
      split at hstep
      · cases hstep
        exact hquiet (RunnerState.quiet_heartbeatLoop s _)
      · cases hstep
  | heartbeatResumes =>
      rw [runnerStep] at hstep
      split at hstep
      · cases hstep
        exact hquiet (RunnerState.quiet_heartbeatHead s _)
      · cases hstep
  | leaseAnswered now jobs =>
      rw [runnerStep] at hstep
      split at hstep
      · next free backoff hloop =>
          have hasked : s.asked = some free := by rw [RunnerState.asked, hloop]
          have hanswered := h.leaseAnswered hasked now jobs hdistinct
          rw [Option.some.inj hstep] at hanswered
          exact hanswered
      · cases hstep
  | leaseFailed auth =>
      rw [runnerStep] at hstep
      split at hstep
      · cases hstep
        exact hquiet (RunnerState.quiet_leaseFailed o s _ auth)
      · cases hstep
  | leaseTimer =>
      rw [runnerStep] at hstep
      split at hstep
      · cases hstep
        exact hquiet (RunnerState.quiet_leaseLoop s _ nofun)
      · cases hstep
  | leaseResumes =>
      rw [runnerStep] at hstep
      split at hstep
      · next backoff hloop =>
          have hhead := hlater.leaseHead backoff
          rw [Option.some.inj hstep] at hhead
          exact hhead
      · cases hstep
  | fetched id =>
      simp only [runnerStep, Option.ite_none_right_eq_some, Option.some.injEq, Prod.mk.injEq]
        at hstep
      obtain ⟨-, rfl, rfl⟩ := hstep
      rw [List.append_nil]
      exact hlater.moveTask id .fetching .sending
  | sent id =>
      simp only [runnerStep, Option.ite_none_right_eq_some, Option.some.injEq, Prod.mk.injEq]
        at hstep
      obtain ⟨-, rfl, rfl⟩ := hstep
      rw [List.append_nil]
      exact hlater.moveTask id .sending .settled
  | threw id phase =>
      simp only [runnerStep, Option.ite_none_right_eq_some, Option.some.injEq, Prod.mk.injEq]
        at hstep
      obtain ⟨-, rfl, rfl⟩ := hstep
      rw [List.append_nil]
      exact hlater.moveTask id phase .settled
  | leaves id =>
      simp only [runnerStep, Option.ite_none_right_eq_some, Option.some.injEq, Prod.mk.injEq]
        at hstep
      obtain ⟨hmem, rfl, rfl⟩ := hstep
      exact hlater.leave hmem
  | stop =>
      simp only [runnerStep, Option.ite_none_right_eq_some, Option.some.injEq, Prod.mk.injEq]
        at hstep
      obtain ⟨-, rfl, rfl⟩ := hstep
      exact hlater.stopCall
  | drainResumes =>
      rw [runnerStep] at hstep
      split at hstep
      · next call hcall =>
          simp only [Option.ite_none_right_eq_some, Option.some.injEq, Prod.mk.injEq] at hstep
          obtain ⟨hsettled, rfl, rfl⟩ := hstep
          rw [List.append_nil]
          exact hlater.drainHead hcall hsettled
      · cases hstep
  | graceTimer =>
      rw [runnerStep] at hstep
      split at hstep
      · next call hcall =>
          simp only [Option.ite_none_right_eq_some, Option.some.injEq, Prod.mk.injEq] at hstep
          obtain ⟨-, rfl, rfl⟩ := hstep
          exact hlater.graceTimer hcall
      · cases hstep
  | stopReturns =>
      rw [runnerStep] at hstep
      split at hstep
      · next call hcall =>
          simp only [Option.ite_none_right_eq_some, Option.some.injEq, Prod.mk.injEq] at hstep
          obtain ⟨hready, rfl, rfl⟩ := hstep
          exact hlater.stopReturns hcall hready.1
      · cases hstep

end Steps

/-! ## Every run -/

theorem inv_run {o : RunnerOptions} {events : List RunnerEvent}
    {sl : RunnerState × List RunnerEffect} (hrun : (runnerSystem o).Run anyStep events sl)
    (hdistinct : (events.flatMap RunnerEvent.jobIds).Nodup) : Inv o events sl.1 sl.2 := by
  induction hrun with
  | start hinit =>
      change _ = _ at hinit
      rw [hinit]
      exact inv_init o
  | @next events sl next e hrun hstep _ ih =>
      obtain ⟨effects, hstep, hlog⟩ := hstep
      have hpast : (events.flatMap RunnerEvent.jobIds).Nodup := by
        rw [List.flatMap_cons, List.nodup_append] at hdistinct
        exact hdistinct.2.1
      rw [hlog]
      exact (ih hpast).step hstep hdistinct

/-- What a task does next. -/
def Task.next (task : Task) : RunnerEvent :=
  match task.phase with
  | .fetching => .fetched task.jobId
  | .sending => .sent task.jobId
  | .settled => .leaves task.jobId

theorem next_enabled (o : RunnerOptions) {s : RunnerState} {task : Task} (hmem : task ∈ s.tasks) :
    (runnerStep o s task.next).isSome = true := by
  obtain ⟨id, phase⟩ := task
  cases phase with
  | fetching => simp [Task.next, runnerStep, hmem]
  | sending => simp [Task.next, runnerStep, hmem]
  | settled => simp [Task.next, runnerStep, hmem]

/-- Whatever the order of responses, failures, completions and of a call of `stop`: no more jobs run
than may run at once; no request for jobs is started after `stop`, or while the last heartbeat said
maintenance; a dispatched job is in flight until it leaves, once, and nothing stands in the way of
its task; `stop` returns when all jobs have left or its time is over. -/
theorem runner_admission (o : RunnerOptions) {events : List RunnerEvent} {s : RunnerState}
    {log : List RunnerEffect} (hrun : (runnerSystem o).Run anyStep events (s, log))
    (hdistinct : (events.flatMap RunnerEvent.jobIds).Nodup) :
    (s.tasks.filter fun task => task.phase ≠ .settled).length ≤ o.concurrency ∧
    s.inflight.length ≤ o.concurrency ∧
    (∀ before max after, log = before ++ .leaseStarted max :: after →
      .stopCalled ∉ before ∧ lastSaid before ≠ some true) ∧
    (∀ id, .dispatched id ∈ log → log.count (.dispatched id) = 1 ∧
      log.count (.left id) = if id ∈ s.inflight then 0 else 1) ∧
    (∀ id ∈ s.inflight, ∃ task ∈ s.tasks, task.jobId = id) ∧
    (∀ task ∈ s.tasks, (runnerStep o s task.next).isSome = true) ∧
    (∀ before after, log = before ++ .stopReturned :: after →
      .graceOver ∈ before ∨ ∀ id, .dispatched id ∈ before → .left id ∈ before) := by
  have h : Inv o events s log := inv_run hrun hdistinct
  have hinflight : s.inflight.length ≤ o.concurrency := Nat.le_of_add_right_le h.fits
  refine ⟨?_, hinflight, ?_, ?_, ?_, fun task => next_enabled o, ?_⟩
  · have htasks : s.tasks.length = s.inflight.length := by rw [h.ids, List.length_map]
    exact Nat.le_trans (List.length_filter_le _ s.tasks) (htasks ▸ hinflight)
  · exact fun before max after hsplit => h.allowed before _ after hsplit
  · intro id hid
    have hpositive := List.count_pos_iff.mpr hid
    have hknown := h.known id
    have hcounted := h.counted id
    have hleased := List.nodup_iff_count_le_one.mp hdistinct id
    refine ⟨by omega, ?_⟩
    by_cases hin : id ∈ s.inflight
    · rw [List.count_eq_one_of_mem h.nodup hin] at hcounted
      rw [if_pos hin]
      omega
    · rw [List.count_eq_zero_of_not_mem hin] at hcounted
      rw [if_neg hin]
      omega
  · intro id hid
    rw [h.ids] at hid
    exact List.mem_map.mp hid
  · exact fun before after hsplit => h.allowed before _ after hsplit

/-! ## A run -/

/-- The runner after the events, newest first, where they can happen. -/
def replayRunner (o : RunnerOptions) : List RunnerEvent → Option (RunnerState × List RunnerEffect)
  | [] => some (.init, [])
  | e :: events => do
    let (s, log) ← replayRunner o events
    let (s', effects) ← runnerStep o s e
    return (s', log ++ effects)

theorem replayRunner_run {o : RunnerOptions} {events : List RunnerEvent}
    {sl : RunnerState × List RunnerEffect} (h : replayRunner o events = some sl) :
    (runnerSystem o).Run anyStep events sl := by
  induction events generalizing sl with
  | nil =>
      cases h
      exact .start rfl
  | cons e events ih =>
      simp only [replayRunner, Option.bind_eq_bind, Option.bind_eq_some_iff] at h
      obtain ⟨⟨s, log⟩, hpast, ⟨s', effects⟩, hstep, hlast⟩ := h
      cases hlast
      exact .next (ih hpast) ⟨effects, hstep, rfl⟩ trivial

/-- Two slots and three jobs; `stop` comes while one of the two is being fetched. -/
def busyEvents : List RunnerEvent :=
  [.stopReturns, .drainResumes, .leaves "b", .sent "b", .fetched "b", .drainResumes,
    .heartbeatResumes, .leaseFailed true, .stop, .leaseResumes, .leaves "a", .sent "a",
    .fetched "a", .leaseAnswered 0 [⟨"a", "http", some 60000⟩, ⟨"b", "http", some 60000⟩,
      ⟨"c", "http", some 60000⟩],
    .leaseResumes, .heartbeatAnswered false, .start]

def busyEnd : RunnerState × List RunnerEffect :=
  (replayRunner (.standard 2) busyEvents).getD (.init, [])

theorem runner_admission_busy :
    busyEnd.2 = [.heartbeatSaid false, .leaseStarted 2, .dispatched "a", .dispatched "b",
      .left "a", .leaseStarted 1, .stopCalled, .left "b", .stopReturned] ∧
    busyEnd.1.inflight.length ≤ 2 ∧
    busyEnd.2.count (.left "a") = if "a" ∈ busyEnd.1.inflight then 0 else 1 := by
  have h := @runner_admission (.standard 2) busyEvents busyEnd.1 busyEnd.2
    (replayRunner_run (by decide +kernel)) (by decide +kernel)
  exact ⟨by decide +kernel, h.2.1, (h.2.2.2.1 "a" (by decide +kernel)).2⟩

end Utsuroi.HomeRunner
