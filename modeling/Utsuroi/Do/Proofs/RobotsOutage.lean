import Utsuroi.Do.MonitorRuns

/-!
# When robots.txt stops a monitor

The evaluations of an origin are shared by its monitors: an outage counts for each of them,
whichever one's checks have found it.
-/

namespace Utsuroi

open Async Prog Transition

/-- What a check records of its evaluation of robots.txt. -/
def CheckWorld.evaluation (world : CheckWorld) : RobotsEvaluationRow :=
  ⟨world.origin, world.robots.fetchedAt, world.robots.unavailable⟩

/-- The check that the monitor's object runs or has run last. -/
def runningCheck (id : MonitorId) (es : MonitorEvents) : Option CheckWorld :=
  (taskOf (.check id) es).bind MonitorTask.world?

/-- What the checks have recorded, newest first, over the evaluations that there were before. -/
def recordedEvaluations (older : List RobotsEvaluationRow) :
    MonitorEvents → List RobotsEvaluationRow
  | [] => older
  | .call (.check id) call :: es =>
    if call.site.checks .createRobotsEvaluation ∧ ¬call.fault.Before then
      ((runningCheck id es).map CheckWorld.evaluation).toList ++ recordedEvaluations older es
    else recordedEvaluations older es
  | _ :: es => recordedEvaluations older es

def latestEvaluations (origin : String) (limit : Nat) (rows : List RobotsEvaluationRow) :
    List RobotsEvaluationRow :=
  ((rows.filter fun row => row.origin = origin).mergeSort fun a b =>
    decide (b.checkedAt ≤ a.checkedAt)).take limit

/-- The latest evaluations of the origin all found robots.txt unavailable. -/
def OriginOutage (origin : String) (rows : List RobotsEvaluationRow) : Prop :=
  let latest := latestEvaluations origin ROBOTS_UNAVAILABLE_STOP_THRESHOLD rows
  latest.length = ROBOTS_UNAVAILABLE_STOP_THRESHOLD ∧ ∀ row ∈ latest, row.unavailable = true

/-- The running check of the monitor found that robots.txt forbids the source; if it was because
robots.txt was unavailable, there was an outage of the origin when it counted, by the evaluations
recorded since the beginning and the older ones. -/
def StopJustified (id : MonitorId) (older : List RobotsEvaluationRow) (es : MonitorEvents) : Prop :=
  ∃ world, runningCheck id es = some world ∧ world.Disallowed ∧
    (world.robots.unavailable = true → ∃ newer call past,
      es = newer ++ .call (.check id) call :: past ∧ (∀ task, .start (.check id) task ∉ newer) ∧
        call.site.checks .countConsecutiveUnavailableRobotsEvaluations ∧
          OriginOutage world.origin (recordedEvaluations older past))

/-- A check of the monitor evaluates a rule of robots.txt that forbids its source. -/
def EvaluatesDisallow (id : MonitorId) (past : MonitorEvents)
    (e : PoolEvent Thread ThreadSite Store MonitorTask) : Prop :=
  ∃ call, e = .call (.check id) call ∧ call.site.checks .createRobotsEvaluation ∧
    call.fault = .none ∧ ∃ world, runningCheck id past = some world ∧ world.ExplicitlyDisallowed

/-- The monitor's object starts no other check, and nothing disturbs the calls of the running one. -/
def Uninterrupted (id : MonitorId) (es : MonitorEvents) : Prop :=
  ∀ e ∈ es, (∀ task, e ≠ .start (.check id) task) ∧
    ∀ call, e = .call (.check id) call → call.fault = .none

/-- The monitor keeps its status, and a `next_run_at` if it had one. -/
def StaysScheduled (id : MonitorId) (s s' : Store) : Prop :=
  ∀ row, s.monitors id = some row → ∃ row', s'.monitors id = some row' ∧
    row'.status = row.status ∧ (row.nextRunAt ≠ none → row'.nextRunAt ≠ none)

section Policy

variable {C : StepCond MonitorPool (PoolEvent Thread ThreadSite Store MonitorTask)}
  {es newer past : MonitorEvents} {first pool pool' : MonitorPool} {id : MonitorId} {s s' : Store}
  {e : PoolEvent Thread ThreadSite Store MonitorTask}

theorem outage_of_count {origin : String} (h : ROBOTS_UNAVAILABLE_STOP_THRESHOLD ≤
    countConsecutiveUnavailable origin ROBOTS_UNAVAILABLE_STOP_THRESHOLD s) :
    OriginOutage origin s.robotsEvaluations := by
  have hlatest : ∀ latest : List RobotsEvaluationRow,
      latest.length ≤ ROBOTS_UNAVAILABLE_STOP_THRESHOLD →
      ROBOTS_UNAVAILABLE_STOP_THRESHOLD ≤
        (latest.takeWhile RobotsEvaluationRow.unavailable).length →
      latest.length = ROBOTS_UNAVAILABLE_STOP_THRESHOLD ∧
        ∀ row ∈ latest, row.unavailable = true := by
    intro latest hlimit hcount
    have hprefix := List.takeWhile_prefix (l := latest) RobotsEvaluationRow.unavailable
    have hwhole := hprefix.eq_of_length (by have := hprefix.length_le; omega)
    refine ⟨?_, fun row hrow => ?_⟩
    · have := hprefix.length_le
      omega
    · have hall : latest.all RobotsEvaluationRow.unavailable = true := by
        rw [← hwhole]
        exact List.all_takeWhile
      exact List.all_eq_true.mp hall row hrow
  exact hlatest _ (List.length_take_le _ _) h

private theorem request_evaluations {request : MonitorRequest} {log : ThreadLog}
    {site : ThreadSite} {eff : Store → Store} (h : RequestCall log request site eff) (s : Store) :
    (eff s).robotsEvaluations = s.robotsEvaluations := by
  cases request with
  | pause id =>
    cases h with
    | quiet hquiet => exact evaluations_of_control (hquiet s)
    | disarm | pause => rfl
  | resume id now =>
    cases h with
    | quiet hquiet | read hquiet => exact evaluations_of_control (hquiet s)
    | activate | setNextRun | arm | answer => rfl
  | patch id intervalSeconds now =>
    cases h with
    | read hquiet | quiet hquiet | audit hquiet => exact evaluations_of_control (hquiet s)
    | change | move | arm => rfl
  | reconcile id now =>
    cases h with
    | quiet hquiet => exact evaluations_of_control (hquiet s)
    | arm => rfl

/-- One call of a check. -/
private theorem check_evaluations {world : CheckWorld} {log : RunLog} {site : RunSite}
    {eff : Store → Store} (h : CheckCall id world log (some site) eff) (s : Store) :
    (eff s).robotsEvaluations =
      if (ThreadSite.check site).checks .createRobotsEvaluation then
        world.evaluation :: s.robotsEvaluations
      else s.robotsEvaluations := by
  cases h with
  | quiet hquiet hidle =>
    rw [if_neg, evaluations_of_control (hquiet s)]
    rintro ⟨hregion, hsite⟩
    rcases hidle with hguarded | hidle
    · exact hregion hguarded
    · rw [hsite] at hidle
      exact nomatch hidle .loading
  | effect hread hregion heffect =>
    cases heffect with
    | evaluate =>
      rw [if_pos ⟨hregion, rfl⟩]
      rfl
    | claim | run | defer | close | lastChecked | nextRun | stop | policyStop | arm =>
      exact (if_neg fun hchecks => nomatch hchecks.2).symm

/-- The evaluations that there are were recorded by checks, or were there in the beginning. -/
theorem evaluations_recorded (hinit : monitorPool.init first)
    (hsteps : monitorPool.Steps C [] first es pool) :
    pool.shared.robotsEvaluations = recordedEvaluations first.shared.robotsEvaluations es := by
  induction hsteps with
  | refl => rfl
  | @next es pool pool' e hsteps hstep _ holder =>
    have hmonitor := monitorStep_of_run (hsteps.run hinit) hstep
    generalize hshared : pool.shared = s at hmonitor holder
    generalize pool'.shared = s' at hmonitor ⊢
    cases hmonitor with
    | others _ hevaluations => exact hevaluations.trans holder
    | start _ hcontrol =>
      rw [evaluations_of_control hcontrol, enter_evaluations, holder]
      rfl
    | @request n request site fault eff _ _ hcall htook =>
      rcases htook with ⟨_, hcontrol⟩ | ⟨_, hcontrol⟩
      · exact (evaluations_of_control hcontrol).trans holder
      · rw [evaluations_of_control hcontrol, request_evaluations hcall, holder]
        rfl
    | @check id task world site fault eff _ htask hworld hcall htook =>
      have hcheck : runningCheck id es = some world := by
        rw [runningCheck, htask]
        exact hworld
      rw [recordedEvaluations, hcheck]
      rcases htook with ⟨hbefore, hcontrol⟩ | ⟨hafter, hcontrol⟩
      · rw [if_neg fun h => h.2 hbefore, evaluations_of_control hcontrol, holder]
      · rw [evaluations_of_control hcontrol, check_evaluations hcall, holder]
        by_cases hsite : (ThreadSite.check site).checks .createRobotsEvaluation
        · rw [if_pos hsite, if_pos ⟨hsite, hafter⟩]
          rfl
        · rw [if_neg hsite, if_neg fun h => hsite h.1]

/-- A check that stops the monitor may do so. -/
private theorem stop_justified (hinit : monitorPool.init first)
    (hsteps : monitorPool.Steps C [] first es pool) (hstep : monitorPool.step pool e pool')
    (hstop : StopsMonitor id e) : StopJustified id first.shared.robotsEvaluations es := by
  have hmonitor := monitorStep_of_run (hsteps.run hinit) hstep
  generalize pool.shared = s at hmonitor
  generalize pool'.shared = s' at hmonitor
  cases hmonitor with
  | others | start | request => exact hstop.elim
  | @check id _ world _ _ _ _ htask hworld hcall htook =>
    obtain ⟨rfl, hsite, _⟩ := hstop
    obtain ⟨monitor, _, heffect⟩ := hcall.effect_of_checks hsite policyStop_not_idle
    have hcheck : runningCheck id es = some world := by
      rw [runningCheck, htask]
      exact hworld
    cases heffect with
    | policyStop _ hrobots hcount =>
      refine ⟨world, hcheck, hrobots, fun hunavailable => ?_⟩
      obtain ⟨found, hmem, hcounted⟩ := hcount hunavailable
      obtain ⟨call, hcallmem, hcall⟩ := List.mem_filterMap.mp hmem
      obtain ⟨site, hsite, hsame⟩ := Option.map_eq_some_iff.mp hcall
      have hbefore : call.before = found := congrArg Call.before hsame
      obtain ⟨newer, past, rfl, _, hstart⟩ := exists_of_mem_logOf hcallmem
      obtain ⟨before, after, hpast, ⟨⟨_, hfound⟩, _⟩⟩ := hsteps.split
      refine ⟨newer, call, past, rfl, hstart, ?_, ?_⟩
      · obtain rfl : site = ⟨.unguarded, .countConsecutiveUnavailableRobotsEvaluations⟩ :=
          congrArg Call.site hsame
        generalize call.site = counted at hsite ⊢
        cases counted with
        | check run =>
          obtain rfl := Option.some.inj hsite
          exact ⟨by decide, rfl⟩
        | object | route => contradiction
      rw [← evaluations_recorded hinit hpast, ← hfound, hbefore]
      exact outage_of_count hcounted

theorem stays_of_row {f : MonitorRow → MonitorRow}
    (h : s'.monitors id = (s.monitors id).map f) (hstatus : ∀ row, (f row).status = row.status)
    (hnext : ∀ row, row.nextRunAt ≠ none → (f row).nextRunAt ≠ none) : StaysScheduled id s s' := by
  intro row hrow
  rw [hrow] at h
  exact ⟨f row, h, hstatus row, hnext row⟩

theorem stays_of_same (h : s'.monitors id = s.monitors id) : StaysScheduled id s s' :=
  stays_of_row (f := fun row => row) (h.trans Option.map_id'.symm) (fun _ => rfl) fun _ h => h

/-- Whatever else happens but a stop or a request leaves the monitor scheduled. -/
private theorem stays_scheduled (hrun : monitorPool.Run C es pool)
    (hstep : monitorPool.step pool e pool') (hstop : ¬StopsMonitor id e)
    (hrequest : ∀ n call, e ≠ .call (.request n) call) :
    StaysScheduled id pool.shared pool'.shared := by
  have hmonitor := monitorStep_of_run hrun hstep
  generalize pool.shared = s at hmonitor ⊢
  generalize pool'.shared = s' at hmonitor ⊢
  cases hmonitor with
  | others hschedule => exact stays_of_same (congrFun (monitors_of_schedule hschedule) id)
  | start _ hcontrol =>
    refine stays_of_same ?_
    rw [monitors_of_control hcontrol, enter_monitors]
  | request => exact absurd rfl (hrequest _ _)
  | @check id' task world site fault eff _ htask hworld hcall htook =>
    rcases htook with ⟨_, hcontrol⟩ | ⟨hafter, hcontrol⟩
    · exact stays_of_same (congrFun (monitors_of_control hcontrol) id)
    have hmonitors := congrFun (monitors_of_control hcontrol) id
    by_cases hid : id = id'
    swap
    · exact stays_of_same (hmonitors.trans (hcall.writesRow.other hid s))
    subst hid
    cases hcall with
    | quiet hquiet hidle => exact stays_of_same (hmonitors.trans (congrFun (hquiet.monitors s) id))
    | effect hread hregion heffect =>
      cases heffect with
      | lastChecked =>
        exact stays_of_row (hmonitors.trans (Store.updateMonitor_self ..)) (fun _ => rfl) fun _ h => h
      | nextRun =>
        exact stays_of_row (hmonitors.trans (Store.updateMonitor_self ..)) (fun _ => rfl) fun _ _ => nofun
      | policyStop => exact absurd ⟨rfl, ⟨hregion, rfl⟩, hafter⟩ hstop
      | claim | run | evaluate | defer | close | stop | arm => exact stays_of_same hmonitors

/-- What a check does, in the events `newer`, after it has evaluated a rule that forbids the
source. -/
structure Stopping (id : MonitorId) (world : CheckWorld) (newer es : MonitorEvents) : Prop where
  check : runningCheck id es = some world
  phase : checkPhase (runLog (logOf (.check id) es)) = .evaluated ∨
    checkPhase (runLog (logOf (.check id) es)) = .stopping ∨
    (∃ stop ∈ newer, StopsMonitor id stop) ∧
      (checkPhase (runLog (logOf (.check id) es)) = .ended .policyStopped ∨
        checkPhase (runLog (logOf (.check id) es)) = .armed .policyStopped)
  uncut : ¬Cut (logOf (.check id) es) ∧ ¬Cut (runLog (logOf (.check id) es))

/-- Other threads do not matter. -/
private theorem Stopping.of_same {world : CheckWorld} (h : Stopping id world newer es)
    (htask : taskOf (.check id) (e :: es) = taskOf (.check id) es)
    (hlog : logOf (.check id) (e :: es) = logOf (.check id) es) :
    Stopping id world (e :: newer) (e :: es) := by
  refine ⟨?_, ?_, ?_⟩
  · rw [runningCheck, htask]
    exact h.check
  · rw [hlog]
    refine h.phase.imp_right (Or.imp_right ?_)
    rintro ⟨⟨stop, hmem, hstop⟩, hphase⟩
    exact ⟨⟨stop, List.mem_cons_of_mem _ hmem, hstop⟩, hphase⟩
  · rw [hlog]
    exact h.uncut

/-- The next call of a check that has evaluated a rule that forbids the source. -/
private theorem CheckEffect.of_evaluated {world : CheckWorld} {monitor : MonitorRow} {log : RunLog}
    {site : Site} {eff : Store → Store} (h : CheckEffect id world monitor log site eff)
    (hdisallowed : world.ExplicitlyDisallowed) (hphase : checkPhase log = .evaluated) :
    site = .updateCheckJobStatus (world.jobOf id monitor) .policyStopped := by
  cases h with
  | stop => rfl
  | defer _ hrobots => exact absurd hdisallowed.1 hrobots
  | close _ hclose =>
    rw [hphase] at hclose
    rcases hclose with hclose | ⟨_, hclose⟩
    · contradiction
    · exact absurd hdisallowed hclose
  | _ hother =>
    rw [hphase] at hother
    contradiction

private theorem CheckEffect.of_stopping {world : CheckWorld} {monitor : MonitorRow} {log : RunLog}
    {site : Site} {eff : Store → Store} (h : CheckEffect id world monitor log site eff)
    (hphase : checkPhase log = .stopping) : site = .policyStopMonitor := by
  cases h with
  | policyStop => rfl
  | close _ hclose =>
    rw [hphase] at hclose
    rcases hclose with hclose | ⟨hclose, _⟩ <;> contradiction
  | _ hother =>
    rw [hphase] at hother
    contradiction

/-- One event. -/
private theorem Stopping.step {world : CheckWorld} (h : Stopping id world newer es)
    (hdisallowed : world.ExplicitlyDisallowed) (hrun : monitorPool.Run C es pool)
    (hstep : monitorPool.step pool e pool') (hstart : ∀ task, e ≠ .start (.check id) task)
    (hfault : ∀ call, e = .call (.check id) call → call.fault = .none) :
    Stopping id world (e :: newer) (e :: es) := by
  have hmonitor := monitorStep_of_run hrun hstep
  generalize pool.shared = s at hmonitor
  generalize pool'.shared = s' at hmonitor
  cases hmonitor with
  | others => exact h.of_same rfl rfl
  | @start k task =>
    have hk : k ≠ .check id := fun hk => hstart task (hk ▸ rfl)
    exact h.of_same (if_neg hk) (if_neg hk)
  | request => exact h.of_same rfl (if_neg (request_ne_check _ _))
  | @check id' task world' site fault eff _ htask hworld hcall htook =>
    by_cases hid : id' = id
    swap
    · exact h.of_same rfl (if_neg (by simpa using hid))
    subst hid
    obtain rfl : fault = .none := hfault _ rfl
    obtain rfl : world' = world := by
      have hcheck := h.check
      rw [runningCheck, htask] at hcheck
      exact Option.some.inj (hworld.symm.trans hcheck)
    have hlog : logOf (.check id') (.call (.check id') ⟨.check site, s, .none⟩ :: es) =
        ⟨.check site, s, .none⟩ :: logOf (.check id') es := if_pos rfl
    have hphase : checkPhase (runLog (⟨.check site, s, .none⟩ :: logOf (.check id') es)) =
        if site.region = .guarded then checkPhase (runLog (logOf (.check id') es))
        else (checkPhase (runLog (logOf (.check id') es))).note site.site := rfl
    refine ⟨h.check, ?_, ?_⟩
    swap
    · rw [hlog]
      exact ⟨fun hcut => hcut rfl, fun hcut => hcut rfl⟩
    rw [hlog, hphase]
    have hstopped : (∃ stop ∈ newer, StopsMonitor id' stop) →
        ∃ stop ∈ .call (.check id') ⟨.check site, s, .none⟩ :: newer, StopsMonitor id' stop :=
      fun ⟨stop, hmem, hstop⟩ => ⟨stop, List.mem_cons_of_mem _ hmem, hstop⟩
    cases hcall with
    | quiet hquiet hidle =>
      have hsame : (if site.region = .guarded then checkPhase (runLog (logOf (.check id') es))
          else (checkPhase (runLog (logOf (.check id') es))).note site.site) =
          checkPhase (runLog (logOf (.check id') es)) := by
        split
        · rfl
        next hregion => exact (hidle.resolve_left hregion) _
      rw [hsame]
      exact h.phase.imp_right (Or.imp_right (And.imp_left hstopped))
    | effect hread hregion heffect =>
      rw [if_neg hregion]
      rcases h.phase with hevaluated | hstopping | ⟨hstop, hended⟩
      · rw [hevaluated, heffect.of_evaluated hdisallowed hevaluated]
        exact Or.inr (Or.inl rfl)
      · obtain rfl := heffect.of_stopping hstopping
        refine Or.inr (Or.inr ⟨⟨_, List.mem_cons_self, rfl, ⟨hregion, rfl⟩, ?_⟩, Or.inl ?_⟩)
        · exact Fault.not_before_none
        · rw [hstopping]
          rfl
      · obtain ⟨hend, rfl, _⟩ := heffect.of_end hended
        refine Or.inr (Or.inr ⟨hstopped hstop, Or.inr ?_⟩)
        rw [hend]
        rfl

/-- A check that evaluates a rule that forbids the source stops the monitor. -/
private theorem disallow_stops (hrun : monitorPool.Run C (newer ++ e :: past) pool)
    (hdisallow : EvaluatesDisallow id past e) (huncut : Uninterrupted id newer)
    (hidle : pool.threads (.check id) = none) : ∃ stop ∈ newer, StopsMonitor id stop := by
  obtain ⟨call, rfl, hsite, hfault, world, hcheck, hdisallowed⟩ := hdisallow
  obtain ⟨before, hbefore, hsteps⟩ := hrun.unappend
  have hfirst : Stopping id world [] (.call (.check id) call :: past) := by
    obtain ⟨site, found, fault⟩ := call
    obtain rfl : fault = .none := hfault
    cases site with
    | object | route => exact hsite.elim
    | check run =>
      obtain ⟨hregion, hsite⟩ := hsite
      have hlog : logOf (.check id) (.call (.check id) ⟨.check run, found, .none⟩ :: past) =
          ⟨.check run, found, .none⟩ :: logOf (.check id) past := if_pos rfl
      refine ⟨hcheck, Or.inl ?_, ?_⟩
      · rw [hlog]
        change ite _ _ _ = _
        rw [if_neg hregion, hsite]
        rfl
      · rw [hlog]
        exact ⟨fun hcut => hcut rfl, fun hcut => hcut rfl⟩
  have hlast : Stopping id world newer (newer ++ .call (.check id) call :: past) := by
    clear hrun hidle
    induction hsteps with
    | refl => exact hfirst
    | @next newer _ _ e hsteps hstep hC ih =>
      obtain ⟨hstart, hfault⟩ := huncut e List.mem_cons_self
      exact (ih fun e he => huncut e (List.mem_cons_of_mem _ he)).step hdisallowed
        (hbefore.append hsteps) hstep hstart hfault
  obtain ⟨task, htask, hworld⟩ := Option.bind_eq_some_iff.mp hlast.check
  rcases ended_of_run monitorTasks_heed hrun htask hidle with hret | hthrown | hkilled
  · rcases hlast.phase with hphase | hphase | ⟨hstop, _⟩
    · rcases hret with hearly | hearly | ⟨kind, harmed⟩
      all_goals simp_all
    · rcases hret with hearly | hearly | ⟨kind, harmed⟩
      all_goals simp_all
    · exact hstop
  · obtain ⟨world', hworld', hthrown⟩ := hthrown
    obtain rfl := Option.some.inj (hworld'.symm.trans hworld)
    rcases hthrown with hcut | hnot | hearly
    · exact absurd hcut hlast.uncut.2
    · exact absurd hdisallowed hnot
    · rcases hlast.phase with hphase | hphase | ⟨hstop, _⟩
      · rw [hphase] at hearly
        exact hearly.elim
      · rw [hphase] at hearly
        exact hearly.elim
      · exact hstop
  · obtain ⟨last, log, hlog, hkill⟩ := hkilled
    have huncut := hlast.uncut.1
    rw [hlog] at huncut
    refine absurd (fun hnone : last.fault = .none => ?_) huncut
    rw [hnone] at hkill
    rcases hkill with hkill | hkill <;> contradiction

/-- How robots.txt stops a monitor, in every run of its checks beside those of others: it is stopped
only by a check of its own that robots.txt forbids, for an outage only if the latest evaluations of
the origin agree on it; a rule that forbids the source stops it at once; whatever else the checks do
leaves it scheduled. -/
theorem robots_stops (hinit : monitorPool.init first)
    (hsteps : monitorPool.Steps anyStep [] first es pool) (id : MonitorId) :
    (∀ e pool', monitorPool.step pool e pool' → StopsMonitor id e →
      StopJustified id first.shared.robotsEvaluations es) ∧
    (∀ newer e past, es = newer ++ e :: past → EvaluatesDisallow id past e →
      Uninterrupted id newer → pool.threads (.check id) = none →
        ∃ stop ∈ newer, StopsMonitor id stop) ∧
    (∀ e pool', monitorPool.step pool e pool' → ¬StopsMonitor id e →
      (∀ n call, e ≠ .call (.request n) call) → StaysScheduled id pool.shared pool'.shared) := by
  have hrun := hsteps.run hinit
  refine ⟨fun e pool' hstep hstop => stop_justified hinit hsteps hstep hstop, ?_,
    fun e pool' hstep hstop hrequest => stays_scheduled hrun hstep hstop hrequest⟩
  rintro newer e past rfl hdisallow huncut hidle
  exact disallow_stops hrun hdisallow huncut hidle

end Policy

/-! ## An outage that others have seen -/

private def unreachable (now : Nat) : RobotsDecision := ⟨false, none, true, now, "unavailable"⟩

/-- Two checks of monitor 1 and then one of monitor 2 find robots.txt unavailable. -/
private def outageMoves : List (Move Thread MonitorTask) :=
  quietly (.check 2) 15 ++
    [.start (.check 2) (.alarm (sampleCheck 5000000 (unreachable 5000000)))] ++
    quietly (.check 1) 19 ++
    [.start (.check 1) (.alarm (sampleCheck 4000000 (unreachable 4000000)))] ++
    quietly (.check 1) 18 ++ [.start (.check 1) (.alarm (sampleCheck 1000 (unreachable 1000)))]

private theorem outageMoves_fit : ∀ move ∈ outageMoves, MoveFits move := by
  simp only [outageMoves, List.forall_mem_append, List.forall_mem_cons]
  exact ⟨⟨⟨⟨⟨quietly_fits _ _, sampleCheck_fits _ _ _, by simp⟩, quietly_fits _ _⟩,
    sampleCheck_fits _ _ _, by simp⟩, quietly_fits _ _⟩, sampleCheck_fits _ _ _, by simp⟩

/-- The checks of the monitor, newest first. -/
def ownChecks (id : MonitorId) : MonitorEvents → List CheckWorld
  | [] => []
  | .start (.check id') task :: es =>
    if id' = id then task.world?.toList ++ ownChecks id es else ownChecks id es
  | _ :: es => ownChecks id es

/-- The first check of monitor 2 stops it. -/
private def stoppedByOthers (played : MonitorEvents × MonitorPool) : Bool :=
  played.1.head?.any (fun e => decide (StopsMonitor 2 e)) &&
    ((runningCheck 2 played.1.tail).any fun world => world.robots.unavailable) &&
    (ownChecks 2 played.1.tail).length == 1

/-- The count, for evaluations that are stored in the order of their times. -/
private def countInOrder (origin : String) (limit : Nat) (store : Store) : Nat :=
  let rows := store.robotsEvaluations.filter fun row => row.origin = origin
  if rows.Pairwise fun a b => decide (b.checkedAt ≤ a.checkedAt) = true then
    ((rows.take limit).takeWhile RobotsEvaluationRow.unavailable).length
  else countConsecutiveUnavailable origin limit store

private theorem countConsecutiveUnavailable_inOrder :
    countConsecutiveUnavailable = countInOrder := by
  funext origin limit store
  unfold countInOrder
  dsimp only
  split
  next hsorted =>
    unfold countConsecutiveUnavailable
    dsimp only
    rw [List.mergeSort_of_pairwise hsorted]
  · rfl

private theorem outageMoves_stop :
    (play monitorTasks anyStep samplePool outageMoves).any stoppedByOthers = true := by
  unfold monitorTasks checkThread runCheckAndApply runMonitorCheck checkSource checkRobotsAndHost
    consecutiveUnavailable countConsecutiveUnavailableRobotsEvaluations
  rw [countConsecutiveUnavailable_inOrder]
  decide +kernel

/-- A monitor is stopped for an outage that its own checks have seen only once. -/
theorem robots_outage_shared :
    ¬∀ (id : MonitorId) e es world (pool pool' : MonitorPool), monitorPool.Run anyStep es pool →
      monitorPool.step pool e pool' → StopsMonitor id e → runningCheck id es = some world →
      world.robots.unavailable = true →
        ROBOTS_UNAVAILABLE_STOP_THRESHOLD ≤ (ownChecks id es).length ∧
          ∀ world ∈ (ownChecks id es).take ROBOTS_UNAVAILABLE_STOP_THRESHOLD,
            world.robots.unavailable = true := by
  intro hall
  obtain ⟨es, pool', hrun, hstopped⟩ :=
    sample_run (D := anyStep) (P := stoppedByOthers) outageMoves_fit outageMoves_stop
  cases es with
  | nil => contradiction
  | cons e es =>
    obtain ⟨pool, hbefore, hstep, _⟩ := hrun.last
    obtain ⟨hlast, hlength⟩ := (Bool.and_eq_true _ _ ▸ hstopped : _ ∧ _)
    obtain ⟨hstop, hcheck⟩ := (Bool.and_eq_true _ _ ▸ hlast : _ ∧ _)
    obtain ⟨world, hworld, hunavailable⟩ := (Option.any_eq_true _ _).mp hcheck
    have hown := (hall 2 e es world pool pool' hbefore hstep (of_decide_eq_true hstop) hworld
      hunavailable).1
    have hone : (ownChecks 2 es).length = 1 := eq_of_beq hlength
    rw [hone] at hown
    exact absurd hown (by decide)

/-- The stop is justified by what the checks of both monitors have recorded. -/
theorem robots_stops_outage : ∃ e es world, ∃ pool pool' : MonitorPool,
    monitorPool.Steps anyStep [] samplePool es pool ∧ monitorPool.step pool e pool' ∧
      StopsMonitor 2 e ∧ runningCheck 2 es = some world ∧ world.robots.unavailable = true ∧
        StopJustified 2 [] es := by
  obtain ⟨es, pool', hsteps, hstopped⟩ :=
    sample_start (D := anyStep) (P := stoppedByOthers) outageMoves_fit outageMoves_stop
  cases hsteps with
  | refl => contradiction
  | @next es pool _ e hbefore hstep _ =>
    obtain ⟨hlast, _⟩ := (Bool.and_eq_true _ _ ▸ hstopped : _ ∧ _)
    obtain ⟨hstop, hcheck⟩ := (Bool.and_eq_true _ _ ▸ hlast : _ ∧ _)
    obtain ⟨world, hworld, hunavailable⟩ := (Option.any_eq_true _ _).mp hcheck
    have hstop := of_decide_eq_true hstop
    exact ⟨e, es, world, pool, pool', hbefore, hstep, hstop, hworld, hunavailable,
      (robots_stops samplePool_init hbefore 2).1 e pool' hstep hstop⟩

end Utsuroi
