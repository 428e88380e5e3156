import Utsuroi.Do.Proofs.MonitorCalls

/-!
# Runs of monitors under requests

What one event of a run does to monitors, jobs, evaluations and alarms.
-/

namespace Utsuroi

open Async Prog Transition Relation

theorem request_ne_check (n : Nat) (id : MonitorId) : Thread.request n ≠ .check id := by simp

/-- A call with this effect ended with the fault and took the store from `s` to `s'`, as far as the
control of monitors goes. -/
def Took (fault : Fault) (eff : Store → Store) (s s' : Store) : Prop :=
  (fault.Before ∧ s'.control = s.control) ∨ (¬fault.Before ∧ s'.control = (eff s).control)

/-- What an event does after the events `es`. -/
inductive MonitorStep (es : MonitorEvents) (s : Store) :
    PoolEvent Thread ThreadSite Store MonitorTask → Store → Prop
  | others {s' : Store} (hschedule : s'.schedule = s.schedule)
      (hevaluations : s'.robotsEvaluations = s.robotsEvaluations)
      (halarms : ∀ id, s'.alarms id = s.alarms id ∨ s'.alarms id = none) :
      MonitorStep es s (.others s') s'
  | start {k : Thread} {task : MonitorTask} {s' : Store} (hfits : monitorTasks.fits k task)
      (hcontrol : s'.control = (monitorTasks.enter k task s).control) :
      MonitorStep es s (.start k task) s'
  | check {id : MonitorId} {task : MonitorTask} {world : CheckWorld} {site : RunSite}
      {fault : Fault} {eff : Store → Store} {s' : Store}
      (htask : taskOf (.check id) es = some task) (hworld : task.world? = some world)
      (hcall : CheckCall id world (runLog (logOf (.check id) es)) (some site) eff)
      (htook : Took fault eff s s') :
      MonitorStep es s (.call (.check id) ⟨.check site, s, fault⟩) s'
  | request {n : Nat} {request : MonitorRequest} {site : ThreadSite} {fault : Fault}
      {eff : Store → Store} {s' : Store}
      (htask : taskOf (.request n) es = some (.request request))
      (hcall : RequestCall (logOf (.request n) es) request site eff) (htook : Took fault eff s s') :
      MonitorStep es s (.call (.request n) ⟨site, s, fault⟩) s'

section Steps

variable {C : StepCond MonitorPool (PoolEvent Thread ThreadSite Store MonitorTask)}
  {es : MonitorEvents} {pool pool' : MonitorPool}
  {e : PoolEvent Thread ThreadSite Store MonitorTask}

/-- Between its calls a thread does nothing to monitors. -/
private theorem silently_control {k : Thread} {task : MonitorTask} {log : ThreadLog} {s s' : Store}
    (h : monitorConds.Silently k task log s s') : s'.control = s.control := by
  induction h with
  | refl => rfl
  | tail _ hstep ih =>
    obtain ⟨eff, hcond, rfl⟩ := hstep
    have hquiet : Quiet eff := by
      cases k with
      | check id =>
        obtain ⟨world, _, hcall⟩ := hcond
        generalize hsite : (none : Option ThreadSite) = site at hcall
        obtain ⟨hrun⟩ := hcall
        cases hrun with
        | silent hquiet => exact hquiet
        | quiet | effect => simp at hsite
      | request n =>
        cases task with
        | request request =>
          obtain ⟨site, hsite, _⟩ := hcond
          contradiction
        | alarm world | runNow world => exact hcond.elim
    rw [hquiet, ih]

private theorem took_of_effect {k : Thread} {task : MonitorTask} {log : ThreadLog} {fault : Fault}
    {eff : Store → Store} {s s' : Store}
    (h : TaskConds.CallEffect monitorConds k task log fault eff s s') : Took fault eff s s' := by
  by_cases hfault : fault.Before
  · exact Or.inl ⟨hfault, silently_control (h.1 hfault)⟩
  · exact Or.inr ⟨hfault, silently_control (h.2 hfault)⟩

/-- Each event of a run is one of these. -/
theorem monitorStep_of_run (hrun : monitorPool.Run C es pool)
    (hstep : monitorPool.step pool e pool') : MonitorStep es pool.shared e pool'.shared := by
  cases e with
  | others s =>
    obtain ⟨⟨hschedule, hevaluations, halarms⟩, rfl⟩ := hstep
    exact .others hschedule hevaluations halarms
  | start k task =>
    obtain ⟨hfits, _, hsilent⟩ := startStep_of_run monitorTasks_heed hrun hstep
    exact .start hfits (silently_control hsilent)
  | call k call =>
    obtain ⟨task, eff, hcall⟩ := callStep_of_run monitorTasks_heed hrun hstep
    obtain ⟨site, before, fault⟩ := call
    obtain rfl : before = pool.shared := hcall.found
    have htook := took_of_effect hcall.effect
    have hcond := hcall.cond
    cases k with
    | check id =>
      obtain ⟨world, hworld, hthread⟩ := hcond
      generalize hsite : some site = site' at hthread
      obtain ⟨hrun⟩ := hthread
      cases hrun with
      | silent => simp at hsite
      | quiet hquiet hidle =>
        obtain rfl := Option.some.inj hsite
        exact .check hcall.taken hworld (.quiet hquiet hidle) htook
      | effect hread hregion heffect =>
        obtain rfl := Option.some.inj hsite
        exact .check hcall.taken hworld (.effect hread hregion heffect) htook
    | request n =>
      cases task with
      | request request =>
        obtain ⟨site', hsite, hrequest⟩ := hcond
        obtain rfl := Option.some.inj hsite
        exact .request hcall.taken hrequest htook
      | alarm world | runNow world => exact hcond.elim

end Steps

/-- The call of a check, outside the part that it guards. -/
def ThreadSite.checks (site : Site) : ThreadSite → Prop
  | .check run => run.region ≠ .guarded ∧ run.site = site
  | _ => False

instance (site : Site) : DecidablePred (ThreadSite.checks site)
  | .check _ => inferInstanceAs (Decidable (_ ∧ _))
  | .object _ | .route _ => inferInstanceAs (Decidable False)

/-- `policyStopMonitor` commits for the monitor. -/
def StopsMonitor (id : MonitorId) : PoolEvent Thread ThreadSite Store MonitorTask → Prop
  | .call (.check id') call =>
    id' = id ∧ call.site.checks .policyStopMonitor ∧ ¬call.fault.Before
  | _ => False

instance (id : MonitorId) : DecidablePred (StopsMonitor id)
  | .call (.check _) _ => inferInstanceAs (Decidable (_ ∧ _ ∧ _))
  | .call (.request _) _ | .start _ _ | .others _ => inferInstanceAs (Decidable False)

/-! ## Rows of monitors -/

section Rows

variable {C : StepCond MonitorPool (PoolEvent Thread ThreadSite Store MonitorTask)}
  {es : MonitorEvents} {pool : MonitorPool} {id : MonitorId} {eff : Store → Store} {s s' : Store}

theorem Store.updateMonitor_self (s : Store) (id : MonitorId) (f : MonitorRow → MonitorRow) :
    (s.updateMonitor id f).monitors id = (s.monitors id).map f := Function.update_self ..

/-- The call writes at most the row of this monitor. -/
def WritesRow (id : MonitorId) (eff : Store → Store) : Prop :=
  ∀ s, ∃ f, (eff s).monitors = Function.update s.monitors id ((s.monitors id).map f)

theorem Quiet.monitors (h : Quiet eff) (s : Store) : (eff s).monitors = s.monitors :=
  congrArg Prod.fst (h.schedule s)

theorem Quiet.writesRow (h : Quiet eff) : WritesRow id eff := by
  intro s
  refine ⟨fun row => row, ?_⟩
  rw [h.monitors, Option.map_id', Function.update_eq_self]

private theorem writesRow_of_same (h : ∀ s, (eff s).monitors = s.monitors) : WritesRow id eff := by
  intro s
  refine ⟨fun row => row, ?_⟩
  rw [h, Option.map_id', Function.update_eq_self]

theorem CheckCall.writesRow {world : CheckWorld} {log : RunLog} {site : Option RunSite}
    (h : CheckCall id world log site eff) : WritesRow id eff := by
  cases h with
  | quiet hquiet hsite => exact hquiet.writesRow
  | silent hquiet => exact hquiet.writesRow
  | effect hread hregion heffect =>
    cases heffect with
    | lastChecked | nextRun | policyStop => exact fun s => ⟨_, rfl⟩
    | claim | run | evaluate | defer | close | stop | arm => exact writesRow_of_same fun _ => rfl

theorem RequestCall.writesRow {request : MonitorRequest} {log : ThreadLog} {site : ThreadSite}
    (h : RequestCall log request site eff) : WritesRow request.monitorId eff := by
  cases request with
  | pause id =>
    cases h with
    | quiet hquiet => exact hquiet.writesRow
    | disarm => exact writesRow_of_same fun _ => rfl
    | pause => exact fun s => ⟨_, rfl⟩
  | resume id now =>
    cases h with
    | quiet hquiet | read hquiet => exact hquiet.writesRow
    | arm => exact writesRow_of_same fun _ => rfl
    | activate | setNextRun | answer => exact fun s => ⟨_, rfl⟩
  | patch id intervalSeconds now =>
    cases h with
    | read hquiet | quiet hquiet | audit hquiet => exact hquiet.writesRow
    | arm => exact writesRow_of_same fun _ => rfl
    | change | move => exact fun s => ⟨_, rfl⟩
  | reconcile id now =>
    cases h with
    | quiet hquiet => exact hquiet.writesRow
    | arm => exact writesRow_of_same fun _ => rfl

theorem WritesRow.other (h : WritesRow id eff) {other : MonitorId} (hother : other ≠ id)
    (s : Store) : (eff s).monitors other = s.monitors other := by
  obtain ⟨f, hf⟩ := h s
  rw [hf, Function.update_of_ne hother]

theorem WritesRow.isSome (h : WritesRow id eff) (other : MonitorId) (s : Store) :
    ((eff s).monitors other).isSome = (s.monitors other).isSome := by
  by_cases hother : other = id
  · subst hother
    obtain ⟨f, hf⟩ := h s
    rw [hf, Function.update_self, Option.isSome_map]
  · rw [h.other hother]

theorem monitors_of_control (h : s'.control = s.control) : s'.monitors = s.monitors :=
  congrArg (fun control => control.1.1) h

theorem monitors_of_schedule (h : s'.schedule = s.schedule) : s'.monitors = s.monitors :=
  congrArg Prod.fst h

theorem Took.monitors {fault : Fault} (h : Took fault eff s s') :
    s'.monitors = s.monitors ∨ ¬fault.Before ∧ s'.monitors = (eff s).monitors := by
  rcases h with ⟨_, hcontrol⟩ | ⟨hfault, hcontrol⟩
  · exact Or.inl (monitors_of_control hcontrol)
  · exact Or.inr ⟨hfault, monitors_of_control hcontrol⟩

theorem evaluations_of_control (h : s'.control = s.control) :
    s'.robotsEvaluations = s.robotsEvaluations := congrArg (fun control => control.2.1) h

theorem enter_evaluations (k : Thread) (task : MonitorTask) (s : Store) :
    (monitorTasks.enter k task s).robotsEvaluations = s.robotsEvaluations := by
  cases k with
  | check id => cases task <;> rfl
  | request n => rfl

theorem enter_monitors (k : Thread) (task : MonitorTask) (s : Store) :
    (monitorTasks.enter k task s).monitors = s.monitors := by
  cases k with
  | check id => cases task <;> rfl
  | request n => rfl

theorem MonitorStep.isSome {e : PoolEvent Thread ThreadSite Store MonitorTask}
    (h : MonitorStep es s e s') (id : MonitorId) : (s'.monitors id).isSome = (s.monitors id).isSome := by
  have htook : ∀ {id' fault eff}, Took fault eff s s' → WritesRow id' eff →
      (s'.monitors id).isSome = (s.monitors id).isSome := by
    intro id' fault eff htook hwrites
    rcases htook.monitors with hsame | ⟨_, heff⟩
    · rw [hsame]
    · rw [heff, hwrites.isSome]
  cases h with
  | others hschedule => rw [monitors_of_schedule hschedule]
  | start hfits hcontrol => rw [monitors_of_control hcontrol, enter_monitors]
  | check htaken hworld hcall hend => exact htook hend hcall.writesRow
  | request htaken hcall hend => exact htook hend hcall.writesRow

/-- A check that has read its row begins with the claim of its job. -/
theorem CheckEffect.of_loading {world : CheckWorld} {monitor : MonitorRow} {log : RunLog}
    {site : Site} (h : CheckEffect id world monitor log site eff)
    (hphase : checkPhase log = .loading) :
    skipForStatus monitor.status world.trigger = false ∧
      site = .insertCheckJob (world.jobOf id monitor) ∧
      eff = Store.insertCheckJob (world.jobOf id monitor) world.trigger := by
  cases h with
  | claim _ hstatus => exact ⟨hstatus, rfl, rfl⟩
  | close _ hclose =>
    rw [hphase] at hclose
    rcases hclose with hclose | ⟨hclose, _⟩ <;> contradiction
  | _ hother =>
    rw [hphase] at hother
    contradiction

/-- A check that has written everything else ends with the alarm. -/
theorem CheckEffect.of_end {world : CheckWorld} {monitor : MonitorRow} {log : RunLog} {site : Site}
    {kind : CheckEnd} (h : CheckEffect id world monitor log site eff)
    (hphase : checkPhase log = .ended kind ∨ checkPhase log = .armed kind) :
    checkPhase log = .ended kind ∧ site = .setAlarm ∧
      eff = Store.setAlarm id (world.alarmAfter monitor kind) := by
  cases h with
  | arm harm =>
    rcases hphase with hphase | hphase
    · obtain rfl : _ = kind := by simpa [hphase] using harm.symm
      exact ⟨hphase, rfl, rfl⟩
    · rw [hphase] at harm
      contradiction
  | close _ hclose =>
    rcases hphase with hphase | hphase
    all_goals
      rw [hphase] at hclose
      rcases hclose with hclose | ⟨hclose, _⟩ <;> contradiction
  | _ hother =>
    rcases hphase with hphase | hphase
    all_goals
      rw [hphase] at hother
      contradiction

/-- A call by which the check gets on has its effect. -/
theorem CheckCall.effect_of_checks {world : CheckWorld} {log : RunLog} {run : RunSite} {site : Site}
    (h : CheckCall id world log (some run) eff) (hsite : (ThreadSite.check run).checks site)
    (hidle : ¬site.idle) :
    ∃ monitor, FirstRead id monitor log ∧ CheckEffect id world monitor log site eff := by
  obtain ⟨hregion, rfl⟩ := hsite
  cases h with
  | quiet hquiet hquietly => exact absurd hquietly (not_or.mpr ⟨hregion, hidle⟩)
  | effect hread _ heffect => exact ⟨_, hread, heffect⟩

theorem policyStop_not_idle : ¬Site.policyStopMonitor.idle := fun h => nomatch h .loading

theorem firstRead_cons {monitor : MonitorRow} {call : Call RunSite Store} {log : RunLog}
    (h : FirstRead id monitor (call :: log)) :
    (log = [] ∧ call = ⟨⟨.loading, .getMonitor⟩, call.before, .none⟩ ∧
      call.before.monitors id = some monitor) ∨ FirstRead id monitor log := by
  obtain ⟨s, hlast, hrow⟩ := h
  cases log with
  | nil =>
    obtain rfl : call = ⟨⟨.loading, .getMonitor⟩, s, .none⟩ := by simpa using hlast
    exact Or.inl ⟨rfl, rfl, hrow⟩
  | cons older log =>
    rw [List.getLast?_cons_cons] at hlast
    exact Or.inr ⟨s, hlast, hrow⟩

/-- A check has read its row before the event or reads it now. -/
theorem MonitorStep.firstRead {e : PoolEvent Thread ThreadSite Store MonitorTask}
    {monitor : MonitorRow} (h : MonitorStep es s e s')
    (hread : FirstRead id monitor (runLog (logOf (.check id) (e :: es)))) :
    FirstRead id monitor (runLog (logOf (.check id) es)) ∨
      runLog (logOf (.check id) es) = [] ∧ s.monitors id = some monitor ∧
        e = .call (.check id) ⟨.check ⟨.loading, .getMonitor⟩, s, .none⟩ := by
  cases h with
  | others => exact Or.inl hread
  | @start k task =>
    by_cases hk : k = .check id
    · subst hk
      rw [logOf, if_pos rfl] at hread
      obtain ⟨s, hlast, _⟩ := hread
      contradiction
    · rw [logOf, if_neg hk] at hread
      exact Or.inl hread
  | @check id' task world site fault eff =>
    by_cases hid : id' = id
    · subst hid
      rw [logOf, if_pos rfl] at hread
      rcases firstRead_cons hread with ⟨hnil, hcall, hrow⟩ | hold
      · obtain ⟨rfl, -, rfl⟩ : site = ⟨.loading, .getMonitor⟩ ∧ s = s ∧ fault = .none := by
          simpa using hcall
        exact Or.inr ⟨hnil, hrow, rfl⟩
      · exact Or.inl hold
    · rw [logOf, if_neg (by simpa using hid)] at hread
      exact Or.inl hread
  | request =>
    rw [logOf, if_neg (request_ne_check _ _)] at hread
    exact Or.inl hread

/-- The row that a check has read is still there. -/
theorem row_of_firstRead (hrun : monitorPool.Run C es pool) {monitor : MonitorRow}
    (h : FirstRead id monitor (runLog (logOf (.check id) es))) :
    (pool.shared.monitors id).isSome := by
  induction hrun with
  | start =>
    obtain ⟨s, hlast, _⟩ := h
    contradiction
  | next hrun hstep _ ih =>
    have hmonitor := monitorStep_of_run hrun hstep
    rw [hmonitor.isSome]
    rcases hmonitor.firstRead h with hold | ⟨_, hrow, _⟩
    · exact ih hold
    · rw [hrow]
      rfl

end Rows

/-! ## A monitor to run -/

/-- It is due at 1000 and is checked once an hour. -/
def sampleMonitor (id : MonitorId) : MonitorRow :=
  ⟨id, 1, .active, 3600, some 1000, some 500, none, none⟩

def samplePool : MonitorPool :=
  ⟨{ emptyStore with monitors := fun id => some (sampleMonitor id) }, fun _ => none⟩

/-- What a check meets whose fetch is answered with 304, if robots.txt allows it. -/
def sampleCheck (now : Nat) (robots : RobotsDecision) : CheckWorld where
  trigger := .scheduled
  now := now
  source := some ⟨1, .rss, "https://example.com/feed", none⟩
  site := some ⟨1, none⟩
  policy := some ()
  staticSsrfAllowed := true
  resolvedAllowed := true
  origin := "https://example.com"
  robotsMode := .enforce
  robots := robots
  lease := ⟨true, some 1, none⟩
  fetchTarget _ _ := ⟨.ret (.success ⟨none, none, none⟩ true none), trivial⟩
  processor _ _ := ⟨.ret [], trivial⟩
  checkedNow := now
  finishNow := now
  random := 0
  appliedNow := now

theorem samplePool_init : monitorPool.init samplePool := by
  refine ⟨⟨fun id row hrow => ?_, fun _ => rfl⟩, fun _ => rfl⟩
  obtain rfl := Option.some.inj hrow
  rfl

theorem sampleCheck_reports {now : Nat} {robots : RobotsDecision} {world : CheckWorld}
    (h : world.fetchTarget = (sampleCheck now robots).fetchTarget ∧
      world.processor = (sampleCheck now robots).processor) : world.Reports := by
  obtain ⟨hfetch, hprocessor⟩ := h
  refine ⟨fun etag lastModified => ?_, fun ctx input => ?_⟩
  · rw [hfetch]
    trivial
  · rw [hprocessor]
    trivial

/-- Calls of a thread that are not disturbed. -/
def quietly (k : Thread) (n : Nat) : List (Move Thread MonitorTask) :=
  List.replicate n (.call k .none)

/-- The move is a call, or its thread may take up the task. -/
def MoveFits : Move Thread MonitorTask → Prop
  | .start k task => monitorTasks.fits k task
  | .call _ _ => True

theorem quietly_fits (k : Thread) (n : Nat) : ∀ move ∈ quietly k n, MoveFits move := by
  intro move hmove
  obtain ⟨_, rfl⟩ := List.mem_replicate.mp hmove
  trivial

theorem sampleCheck_fits (id : MonitorId) (now : Nat) (robots : RobotsDecision) :
    MoveFits (.start (.check id) (.alarm (sampleCheck now robots))) :=
  ⟨_, rfl, sampleCheck_reports ⟨rfl, rfl⟩⟩

theorem request_fits (n : Nat) (request : MonitorRequest) :
    MoveFits (.start (.request n) (.request request)) := ⟨request, rfl⟩

/-- A schedule that starts with the sample monitors, with what holds in the end. -/
theorem sample_start {D : StepCond MonitorPool (PoolEvent Thread ThreadSite Store MonitorTask)}
    [∀ es pool e, Decidable (D es pool e)] {moves : List (Move Thread MonitorTask)}
    {P : MonitorEvents × MonitorPool → Bool} (hfits : ∀ move ∈ moves, MoveFits move)
    (hend : (play monitorTasks D samplePool moves).any P = true) :
    ∃ es pool, monitorPool.Steps D [] samplePool es pool ∧ P (es, pool) = true := by
  obtain ⟨⟨es, pool⟩, hplayed, hP⟩ := play_spec hend
  exact ⟨es, pool, steps_of_start (fun _ _ hmem => hfits _ hmem) hplayed, hP⟩

/-- A schedule of the sample monitors, with what holds in the end. -/
theorem sample_run {D : StepCond MonitorPool (PoolEvent Thread ThreadSite Store MonitorTask)}
    [∀ es pool e, Decidable (D es pool e)] {moves : List (Move Thread MonitorTask)}
    {P : MonitorEvents × MonitorPool → Bool} (hfits : ∀ move ∈ moves, MoveFits move)
    (hend : (play monitorTasks D samplePool moves).any P = true) :
    ∃ es pool, monitorPool.Run D es pool ∧ P (es, pool) = true := by
  obtain ⟨es, pool, hsteps, hP⟩ := sample_start hfits hend
  exact ⟨es, pool, hsteps.run samplePool_init, hP⟩

/-- A schedule of the sample monitors, with what holds after its older part and in the end. -/
theorem sample_steps {D : StepCond MonitorPool (PoolEvent Thread ThreadSite Store MonitorTask)}
    [∀ es pool e, Decidable (D es pool e)] {newer older : List (Move Thread MonitorTask)}
    {P Q : MonitorEvents × MonitorPool → Bool} (hfits : ∀ move ∈ newer ++ older, MoveFits move)
    (hmiddle : (play monitorTasks D samplePool older).any P = true)
    (hend : (play monitorTasks D samplePool (newer ++ older)).any Q = true) :
    ∃ es₁ pool₁ es pool₂, monitorPool.Run D es₁ pool₁ ∧ monitorPool.Steps D es₁ pool₁ es pool₂ ∧
      P (es₁, pool₁) = true ∧ Q (es ++ es₁, pool₂) = true := by
  exact exists_steps_of_play newer older samplePool_init (fun _ _ hmem => hfits _ hmem) hmiddle hend

end Utsuroi
