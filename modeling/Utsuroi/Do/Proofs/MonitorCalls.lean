import Mathlib.Tactic
import Utsuroi.Do.MonitorCalls

/-!
# Each thread heeds its conditions
-/

namespace Utsuroi

open Async Prog Transition

theorem quiet_id : Quiet id := fun _ => rfl

/-! ## Checks -/

section Check

variable {id : MonitorId} {world : CheckWorld} {monitor : MonitorRow} {phase : CheckPhase}
  {log : RunLog}

/-- The check has read the row and got this far. -/
structure CheckAt (id : MonitorId) (monitor : MonitorRow) (phase : CheckPhase) (log : RunLog) :
    Prop where
  read : FirstRead id monitor log
  phase : checkPhase log = phase

theorem FirstRead.cons (h : FirstRead id monitor log) (call : Call RunSite Store) :
    FirstRead id monitor (call :: log) := by
  obtain ⟨s, hlast, hmonitor⟩ := h
  refine ⟨s, ?_, hmonitor⟩
  rw [List.getLast?_cons, hlast]
  rfl

theorem CheckAt.note (h : CheckAt id monitor phase log) {region : Region}
    (hregion : region ≠ .guarded) (site : Site) (s : Store) (fault : Fault) :
    CheckAt id monitor (phase.note site) (⟨⟨region, site⟩, s, fault⟩ :: log) := by
  refine ⟨h.read.cons _, ?_⟩
  rw [checkPhase, if_neg hregion, h.phase]

theorem CheckAt.guarded (h : CheckAt id monitor phase log) (site : Site) (s : Store)
    (fault : Fault) : CheckAt id monitor phase (⟨⟨.guarded, site⟩, s, fault⟩ :: log) :=
  ⟨h.read.cons _, h.phase⟩

theorem CheckAt.early (h : CheckAt id monitor phase log) (hphase : phase.early) :
    CheckThrown world log := by
  refine Or.inr (Or.inr ?_)
  rw [h.phase]
  exact hphase

theorem thrown_cut {call : Call RunSite Store} (hfault : call.fault ≠ .none) :
    CheckThrown world (call :: log) := Or.inl hfault

/-- The condition of a check that runs on its own log. -/
abbrev Checks {α : Type} (id : MonitorId) (world : CheckWorld) (Q : α → RunLog → Prop)
    (p : RunProg α) (log : RunLog) : Prop :=
  p.Heeds Store.IdsMatch (CheckCall id world) Q (CheckThrown world) log

/-- A call by which the check gets on. -/
theorem checks_effect {α β : Type} {region : Region} {site : Site} {eff : Store → Store}
    {answer : Store → α} {f : α → RunProg β} {Q : β → RunLog → Prop}
    (h : CheckAt id monitor phase log) (hregion : region ≠ .guarded)
    (heffect : CheckEffect id world monitor log site eff)
    (hf : ∀ s log, CheckAt id monitor (phase.note site) log → Checks id world Q (f (answer s)) log) :
    Checks id world Q (inRegion region (.call site eff answer) >>= f) log :=
  heeds_await (.effect h.read hregion heffect) (fun s _ => hf s _ (h.note hregion site s .none))
    fun _ _ hfault => Or.inl hfault

/-- A call that is none of these. -/
theorem checks_quiet {α β : Type} {region : Region} {site : Site} {eff : Store → Store}
    {answer : Store → α} {f : α → RunProg β} {Q : β → RunLog → Prop}
    (h : CheckAt id monitor phase log) (hregion : region ≠ .guarded) (hquiet : Quiet eff)
    (hsite : site.idle)
    (hf : ∀ s log, CheckAt id monitor phase log → Checks id world Q (f (answer s)) log) :
    Checks id world Q (inRegion region (.call site eff answer) >>= f) log := by
  refine heeds_await (.quiet hquiet (Or.inr hsite)) (fun s _ => ?_) fun _ _ hfault => Or.inl hfault
  have hnext := h.note hregion site s .none
  rw [hsite phase] at hnext
  exact hf s _ hnext

/-- The last call of a part. -/
theorem checks_last {α : Type} {region : Region} {site : Site} {eff : Store → Store}
    {answer : Store → α} {Q : α → RunLog → Prop} (h : CheckAt id monitor phase log)
    (hregion : region ≠ .guarded) (heffect : CheckEffect id world monitor log site eff)
    (hret : ∀ s log, CheckAt id monitor (phase.note site) log → Q (answer s) log) :
    Checks id world Q (inRegion region (.call site eff answer)) log :=
  heeds_call (.effect h.read hregion heffect) (fun s _ => hret s _ (h.note hregion site s .none))
    fun _ _ hfault => Or.inl hfault

/-! ## The parts of a check -/

/-- The part ends with the alarm still to be set for this kind of end. -/
def EndsCheck (id : MonitorId) (world : CheckWorld) (monitor : MonitorRow)
    (result : CheckRunResult) (log : RunLog) : Prop :=
  (result.kind = .skipped ∧ (checkPhase log = .loading ∨ checkPhase log = .claimed)) ∨
  ∃ kind, CheckAt id monitor (.ended kind) log ∧
    match kind with
    | .deferred => result.kind = .deferred ∧
        result.retryAfterMs = some (world.lease.retryAfterMs.getD 5000)
    | .completed => result.kind = .completed ∧ result.nextRunAt = some (world.nextRunAt monitor)
    | .policyStopped => result.kind = .policyStopped

theorem EndsCheck.quiet {result : CheckRunResult} (h : EndsCheck id world monitor result log)
    {region : Region} {site : Site} (hregion : region ≠ .guarded) (hsite : site.idle) (s : Store) :
    EndsCheck id world monitor result (⟨⟨region, site⟩, s, .none⟩ :: log) := by
  rcases h with ⟨hskipped, hphase⟩ | ⟨kind, hat, hresult⟩
  · refine Or.inl ⟨hskipped, ?_⟩
    rw [checkPhase, if_neg hregion, hsite]
    exact hphase
  · have hnext := hat.note hregion site s .none
    rw [hsite] at hnext
    exact Or.inr ⟨kind, hnext, hresult⟩

private theorem finishJob_checks (hid : monitor.id = id) (h : CheckAt id monitor phase log) {status : FinishStatus}
    {changeIds : List ChangeId}
    (hphase : phase = .running ∨ phase = .evaluated ∧ ¬world.ExplicitlyDisallowed) :
    Checks id world (EndsCheck id world monitor)
      (finishJob world monitor (world.jobOf id monitor) status changeIds) log := by
  have hcloses : Closes status.toCheckJobStatus := by
    cases status with
    | succeeded => exact Or.inl rfl
    | failed => exact Or.inr rfl
  have hclosed : phase.note (.updateCheckJobStatus (world.jobOf id monitor)
      status.toCheckJobStatus) = .closed := by
    cases status <;> rfl
  unfold finishJob
  rw [hid]
  refine checks_effect h (by decide) (.close hcloses ?_) fun _ log h => ?_
  · rw [h.phase]
    exact hphase
  rw [hclosed] at h
  refine checks_effect h (by decide) (.lastChecked h.phase) fun _ log h => ?_
  refine checks_effect h (by decide) (.nextRun h.phase) fun _ log h => ?_
  exact Or.inr ⟨.completed, h, rfl, rfl⟩

variable (hreports : world.Reports)
include hreports

/-- What is fetched and processed is in the guarded region. -/
private theorem fetchAndProcess_checks (ctx : CheckContext) (target : TargetRow)
    (latestSnapshot : Option SnapshotRow) {Q : CheckOutcome → RunLog → Prop}
    {T : RunLog → Prop} (h : CheckAt id monitor phase log)
    (hret : ∀ outcome log, CheckAt id monitor phase log → Q outcome log)
    (hthrown : ∀ log, CheckAt id monitor phase log → T log) :
    (inRegion .guarded (fetchAndProcess world ctx target latestSnapshot)).Heeds Store.IdsMatch
      (CheckCall id world) Q T log := by
  have hframes : (fetchAndProcess world ctx target latestSnapshot).Frames Store.control := by
    refine frames_bind (hreports.fetchTarget _ _) fun outcome => ?_
    cases outcome with
    | failure failureClass retryAfterSeconds => trivial
    | success result notModified body =>
      refine frames_bind (frames_call.mpr fun _ => rfl) fun _ => ?_
      cases notModified with
      | true => trivial
      | false =>
        cases body with
        | none => trivial
        | some body => exact frames_bind (hreports.processor _ _) fun _ => trivial
  refine heeds_of_frames hframes (CheckAt id monitor phase) h ?_ ?_ hret hthrown
  · exact fun log site s fault h => h.guarded site s fault
  · intro log site eff _ hquiet
    cases site with
    | none => exact .silent hquiet
    | some site => exact .quiet hquiet (Or.inl rfl)

private theorem checkUnderLease_checks {ctx : CheckContext} (hmonitor : ctx.monitor = monitor)
    (hid : monitor.id = id)
    (target : TargetRow) (latestSnapshot : Option SnapshotRow)
    (h : CheckAt id monitor .evaluated log) (hrobots : ¬world.ExplicitlyDisallowed) :
    Checks id world (EndsCheck id world monitor)
      (checkUnderLease world ctx (world.jobOf id monitor) target latestSnapshot) log := by
  subst hmonitor
  have hfinish : ∀ status changeIds log, CheckAt id ctx.monitor .evaluated log →
      Checks id world (EndsCheck id world ctx.monitor)
        (finishJob world ctx.monitor (world.jobOf id ctx.monitor) status changeIds) log :=
    fun _ _ _ h => finishJob_checks hid h (Or.inr ⟨rfl, hrobots⟩)
  have hthrown : ∀ log, CheckThrown world log := fun _ => Or.inr (Or.inl hrobots)
  let M : Option CheckRunResult → RunLog → Prop := fun result log =>
    result.elim (CheckThrown world log) fun result => EndsCheck id world ctx.monitor result log
  refine heeds_tryFinally (M := M) ?_ fun result log hM => ?_
  · refine heeds_bind.mpr (heeds_tryCatch ?_)
    refine fetchAndProcess_checks hreports ctx target latestSnapshot h
      (fun outcome log h => hfinish _ _ log h) fun log h => ?_
    exact heeds_seq (hfinish _ _ log h) fun _ _ _ => hthrown _
  · refine heeds_call (.quiet quiet_id (Or.inr fun _ => rfl)) (fun s _ => ?_) fun _ _ _ => hthrown _
    cases result with
    | none => exact hthrown _
    | some result => exact EndsCheck.quiet hM (by decide) (fun _ => rfl) s

private theorem acquireAndCheck_checks {ctx : CheckContext} (hmonitor : ctx.monitor = monitor)
    (hid : monitor.id = id)
    (target : TargetRow) (h : CheckAt id monitor .evaluated log) (hrobots : ¬world.Disallowed) :
    Checks id world (EndsCheck id world monitor)
      (acquireAndCheck world ctx (world.jobOf id monitor) target) log := by
  refine checks_quiet h (by decide) quiet_id (fun _ => rfl) fun _ log h => ?_
  split
  · refine checks_effect h (by decide) (.defer h.phase hrobots) fun _ log h => ?_
    exact Or.inr ⟨.deferred, h, rfl, rfl⟩
  · refine checks_quiet h (by decide) quiet_id (fun _ => rfl) fun _ log h => ?_
    exact checkUnderLease_checks hreports hmonitor hid target _ h fun hexplicit => hrobots hexplicit.1

omit hreports in
theorem CountedUnavailable.cons (h : CountedUnavailable world log) (call : Call RunSite Store) :
    CountedUnavailable world (call :: log) := by
  obtain ⟨s, hmem, hcount⟩ := h
  exact ⟨s, List.mem_cons_of_mem _ hmem, hcount⟩

omit hreports in
private theorem consecutiveUnavailable_checks (h : CheckAt id monitor phase log) :
    Checks id world (fun count log => CheckAt id monitor phase log ∧
      (world.robots.unavailable = true → ROBOTS_UNAVAILABLE_STOP_THRESHOLD ≤ count →
        CountedUnavailable world log)) (consecutiveUnavailable world world.robots) log := by
  unfold consecutiveUnavailable
  split
  · refine heeds_call (.quiet quiet_id (Or.inr fun _ => rfl)) (fun s _ => ⟨?_, fun _ hcount => ?_⟩)
      fun _ _ hfault => Or.inl hfault
    · exact h.note (by decide) .countConsecutiveUnavailableRobotsEvaluations s .none
    · exact ⟨s, List.mem_cons_self, hcount⟩
  next hnot => exact ⟨h, fun hunavailable => absurd hunavailable hnot⟩

private theorem checkRobotsAndHost_checks {ctx : CheckContext} (hmonitor : ctx.monitor = monitor)
    (hid : monitor.id = id)
    (target : TargetRow) (h : CheckAt id monitor .running log) :
    Checks id world (EndsCheck id world monitor)
      (checkRobotsAndHost world ctx (world.jobOf id monitor) target) log := by
  subst hmonitor
  refine checks_quiet h (by decide) quiet_id (fun _ => rfl) fun _ log h => ?_
  refine checks_quiet h (by decide) quiet_id (fun _ => rfl) fun _ log h => ?_
  refine checks_effect h (by decide) (.evaluate h.phase) fun evaluationId log h => ?_
  split
  next hdisallowed =>
    have hrobots : world.Disallowed := by
      simpa [CheckWorld.Disallowed] using hdisallowed
    refine heeds_seq (consecutiveUnavailable_checks h) ?_
    rintro count log ⟨h, hcount⟩
    refine heeds_await (.quiet quiet_id (Or.inr fun _ => rfl)) (fun s _ => ?_) fun _ _ hfault => Or.inl hfault
    have hnext := h.note (by decide : Region.unguarded ≠ .guarded) .createCheckAttempt s .none
    split
    next htransient =>
      refine finishJob_checks hid hnext (Or.inr ⟨rfl, fun hexplicit => ?_⟩)
      simp [hexplicit.2] at htransient
    next hstop =>
      have hcounted : world.robots.unavailable = true → CountedUnavailable world
          (⟨⟨.unguarded, .createCheckAttempt⟩, s, .none⟩ :: log) := by
        intro hunavailable
        exact (hcount hunavailable (by simpa [hunavailable] using hstop)).cons _
      refine heeds_await (.effect hnext.read (by decide) (.stop hnext.phase hrobots hcounted))
        (fun s _ => ?_) fun _ _ hfault => Or.inl hfault
      have hstopping := hnext.note (by decide : Region.closing ≠ .guarded)
        (.updateCheckJobStatus (world.jobOf id ctx.monitor) .policyStopped) s .none
      rw [hid]
      refine checks_effect hstopping (by decide) (.policyStop hstopping.phase hrobots
        fun hunavailable => (hcounted hunavailable).cons _) fun _ log h => ?_
      exact Or.inr ⟨.policyStopped, h, rfl⟩
  next hallowed =>
    have hrobots : ¬world.Disallowed := by
      simpa [CheckWorld.Disallowed] using hallowed
    exact acquireAndCheck_checks hreports rfl hid target h hrobots

omit hreports in
/-- The target of the source. -/
private theorem upsertTarget_checks (targetId : TargetId) (h : CheckAt id monitor phase log)
    (hphase : phase.early) :
    Checks id world (fun _ => CheckAt id monitor phase)
      (inRegion .unguarded (upsertTarget ⟨targetId, none, none⟩)) log := by
  unfold upsertTarget
  rw [inRegion, relabel_bind]
  refine checks_quiet h (by decide) (fun _ => rfl) (fun _ => rfl) fun s log h => ?_
  dsimp only
  cases (s.targets targetId).isNone with
  | true => exact h
  | false =>
    refine ⟨CheckCall.quiet quiet_id (Or.inr fun _ => rfl), fun s _ =>
      ⟨?_, thrown_cut nofun, thrown_cut nofun⟩⟩
    have hnext : CheckAt id monitor phase _ :=
      h.note (by decide : Region.unguarded ≠ .guarded) (.selectTarget targetId) s .none
    dsimp only [Prog.bind]
    cases s.targets targetId with
    | none => exact hnext.early hphase
    | some row => exact hnext

private theorem checkSource_checks {ctx : CheckContext} (hmonitor : ctx.monitor = monitor)
    (hid : monitor.id = id) (h : CheckAt id monitor .running log) :
    Checks id world (EndsCheck id world monitor)
      (checkSource world ctx (world.jobOf id monitor)) log := by
  refine heeds_seq (upsertTarget_checks _ h trivial) fun target log h => ?_
  have hrefused : ∀ log, CheckAt id monitor .running log → Checks id world
      (EndsCheck id world monitor) (do
        inRegion .unguarded createCheckAttempt
        finishJob world ctx.monitor (world.jobOf id monitor) .failed []) log := by
    subst hmonitor
    intro log h
    refine checks_quiet h (by decide) quiet_id (fun _ => rfl) fun _ log h => ?_
    exact finishJob_checks hid h (Or.inl rfl)
  unfold ssrfAllowed
  split
  · refine checks_quiet h (by decide) quiet_id (fun _ => rfl) fun _ log h => ?_
    split
    · exact hrefused log h
    · exact checkRobotsAndHost_checks hreports hmonitor hid target h
  · exact hrefused log h

omit hreports in
/-- The claim of the job of a check that goes on. -/
private theorem createCheckJobIfNew_checks (h : CheckAt id monitor .loading log)
    (hstatus : skipForStatus monitor.status world.trigger = false) :
    Checks id world (fun jobResult log => CheckAt id monitor .claimed log ∧
        jobResult.row.id = world.jobOf id monitor)
      (inRegion .loading (createCheckJobIfNew (world.jobOf id monitor) world.trigger)) log := by
  unfold createCheckJobIfNew
  rw [inRegion, relabel_bind]
  refine checks_effect h (by decide) (.claim h.phase hstatus) fun s log h => ?_
  cases (s.checkJobs (world.jobOf id monitor)).isNone with
  | true => exact ⟨h, rfl⟩
  | false =>
    refine ⟨CheckCall.quiet quiet_id (Or.inr fun _ => rfl), fun s hs => ⟨?_, thrown_cut nofun, thrown_cut nofun⟩⟩
    have hnext := h.note (by decide : Region.loading ≠ .guarded)
      (.selectCheckJob (world.jobOf id monitor)) s .none
    dsimp only [Prog.bind]
    cases hrow : s.checkJobs (world.jobOf id monitor) with
    | none => exact hnext.early trivial
    | some row => exact ⟨hnext, hs.job _ row hrow⟩

/-- What follows the read of the row. -/
private theorem claimAndCheck_checks {source : SourceRow} {site : SiteRow}
    (hid : monitor.id = id) (h : CheckAt id monitor .loading log)
    (hstatus : skipForStatus monitor.status world.trigger = false) :
    Checks id world (EndsCheck id world monitor) (do
      let jobResult ← inRegion .loading (createCheckJobIfNew
        ⟨id, world.scheduledFor monitor.nextRunAt⟩ world.trigger)
      if !jobResult.inserted && jobResult.row.status != .pending then
        return ⟨.skipped, monitor.nextRunAt, none, []⟩
      else
        inRegion .starting (updateCheckJobStatus jobResult.row.id .running)
        checkSource world ⟨monitor, source, site, world.now⟩ jobResult.row.id) log := by
  refine heeds_seq (createCheckJobIfNew_checks h hstatus) ?_
  rintro jobResult log ⟨h, hjob⟩
  split
  · exact Or.inl ⟨rfl, Or.inr h.phase⟩
  · rw [hjob]
    refine checks_effect h (by decide) (.run h.phase) fun _ log h => ?_
    exact checkSource_checks hreports rfl hid h

private theorem runMonitorCheck_checks :
    Checks id world (fun result log => ∃ monitor, EndsCheck id world monitor result log)
      (runMonitorCheck world id) [] := by
  unfold runMonitorCheck
  refine ⟨CheckCall.quiet quiet_id (Or.inr fun _ => rfl), fun s hs => ⟨?_, thrown_cut nofun, thrown_cut nofun⟩⟩
  dsimp only [relabel, Prog.bind]
  cases hrow : s.monitors id with
  | none => exact Or.inr (Or.inr trivial)
  | some monitor =>
    have hat : CheckAt id monitor .loading [⟨⟨.loading, .getMonitor⟩, s, .none⟩] :=
      ⟨⟨s, rfl, hrow⟩, rfl⟩
    change Checks id world _ (ite _ _ _) _
    split
    · exact ⟨monitor, Or.inl ⟨rfl, Or.inl rfl⟩⟩
    next hstatus =>
    refine checks_quiet hat (by decide) quiet_id (fun _ => rfl) fun _ log h => ?_
    cases world.source with
    | none => exact h.early trivial
    | some source =>
      refine checks_quiet h (by decide) quiet_id (fun _ => rfl) fun _ log h => ?_
      cases world.site with
      | none => exact h.early trivial
      | some site =>
        refine checks_quiet h (by decide) quiet_id (fun _ => rfl) fun _ log h => ?_
        cases world.policy with
        | none => exact h.early trivial
        | some policy =>
          refine (claimAndCheck_checks hreports (hs.monitor id monitor hrow) h
            (by simpa using hstatus)).mono (fun result log hend => ⟨monitor, hend⟩) fun _ h => h

omit hreports in
private theorem applyResult_checks {result : CheckRunResult}
    (h : EndsCheck id world monitor result log) :
    Checks id world (fun _ => CheckReturned) (applyResult world id result) log := by
  unfold applyResult
  refine ⟨CheckCall.quiet quiet_id (Or.inr fun _ => rfl), fun s _ => ⟨?_, thrown_cut nofun, thrown_cut nofun⟩⟩
  dsimp only [relabel, Prog.bind]
  rcases h with ⟨hkind, hphase⟩ | ⟨kind, hat, hresult⟩
  · rw [hkind]
    rcases hphase with hphase | hphase
    · exact Or.inl hphase
    · exact Or.inr (Or.inl hphase)
  have hnext := hat.note (by decide : Region.loading ≠ .guarded) .putLastResult s .none
  have harmed : ∀ (_ : Store) log, CheckAt id monitor (.armed kind) log → CheckReturned log :=
    fun _ _ h => Or.inr (Or.inr ⟨kind, h.phase⟩)
  cases kind with
  | deferred =>
    obtain ⟨hkind, hretry⟩ := hresult
    rw [hkind, hretry]
    exact checks_last hnext (by decide) (.arm hnext.phase) harmed
  | completed =>
    obtain ⟨hkind, hnextRun⟩ := hresult
    rw [hkind, hnextRun]
    exact checks_last hnext (by decide) (.arm hnext.phase) harmed
  | policyStopped =>
    rw [hresult]
    exact checks_last hnext (by decide) (.arm hnext.phase) harmed

/-- A whole check. -/
theorem runCheckAndApply_checks :
    Checks id world (fun _ => CheckReturned) (runCheckAndApply world id) [] := by
  refine heeds_seq (runMonitorCheck_checks hreports) ?_
  rintro result log ⟨monitor, hends⟩
  exact applyResult_checks hends

end Check

/-! ## Requests -/

section Requests

variable {id : MonitorId} {log : ThreadLog}

/-- The condition of a request. -/
abbrev Requests {α : Type} (request : MonitorRequest) (Q : α → ThreadLog → Prop)
    (p : ThreadProg α) (log : ThreadLog) : Prop :=
  p.Heeds Store.IdsMatch (fun log site eff => ∃ site', site = some site' ∧
    RequestCall log request site' eff) Q (fun log => RequestThrown log request) log

private theorem requestThrown_cut (request : MonitorRequest) {call : Call ThreadSite Store}
    (hfault : call.fault ≠ .none) : RequestThrown (call :: log) request := by
  cases request with
  | resume id now => exact Or.inr hfault
  | _ => trivial

/-- A call that a part of a handler begins with. -/
private theorem requests_await {α β : Type} {request : MonitorRequest} {site : ThreadSite}
    {eff : Store → Store} {answer : Store → α} {f : α → ThreadProg β} {Q : β → ThreadLog → Prop}
    (hA : RequestCall log request site eff)
    (hf : ∀ s, Requests request Q (f (answer s)) (⟨site, s, .none⟩ :: log)) :
    Requests request Q (Prog.call site eff answer >>= f) log :=
  heeds_await ⟨site, rfl, hA⟩ (fun s _ => hf s) fun _ _ hfault => requestThrown_cut request hfault

/-- The last call of a part. -/
private theorem requests_call {α : Type} {request : MonitorRequest} {site : ThreadSite}
    {eff : Store → Store} {answer : Store → α} {Q : α → ThreadLog → Prop}
    (hA : RequestCall log request site eff) (hret : ∀ s, Q (answer s) (⟨site, s, .none⟩ :: log)) :
    Requests request Q (Prog.call site eff answer) log :=
  heeds_call ⟨site, rfl, hA⟩ (fun s _ => hret s) fun _ _ hfault => requestThrown_cut request hfault

private theorem pauseMonitor_requests :
    Requests (.pause id) (fun _ _ => True) (pauseMonitor id) log := by
  unfold pauseMonitor
  refine requests_await (PauseCall.quiet quiet_id) fun s => ?_
  refine requests_await PauseCall.disarm fun s => ?_
  exact requests_call (PauseCall.pause (Or.inl rfl)) fun _ => trivial

private theorem pauseRoute_requests :
    Requests (.pause id) (fun _ log => RequestReturned log (.pause id)) (pauseRoute id) [] := by
  unfold pauseRoute
  refine requests_await (PauseCall.quiet quiet_id) fun s => ?_
  cases s.monitors id with
  | none => trivial
  | some row =>
    change (pauseMonitor id >>= fun _ => _).Heeds _ _ _ _ _
    refine heeds_seq pauseMonitor_requests fun _ log _ => ?_
    refine requests_await (PauseCall.pause (Or.inr rfl)) fun s => ?_
    exact requests_await (PauseCall.quiet quiet_id) fun _ => trivial

private theorem resumeMonitor_requests {now : Nat} (hphase : resumePhase id log = .opening) :
    Requests (.resume id now) (fun _ log => resumePhase id log = .armed) (resumeMonitor id now)
      log := by
  unfold resumeMonitor
  refine requests_await (ResumeCall.quiet quiet_id (Or.inl hphase) fun _ _ => ?_) fun s => ?_
  · rfl
  refine requests_await (ResumeCall.activate hphase) fun s => ?_
  refine requests_await (ResumeCall.read quiet_id rfl) fun s => ?_
  unfold armResumed
  cases hnext : (s.monitors id).bind MonitorRow.nextRunAt with
  | some nextRunAt =>
    have hfound := congrArg ResumePhase.found hnext
    exact requests_call (ResumeCall.arm (Or.inl hfound)) fun _ => rfl
  | none =>
    have hfound := congrArg ResumePhase.found hnext
    refine requests_await (ResumeCall.setNextRun hfound) fun s => ?_
    exact requests_call (ResumeCall.arm (Or.inr ⟨rfl, rfl⟩)) fun _ => rfl

private theorem resumeRoute_requests (now : Nat) :
    Requests (.resume id now) (fun _ log => RequestReturned log (.resume id now))
      (resumeRoute id now) [] := by
  unfold resumeRoute
  refine requests_await (ResumeCall.quiet quiet_id (Or.inl rfl) fun _ _ => rfl) fun s => ?_
  cases s.monitors id with
  | none => exact Or.inl rfl
  | some row =>
    change (resumeMonitor id now >>= fun _ => _).Heeds _ _ _ _ _
    refine heeds_seq (resumeMonitor_requests rfl) fun _ log hphase => ?_
    refine requests_await (ResumeCall.answer hphase) fun s => ?_
    exact requests_await (ResumeCall.quiet quiet_id (Or.inr rfl) fun _ _ => rfl) fun _ => rfl

private theorem reschedule_requests {monitor : MonitorRow} {intervalSeconds now : Nat}
    (hphase : patchPhase id log = .changed monitor) :
    Requests (.patch id intervalSeconds now) (fun _ log => patchPhase id log = .armed monitor ∨
        patchPhase id log = .changed monitor ∧ rescheduledTo monitor intervalSeconds now = none)
      (reschedule id (rescheduledTo monitor intervalSeconds now)) log := by
  cases hcandidate : rescheduledTo monitor intervalSeconds now with
  | none => exact Or.inr ⟨hphase, rfl⟩
  | some candidate =>
    refine requests_await (PatchCall.move hphase hcandidate) fun s => ?_
    have hmoved : patchPhase id (⟨.route .setMonitorNextRun, s, .none⟩ :: log) =
        .moved monitor := by
      rw [patchPhase, hphase]
      rfl
    unfold scheduleMonitor
    refine requests_await (PatchCall.quiet quiet_id fun s fault => ?_) fun s' => ?_
    · rw [hmoved]
      rfl
    have hbound : patchPhase id (⟨.object .bindMonitorId, s', .none⟩ ::
        ⟨.route .setMonitorNextRun, s, .none⟩ :: log) = .moved monitor := by
      rw [patchPhase, hmoved]
      rfl
    refine requests_call (PatchCall.arm hbound hcandidate) fun s'' => Or.inl ?_
    rw [patchPhase, hbound]
    rfl

private theorem patchRoute_requests (intervalSeconds now : Nat) :
    Requests (.patch id intervalSeconds now)
      (fun _ log => RequestReturned log (.patch id intervalSeconds now))
      (patchRoute id intervalSeconds now) [] := by
  unfold patchRoute
  refine requests_await (PatchCall.read quiet_id rfl) fun s => ?_
  cases hrow : s.monitors id with
  | none => trivial
  | some monitor =>
    have hfound : patchPhase id [⟨.route .getMonitor, s, .none⟩] = .found monitor := by
      simp [patchPhase, PatchPhase.note, PatchPhase.monitor?, hrow]
    refine requests_await (PatchCall.change hfound) fun s' => ?_
    have hchanged : patchPhase id [⟨.route .updateMonitorInterval, s', .none⟩,
        ⟨.route .getMonitor, s, .none⟩] = .changed monitor := by
      rw [patchPhase, hfound]
      rfl
    refine heeds_seq (reschedule_requests hchanged) fun _ log hphase => ?_
    refine requests_await (PatchCall.audit quiet_id hphase) fun s => ?_
    have haudited : patchPhase id (⟨.route .recordAuditEvent, s, .none⟩ :: log) =
        .audited monitor := by
      rcases hphase with hphase | ⟨hphase, _⟩
      all_goals
        rw [patchPhase, hphase]
        rfl
    refine requests_await (PatchCall.quiet quiet_id fun s fault => ?_) fun s' => ⟨monitor, ?_⟩
    · rw [haudited]
      rfl
    · rw [patchPhase, haudited]
      rfl

private theorem reconcile_requests (now : Nat) :
    Requests (.reconcile id now) (fun _ log => RequestReturned log (.reconcile id now))
      (MonitorRequest.reconcile id now).prog [] := by
  refine ⟨⟨.object .listMonitorsDue, rfl, ReconcileCall.quiet quiet_id⟩, fun s _ => ⟨?_, trivial, trivial⟩⟩
  dsimp only [relabel, Prog.bind]
  cases (s.monitors id).filter (MonitorRow.due (now - DEFAULT_RECONCILE_GRACE_MS)) with
  | none => trivial
  | some monitor =>
    exact ⟨⟨.object .setAlarm, rfl, ReconcileCall.arm⟩, fun _ _ => ⟨trivial, trivial, trivial⟩⟩

/-- A whole request. -/
theorem request_requests (request : MonitorRequest) :
    Requests request (fun _ log => RequestReturned log request) request.prog [] := by
  cases request with
  | pause id => exact pauseRoute_requests
  | resume id now => exact resumeRoute_requests now
  | patch id intervalSeconds now => exact patchRoute_requests intervalSeconds now
  | reconcile id now => exact reconcile_requests now

end Requests

/-! ## All threads -/

section Preserved

variable {s s' : Store}

theorem Store.IdsMatch.of_schedule (h : s.IdsMatch) (hsame : s'.schedule = s.schedule) :
    s'.IdsMatch := by
  obtain ⟨hmonitors, hjobs⟩ : s'.monitors = s.monitors ∧ s'.checkJobs = s.checkJobs := by
    simpa [Store.schedule] using hsame
  exact ⟨fun id row hrow => h.monitor id row (hmonitors ▸ hrow),
    fun id row hrow => h.job id row (hjobs ▸ hrow)⟩

theorem Quiet.schedule {eff : Store → Store} (h : Quiet eff) (s : Store) :
    (eff s).schedule = s.schedule := congrArg Prod.fst (h s)

theorem Store.IdsMatch.updateMonitor (h : s.IdsMatch) (id : MonitorId)
    {f : MonitorRow → MonitorRow} (hf : ∀ row, (f row).id = row.id) :
    (s.updateMonitor id f).IdsMatch := by
  refine ⟨fun id' row hrow => ?_, h.job⟩
  by_cases hid : id' = id
  · subst hid
    simp only [Store.updateMonitor, Function.update_self, Option.map_eq_some_iff] at hrow
    obtain ⟨old, hold, rfl⟩ := hrow
    exact (hf old).trans (h.monitor id' old hold)
  · simp only [Store.updateMonitor, Function.update_of_ne hid] at hrow
    exact h.monitor id' row hrow

theorem Store.IdsMatch.insertCheckJob (h : s.IdsMatch) (id : CheckJobId) (trigger : Trigger) :
    (s.insertCheckJob id trigger).IdsMatch := by
  refine ⟨h.monitor, fun id' row hrow => ?_⟩
  change insertIfNew s.checkJobs id (newCheckJob id trigger) id' = some row at hrow
  by_cases hid : id' = id
  · subst hid
    cases hold : s.checkJobs id' with
    | none =>
      rw [insertIfNew_of_none hold, Function.update_self] at hrow
      obtain rfl := Option.some.inj hrow
      rfl
    | some old =>
      rw [insertIfNew_of_some hold] at hrow
      exact h.job id' row hrow
  · rw [insertIfNew_other hid] at hrow
    exact h.job id' row hrow

theorem Store.IdsMatch.updateCheckJob (h : s.IdsMatch) (id : CheckJobId) (status : CheckJobStatus) :
    (s.updateCheckJob id status).IdsMatch := by
  refine ⟨h.monitor, fun id' row hrow => ?_⟩
  by_cases hid : id' = id
  · subst hid
    simp only [Store.updateCheckJob, Function.update_self, Option.map_eq_some_iff] at hrow
    obtain ⟨old, hold, rfl⟩ := hrow
    exact h.job id' old hold
  · simp only [Store.updateCheckJob, Function.update_of_ne hid] at hrow
    exact h.job id' row hrow

private theorem CheckCall.idsMatch {id : MonitorId} {world : CheckWorld} {log : RunLog}
    {site : Option RunSite} {eff : Store → Store} (h : CheckCall id world log site eff)
    (hs : s.IdsMatch) : (eff s).IdsMatch := by
  cases h with
  | quiet hquiet hsite => exact hs.of_schedule (hquiet.schedule s)
  | silent hquiet => exact hs.of_schedule (hquiet.schedule s)
  | effect hread hregion heffect =>
    cases heffect with
    | claim => exact hs.insertCheckJob _ _
    | run | defer | close | stop => exact hs.updateCheckJob _ _
    | evaluate | arm => exact hs.of_schedule rfl
    | lastChecked | nextRun | policyStop => exact hs.updateMonitor _ fun _ => rfl

private theorem RequestCall.idsMatch {request : MonitorRequest} {log : ThreadLog}
    {site : ThreadSite} {eff : Store → Store} (h : RequestCall log request site eff)
    (hs : s.IdsMatch) : (eff s).IdsMatch := by
  cases request with
  | pause id =>
    cases h with
    | quiet hquiet => exact hs.of_schedule (hquiet.schedule s)
    | disarm => exact hs.of_schedule rfl
    | pause => exact hs.updateMonitor _ fun _ => rfl
  | resume id now =>
    cases h with
    | quiet hquiet | read hquiet => exact hs.of_schedule (hquiet.schedule s)
    | arm => exact hs.of_schedule rfl
    | activate | setNextRun | answer => exact hs.updateMonitor _ fun _ => rfl
  | patch id intervalSeconds now =>
    cases h with
    | read hquiet | quiet hquiet | audit hquiet => exact hs.of_schedule (hquiet.schedule s)
    | arm => exact hs.of_schedule rfl
    | change | move => exact hs.updateMonitor _ fun _ => rfl
  | reconcile id now =>
    cases h with
    | quiet hquiet => exact hs.of_schedule (hquiet.schedule s)
    | arm => exact hs.of_schedule rfl

private theorem monitorConds_preserved : monitorConds.Preserved := by
  intro k task log site eff s hcond hs
  cases k with
  | check id =>
    obtain ⟨world, _, hcall⟩ := hcond
    cases hcall with
    | run h => exact h.idsMatch hs
  | request n =>
    cases task with
    | request request =>
      obtain ⟨site', _, hcall⟩ := hcond
      exact hcall.idsMatch hs
    | alarm world | runNow world => exact hcond.elim

end Preserved

private theorem checkThread_heeded {id : MonitorId} {task : MonitorTask} {world : CheckWorld}
    (hworld : task.world? = some world) (hreports : world.Reports) :
    monitorConds.Heeded (.check id) task (checkThread id world) [] := by
  have hchecks : Checks id world (fun _ => CheckReturned) (runCheckAndApply world id) [] :=
    runCheckAndApply_checks hreports
  refine heeds_relabel (fun log' log => log' = runLog log) hchecks rfl ?_ ?_ ?_ ?_
  · rintro _ log call rfl
    rfl
  · rintro _ log site eff rfl h
    exact ⟨world, hworld, .run h⟩
  · rintro _ _ log rfl h
    exact h
  · rintro _ log rfl h
    exact ⟨world, hworld, h⟩

/-- Every thread heeds its conditions. -/
theorem monitorTasks_heed : monitorTasks.Heed monitorConds where
  heeded k task hfits := by
    cases k with
    | check id =>
      obtain ⟨world, hworld, hreports⟩ := hfits
      change monitorConds.Heeded _ _ (task.world?.elim _ _) _
      rw [hworld]
      exact checkThread_heeded hworld hreports
    | request n =>
      obtain ⟨request, rfl⟩ := hfits
      exact request_requests request
  preserved := monitorConds_preserved
  init s h := ⟨h.1, fun job row hrow => by simp [h.2 job] at hrow⟩
  enter k task s _ hs := by
    cases k with
    | check id =>
      cases task with
      | alarm world => exact hs.of_schedule rfl
      | runNow world | request request => exact hs
    | request n => exact hs
  others s s' h hs := hs.of_schedule h.1

end Utsuroi
