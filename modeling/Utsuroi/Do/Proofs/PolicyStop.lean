import Utsuroi.Do.MonitorRuns

/-!
# How long a policy stop lasts

A stopped monitor is as the stop left it until a resume request that is received later, unless a
request that was under way writes its status over it.
-/

namespace Utsuroi

open Async Prog Transition

/-- What a stop writes and a new status clears. -/
structure Standing where
  status : MonitorStatus
  stopReason : Option String
  robotsEvaluationId : Option Nat
  deriving DecidableEq, Repr

def Store.standing (id : MonitorId) (s : Store) : Option Standing :=
  (s.monitors id).map fun row => ⟨row.status, row.stopReason, row.robotsEvaluationId⟩

def Store.blocked (id : MonitorId) (s : Store) : Bool :=
  (s.monitors id).any fun row => row.status == .blockedByRobots

def ThreadSite.site : ThreadSite → Site
  | .check site => site.site
  | .object site | .route site => site

def Site.writesStatus : Site → Bool
  | .updateMonitorStatus _ => true
  | _ => false

def MonitorTask.request? : MonitorTask → Option MonitorRequest
  | .request r => some r
  | _ => none

def MonitorRequest.resumes : MonitorRequest → Bool
  | .resume _ _ => true
  | _ => false

/-- A request to resume the monitor is received. -/
def ReceivesResume (id : MonitorId) : PoolEvent Thread ThreadSite Store MonitorTask → Prop
  | .start (.request _) (.request (.resume id' _)) => id' = id
  | _ => False

/-- Since the thread took up its task the monitor was stopped. -/
def StoppedSince (k : Thread) (id : MonitorId) : MonitorEvents → Prop
  | [] => False
  | .start j _ :: es => j ≠ k ∧ StoppedSince k id es
  | .call j call :: es => StopsMonitor id (.call j call) ∨ StoppedSince k id es
  | .others _ :: es => StoppedSince k id es

/-- A status that a request writes over a stop is that of a request to resume received since. -/
def stopsRespected : StepCond MonitorPool (PoolEvent Thread ThreadSite Store MonitorTask)
  | es, pool, .call (.request n) call =>
    call.site.site.writesStatus = true → ¬call.fault.Before →
      ∀ request ∈ (taskOf (.request n) es).bind MonitorTask.request?,
        pool.shared.blocked request.monitorId = true →
          request.resumes = true ∧ ¬StoppedSince (.request n) request.monitorId es
  | _, _, _ => True

section Decidable

instance decidableStoppedSince (k : Thread) (id : MonitorId) :
    ∀ es, Decidable (StoppedSince k id es)
  | [] => inferInstanceAs (Decidable False)
  | .start _ _ :: es =>
    have := decidableStoppedSince k id es
    inferInstanceAs (Decidable (_ ∧ _))
  | .call _ _ :: es =>
    have := decidableStoppedSince k id es
    inferInstanceAs (Decidable (_ ∨ _))
  | .others _ :: es => decidableStoppedSince k id es

instance (es : MonitorEvents) (pool : MonitorPool) :
    ∀ e, Decidable (stopsRespected es pool e)
  | .call (.request n) call => inferInstanceAs (Decidable
      (call.site.site.writesStatus = true → ¬call.fault.Before →
        ∀ request ∈ (taskOf (.request n) es).bind MonitorTask.request?,
          pool.shared.blocked request.monitorId = true →
            request.resumes = true ∧ ¬StoppedSince (.request n) request.monitorId es))
  | .call (.check _) _ | .start _ _ | .others _ => inferInstanceAs (Decidable True)

end Decidable

section Sticky

variable {C : StepCond MonitorPool (PoolEvent Thread ThreadSite Store MonitorTask)}
  {es past newer : MonitorEvents} {pool pool' : MonitorPool} {id : MonitorId} {s s' : Store}
  {e : PoolEvent Thread ThreadSite Store MonitorTask}

/-- A check that can do nothing more to a stopped monitor. -/
def Harmless (id : MonitorId) (log : RunLog) : Prop :=
  (∃ kind, checkPhase log = .ended kind ∨ checkPhase log = .armed kind) ∨
    checkPhase log = .loading ∧
      ∀ monitor, FirstRead id monitor log → monitor.status = .blockedByRobots

theorem standing_of_monitors (h : s'.monitors id = s.monitors id) : s'.standing id = s.standing id := by
  rw [Store.standing, h, Store.standing]

theorem standing_updateMonitor {f : MonitorRow → MonitorRow}
    (hf : ∀ row, (⟨(f row).status, (f row).stopReason, (f row).robotsEvaluationId⟩ : Standing) =
      ⟨row.status, row.stopReason, row.robotsEvaluationId⟩) :
    (s.updateMonitor id f).standing id = s.standing id := by
  rw [Store.standing, Store.updateMonitor_self, Store.standing, Option.map_map]
  congr 1
  funext row
  exact hf row

/-- A check that is harmless stays so and leaves the row alone. -/
private theorem harmless_call {world : CheckWorld} {log : RunLog} {site : RunSite}
    {eff : Store → Store} {fault : Fault} (h : Harmless id log)
    (hrow : ∀ row, s.monitors id = some row → row.status = .blockedByRobots)
    (hcall : CheckCall id world log (some site) eff) :
    Harmless id (⟨site, s, fault⟩ :: log) ∧ (eff s).monitors = s.monitors := by
  cases hcall with
  | quiet hquiet hsite =>
    have hphase : checkPhase (⟨site, s, fault⟩ :: log) = checkPhase log := by
      rw [checkPhase]
      split
      · rfl
      next hregion => exact (hsite.resolve_left hregion) _
    refine ⟨?_, hquiet.monitors s⟩
    rw [Harmless, hphase]
    rcases h with hended | ⟨hloading, hread⟩
    · exact Or.inl hended
    · refine Or.inr ⟨hloading, fun monitor hfirst => ?_⟩
      rcases firstRead_cons hfirst with ⟨_, _, hfound⟩ | hold
      · exact hrow monitor hfound
      · exact hread monitor hold
  | effect hread hregion heffect =>
    rcases h with ⟨kind, hended⟩ | ⟨hloading, hblocked⟩
    · obtain ⟨hphase, rfl, rfl⟩ := heffect.of_end hended
      refine ⟨Or.inl ⟨kind, Or.inr ?_⟩, rfl⟩
      rw [checkPhase, if_neg hregion, hphase]
      rfl
    · obtain ⟨hstatus, _⟩ := heffect.of_loading hloading
      rw [hblocked _ hread] at hstatus
      contradiction

/-- What holds between a stop and the next request to resume. -/
structure Stopped (id : MonitorId) (standing : Option Standing) (es : MonitorEvents) (s : Store) :
    Prop where
  standing : s.standing id = standing
  check : Harmless id (runLog (logOf (.check id) es))
  requests : ∀ n now, taskOf (.request n) es = some (.request (.resume id now)) →
    StoppedSince (.request n) id es

theorem blocked_of_standing {reason : Option String} {evaluationId : Option Nat}
    (h : s.standing id = some ⟨.blockedByRobots, reason, evaluationId⟩) :
    (∀ row, s.monitors id = some row → row.status = .blockedByRobots) ∧ s.blocked id = true := by
  obtain ⟨row, hrow, hstanding⟩ := Option.map_eq_some_iff.mp h
  have hstatus : row.status = .blockedByRobots := congrArg Standing.status hstanding
  refine ⟨fun row' hrow' => ?_, ?_⟩
  · obtain rfl := Option.some.inj (hrow.symm.trans hrow')
    exact hstatus
  · rw [Store.blocked, hrow]
    simp [hstatus]

/-- A request that was under way leaves the standing of the stopped monitor alone. -/
private theorem request_standing {n : Nat} {request : MonitorRequest} {site : ThreadSite}
    {fault : Fault} {eff : Store → Store} (hblocked : pool.shared.blocked id = true)
    (hresume : ∀ now, request = .resume id now → StoppedSince (.request n) id es)
    (htask : taskOf (.request n) es = some (.request request))
    (hcall : RequestCall (logOf (.request n) es) request site eff)
    (htook : Took fault eff pool.shared s)
    (hC : stopsRespected es pool (.call (.request n) ⟨site, pool.shared, fault⟩)) :
    s.standing id = pool.shared.standing id := by
  rcases htook.monitors with hsame | ⟨hfault, heff⟩
  · exact standing_of_monitors (congrFun hsame id)
  by_cases hid : request.monitorId = id
  swap
  · refine standing_of_monitors ?_
    rw [heff, hcall.writesRow.other (Ne.symm hid)]
  subst hid
  have hrequest : request ∈ (taskOf (.request n) es).bind MonitorTask.request? := by
    rw [htask]
    rfl
  -- a status is written only by a request to resume received since, and there is none
  have hwrites : site.site.writesStatus = false := by
    by_contra hwrites
    obtain ⟨hresumes, hsince⟩ :=
      hC (by simpa using hwrites) hfault request hrequest hblocked
    cases request with
    | resume id now => exact hsince (hresume now rfl)
    | _ => contradiction
  rw [standing_of_monitors (congrFun heff _)]
  cases request with
  | pause id =>
    cases hcall with
    | quiet hquiet => exact standing_of_monitors (congrFun (hquiet.monitors _) _)
    | disarm => rfl
    | pause hsite => rcases hsite with rfl | rfl <;> contradiction
  | resume id now =>
    cases hcall with
    | quiet hquiet | read hquiet => exact standing_of_monitors (congrFun (hquiet.monitors _) _)
    | setNextRun => exact standing_updateMonitor fun _ => rfl
    | arm => rfl
    | activate | answer => contradiction
  | patch id intervalSeconds now =>
    cases hcall with
    | read hquiet | quiet hquiet | audit hquiet =>
      exact standing_of_monitors (congrFun (hquiet.monitors _) _)
    | change | move => exact standing_updateMonitor fun _ => rfl
    | arm => rfl
  | reconcile id now =>
    cases hcall with
    | quiet hquiet => exact standing_of_monitors (congrFun (hquiet.monitors _) _)
    | arm => rfl

/-- One event. -/
private theorem Stopped.step {reason : Option String} {evaluationId : Option Nat}
    (h : Stopped id (some ⟨.blockedByRobots, reason, evaluationId⟩) es pool.shared)
    (hrun : monitorPool.Run C es pool) (hstep : monitorPool.step pool e pool')
    (hC : stopsRespected es pool e) (hresume : ¬ReceivesResume id e) :
    Stopped id (some ⟨.blockedByRobots, reason, evaluationId⟩) (e :: es) pool'.shared := by
  obtain ⟨hrows, hblocked⟩ := blocked_of_standing h.standing
  have hmonitor := monitorStep_of_run hrun hstep
  generalize hshared : pool.shared = s at hmonitor
  generalize pool'.shared = s' at hmonitor ⊢
  cases hmonitor with
  | others hschedule =>
    subst hshared
    refine ⟨?_, h.check, h.requests⟩
    rw [standing_of_monitors (congrFun (monitors_of_schedule hschedule) id), h.standing]
  | @start k task _ hfits hcontrol =>
    subst hshared
    refine ⟨?_, ?_, fun n now htask => ?_⟩
    · have hsame := monitors_of_control hcontrol
      rw [enter_monitors] at hsame
      rw [standing_of_monitors (congrFun hsame id), h.standing]
    · rw [logOf]
      split
      · refine Or.inr ⟨rfl, fun monitor hfirst => ?_⟩
        obtain ⟨s, hlast, _⟩ := hfirst
        contradiction
      · exact h.check
    · rw [taskOf] at htask
      split at htask
      next hk =>
        obtain rfl := Option.some.inj htask
        subst hk
        exact (hresume rfl).elim
      next hk => exact ⟨hk, h.requests n now htask⟩
  | @check id' task world site fault eff _ htask hworld hcall htook =>
    have hsince : ∀ n now, taskOf (.request n) es = some (.request (.resume id now)) →
        StoppedSince (.request n) id (.call (.check id') ⟨.check site, s, fault⟩ :: es) :=
      fun n now htask => Or.inr (h.requests n now htask)
    by_cases hid : id' = id
    · subst hid hshared
      obtain ⟨hharmless, hsame⟩ := harmless_call h.check hrows hcall
      refine ⟨?_, ?_, hsince⟩
      · rw [← h.standing]
        rcases htook.monitors with hmonitors | ⟨_, hmonitors⟩
        · exact standing_of_monitors (congrFun hmonitors id')
        · exact standing_of_monitors (congrFun (hmonitors.trans hsame) id')
      · rw [logOf, if_pos rfl]
        exact hharmless
    · subst hshared
      refine ⟨?_, ?_, hsince⟩
      · rw [← h.standing]
        rcases htook.monitors with hmonitors | ⟨_, hmonitors⟩
        · exact standing_of_monitors (congrFun hmonitors id)
        · rw [standing_of_monitors (congrFun hmonitors id)]
          exact standing_of_monitors (hcall.writesRow.other (Ne.symm hid) _)
      · rw [logOf, if_neg (by simpa using hid)]
        exact h.check
  | @request n request site fault eff _ htask hcall htook =>
    subst hshared
    refine ⟨?_, ?_, fun n now htask => Or.inr (h.requests n now htask)⟩
    · rw [← h.standing]
      refine request_standing hblocked (fun now hnow => ?_) htask hcall htook hC
      exact h.requests n now (hnow ▸ htask)
    · rw [logOf, if_neg (request_ne_check _ _)]
      exact h.check

/-- The commit itself. -/
private theorem stopped_of_stop (hrun : monitorPool.Run C es pool)
    (hstep : monitorPool.step pool e pool') (hstop : StopsMonitor id e) :
    ∃ reason evaluationId,
      Stopped id (some ⟨.blockedByRobots, some reason, some evaluationId⟩) (e :: es)
        pool'.shared := by
  have hmonitor := monitorStep_of_run hrun hstep
  generalize hshared : pool.shared = s at hmonitor
  generalize pool'.shared = s' at hmonitor ⊢
  cases hmonitor with
  | others | start | request => exact hstop.elim
  | @check _ _ world _ _ _ _ htask hworld hcall htook =>
    obtain ⟨rfl, hsite, hfault⟩ := hstop
    obtain ⟨monitor, hread, heffect⟩ := hcall.effect_of_checks hsite policyStop_not_idle
    cases heffect with
    | @policyStop evaluationId hphase hrobots hcount =>
      have hrow := row_of_firstRead hrun hread
      rw [hshared] at hrow
      obtain ⟨row, hrow⟩ := Option.isSome_iff_exists.mp hrow
      refine ⟨robotsStopReason world.robots.matchedRule, evaluationId, ?_,
        Or.inl ⟨.policyStopped, Or.inl ?_⟩, fun n now _ => Or.inl ⟨rfl, hsite, hfault⟩⟩
      · rcases htook with ⟨hbefore, _⟩ | ⟨_, hcontrol⟩
        · exact absurd hbefore hfault
        rw [Store.standing, monitors_of_control hcontrol, Store.updateMonitor_self, hrow]
        rfl
      · obtain ⟨hregion, hpolicy⟩ := hsite
        rw [logOf, if_pos rfl]
        change ite _ _ _ = _
        rw [if_neg hregion, hpolicy]
        exact congrArg (CheckPhase.note .policyStopMonitor) hphase

/-- A policy stop is sticky: once it has committed, and as long as no status that a request writes
lands on a stopped monitor but that of a request to resume received since, the monitor stays
stopped, for this reason and this evaluation, until such a request is received. -/
theorem policyStop_sticky {pool₁ pool₂ : MonitorPool}
    (hrun : monitorPool.Run stopsRespected (e :: es) pool₁) (hstop : StopsMonitor id e)
    (hsteps : monitorPool.Steps stopsRespected (e :: es) pool₁ newer pool₂)
    (hresume : ∀ e ∈ newer, ¬ReceivesResume id e) :
    ∃ reason evaluationId,
      pool₁.shared.standing id = some ⟨.blockedByRobots, some reason, some evaluationId⟩ ∧
        pool₂.shared.standing id = pool₁.shared.standing id := by
  obtain ⟨pool, hbefore, hstep, _⟩ := hrun.last
  obtain ⟨reason, evaluationId, hstopped⟩ := stopped_of_stop hbefore hstep hstop
  have hlater : Stopped id (some ⟨.blockedByRobots, some reason, some evaluationId⟩)
      (newer ++ e :: es) pool₂.shared := by
    induction hsteps with
    | refl => exact hstopped
    | next hsteps hstep hC ih =>
      refine (ih fun e he => hresume e (List.mem_cons_of_mem _ he)).step (hrun.append hsteps) hstep hC ?_
      exact hresume _ List.mem_cons_self
  exact ⟨reason, evaluationId, hstopped.standing, hlater.standing.trans hstopped.standing.symm⟩

end Sticky

/-! ## A pause that lands on a stop -/

instance (id : MonitorId) : DecidablePred (ReceivesResume id)
  | .start (.request _) (.request (.resume _ _)) => inferInstanceAs (Decidable (_ = _))
  | .start (.request _) (.request (.pause _)) | .start (.request _) (.request (.patch _ _ _))
  | .start (.request _) (.request (.reconcile _ _)) | .start (.request _) (.alarm _)
  | .start (.request _) (.runNow _) | .start (.check _) _ | .call _ _ | .others _ =>
    inferInstanceAs (Decidable False)

private def disallowed : RobotsDecision := ⟨false, some "disallow: /", false, 1000, "*"⟩

/-- What a check leaves that has just stopped the monitor. -/
private def stoppedByRule (played : MonitorEvents × MonitorPool) : Bool :=
  played.1.head?.any (fun e => decide (StopsMonitor 1 e)) &&
    played.2.shared.standing 1 == some ⟨.blockedByRobots, some "robots.txt disallow: disallow: /", some 0⟩

private theorem stopped_head {played : MonitorEvents × MonitorPool} (h : stoppedByRule played = true) :
    ∃ e es, played.1 = e :: es ∧ StopsMonitor 1 e ∧ played.2.shared.standing 1 =
      some ⟨.blockedByRobots, some "robots.txt disallow: disallow: /", some 0⟩ := by
  obtain ⟨hhead, hstanding⟩ := (Bool.and_eq_true _ _ ▸ h : _ ∧ _)
  obtain ⟨events, pool⟩ := played
  cases events with
  | nil => contradiction
  | cons e es => exact ⟨e, es, rfl, of_decide_eq_true hhead, eq_of_beq hstanding⟩

/-- The check stops the monitor while a request to pause it is under way. -/
private def stopBesidePause : List (Move Thread MonitorTask) :=
  quietly (.check 1) 14 ++ [.start (.check 1) (.alarm (sampleCheck 1000 disallowed)),
    .call (.request 0) .none, .start (.request 0) (.request (.pause 1))]

/-- The monitor is paused, and no request to resume it was received. -/
private def pausedWithoutResume (played : MonitorEvents × MonitorPool) : Bool :=
  played.2.shared.standing 1 == some ⟨.paused, none, none⟩ &&
    played.1.all fun e => decide (¬ReceivesResume 1 e)

/-- The pause overwrites the stop and its reason. -/
theorem policyStop_overridden :
    ¬∀ (id : MonitorId) e es newer (pool₁ pool₂ : MonitorPool),
      monitorPool.Run anyStep (e :: es) pool₁ → StopsMonitor id e →
      monitorPool.Steps anyStep (e :: es) pool₁ newer pool₂ →
      (∀ e ∈ newer, ¬ReceivesResume id e) →
        pool₂.shared.standing id = pool₁.shared.standing id := by
  intro hall
  have hfits : ∀ move ∈ quietly (.request 0) 3 ++ stopBesidePause, MoveFits move := by
    simp only [stopBesidePause, List.forall_mem_append, List.forall_mem_cons]
    exact ⟨quietly_fits _ _, quietly_fits _ _, sampleCheck_fits _ _ _, trivial, request_fits _ _, by simp⟩
  obtain ⟨es₁, pool₁, newer, pool₂, hrun, hsteps, hstopped, hpaused⟩ :=
    sample_steps (D := anyStep) (P := stoppedByRule) (Q := pausedWithoutResume) hfits (by decide +kernel) (by decide +kernel)
  obtain ⟨e, es, rfl, hstop, hstanding⟩ := stopped_head hstopped
  obtain ⟨hpaused, hresume⟩ := (Bool.and_eq_true _ _ ▸ hpaused : _ ∧ _)
  have hsame := hall 1 e es newer pool₁ pool₂ hrun hstop hsteps fun e he =>
    of_decide_eq_true (List.all_eq_true.mp hresume e (List.mem_append_left _ he))
  rw [hstanding, eq_of_beq hpaused] at hsame
  contradiction

/-- A new interval and a later check leave the stop alone. -/
private def checkAfterStop : List (Move Thread MonitorTask) :=
  quietly (.check 1) 2 ++ [.start (.check 1) (.alarm (sampleCheck 9000 disallowed))] ++
    (quietly (.request 1) 4 ++ [.start (.request 1) (.request (.patch 1 60 8000))]) ++
    quietly (.check 1) 2

/-- The whole pause falls between the first call of the check and the rest, which stops the
monitor. -/
private def stopAfterPause : List (Move Thread MonitorTask) :=
  quietly (.check 1) 13 ++
    (quietly (.request 0) 6 ++ [.start (.request 0) (.request (.pause 1))]) ++
    (quietly (.check 1) 1 ++ [.start (.check 1) (.alarm (sampleCheck 1000 disallowed))])

theorem policyStop_sticky_laterCheck : ∃ e es newer, ∃ pool₁ pool₂ : MonitorPool,
    monitorPool.Run stopsRespected (e :: es) pool₁ ∧ StopsMonitor 1 e ∧
      monitorPool.Steps stopsRespected (e :: es) pool₁ newer pool₂ ∧
      ∃ reason evaluationId,
        pool₁.shared.standing 1 = some ⟨.blockedByRobots, some reason, some evaluationId⟩ ∧
          pool₂.shared.standing 1 = pool₁.shared.standing 1 := by
  have hfits : ∀ move ∈ checkAfterStop ++ stopAfterPause, MoveFits move := by
    simp only [checkAfterStop, stopAfterPause, List.forall_mem_append, List.forall_mem_cons]
    exact ⟨⟨⟨⟨quietly_fits _ _, sampleCheck_fits _ _ _, by simp⟩, quietly_fits _ _,
        request_fits _ _, by simp⟩, quietly_fits _ _⟩,
      ⟨quietly_fits _ _, quietly_fits _ _, request_fits _ _, by simp⟩,
      quietly_fits _ _, sampleCheck_fits _ _ _, by simp⟩
  obtain ⟨es₁, pool₁, newer, pool₂, hrun, hsteps, hstopped, hresume⟩ :=
    sample_steps (D := stopsRespected) (P := stoppedByRule)
      (Q := fun played => played.1.all fun e => decide (¬ReceivesResume 1 e)) hfits
      (by decide +kernel) (by decide +kernel)
  obtain ⟨e, es, rfl, hstop, _⟩ := stopped_head hstopped
  refine ⟨e, es, newer, pool₁, pool₂, hrun, hstop, hsteps, ?_⟩
  exact policyStop_sticky hrun hstop hsteps fun e he =>
    of_decide_eq_true (List.all_eq_true.mp hresume e (List.mem_append_left _ he))

end Utsuroi
