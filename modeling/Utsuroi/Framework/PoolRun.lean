import Utsuroi.Framework.Interference
import Utsuroi.Framework.RelyGuarantee
import Utsuroi.Framework.Run

/-!
# Runs of a pool

Threads take up tasks one after the other and interleave at their awaits.  The events of a run tell
for each thread which task it took up last and which calls it has made since.
-/

namespace Async

open Relation Transition

variable {κ ι σ ρ : Type}

/-- What the threads of a pool may run. -/
structure Tasks (κ ι σ ρ : Type) where
  init : σ → Prop
  /-- the thread may take up the task -/
  fits : κ → ρ → Prop
  prog : κ → ρ → Prog ι σ PUnit
  /-- what taking it up does -/
  enter : κ → ρ → σ → σ
  /-- what else may happen -/
  others : σ → σ → Prop

inductive PoolEvent (κ ι σ ρ : Type)
  /-- a thread takes up a task -/
  | start (k : κ) (task : ρ)
  /-- the call that a thread waits for ends -/
  | call (k : κ) (call : Prog.Call ι σ)
  | others (s : σ)

/-- Nothing comes of a thread's end. -/
def quietExits : Exits κ σ := ⟨fun _ s => s, fun _ s => s, fun _ s => s⟩

section System

variable [DecidableEq κ] (M : Tasks κ ι σ ρ)

def Pool.after (pool : Pool κ ι σ) : PoolEvent κ ι σ ρ → Pool κ ι σ
  | .start k task => pool.advance quietExits k (M.prog k task) (M.enter k task pool.shared)
  | .call k call => pool.resume quietExits k call.fault
  | .others s => ⟨s, pool.threads⟩

def Pool.enables (pool : Pool κ ι σ) : PoolEvent κ ι σ ρ → Prop
  | .start k task => M.fits k task ∧ pool.threads k = none
  | .call k call => pool.waitsAt k = some call.site ∧ call.before = pool.shared
  | .others s => M.others pool.shared s

def poolSystem : System (Pool κ ι σ) (PoolEvent κ ι σ ρ) where
  init pool := M.init pool.shared ∧ ∀ k, pool.threads k = none
  step pool e pool' := pool.enables M e ∧ pool' = pool.after M e

/-! ## What the events tell of a thread -/

/-- The task that the thread took up last. -/
def taskOf (k : κ) : List (PoolEvent κ ι σ ρ) → Option ρ
  | [] => none
  | .start j task :: es => if j = k then some task else taskOf k es
  | .call _ _ :: es => taskOf k es
  | .others _ :: es => taskOf k es

/-- The calls it has made since, newest first. -/
def logOf (k : κ) : List (PoolEvent κ ι σ ρ) → List (Prog.Call ι σ)
  | [] => []
  | .start j _ :: es => if j = k then [] else logOf k es
  | .call j call :: es => if j = k then call :: logOf k es else logOf k es
  | .others _ :: es => logOf k es

variable {k : κ} {es : List (PoolEvent κ ι σ ρ)}

/-- When a call of the thread was made; it has the same task since. -/
theorem exists_of_mem_logOf {call : Prog.Call ι σ} (h : call ∈ logOf k es) :
    ∃ newer past, es = newer ++ .call k call :: past ∧ taskOf k past = taskOf k es ∧
      ∀ task, .start k task ∉ newer := by
  induction es with
  | nil => contradiction
  | cons e es ih =>
    have hlater : call ∈ logOf k es → taskOf k (e :: es) = taskOf k es →
        (∀ task, e ≠ .start k task) → ∃ newer past, e :: es = newer ++ .call k call :: past ∧
          taskOf k past = taskOf k (e :: es) ∧ ∀ task, .start k task ∉ newer := by
      intro hmem htask hstart
      obtain ⟨newer, past, rfl, hsame, hnone⟩ := ih hmem
      refine ⟨e :: newer, past, rfl, hsame.trans htask.symm, fun task hin => ?_⟩
      rcases List.mem_cons.mp hin with heq | hin
      · exact hstart task heq.symm
      · exact hnone task hin
    cases e with
    | others s => exact hlater h rfl nofun
    | start j task =>
      by_cases hj : j = k
      · rw [logOf, if_pos hj] at h
        contradiction
      · rw [logOf, if_neg hj] at h
        refine hlater h (if_neg hj) fun task' heq => ?_
        injection heq with hjk
        exact hj hjk
    | call j made =>
      by_cases hj : j = k
      · subst hj
        rw [logOf, if_pos rfl] at h
        rcases List.mem_cons.mp h with rfl | hmem
        · exact ⟨[], es, rfl, rfl, nofun⟩
        · exact hlater hmem rfl nofun
      · rw [logOf, if_neg hj] at h
        exact hlater h rfl nofun

end System

/-! ## Threads that heed their conditions -/

/-- The conditions that the tasks of a pool heed; `inv` holds of the shared state. -/
structure TaskConds (κ ι σ ρ : Type) where
  inv : σ → Prop
  cond : κ → ρ → AwaitCond ι σ
  ret : κ → ρ → List (Prog.Call ι σ) → Prop
  thrown : κ → ρ → List (Prog.Call ι σ) → Prop

namespace TaskConds

variable (C : TaskConds κ ι σ ρ)

/-- Effects of a thread between its calls. -/
def Silently (k : κ) (task : ρ) (log : List (Prog.Call ι σ)) : σ → σ → Prop :=
  ReflTransGen fun s s' => ∃ eff, C.cond k task log none eff ∧ s' = eff s

/-- A thread with a task heeds its conditions from here on. -/
def Heeded (k : κ) (task : ρ) (p : Prog ι σ PUnit) (log : List (Prog.Call ι σ)) : Prop :=
  p.Heeds C.inv (C.cond k task) (fun _ => C.ret k task) (C.thrown k task) log

/-- How a thread ended that has made these calls. -/
def Ended (k : κ) (task : ρ) (log : List (Prog.Call ι σ)) : Prop :=
  C.ret k task log ∨ C.thrown k task log ∨
    ∃ call past, log = call :: past ∧ (call.fault = .killBefore ∨ call.fault = .killAfter)

/-- The thread waits with its task, or has ended it. -/
def Follows (k : κ) (task : ρ) (log : List (Prog.Call ι σ)) : Option (Prog ι σ PUnit) → Prop
  | some p => p.Waits ∧ C.Heeded k task p log
  | none => C.Ended k task log

/-- The effects keep the invariant. -/
def Preserved : Prop :=
  ∀ k task log site eff s, C.cond k task log site eff → C.inv s → C.inv (eff s)

variable {C} {k : κ} {task : ρ} {log : List (Prog.Call ι σ)}

theorem Silently.inv (hC : C.Preserved) {s s' : σ} (h : C.Silently k task log s s')
    (hs : C.inv s) : C.inv s' := by
  induction h with
  | refl => exact hs
  | tail _ hstep ih =>
    obtain ⟨eff, hcond, rfl⟩ := hstep
    exact hC _ _ _ _ _ _ hcond ih

theorem Heeded.settle (hC : C.Preserved) {p : Prog ι σ PUnit} (h : C.Heeded k task p log) {s : σ}
    (hs : C.inv s) :
    C.Heeded k task (p.settle s).1 log ∧ C.Silently k task log s (p.settle s).2 := by
  induction p generalizing s with
  | sync eff next ih =>
    obtain ⟨hcond, hnext⟩ := h
    obtain ⟨hheeded, hsteps⟩ := ih s (hnext s hs) (hC _ _ _ _ _ _ hcond hs)
    exact ⟨hheeded, hsteps.head ⟨eff, hcond, rfl⟩⟩
  | _ => exact ⟨h, .refl⟩

variable [DecidableEq κ]

/-- A thread runs on to its next call or its end. -/
theorem Heeded.advance (hC : C.Preserved) {p : Prog ι σ PUnit} (h : C.Heeded k task p log)
    (pool : Pool κ ι σ) {s : σ} (hs : C.inv s) : C.Follows k task log ((pool.advance quietExits k p s).threads k) ∧
      C.Silently k task log s (pool.advance quietExits k p s).shared ∧
      ∀ j, j ≠ k → (pool.advance quietExits k p s).threads j = pool.threads j := by
  have hsettle := h.settle hC hs
  have hsettled := Prog.settle_settled p s
  have hfollows : ∀ t, C.Follows k task log t →
      C.Follows k task log (Function.update pool.threads k t k) := by
    intro t ht
    rwa [Function.update_self]
  have hothers : ∀ (t : Option (Prog ι σ PUnit)) j, j ≠ k →
      Function.update pool.threads k t j = pool.threads j :=
    fun _ j hj => Function.update_of_ne hj _ _
  unfold Pool.advance
  generalize p.settle s = settled at hsettle hsettled ⊢
  obtain ⟨hheeded, hsteps⟩ := hsettle
  rcases settled with ⟨_ | _ | _ | _, s'⟩
  case ret => exact ⟨hfollows none (Or.inl hheeded), hsteps, hothers _⟩
  case fail => exact ⟨hfollows none (Or.inr (Or.inl hheeded)), hsteps, hothers _⟩
  case sync => exact False.elim hsettled
  case await => exact ⟨hfollows (some _) ⟨trivial, hheeded⟩, hsteps, hothers _⟩

/-- What a call with this effect does to the shared state. -/
def CallEffect (C : TaskConds κ ι σ ρ) (k : κ) (task : ρ) (log : List (Prog.Call ι σ))
    (fault : Fault) (eff : σ → σ) (s s' : σ) : Prop :=
  (fault.Before → C.Silently k task log s s') ∧ (¬fault.Before → C.Silently k task log (eff s) s')

/-- The call that a thread waits for ends. -/
theorem Heeded.resume (hC : C.Preserved) {pool : Pool κ ι σ} (hinv : C.inv pool.shared) {site : ι} {eff : σ → σ} {next : σ → Prog ι σ PUnit}
    {caught : Prog ι σ PUnit} (hthread : pool.threads k = some (.await site eff next caught))
    (h : C.Heeded k task (.await site eff next caught) log) (fault : Fault) :
    let pool' := pool.resume quietExits k fault
    let log' := ⟨site, pool.shared, fault⟩ :: log
    C.Follows k task log' (pool'.threads k) ∧
      C.CallEffect k task log' fault eff pool.shared pool'.shared ∧
      ∀ j, j ≠ k → pool'.threads j = pool.threads j := by
  obtain ⟨hcond, hafter⟩ := h
  obtain ⟨hnext, hthrowBefore, hthrowAfter⟩ := hafter pool.shared hinv
  have heff : C.inv (eff pool.shared) := hC _ _ _ _ _ _ hcond hinv
  have hends : ∀ fault, fault = .killBefore ∨ fault = .killAfter → C.Follows k task
      (⟨site, pool.shared, fault⟩ :: log) (Function.update pool.threads k none k) := by
    intro fault hfault
    rw [Function.update_self]
    exact Or.inr (Or.inr ⟨_, _, rfl, hfault⟩)
  have hothers : ∀ j, j ≠ k → Function.update pool.threads k none j = pool.threads j :=
    fun j hj => Function.update_of_ne hj _ _
  have hbefore : ∀ {fault : Fault} {s' : σ}, fault.Before →
      C.Silently k task (⟨site, pool.shared, fault⟩ :: log) pool.shared s' →
      C.CallEffect k task (⟨site, pool.shared, fault⟩ :: log) fault eff pool.shared s' :=
    fun hfault hsteps => ⟨fun _ => hsteps, fun hnot => absurd hfault hnot⟩
  have hdone : ∀ {fault : Fault} {s' : σ}, ¬fault.Before →
      C.Silently k task (⟨site, pool.shared, fault⟩ :: log) (eff pool.shared) s' →
      C.CallEffect k task (⟨site, pool.shared, fault⟩ :: log) fault eff pool.shared s' :=
    fun hfault hsteps => ⟨fun hb => absurd hb hfault, fun _ => hsteps⟩
  dsimp only
  unfold Pool.resume
  rw [hthread]
  cases fault with
  | none =>
    obtain ⟨hfollows, hsteps, hrest⟩ := Heeded.advance hC hnext pool heff
    exact ⟨hfollows, hdone Fault.not_before_none hsteps, hrest⟩
  | throwBefore =>
    obtain ⟨hfollows, hsteps, hrest⟩ := Heeded.advance hC hthrowBefore pool hinv
    exact ⟨hfollows, hbefore (Or.inl rfl) hsteps, hrest⟩
  | throwAfter =>
    obtain ⟨hfollows, hsteps, hrest⟩ := Heeded.advance hC hthrowAfter pool heff
    exact ⟨hfollows, hdone (fun hb => hb.not_after (Or.inl rfl)) hsteps, hrest⟩
  | killBefore => exact ⟨hends _ (Or.inl rfl), hbefore (Or.inr rfl) .refl, hothers⟩
  | killAfter =>
    exact ⟨hends _ (Or.inr rfl), hdone (fun hb => hb.not_after (Or.inr rfl)) .refl, hothers⟩

end TaskConds

section Runs

variable [DecidableEq κ] {M : Tasks κ ι σ ρ} {C : TaskConds κ ι σ ρ}
  {D : StepCond (Pool κ ι σ) (PoolEvent κ ι σ ρ)} {es : List (PoolEvent κ ι σ ρ)}
  {pool pool' : Pool κ ι σ}

/-- Every task heeds its conditions, and the invariant is kept. -/
structure Tasks.Heed (M : Tasks κ ι σ ρ) (C : TaskConds κ ι σ ρ) : Prop where
  heeded : ∀ k task, M.fits k task → C.Heeded k task (M.prog k task) []
  preserved : C.Preserved
  init : ∀ s, M.init s → C.inv s
  enter : ∀ k task s, M.fits k task → C.inv s → C.inv (M.enter k task s)
  others : ∀ s s', M.others s s' → C.inv s → C.inv s'

/-- What the threads have done so far is as their tasks have it. -/
structure ThreadsFollow (M : Tasks κ ι σ ρ) (C : TaskConds κ ι σ ρ)
    (es : List (PoolEvent κ ι σ ρ)) (pool : Pool κ ι σ) : Prop where
  fits : ∀ k task, taskOf k es = some task → M.fits k task
  follows : ∀ k task, taskOf k es = some task → C.Follows k task (logOf k es) (pool.threads k)
  idle : ∀ k, taskOf k es = none → pool.threads k = none
  inv : C.inv pool.shared

/-- A call of a thread in a run: its task, its effect and what became of the shared state. -/
structure CallStep (M : Tasks κ ι σ ρ) (C : TaskConds κ ι σ ρ) (es : List (PoolEvent κ ι σ ρ))
    (k : κ) (call : Prog.Call ι σ) (s s' : σ) (task : ρ) (eff : σ → σ) : Prop where
  taken : taskOf k es = some task
  fits : M.fits k task
  found : call.before = s
  cond : C.cond k task (logOf k es) (some call.site) eff
  effect : C.CallEffect k task (call :: logOf k es) call.fault eff s s'

theorem CallStep.inv (hM : M.Heed C) {k : κ} {call : Prog.Call ι σ} {s s' : σ} {task : ρ}
    {eff : σ → σ} (h : CallStep M C es k call s s' task eff) (hs : C.inv s) : C.inv s' := by
  by_cases hfault : call.fault.Before
  · exact (h.effect.1 hfault).inv hM.preserved hs
  · exact (h.effect.2 hfault).inv hM.preserved (hM.preserved _ _ _ _ _ _ h.cond hs)

omit [DecidableEq κ] in
/-- The thread waits at a call. -/
theorem Pool.waitsAt_some {k : κ} {site : ι} (h : pool.waitsAt k = some site) :
    ∃ eff next caught, pool.threads k = some (.await site eff next caught) := by
  unfold Pool.waitsAt at h
  split at h
  next site' eff next caught hthread =>
    obtain rfl := Option.some.inj h
    exact ⟨eff, next, caught, hthread⟩
  · contradiction

private theorem ThreadsFollow.resume (hM : M.Heed C) (h : ThreadsFollow M C es pool) {k : κ}
    {call : Prog.Call ι σ} (hsite : pool.waitsAt k = some call.site)
    (hfound : call.before = pool.shared) :
    ∃ task eff, CallStep M C es k call pool.shared (pool.resume quietExits k call.fault).shared
        task eff ∧
      C.Follows k task (call :: logOf k es) ((pool.resume quietExits k call.fault).threads k) ∧
      ∀ j, j ≠ k → (pool.resume quietExits k call.fault).threads j = pool.threads j := by
  obtain ⟨site, before, fault⟩ := call
  dsimp only at hsite hfound
  subst hfound
  obtain ⟨eff, next, caught, hthread⟩ := Pool.waitsAt_some hsite
  cases htask : taskOf k es with
  | none =>
    rw [h.idle k htask] at hthread
    contradiction
  | some task =>
    have hfollows := h.follows k task htask
    rw [hthread] at hfollows
    obtain ⟨hthen, heffect, hrest⟩ := TaskConds.Heeded.resume hM.preserved h.inv hthread hfollows.2 fault
    exact ⟨task, eff, ⟨htask, h.fits k task htask, rfl, hfollows.2.1, heffect⟩, hthen, hrest⟩

/-- One event. -/
theorem ThreadsFollow.step (hM : M.Heed C) (h : ThreadsFollow M C es pool)
    {e : PoolEvent κ ι σ ρ} (henabled : pool.enables M e) :
    ThreadsFollow M C (e :: es) (pool.after M e) := by
  cases e with
  | others s => exact ⟨h.fits, h.follows, h.idle, hM.others _ _ henabled h.inv⟩
  | start k task =>
    obtain ⟨hfits, _⟩ := henabled
    have hentered := hM.enter k task _ hfits h.inv
    obtain ⟨hfollows, hsteps, hrest⟩ :=
      TaskConds.Heeded.advance hM.preserved (hM.heeded k task hfits) pool hentered
    refine ⟨fun j task' htask => ?_, fun j task' htask => ?_, fun j htask => ?_,
      hsteps.inv hM.preserved hentered⟩
    all_goals by_cases hj : k = j
    · subst hj
      obtain rfl : task = task' := by simpa [taskOf] using htask
      exact hfits
    · exact h.fits j task' (by simpa [taskOf, hj] using htask)
    · subst hj
      obtain rfl : task = task' := by simpa [taskOf] using htask
      simpa [logOf, Pool.after] using hfollows
    · have hsame := h.follows j task' (by simpa [taskOf, hj] using htask)
      rw [← hrest j (Ne.symm hj)] at hsame
      simpa [logOf, Pool.after, hj] using hsame
    · subst hj
      simp [taskOf] at htask
    · exact (hrest j (Ne.symm hj)).trans (h.idle j (by simpa [taskOf, hj] using htask))
  | call k call =>
    obtain ⟨hsite, hfound⟩ := henabled
    obtain ⟨task, eff, hstep, hfollows, hrest⟩ := h.resume hM hsite hfound
    refine ⟨h.fits, fun j task' htask => ?_, fun j htask => ?_, hstep.inv hM h.inv⟩
    all_goals by_cases hj : k = j
    · subst hj
      obtain rfl := Option.some.inj (hstep.taken.symm.trans htask)
      simpa [logOf, Pool.after] using hfollows
    · have hsame := h.follows j task' htask
      rw [← hrest j (Ne.symm hj)] at hsame
      simpa [logOf, Pool.after, hj] using hsame
    · subst hj
      rw [show taskOf k (.call k call :: es) = taskOf k es from rfl, hstep.taken] at htask
      contradiction
    · exact (hrest j (Ne.symm hj)).trans (h.idle j htask)

theorem threadsFollow_of_run (hM : M.Heed C) (h : (poolSystem M).Run D es pool) :
    ThreadsFollow M C es pool := by
  induction h with
  | start hinit =>
    exact ⟨by simp [taskOf], by simp [taskOf], fun k _ => hinit.2 k, hM.init _ hinit.1⟩
  | next hrun hstep _ ih =>
    obtain ⟨henabled, rfl⟩ := hstep
    exact ih.step hM henabled

/-- A call in a run. -/
theorem callStep_of_run (hM : M.Heed C) (h : (poolSystem M).Run D es pool) {k : κ}
    {call : Prog.Call ι σ} (hstep : (poolSystem M).step pool (.call k call) pool') :
    ∃ task eff, CallStep M C es k call pool.shared pool'.shared task eff := by
  obtain ⟨⟨hsite, hfound⟩, rfl⟩ := hstep
  obtain ⟨task, eff, hcall, _⟩ := (threadsFollow_of_run hM h).resume hM hsite hfound
  exact ⟨task, eff, hcall⟩

/-- A task taken up in a run. -/
theorem startStep_of_run (hM : M.Heed C) (h : (poolSystem M).Run D es pool) {k : κ} {task : ρ}
    (hstep : (poolSystem M).step pool (.start k task) pool') :
    M.fits k task ∧ pool.threads k = none ∧
      C.Silently k task [] (M.enter k task pool.shared) pool'.shared := by
  obtain ⟨⟨hfits, hidle⟩, rfl⟩ := hstep
  obtain ⟨_, hsteps, _⟩ :=
    TaskConds.Heeded.advance hM.preserved (hM.heeded k task hfits) pool
      (hM.enter k task _ hfits (threadsFollow_of_run hM h).inv)
  exact ⟨hfits, hidle, hsteps⟩

/-- A thread that is idle has ended its task. -/
theorem ended_of_run (hM : M.Heed C) (h : (poolSystem M).Run D es pool) {k : κ} {task : ρ}
    (htask : taskOf k es = some task) (hidle : pool.threads k = none) :
    C.Ended k task (logOf k es) := by
  have hfollows := (threadsFollow_of_run hM h).follows k task htask
  rwa [hidle] at hfollows

end Runs

/-! ## Schedules -/

/-- A move of a schedule: a thread takes up a task, or its call ends. -/
inductive Move (κ ρ : Type)
  | start (k : κ) (task : ρ)
  | call (k : κ) (fault : Fault)

/-- The move as an event, if it can be made. -/
def Pool.event (pool : Pool κ ι σ) : Move κ ρ → Option (PoolEvent κ ι σ ρ)
  | .start k task => if (pool.threads k).isNone then some (.start k task) else none
  | .call k fault => (pool.waitsAt k).map fun site => .call k ⟨site, pool.shared, fault⟩

section Schedules

variable [DecidableEq κ] (M : Tasks κ ι σ ρ) (D : StepCond (Pool κ ι σ) (PoolEvent κ ι σ ρ))
  [∀ es pool e, Decidable (D es pool e)] (start : Pool κ ι σ)

/-- The events and the pool that moves, newest first, lead to, if they can all be made. -/
def play : List (Move κ ρ) → Option (List (PoolEvent κ ι σ ρ) × Pool κ ι σ)
  | [] => some ([], start)
  | move :: moves =>
    (play moves).bind fun played => (played.2.event move).bind fun e =>
      if D played.1 played.2 e then some (e :: played.1, played.2.after M e) else none

variable {M D start} {moves newer older : List (Move κ ρ)}

omit [DecidableEq κ] in
private theorem Pool.enables_of_event {pool : Pool κ ι σ} {move : Move κ ρ}
    {e : PoolEvent κ ι σ ρ} (hfits : ∀ k task, move = .start k task → M.fits k task)
    (h : pool.event move = some e) : pool.enables M e := by
  cases move with
  | start k task =>
    obtain ⟨hidle, rfl⟩ : (pool.threads k).isNone ∧ .start k task = e := by
      simpa [Pool.event] using h
    exact ⟨hfits k task rfl, Option.isNone_iff_eq_none.mp hidle⟩
  | call k fault =>
    obtain ⟨site, hsite, rfl⟩ := Option.map_eq_some_iff.mp h
    exact ⟨hsite, rfl⟩

/-- What is computed of a schedule holds of what it leads to. -/
theorem play_spec {P : List (PoolEvent κ ι σ ρ) × Pool κ ι σ → Bool}
    (h : (play M D start moves).any P = true) :
    ∃ played, play M D start moves = some played ∧ P played = true := by
  cases hplay : play M D start moves with
  | none =>
    rw [hplay] at h
    contradiction
  | some played =>
    rw [hplay] at h
    exact ⟨played, rfl, h⟩

/-- What more moves add to a run. -/
theorem steps_of_play (hfits : ∀ k task, .start k task ∈ newer → M.fits k task)
    {played : List (PoolEvent κ ι σ ρ) × Pool κ ι σ}
    (h : play M D start (newer ++ older) = some played) :
    ∃ before es, play M D start older = some before ∧ played.1 = es ++ before.1 ∧
      (poolSystem M).Steps D before.1 before.2 es played.2 := by
  induction newer generalizing played with
  | nil => exact ⟨played, [], h, rfl, .refl⟩
  | cons move newer ih =>
    obtain ⟨between, hbetween, hmove⟩ := Option.bind_eq_some_iff.mp h
    obtain ⟨e, hevent, hlast⟩ := Option.bind_eq_some_iff.mp hmove
    obtain ⟨before, es, hbefore, hes, hsteps⟩ :=
      ih (fun k task hmem => hfits k task (List.mem_cons_of_mem _ hmem)) hbetween
    split at hlast
    next hD =>
      obtain rfl := Option.some.inj hlast
      have henabled : between.2.enables M e :=
        Pool.enables_of_event (fun k task hstart => hfits k task (hstart ▸ List.mem_cons_self)) hevent
      refine ⟨before, e :: es, hbefore, by simp [hes], ?_⟩
      exact .next hsteps ⟨henabled, rfl⟩ (hes ▸ hD)
    · contradiction

theorem steps_of_start (hfits : ∀ k task, .start k task ∈ moves → M.fits k task)
    {played : List (PoolEvent κ ι σ ρ) × Pool κ ι σ}
    (h : play M D start moves = some played) :
    (poolSystem M).Steps D [] start played.1 played.2 := by
  rw [← List.append_nil moves] at h
  obtain ⟨before, es, hbefore, hes, hsteps⟩ := steps_of_play hfits h
  obtain rfl : ([], start) = before := Option.some.inj hbefore
  rw [hes, List.append_nil]
  exact hsteps

theorem run_of_play (hinit : (poolSystem M).init start)
    (hfits : ∀ k task, .start k task ∈ moves → M.fits k task)
    {played : List (PoolEvent κ ι σ ρ) × Pool κ ι σ}
    (h : play M D start moves = some played) : (poolSystem M).Run D played.1 played.2 :=
  (steps_of_start hfits h).run hinit

/-- A schedule, with what holds after its older part and in the end. -/
theorem exists_steps_of_play (newer older : List (Move κ ρ))
    {P Q : List (PoolEvent κ ι σ ρ) × Pool κ ι σ → Bool} (hinit : (poolSystem M).init start)
    (hfits : ∀ k task, .start k task ∈ newer ++ older → M.fits k task)
    (hmiddle : (play M D start older).any P = true)
    (hend : (play M D start (newer ++ older)).any Q = true) :
    ∃ es₁ pool₁ es pool₂, (poolSystem M).Run D es₁ pool₁ ∧
      (poolSystem M).Steps D es₁ pool₁ es pool₂ ∧ P (es₁, pool₁) = true ∧
        Q (es ++ es₁, pool₂) = true := by
  obtain ⟨⟨es₁, pool₁⟩, hplayed₁, hP⟩ := play_spec hmiddle
  obtain ⟨⟨es₂, pool₂⟩, hplayed₂, hQ⟩ := play_spec hend
  obtain ⟨before, es, hbefore, hes, hsteps⟩ :=
    steps_of_play (fun k task hmem => hfits k task (List.mem_append_left _ hmem)) hplayed₂
  obtain rfl := Option.some.inj (hplayed₁.symm.trans hbefore)
  have hrun := run_of_play hinit
    (fun k task hmem => hfits k task (List.mem_append_right _ hmem)) hplayed₁
  exact ⟨es₁, pool₁, es, pool₂, hrun, hsteps, hP, hes ▸ hQ⟩

end Schedules

end Async
