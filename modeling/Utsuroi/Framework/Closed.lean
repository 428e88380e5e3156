import Utsuroi.Framework.PoolRun

/-!
# Judgements on programs

A judgement that the constructs of programs keep holds of a program when it holds of its parts.
Two such judgements are lifted to runs of a pool: every effect is of a certain kind, and the program
abides by an agreement from wherever it starts.
-/

namespace Async

open Relation Transition

variable {κ ι σ ρ α β γ : Type}

/-- A judgement that the constructs of programs keep. -/
structure Closed (J : ∀ α : Type, Prog ι σ α → Prop) : Prop where
  ret : ∀ {α : Type} (a : α), J α (.ret a)
  fail : ∀ {α : Type}, J α .fail
  bind : ∀ {α β : Type} {p : Prog ι σ α} {f : α → Prog ι σ β}, J α p → (∀ a, J β (f a)) →
    J β (p >>= f)
  attempt : ∀ {α : Type} {p : Prog ι σ α}, J α p → J (Option α) p.attempt

namespace Closed

variable {J : ∀ α : Type, Prog ι σ α → Prop} (hJ : Closed J)

include hJ

theorem tryCatch {p handler : Prog ι σ α} (hp : J α p) (hhandler : J α handler) :
    J α (p.tryCatch handler) := by
  refine hJ.bind (hJ.attempt hp) fun result => ?_
  cases result with
  | none => exact hhandler
  | some a => exact hJ.ret a

theorem tryFinally {p : Prog ι σ α} {last : Prog ι σ Unit} (hp : J α p) (hlast : J Unit last) :
    J α (p.tryFinally last) := by
  refine hJ.bind (hJ.attempt hp) fun result => hJ.bind hlast fun _ => ?_
  cases result with
  | none => exact hJ.fail
  | some a => exact hJ.ret a

theorem foldlM {xs : List β} {body : γ → β → Prog ι σ γ} {acc : γ}
    (h : ∀ acc x, J γ (body acc x)) : J γ (xs.foldlM body acc) := by
  induction xs generalizing acc with
  | nil => exact hJ.ret acc
  | cons x xs ih =>
    rw [List.foldlM_cons]
    exact hJ.bind (h acc x) fun _ => ih

end Closed

/-! ## Effects of a kind -/

namespace Prog

/-- All effects of the program are as `P` says. -/
def Effects (P : Option ι → (σ → σ) → Prop) : Prog ι σ α → Prop
  | .ret _ => True
  | .fail => True
  | .sync eff next => P none eff ∧ ∀ s, (next s).Effects P
  | .await site eff next caught => P (some site) eff ∧ (∀ s, (next s).Effects P) ∧ caught.Effects P

section Effects

variable {P : Option ι → (σ → σ) → Prop}

theorem effects_closed : Closed fun α => @Effects ι σ α P where
  ret _ := trivial
  fail := trivial
  bind {_ _ p f} hp hf := by
    induction p with
    | ret a => exact hf a
    | fail => trivial
    | sync eff next ih => exact ⟨hp.1, fun s => ih s (hp.2 s)⟩
    | await site eff next caught ih ihc => exact ⟨hp.1, fun s => ih s (hp.2.1 s), ihc hp.2.2⟩
  attempt {_ p} hp := by
    induction p with
    | ret a => trivial
    | fail => trivial
    | sync eff next ih => exact ⟨hp.1, fun s => ih s (hp.2 s)⟩
    | await site eff next caught ih ihc => exact ⟨hp.1, fun s => ih s (hp.2.1 s), ihc hp.2.2⟩

theorem effects_call {site : ι} {eff : σ → σ} {answer : σ → α} (h : P (some site) eff) :
    (call site eff answer).Effects P := ⟨h, fun _ => trivial, trivial⟩

theorem Effects.mono {P' : Option ι → (σ → σ) → Prop} {p : Prog ι σ α} (h : p.Effects P)
    (himp : ∀ site eff, P site eff → P' site eff) : p.Effects P' := by
  induction p with
  | ret a => trivial
  | fail => trivial
  | sync eff next ih => exact ⟨himp _ _ h.1, fun s => ih s (h.2 s)⟩
  | await site eff next caught ih ihc =>
    exact ⟨himp _ _ h.1, fun s => ih s (h.2.1 s), ihc h.2.2⟩

theorem effects_relabel {P : Option κ → (σ → σ) → Prop} {p : Prog ι σ α} {f : ι → κ}
    (h : p.Effects fun site => P (site.map f)) : (p.relabel f).Effects P := by
  induction p with
  | ret a => trivial
  | fail => trivial
  | sync eff next ih => exact ⟨h.1, fun s => ih s (h.2 s)⟩
  | await site eff next caught ih ihc => exact ⟨h.1, fun s => ih s (h.2.1 s), ihc h.2.2⟩

theorem Frames.effects {view : σ → γ} {p : Prog ι σ α} (h : p.Frames view)
    (himp : ∀ site eff, (∀ s, view (eff s) = view s) → P site eff) : p.Effects P := by
  induction p with
  | ret a => trivial
  | fail => trivial
  | sync eff next ih => exact ⟨himp _ _ h.1, fun s => ih s (h.2 s)⟩
  | await site eff next caught ih ihc =>
    exact ⟨himp _ _ h.1, fun s => ih s (h.2.1 s), ihc h.2.2⟩

theorem Effects.heeds {p : Prog ι σ α} (h : p.Effects P) (log : List (Call ι σ)) :
    p.Heeds (fun _ => True) (fun _ => P) (fun _ _ => True) (fun _ => True) log := by
  induction p generalizing log with
  | ret a => trivial
  | fail => trivial
  | sync eff next ih => exact ⟨h.1, fun s _ => ih s (h.2 s) log⟩
  | await site eff next caught ih ihc =>
    exact ⟨h.1, fun s _ => ⟨ih s (h.2.1 s) _, ihc h.2.2 _, ihc h.2.2 _⟩⟩

end Effects

end Prog

section EffectRuns

variable [DecidableEq κ] {M : Tasks κ ι σ ρ} {P : Option ι → (σ → σ) → Prop}
  {D : StepCond (Pool κ ι σ) (PoolEvent κ ι σ ρ)} {es : List (PoolEvent κ ι σ ρ)}
  {pool : Pool κ ι σ}

/-- All effects of the tasks are as `P` says. -/
def effectConds (P : Option ι → (σ → σ) → Prop) : TaskConds κ ι σ ρ where
  inv _ := True
  cond _ _ _ := P
  ret _ _ _ := True
  thrown _ _ _ := True

omit [DecidableEq κ] in
theorem effectConds_heed (hM : ∀ k task, M.fits k task → (M.prog k task).Effects P) :
    M.Heed (effectConds P) where
  heeded k task hfits := (hM k task hfits).heeds []
  preserved _ _ _ _ _ _ _ _ := trivial
  init _ _ := trivial
  enter _ _ _ _ _ := trivial
  others _ _ _ _ := trivial

/-- Effects of programs between their calls. -/
def SyncSteps (P : Option ι → (σ → σ) → Prop) : σ → σ → Prop :=
  ReflTransGen fun s s' => ∃ eff, P none eff ∧ s' = eff s

omit [DecidableEq κ] in
/-- A call that waited there with this effect ends with the event, and has taken effect. -/
def Pool.Writes (pool : Pool κ ι σ) (e : PoolEvent κ ι σ ρ) (site : ι) (eff : σ → σ) : Prop :=
  ∃ k call next caught, e = .call k call ∧ ¬call.fault.Before ∧
    pool.threads k = some (.await site eff next caught)

/-- A step of a run has one effect of the kind at most, that of a call; others happen only between
the calls. -/
theorem effectStep_of_run (hM : ∀ k task, M.fits k task → (M.prog k task).Effects P)
    (hrun : (poolSystem M).Run D es pool) {k : κ} {call : Prog.Call ι σ}
    (henabled : pool.enables M (.call k call)) :
    (∃ eff, P (some call.site) eff ∧ (∀ site eff', pool.Writes (ρ := ρ) (.call k call) site eff' →
        site = call.site ∧ eff' = eff) ∧
      (pool.Writes (ρ := ρ) (.call k call) call.site eff) ∧
        SyncSteps P (eff pool.shared) (pool.after M (.call k call)).shared) ∨
    (∀ site eff, ¬pool.Writes (ρ := ρ) (.call k call) site eff) ∧
      SyncSteps P pool.shared (pool.after M (.call k call)).shared := by
  have hfollow := threadsFollow_of_run (effectConds_heed hM) hrun
  obtain ⟨hsite, hfound⟩ := henabled
  obtain ⟨site, before, fault⟩ := call
  dsimp only at hsite hfound
  subst hfound
  obtain ⟨eff, next, caught, hthread⟩ := Pool.waitsAt_some hsite
  cases htask : taskOf k es with
  | none =>
    rw [hfollow.idle k htask] at hthread
    contradiction
  | some task =>
    have hfollows := hfollow.follows k task htask
    rw [hthread] at hfollows
    obtain ⟨_, heffect, _⟩ := TaskConds.Heeded.resume (effectConds_heed hM).preserved trivial
      hthread hfollows.2 fault
    by_cases hfault : fault.Before
    · refine Or.inr ⟨?_, heffect.1 hfault⟩
      rintro site' eff' ⟨j, call, _, _, heq, hnot, _⟩
      cases heq
      exact hnot hfault
    · refine Or.inl ⟨eff, hfollows.2.1, ?_, ⟨k, _, next, caught, rfl, hfault, hthread⟩,
        heffect.2 hfault⟩
      rintro site' eff' ⟨j, call, _, _, heq, _, hthread'⟩
      cases heq
      cases hthread.symm.trans hthread'
      exact ⟨rfl, rfl⟩

/-- What a task does when it is taken up. -/
theorem effectStart_of_run (hM : ∀ k task, M.fits k task → (M.prog k task).Effects P)
    (hrun : (poolSystem M).Run D es pool) {k : κ} {task : ρ}
    (henabled : pool.enables M (.start k task)) :
    SyncSteps P (M.enter k task pool.shared) (pool.after M (.start k task)).shared :=
  (startStep_of_run (effectConds_heed hM) hrun ⟨henabled, rfl⟩).2.2

end EffectRuns

/-! ## Agreements -/

/-- What programs over a shared state agree upon: an invariant, and what none of them undoes. -/
structure Agreement (σ : Type) where
  inv : σ → Prop
  keeps : σ → σ → Prop
  refl : ∀ s, keeps s s
  trans : ∀ s₁ s₂ s₃, keeps s₁ s₂ → keeps s₂ s₃ → keeps s₁ s₃
  stable : ∀ s s', inv s → keeps s s' → inv s'

namespace Agreement

variable (A : Agreement σ)

/-- Each relies on what it guarantees itself, whatever becomes of its calls. -/
def contract : Contract ι σ := ⟨A.keeps, A.keeps, fun _ _ _ => True⟩

def ends (M : α → σ → Prop) : Ends σ α := ⟨fun a s => A.inv s ∧ M a s, A.inv, A.inv⟩

end Agreement

namespace Prog

/-- The program abides by the agreement whatever the others do, and its answer is as `M` says. -/
def Yields (A : Agreement σ) (M : α → σ → Prop) (p : Prog ι σ α) (s : σ) : Prop :=
  p.rg A.contract (A.ends M) s

/-- It abides by the agreement from wherever it starts. -/
def Abides (A : Agreement σ) (p : Prog ι σ α) : Prop :=
  ∀ s, A.inv s → p.Yields A (fun _ _ => True) s

section Abides

variable {A : Agreement σ} {M M' : α → σ → Prop} {N : β → σ → Prop} {s : σ}

theorem Yields.mono {p : Prog ι σ α} (h : p.Yields A M s) (himp : ∀ a s, M a s → M' a s) :
    p.Yields A M' s :=
  rg_mono h (fun a s hs => ⟨hs.1, himp a s hs.2⟩) (fun _ h => h) fun _ h => h

/-- Wherever the program ends, what it agreed upon has been kept. -/
private theorem rg_kept {p : Prog ι σ α} (h : p.rg A.contract (A.ends M) s) {s₀ : σ}
    (hs : A.keeps s₀ s) :
    p.rg A.contract ⟨fun a s => (A.inv s ∧ M a s) ∧ A.keeps s₀ s, fun s => A.inv s ∧ A.keeps s₀ s,
      fun s => A.inv s ∧ A.keeps s₀ s⟩ s := by
  induction p generalizing s with
  | ret a => exact ⟨h, hs⟩
  | fail => exact ⟨h, hs⟩
  | sync eff next ih => exact ⟨h.1, ih s h.2 (A.trans _ _ _ hs h.1)⟩
  | await site eff next caught ih ihc =>
    intro found hrely
    have hfound := A.trans _ _ _ hs hrely
    obtain ⟨hnone, hthrowBefore, hthrowAfter, hkillBefore, hkillAfter⟩ := h found hrely
    have hafter := A.trans _ _ _ hfound (hnone trivial).1
    exact ⟨fun _ => ⟨(hnone trivial).1, ih found (hnone trivial).2 hafter⟩,
      fun _ => ihc (hthrowBefore trivial) hfound,
      fun _ => ⟨(hthrowAfter trivial).1, ihc (hthrowAfter trivial).2 hafter⟩,
      fun _ => ⟨hkillBefore trivial, hfound⟩,
      fun _ => ⟨(hkillAfter trivial).1, (hkillAfter trivial).2, hafter⟩⟩

theorem Yields.kept {p : Prog ι σ α} (h : p.Yields A M s) :
    p.Yields A (fun a s' => M a s' ∧ A.keeps s s') s :=
  rg_mono (rg_kept h (A.refl s)) (fun _ _ hs => ⟨hs.1.1, hs.1.2, hs.2⟩) (fun _ hs => hs.1)
    fun _ hs => hs.1

theorem yields_ret {a : α} (hinv : A.inv s) (h : M a s) : (ret a : Prog ι σ α).Yields A M s :=
  ⟨hinv, h⟩

/-- Sequencing; what is known before the first part is known after it as far as it is kept. -/
theorem yields_bind {p : Prog ι σ α} {f : α → Prog ι σ β} (hp : p.Yields A M s)
    (hf : ∀ a s', A.inv s' → A.keeps s s' → M a s' → (f a).Yields A N s') :
    (p >>= f).Yields A N s :=
  rg_seq hp.kept fun a s' hmid => hf a s' hmid.1 hmid.2.2 hmid.2.1

/-- A call. -/
theorem yields_call {site : ι} {eff : σ → σ} {answer : σ → α} (hinv : A.inv s)
    (heff : ∀ found, A.inv found → A.keeps s found → A.keeps found (eff found))
    (h : ∀ found, A.inv found → A.keeps s found → M (answer found) (eff found)) :
    (call site eff answer).Yields A M s := by
  intro found hrely
  have hfound := A.stable _ _ hinv hrely
  have hguar := heff found hfound hrely
  have hafter := A.stable _ _ hfound hguar
  exact ⟨fun _ => ⟨hguar, hafter, h found hfound hrely⟩, fun _ => hfound,
    fun _ => ⟨hguar, hafter⟩, fun _ => hfound, fun _ => ⟨hguar, hafter⟩⟩

theorem yields_query {site : ι} {answer : σ → α} (hinv : A.inv s)
    (h : ∀ found, A.inv found → A.keeps s found → M (answer found) found) :
    (query site answer).Yields A M s := yields_call hinv (fun found _ _ => A.refl found) h

theorem yields_tryCatch {p handler : Prog ι σ α} (hp : p.Yields A M s)
    (hhandler : ∀ s', A.inv s' → A.keeps s s' → handler.Yields A M s') :
    (p.tryCatch handler).Yields A M s := by
  refine rg_tryCatch.mpr (rg_mono (rg_kept hp (A.refl s)) (fun _ _ hs => hs.1) ?_ fun _ hs => hs.1)
  intro s' hs
  exact hhandler s' hs.1 hs.2

/-- The rule of loops with an invariant. -/
theorem yields_foldlM {xs : List β} {body : γ → β → Prog ι σ γ} {acc : γ} (I : γ → σ → Prop)
    (hinv : A.inv s) (hinit : I acc s)
    (hbody : ∀ acc x s, x ∈ xs → A.inv s → I acc s → (body acc x).Yields A I s) :
    (xs.foldlM body acc).Yields A I s := by
  induction xs generalizing acc s with
  | nil => exact ⟨hinv, hinit⟩
  | cons x xs ih =>
    rw [List.foldlM_cons]
    refine yields_bind (hbody acc x s List.mem_cons_self hinv hinit) fun acc s' hinv _ hI => ?_
    exact ih hinv hI fun acc y s hy => hbody acc y s (List.mem_cons_of_mem _ hy)

theorem yields_forM {xs : List β} {body : β → Prog ι σ PUnit} (I : σ → Prop) (hinv : A.inv s)
    (hinit : I s) (hbody : ∀ x s, x ∈ xs → A.inv s → I s → (body x).Yields A (fun _ => I) s) :
    (xs.forM body).Yields A (fun _ => I) s := by
  induction xs generalizing s with
  | nil => exact ⟨hinv, hinit⟩
  | cons x xs ih =>
    refine yields_bind (hbody x s List.mem_cons_self hinv hinit) fun _ s' hinv _ hI => ?_
    exact ih hinv hI fun y s hy => hbody y s (List.mem_cons_of_mem _ hy)

theorem abides_closed : Closed fun α (p : Prog ι σ α) => p.Abides A where
  ret _ _ hinv := ⟨hinv, trivial⟩
  fail _ hinv := hinv
  bind hp hf s hinv := yields_bind (hp s hinv) fun a s' hinv' _ _ => hf a s' hinv'
  attempt hp s hinv :=
    rg_attempt.mpr (rg_mono (hp s hinv) (fun _ _ h => h) (fun _ h => ⟨h, trivial⟩) fun _ h => h)

theorem abides_call {site : ι} {eff : σ → σ} {answer : σ → α}
    (h : ∀ s, A.inv s → A.keeps s (eff s)) : (call site eff answer).Abides A :=
  fun _ hinv => yields_call hinv (fun found hfound _ => h found hfound) fun _ _ _ => trivial

theorem abides_relabel {p : Prog ι σ α} {f : ι → κ} (h : p.Abides A) : (p.relabel f).Abides A := by
  intro s hinv
  have hp := h s hinv
  clear h hinv
  induction p generalizing s with
  | ret a => exact hp
  | fail => exact hp
  | sync eff next ih => exact ⟨hp.1, ih s (eff s) hp.2⟩
  | await site eff next caught ih ihc =>
    intro found hrely
    obtain ⟨hnone, hthrowBefore, hthrowAfter, hkillBefore, hkillAfter⟩ := hp found hrely
    exact ⟨fun h => ⟨(hnone h).1, ih found _ (hnone h).2⟩, fun h => ihc _ (hthrowBefore h),
      fun h => ⟨(hthrowAfter h).1, ihc _ (hthrowAfter h).2⟩, hkillBefore, hkillAfter⟩

/-- A program whose effects all keep to the agreement. -/
theorem Effects.abides {p : Prog ι σ α}
    (h : p.Effects fun _ eff => ∀ s, A.inv s → A.keeps s (eff s)) : p.Abides A := by
  intro s hinv
  induction p generalizing s with
  | ret a => exact ⟨hinv, trivial⟩
  | fail => exact hinv
  | sync eff next ih =>
    have hguar := h.1 s hinv
    exact ⟨hguar, ih s (h.2 s) (eff s) (A.stable _ _ hinv hguar)⟩
  | await site eff next caught ih ihc =>
    intro found hrely
    have hfound := A.stable _ _ hinv hrely
    have hguar := h.1 found hfound
    have hafter := A.stable _ _ hfound hguar
    exact ⟨fun _ => ⟨hguar, ih found (h.2.1 found) _ hafter⟩, fun _ => ihc h.2.2 _ hfound,
      fun _ => ⟨hguar, ihc h.2.2 _ hafter⟩, fun _ => hfound, fun _ => ⟨hguar, hafter⟩⟩

end Abides

end Prog

section AgreementRuns

variable [DecidableEq κ] {M : Tasks κ ι σ ρ} {A : Agreement σ}
  {D : StepCond (Pool κ ι σ) (PoolEvent κ ι σ ρ)} {es newer : List (PoolEvent κ ι σ ρ)}
  {pool pool' : Pool κ ι σ}

/-- All that happens in the pool abides by the agreement. -/
structure Tasks.Abide (M : Tasks κ ι σ ρ) (A : Agreement σ) : Prop where
  prog : ∀ k task, M.fits k task → (M.prog k task).Abides A
  init : ∀ s, M.init s → A.inv s
  enter : ∀ k task s, A.keeps s (M.enter k task s)
  others : ∀ s s', M.others s s' → A.inv s → A.keeps s s'

/-- Every thread has the contract of the agreement. -/
def Agreement.contracts (A : Agreement σ) : Pool.Contracts κ ι σ :=
  ⟨fun _ => A.contract, fun _ => A.inv⟩

omit [DecidableEq κ] in
theorem Agreement.compatible (A : Agreement σ) : (A.contracts : Pool.Contracts κ ι σ).Compatible where
  trans _ := A.trans
  others _ _ _ _ _ h := h
  idle _ := A.stable

theorem Agreement.keeps_of_guar (A : Agreement σ) {s s' : σ} (h : ReflTransGen A.keeps s s') :
    A.keeps s s' := by
  induction h with
  | refl => exact A.refl _
  | tail _ hstep ih => exact A.trans _ _ _ ih hstep

omit [DecidableEq κ] in
theorem Agreement.rg_ends {p : Prog ι σ PUnit} {s : σ} {k : κ}
    (h : p.Yields A (fun _ _ => True) s) :
    p.rg A.contract ((A.contracts : Pool.Contracts κ ι σ).ends quietExits k) s :=
  Prog.rg_mono h (fun _ s hs => ⟨A.refl s, hs.1⟩) (fun s hs => ⟨A.refl s, hs⟩)
    fun s hs => ⟨A.refl s, hs⟩

/-- The threads abide by the agreement, and so does what one step does. -/
theorem Tasks.Abide.step (hM : M.Abide A) (hinv : A.inv pool.shared)
    (h : pool.Meets A.contracts quietExits) {e : PoolEvent κ ι σ ρ} (henabled : pool.enables M e) :
    (pool.after M e).Meets A.contracts quietExits ∧ A.keeps pool.shared (pool.after M e).shared := by
  cases e with
  | others s =>
    have hkeeps := hM.others _ _ henabled hinv
    exact ⟨h.environment A.compatible fun _ => hkeeps, hkeeps⟩
  | start k task =>
    obtain ⟨hfits, _⟩ := henabled
    have henter := hM.enter k task pool.shared
    have hprog := hM.prog k task hfits _ (A.stable _ _ hinv henter)
    obtain ⟨hmeets, hguar⟩ := h.advance A.compatible (.single henter) (Agreement.rg_ends hprog)
    exact ⟨hmeets, A.keeps_of_guar hguar⟩
  | call k call =>
    obtain ⟨hmeets, hguar⟩ := h.resume A.compatible (fun _ _ => trivial) (A.refl pool.shared)
    exact ⟨hmeets, A.keeps_of_guar hguar⟩

theorem Tasks.Abide.run (hM : M.Abide A) (hrun : (poolSystem M).Run D es pool) :
    A.inv pool.shared ∧ pool.Meets A.contracts quietExits := by
  induction hrun with
  | start hinit =>
    have hinv := hM.init _ hinit.1
    refine ⟨hinv, fun k => ?_⟩
    rw [hinit.2 k]
    exact hinv
  | next _ hstep _ ih =>
    obtain ⟨henabled, rfl⟩ := hstep
    obtain ⟨hmeets, hkeeps⟩ := hM.step ih.1 ih.2 henabled
    exact ⟨A.stable _ _ ih.1 hkeeps, hmeets⟩

/-- Nothing that happens in a run undoes what is agreed upon. -/
theorem Tasks.Abide.keeps (hM : M.Abide A) (hrun : (poolSystem M).Run D es pool)
    (hsteps : (poolSystem M).Steps D es pool newer pool') : A.keeps pool.shared pool'.shared := by
  induction hsteps with
  | refl => exact A.refl _
  | next hsteps hstep _ ih =>
    obtain ⟨hinv, hmeets⟩ := hM.run (hrun.append hsteps)
    obtain ⟨henabled, rfl⟩ := hstep
    exact A.trans _ _ _ ih (hM.step hinv hmeets henabled).2

end AgreementRuns

end Async
