import Mathlib.Data.List.Basic

/-!
# Runs of labelled transition systems

A system steps from state to state by events.  A run keeps the events it has taken,
newest first, so that a property of a run may speak about its whole past and a condition
on a step may look at the events before it.
-/

namespace Transition

variable {σ ι : Type*}

/-- A labelled transition system: where it may start and what each event may do. -/
structure System (σ ι : Type*) where
  init : σ → Prop
  step : σ → ι → σ → Prop

/-- A condition on a step: the events before it, the state it leaves and its own event. -/
abbrev StepCond (σ ι : Type*) := List ι → σ → ι → Prop

/-- The condition every step meets. -/
def anyStep : StepCond σ ι := fun _ _ _ => True

/-- `M.Run C es s`: starting from an initial state, the events `es` (newest first) lead
`M` to `s`, and every step on the way meets `C`. -/
inductive System.Run (M : System σ ι) (C : StepCond σ ι) : List ι → σ → Prop
  | start {s : σ} : M.init s → M.Run C [] s
  | next {es : List ι} {s s' : σ} {e : ι} :
      M.Run C es s → M.step s e s' → C es s e → M.Run C (e :: es) s'

namespace System

variable {M : System σ ι} {C D : StepCond σ ι} {es : List ι} {s : σ}

/-- A stronger condition on the steps allows fewer runs. -/
theorem Run.weaken (h : M.Run C es s)
    (hCD : ∀ past s e, C past s e → D past s e) : M.Run D es s := by
  induction h with
  | start hinit => exact .start hinit
  | next _ hstep hC ih => exact .next ih hstep (hCD _ _ _ hC)

theorem Run.any (h : M.Run C es s) : M.Run anyStep es s :=
  h.weaken fun _ _ _ _ => trivial

/-- The invariant rule: what holds initially and is kept by every step that meets the
condition holds in every state a run reaches. -/
theorem Run.invariant {I : List ι → σ → Prop} (h : M.Run C es s)
    (hinit : ∀ s, M.init s → I [] s)
    (hstep : ∀ past s e s', M.Run C past s → I past s → M.step s e s' → C past s e →
      I (e :: past) s') : I es s := by
  induction h with
  | start h => exact hinit _ h
  | next hrun hs hC ih => exact hstep _ _ _ _ hrun ih hs hC

/-- A run may be read back: its last step left a state that a run reached. -/
theorem Run.last {e : ι} (h : M.Run C (e :: es) s) :
    ∃ before, M.Run C es before ∧ M.step before e s ∧ C es before e := by
  cases h with
  | next hrun hs hC => exact ⟨_, hrun, hs, hC⟩

/-- Every event of a run was taken from a state that a run reached. -/
theorem Run.split {newer older : List ι} {e : ι} (h : M.Run C (newer ++ e :: older) s) :
    ∃ before after, M.Run C older before ∧ M.step before e after ∧ C older before e := by
  induction newer generalizing s with
  | nil =>
    obtain ⟨before, hrun, hs, hC⟩ := Run.last h
    exact ⟨before, s, hrun, hs, hC⟩
  | cons f newer ih =>
    obtain ⟨before, hrun, _, _⟩ := Run.last h
    exact ih hrun

/-- `M.Steps C past s es s'`: after the events `past`, the events `es` lead on from `s` to `s'`. -/
inductive Steps (M : System σ ι) (C : StepCond σ ι) (past : List ι) (s : σ) :
    List ι → σ → Prop
  | refl : M.Steps C past s [] s
  | next {es : List ι} {s' s'' : σ} {e : ι} :
      M.Steps C past s es s' → M.step s' e s'' → C (es ++ past) s' e →
        M.Steps C past s (e :: es) s''

theorem Run.append {past : List ι} {s' : σ} (h : M.Run C past s) (hsteps : M.Steps C past s es s') :
    M.Run C (es ++ past) s' := by
  induction hsteps with
  | refl => exact h
  | next _ hstep hC ih => exact .next ih hstep hC

/-- Steps from an initial state make a run. -/
theorem Steps.run {first : σ} (hinit : M.init first) (h : M.Steps C [] first es s) :
    M.Run C es s := by
  have hrun := (Run.start hinit).append h
  rwa [List.append_nil] at hrun

/-- Every event of such a run was taken from a state that led on from the same beginning. -/
theorem Steps.split {first : σ} {newer older : List ι} {e : ι}
    (h : M.Steps C [] first (newer ++ e :: older) s) :
    ∃ before after, M.Steps C [] first older before ∧ M.step before e after := by
  induction newer generalizing s with
  | nil =>
    cases h with
    | next hsteps hstep _ => exact ⟨_, _, hsteps, hstep⟩
  | cons f newer ih =>
    cases h with
    | next hsteps _ _ => exact ih hsteps

/-- A run goes on from where its older part led. -/
theorem Run.unappend {newer older : List ι} (h : M.Run C (newer ++ older) s) :
    ∃ before, M.Run C older before ∧ M.Steps C older before newer s := by
  induction newer generalizing s with
  | nil => exact ⟨s, h, .refl⟩
  | cons e newer ih =>
    obtain ⟨between, hrun, hstep, hC⟩ := Run.last h
    obtain ⟨before, holder, hsteps⟩ := ih hrun
    exact ⟨before, holder, .next hsteps hstep hC⟩

/-- The system under an observer that keeps an account of its steps. -/
def observe {γ : Type*} (M : System σ ι) (start : γ) (see : γ → σ → ι → σ → γ) :
    System (σ × γ) ι where
  init s := M.init s.1 ∧ s.2 = start
  step s e s' := M.step s.1 e s'.1 ∧ s'.2 = see s.2 s.1 e s'.1

/-- The observer takes part in no step. -/
theorem Run.observed {γ : Type*} {start : γ} {see : γ → σ → ι → σ → γ} (h : M.Run C es s) :
    ∃ account, (M.observe start see).Run (fun past s e => C past s.1 e) es (s, account) := by
  induction h with
  | start hinit => exact ⟨start, .start ⟨hinit, rfl⟩⟩
  | @next es s s' e _ hstep hC ih =>
    obtain ⟨account, hrun⟩ := ih
    exact ⟨see account s e s', .next hrun ⟨hstep, rfl⟩ hC⟩

end System

/-! ## Replays -/

section Replay

variable (apply : σ → ι → σ) (start : σ)

/-- The state that events, newest first, lead to. -/
def stateAfter (es : List ι) : σ := es.foldr (fun e s => apply s e) start

/-- Every event could happen when it did, under the condition `C`. -/
def Replays (allowed : σ → ι → Prop) (C : StepCond σ ι) : List ι → Prop
  | [] => True
  | e :: es =>
    Replays allowed C es ∧ allowed (stateAfter apply start es) e ∧ C es (stateAfter apply start es) e

variable {apply start} {M : System σ ι} {allowed : σ → ι → Prop} {C : StepCond σ ι}

instance decidableAnyStep (past : List ι) (s : σ) (e : ι) : Decidable (anyStep past s e) :=
  inferInstanceAs (Decidable True)

instance decidableReplays [∀ s e, Decidable (allowed s e)]
    [∀ past s e, Decidable (C past s e)] :
    ∀ es, Decidable (Replays apply start allowed C es)
  | [] => inferInstanceAs (Decidable True)
  | _ :: es =>
    have := decidableReplays es
    inferInstanceAs (Decidable (_ ∧ _ ∧ _))

theorem Replays.run (hinit : M.init start) (hstep : ∀ s e, allowed s e → M.step s e (apply s e))
    {es : List ι} (h : Replays apply start allowed C es) :
    M.Run C es (stateAfter apply start es) := by
  induction es with
  | nil => exact .start hinit
  | cons e es ih =>
    obtain ⟨hreplays, hallowed, hC⟩ := h
    exact .next (ih hreplays) (hstep _ e hallowed) hC

theorem Replays.older {newer older : List ι} (h : Replays apply start allowed C (newer ++ older)) :
    Replays apply start allowed C older := by
  induction newer with
  | nil => exact h
  | cons e newer ih => exact ih h.1

theorem Replays.weaken {D : StepCond σ ι} {es : List ι} (h : Replays apply start allowed C es)
    (hCD : ∀ past s e, C past s e → D past s e) : Replays apply start allowed D es := by
  induction es with
  | nil => trivial
  | cons e es ih => exact ⟨ih h.1, h.2.1, hCD _ _ _ h.2.2⟩

/-- What a replay adds to an older one. -/
theorem Replays.steps (hstep : ∀ s e, allowed s e → M.step s e (apply s e))
    {newer older : List ι} (h : Replays apply start allowed C (newer ++ older)) :
    M.Steps C older (stateAfter apply start older) newer
      (stateAfter apply start (newer ++ older)) := by
  induction newer with
  | nil => exact .refl
  | cons e newer ih =>
    obtain ⟨hreplays, hallowed, hC⟩ := h
    exact .next (ih hreplays) (hstep _ e hallowed) hC

end Replay

end Transition
