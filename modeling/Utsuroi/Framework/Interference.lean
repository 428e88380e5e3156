import Utsuroi.Framework.Frame

/-!
# Programs under interference

What a program does whatever the others do while it waits: of the states its calls find only an
invariant is known.
-/

namespace Async

variable {ι κ σ α β γ : Type}

/-- A condition on an effect: the calls before it, where it is awaited and the effect itself.  An
effect of the program's own between its calls is awaited nowhere. -/
abbrev AwaitCond (ι σ : Type) := List (Prog.Call ι σ) → Option ι → (σ → σ) → Prop

namespace Prog

/-- Whatever its calls find, as long as the invariant `I` holds of it, and whatever becomes of them,
the effects are as `A` says; the program returns as `Q` and throws as `T` says. -/
def Heeds (I : σ → Prop) (A : AwaitCond ι σ) (Q : α → List (Call ι σ) → Prop) (T : List (Call ι σ) → Prop) :
    Prog ι σ α → List (Call ι σ) → Prop
  | .ret a, log => Q a log
  | .fail, log => T log
  | .sync eff next, log => A log none eff ∧ ∀ s, I s → (next s).Heeds I A Q T log
  | .await site eff next caught, log =>
    A log (some site) eff ∧ ∀ s, I s → (next s).Heeds I A Q T (⟨site, s, .none⟩ :: log) ∧
      caught.Heeds I A Q T (⟨site, s, .throwBefore⟩ :: log) ∧
      caught.Heeds I A Q T (⟨site, s, .throwAfter⟩ :: log)

section Rules

variable {I : σ → Prop} {A : AwaitCond ι σ} {Q : α → List (Call ι σ) → Prop} {R : β → List (Call ι σ) → Prop}
  {T : List (Call ι σ) → Prop} {log : List (Call ι σ)}

theorem heeds_bind {p : Prog ι σ α} {f : α → Prog ι σ β} :
    (p >>= f).Heeds I A R T log ↔ p.Heeds I A (fun a log => (f a).Heeds I A R T log) T log := by
  induction p generalizing log with
  | ret a => exact Iff.rfl
  | fail => exact Iff.rfl
  | sync eff next ih => exact and_congr Iff.rfl (forall₂_congr fun s _ => ih s)
  | await site eff next caught ih ihc =>
    exact and_congr Iff.rfl (forall₂_congr fun s _ => and_congr (ih s) (and_congr ihc ihc))

theorem Heeds.mono {p : Prog ι σ α} {Q' : α → List (Call ι σ) → Prop}
    {T' : List (Call ι σ) → Prop} (h : p.Heeds I A Q T log) (hret : ∀ a log, Q a log → Q' a log)
    (hthrown : ∀ log, T log → T' log) : p.Heeds I A Q' T' log := by
  induction p generalizing log with
  | ret a => exact hret a log h
  | fail => exact hthrown log h
  | sync eff next ih => exact ⟨h.1, fun s hs => ih s (h.2 s hs)⟩
  | await site eff next caught ih ihc =>
    refine ⟨h.1, fun s hs => ?_⟩
    obtain ⟨hnext, hbefore, hafter⟩ := h.2 s hs
    exact ⟨ih s hnext, ihc hbefore, ihc hafter⟩

/-- Sequencing. -/
theorem heeds_seq {p : Prog ι σ α} {f : α → Prog ι σ β} (hp : p.Heeds I A Q T log)
    (hf : ∀ a log, Q a log → (f a).Heeds I A R T log) : (p >>= f).Heeds I A R T log :=
  heeds_bind.mpr (hp.mono hf fun _ h => h)

/-- A call. -/
theorem heeds_call {site : ι} {eff : σ → σ} {answer : σ → α} (hA : A log (some site) eff)
    (hret : ∀ s, I s → Q (answer s) (⟨site, s, .none⟩ :: log))
    (hthrown : ∀ s fault, fault ≠ .none → T (⟨site, s, fault⟩ :: log)) :
    (call site eff answer).Heeds I A Q T log :=
  ⟨hA, fun s hs => ⟨hret s hs, hthrown s _ nofun, hthrown s _ nofun⟩⟩

/-- A call that a program begins with. -/
theorem heeds_await {site : ι} {eff : σ → σ} {answer : σ → α} {f : α → Prog ι σ β}
    (hA : A log (some site) eff)
    (hf : ∀ s, I s → (f (answer s)).Heeds I A R T (⟨site, s, .none⟩ :: log))
    (hthrown : ∀ s fault, fault ≠ .none → T (⟨site, s, fault⟩ :: log)) :
    (call site eff answer >>= f).Heeds I A R T log :=
  ⟨hA, fun s hs => ⟨hf s hs, hthrown s _ nofun, hthrown s _ nofun⟩⟩

theorem heeds_attempt {p : Prog ι σ α} {Q : Option α → List (Call ι σ) → Prop}
    {T' : List (Call ι σ) → Prop} (h : p.Heeds I A (fun a => Q (some a)) (Q none) log) :
    p.attempt.Heeds I A Q T' log := by
  induction p generalizing log with
  | ret a => exact h
  | fail => exact h
  | sync eff next ih => exact ⟨h.1, fun s hs => ih s (h.2 s hs)⟩
  | await site eff next caught ih ihc =>
    refine ⟨h.1, fun s hs => ?_⟩
    obtain ⟨hnext, hbefore, hafter⟩ := h.2 s hs
    exact ⟨ih s hnext, ihc hbefore, ihc hafter⟩

theorem heeds_tryCatch {p handler : Prog ι σ α}
    (h : p.Heeds I A Q (fun log => handler.Heeds I A Q T log) log) :
    (p.tryCatch handler).Heeds I A Q T log := by
  let R : Option α → List (Call ι σ) → Prop := fun result log =>
    result.elim (handler.Heeds I A Q T log) fun a => Q a log
  have hattempt : p.attempt.Heeds I A R T log := heeds_attempt h
  refine heeds_seq hattempt fun result log hresult => ?_
  cases result with
  | none => exact hresult
  | some a => exact hresult

/-- The last part sees how the first one ended. -/
theorem heeds_tryFinally {p : Prog ι σ α} {last : Prog ι σ Unit} {M : Option α → List (Call ι σ) → Prop}
    (hp : p.Heeds I A (fun a => M (some a)) (M none) log)
    (hlast : ∀ result log, M result log →
      last.Heeds I A (fun _ log => result.elim (T log) fun a => Q a log) T log) :
    (p.tryFinally last).Heeds I A Q T log := by
  have hattempt : p.attempt.Heeds I A M T log := heeds_attempt hp
  refine heeds_seq hattempt fun result log hM => ?_
  refine heeds_seq (hlast result log hM) fun _ log hend => ?_
  cases result with
  | none => exact hend
  | some a => exact hend

theorem heeds_relabel {p : Prog κ σ α} {f : κ → ι} {A : AwaitCond ι σ}
    {Q : α → List (Call ι σ) → Prop} {log : List (Call ι σ)} {A' : AwaitCond κ σ}
    {Q' : α → List (Call κ σ) → Prop} {T' : List (Call κ σ) → Prop} {log' : List (Call κ σ)}
    (L : List (Call κ σ) → List (Call ι σ) → Prop) (h : p.Heeds I A' Q' T' log') (hL : L log' log)
    (hcons : ∀ log' log call, L log' log →
      L (call :: log') (⟨f call.site, call.before, call.fault⟩ :: log))
    (hA : ∀ log' log (site : Option κ) eff, L log' log → A' log' site eff → A log (site.map f) eff)
    (hret : ∀ a log' log, L log' log → Q' a log' → Q a log)
    (hthrown : ∀ log' log, L log' log → T' log' → T log) : (p.relabel f).Heeds I A Q T log := by
  induction p generalizing log log' with
  | ret a => exact hret a _ _ hL h
  | fail => exact hthrown _ _ hL h
  | sync eff next ih => exact ⟨hA _ _ none eff hL h.1, fun s hs => ih s (h.2 s hs) hL⟩
  | await site eff next caught ih ihc =>
    refine ⟨hA _ _ (some site) eff hL h.1, fun s hs => ?_⟩
    obtain ⟨hnext, hbefore, hafter⟩ := h.2 s hs
    exact ⟨ih s hnext (hcons _ _ ⟨site, s, .none⟩ hL),
      ihc hbefore (hcons _ _ ⟨site, s, .throwBefore⟩ hL),
      ihc hafter (hcons _ _ ⟨site, s, .throwAfter⟩ hL)⟩

/-- A part that leaves the view alone; `J` is what it keeps of the calls. -/
theorem heeds_of_frames {view : σ → γ} {p : Prog κ σ α} {f : κ → ι} (h : p.Frames view)
    (J : List (Call ι σ) → Prop) (hJ : J log)
    (hcons : ∀ log site s fault, J log → J (⟨f site, s, fault⟩ :: log))
    (hA : ∀ log (site : Option κ) eff, J log → (∀ s, view (eff s) = view s) →
      A log (site.map f) eff)
    (hret : ∀ a log, J log → Q a log) (hthrown : ∀ log, J log → T log) :
    (p.relabel f).Heeds I A Q T log := by
  induction p generalizing log with
  | ret a => exact hret a log hJ
  | fail => exact hthrown log hJ
  | sync eff next ih => exact ⟨hA log none eff hJ h.1, fun s _ => ih s (h.2 s) hJ⟩
  | await site eff next caught ih ihc =>
    refine ⟨hA log (some site) eff hJ h.1, fun s _ => ?_⟩
    exact ⟨ih s (h.2.1 s) (hcons log site s _ hJ), ihc h.2.2 (hcons log site s _ hJ),
      ihc h.2.2 (hcons log site s _ hJ)⟩

end Rules

end Prog

end Async
