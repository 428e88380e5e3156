import Utsuroi.Framework.Frame

/-!
# Where an interrupted program may stop

A program without handlers stops in a state that its undisturbed run comes by: what a crash
leaves is read off undisturbed runs alone.
-/

namespace Async

namespace Prog

variable {ι σ α β γ : Type}

/-- No call of the program is awaited under a handler. -/
def Unhandled : Prog ι σ α → Prop
  | .ret _ => True
  | .fail => True
  | .sync _ next => ∀ s, (next s).Unhandled
  | .await _ _ next caught => caught = .fail ∧ ∀ s, (next s).Unhandled

/-- The undisturbed run from `s` comes by `s'`. -/
def Passes : Prog ι σ α → σ → σ → Prop
  | .ret _, s, s' => s' = s
  | .fail, s, s' => s' = s
  | .sync eff next, s, s' => (next s).Passes (eff s) s'
  | .await _ eff next _, s, s' => s' = s ∨ s' = eff s ∨ (next s).Passes (eff s) s'

section Unhandled

theorem unhandled_call {site : ι} {eff : σ → σ} {answer : σ → α} :
    (call site eff answer).Unhandled := ⟨rfl, fun _ => trivial⟩

theorem unhandled_query {site : ι} {answer : σ → α} : (query site answer).Unhandled :=
  unhandled_call

theorem unhandled_bind {p : Prog ι σ α} {f : α → Prog ι σ β} (hp : p.Unhandled)
    (hf : ∀ a, (f a).Unhandled) : (p >>= f).Unhandled := by
  induction p with
  | ret a => exact hf a
  | fail => trivial
  | sync eff next ih => exact fun s => ih s (hp s)
  | await site eff next caught ih _ =>
    obtain ⟨rfl, hnext⟩ := hp
    exact ⟨rfl, fun s => ih s (hnext s)⟩

theorem unhandled_forM {xs : List β} {body : β → Prog ι σ PUnit}
    (h : ∀ x, (body x).Unhandled) : (xs.forM body).Unhandled := by
  induction xs with
  | nil => trivial
  | cons x xs ih => exact unhandled_bind (h x) fun _ => ih

theorem unhandled_foldlM {xs : List β} {body : γ → β → Prog ι σ γ} {acc : γ}
    (h : ∀ acc x, (body acc x).Unhandled) : (xs.foldlM body acc).Unhandled := by
  induction xs generalizing acc with
  | nil => trivial
  | cons x xs ih =>
    rw [List.foldlM_cons]
    exact unhandled_bind (h acc x) fun _ => ih

end Unhandled

/-- Whatever the faults, the execution stops where the undisturbed run comes by. -/
theorem exec_passes {p : Prog ι σ α} (hp : p.Unhandled) (faults : List Fault)
    (log : List (Call ι σ)) (s : σ) : p.Passes s (p.exec faults log s).state := by
  induction p generalizing faults log s with
  | ret a => rfl
  | fail => rfl
  | sync eff next ih => exact ih s (hp s) faults log (eff s)
  | await site eff next caught ih _ =>
    obtain ⟨rfl, hnext⟩ := hp
    simp only [exec]
    cases faults.headD .none with
    | none => exact Or.inr (Or.inr (ih s (hnext s) _ _ _))
    | throwBefore => exact Or.inl rfl
    | throwAfter => exact Or.inr (Or.inl rfl)
    | killBefore => exact Or.inl rfl
    | killAfter => exact Or.inr (Or.inl rfl)

section Passes

variable {p : Prog ι σ α} {s s' : σ}

@[simp] theorem passes_ret {a : α} : (Prog.ret a : Prog ι σ α).Passes s s' ↔ s' = s := Iff.rfl

theorem passes_call {site : ι} {eff : σ → σ} {answer : σ → α} :
    (call site eff answer).Passes s s' ↔ s' = s ∨ s' = eff s :=
  or_congr_right or_self_iff

theorem passes_query {site : ι} {answer : σ → α} :
    (query site answer).Passes s s' ↔ s' = s :=
  passes_call.trans or_self_iff

/-- A run comes by what its first part comes by, and then by what the rest does. -/
theorem passes_bind {f : α → Prog ι σ β} (h : (p >>= f).Passes s s') :
    p.Passes s s' ∨ ∃ a s₁, p.run s = (some a, s₁) ∧ (f a).Passes s₁ s' := by
  induction p generalizing s with
  | ret a => exact Or.inr ⟨a, s, rfl, h⟩
  | fail => exact Or.inl h
  | sync eff next ih => exact ih s h
  | await site eff next caught ih _ =>
    rcases h with h | h | h
    · exact Or.inl (Or.inl h)
    · exact Or.inl (Or.inr (Or.inl h))
    · have hrest := ih s h
      rcases hrest with hnext | hnext
      · exact Or.inl (Or.inr (Or.inr hnext))
      · exact Or.inr hnext

/-- The first part of a run that returns is known by its run. -/
theorem passes_bind_of_run {f : α → Prog ι σ β} {a : α} {s₁ : σ} (hrun : p.run s = (some a, s₁))
    (h : (p >>= f).Passes s s') : p.Passes s s' ∨ (f a).Passes s₁ s' := by
  rcases passes_bind h with hp | ⟨b, s₂, hrun', hf⟩
  · exact Or.inl hp
  · rw [hrun] at hrun'
    cases hrun'
    exact Or.inr hf

/-- What no effect changes is the same wherever the run comes by. -/
theorem Frames.passes {view : σ → γ} (hp : p.Frames view) (h : p.Passes s s') :
    view s' = view s := by
  induction p generalizing s with
  | ret a => exact congrArg view h
  | fail => exact congrArg view h
  | sync eff next ih => exact (ih s (hp.2 s) h).trans (hp.1 s)
  | await site eff next caught ih _ =>
    rcases h with rfl | rfl | h
    · rfl
    · exact hp.1 s
    · exact (ih s (hp.2.1 s) h).trans (hp.1 s)

/-- A loop is passed in one of its rounds, all rounds before it done, or at its end. -/
theorem passes_forM {xs : List β} {body : β → Prog ι σ PUnit} (f : σ → β → σ)
    (hrun : ∀ x ∈ xs, ∀ s, (body x).run s = (some ⟨⟩, f s x)) (h : (xs.forM body).Passes s s') :
    s' = xs.foldl f s ∨
      ∃ done x todo, xs = done ++ x :: todo ∧ (body x).Passes (done.foldl f s) s' := by
  induction xs generalizing s with
  | nil => exact Or.inl h
  | cons x xs ih =>
    have hfirst := hrun x List.mem_cons_self s
    rcases passes_bind_of_run hfirst h with hbody | hrest
    · exact Or.inr ⟨[], x, xs, rfl, hbody⟩
    · have hlater := ih (fun y hy => hrun y (List.mem_cons_of_mem _ hy)) hrest
      rcases hlater with hend | ⟨done, y, todo, hxs, hbody⟩
      · exact Or.inl hend
      · exact Or.inr ⟨x :: done, y, todo, congrArg (x :: ·) hxs, hbody⟩

end Passes

end Prog

end Async
