import Utsuroi.Framework.CrashLogic

/-!
# Frames

What no effect of a program changes, and programs whose calls are labelled anew.
-/

namespace Async

namespace Prog

variable {ι κ σ α β γ δ : Type}

/-- No effect of the program changes what `view` shows. -/
def Frames (view : σ → γ) : Prog ι σ α → Prop
  | .ret _ => True
  | .fail => True
  | .sync eff next => (∀ s, view (eff s) = view s) ∧ ∀ s, (next s).Frames view
  | .await _ eff next caught =>
    (∀ s, view (eff s) = view s) ∧ (∀ s, (next s).Frames view) ∧ caught.Frames view

section Frames

variable {view : σ → γ}

@[simp] theorem frames_ret (a : α) : (Prog.ret a : Prog ι σ α).Frames view ↔ True := Iff.rfl

@[simp] theorem frames_fail : (Prog.fail : Prog ι σ α).Frames view ↔ True := Iff.rfl

@[simp] theorem frames_call {site : ι} {eff : σ → σ} {answer : σ → α} :
    (call site eff answer).Frames view ↔ ∀ s, view (eff s) = view s :=
  ⟨fun h => h.1, fun h => ⟨h, fun _ => trivial, trivial⟩⟩

@[simp] theorem frames_query {site : ι} {answer : σ → α} :
    (query site answer).Frames view ↔ True := by
  simp [query]

theorem frames_bind {p : Prog ι σ α} {f : α → Prog ι σ β} (hp : p.Frames view)
    (hf : ∀ a, (f a).Frames view) : (p >>= f).Frames view := by
  induction p with
  | ret a => exact hf a
  | fail => trivial
  | sync eff next ih => exact ⟨hp.1, fun s => ih s (hp.2 s)⟩
  | await site eff next caught ih ihc => exact ⟨hp.1, fun s => ih s (hp.2.1 s), ihc hp.2.2⟩

theorem frames_attempt {p : Prog ι σ α} (hp : p.Frames view) : p.attempt.Frames view := by
  induction p with
  | ret a => trivial
  | fail => trivial
  | sync eff next ih => exact ⟨hp.1, fun s => ih s (hp.2 s)⟩
  | await site eff next caught ih ihc => exact ⟨hp.1, fun s => ih s (hp.2.1 s), ihc hp.2.2⟩

theorem frames_tryCatch {p handler : Prog ι σ α} (hp : p.Frames view)
    (hhandler : handler.Frames view) : (p.tryCatch handler).Frames view := by
  refine frames_bind (frames_attempt hp) fun result => ?_
  cases result with
  | none => exact hhandler
  | some a => trivial

theorem frames_forM {xs : List β} {body : β → Prog ι σ PUnit}
    (h : ∀ x, (body x).Frames view) : (xs.forM body).Frames view := by
  induction xs with
  | nil => trivial
  | cons x xs ih => exact frames_bind (h x) fun _ => ih

theorem frames_foldlM {xs : List β} {body : δ → β → Prog ι σ δ} {acc : δ}
    (h : ∀ acc x, (body acc x).Frames view) : (xs.foldlM body acc).Frames view := by
  induction xs generalizing acc with
  | nil => trivial
  | cons x xs ih =>
    rw [List.foldlM_cons]
    exact frames_bind (h acc x) fun _ => ih

end Frames

theorem Frames.run {view : σ → γ} {p : Prog ι σ α} (h : p.Frames view) (s : σ) :
    view (p.run s).2 = view s := by
  induction p generalizing s with
  | ret a => rfl
  | fail => rfl
  | sync eff next ih => exact (ih s (h.2 s) (eff s)).trans (h.1 s)
  | await site eff next caught ih _ => exact (ih s (h.2.1 s) (eff s)).trans (h.1 s)

/-- What a view determines is left alone with it. -/
theorem Frames.comp {view : σ → γ} {p : Prog ι σ α} (h : p.Frames view) (g : γ → δ) :
    p.Frames (g ∘ view) := by
  induction p with
  | ret a => trivial
  | fail => trivial
  | sync eff next ih => exact ⟨fun s => congrArg g (h.1 s), fun s => ih s (h.2 s)⟩
  | await site eff next caught ih ihc =>
    exact ⟨fun s => congrArg g (h.1 s), fun s => ih s (h.2.1 s), ihc h.2.2⟩

/-- Wherever the program ends, the view is what it was. -/
theorem wp_of_frames {view : σ → γ} {A : CallCond ι σ} {Q : Post ι σ α} {p : Prog ι σ α}
    {log : List (Call ι σ)} {s : σ} {v : γ} (h : p.Frames view) (hv : view s = v)
    (hret : ∀ a log s, view s = v → Q.ret a log s)
    (hthrown : ∀ log s, view s = v → Q.thrown log s)
    (hkilled : ∀ log s, view s = v → Q.killed log s) : p.wp A Q log s := by
  induction p generalizing log s with
  | ret a => exact hret a log s hv
  | fail => exact hthrown log s hv
  | sync eff next ih => exact ih s (h.2 s) ((h.1 s).trans hv)
  | await site eff next caught ih ihc =>
    have hafter := (h.1 s).trans hv
    exact ⟨fun _ => ih s (h.2.1 s) hafter, fun _ => ihc h.2.2 hv, fun _ => ihc h.2.2 hafter,
      fun _ => hkilled _ _ hv, fun _ => hkilled _ _ hafter⟩

/-! ## Answers -/

/-- Whatever the program answers, in whatever states, is as `R` says. -/
def Answers (R : α → Prop) : Prog ι σ α → Prop
  | .ret a => R a
  | .fail => True
  | .sync _ next => ∀ s, (next s).Answers R
  | .await _ _ next caught => (∀ s, (next s).Answers R) ∧ caught.Answers R

section Answers

variable {R : β → Prop}

theorem answers_bind {p : Prog ι σ α} {f : α → Prog ι σ β} (h : ∀ a, (f a).Answers R) :
    (p >>= f).Answers R := by
  induction p with
  | ret a => exact h a
  | fail => trivial
  | sync eff next ih => exact ih
  | await site eff next caught ih ihc => exact ⟨ih, ihc⟩

theorem answers_bind_of_answers {S : α → Prop} {p : Prog ι σ α} {f : α → Prog ι σ β}
    (hp : p.Answers S) (h : ∀ a, S a → (f a).Answers R) : (p >>= f).Answers R := by
  induction p with
  | ret a => exact h a hp
  | fail => trivial
  | sync eff next ih => exact fun s => ih s (hp s)
  | await site eff next caught ih ihc => exact ⟨fun s => ih s (hp.1 s), ihc hp.2⟩

theorem frames_bind_of_answers {view : σ → γ} {S : α → Prop} {p : Prog ι σ α}
    {f : α → Prog ι σ β} (hp : p.Frames view) (hanswers : p.Answers S)
    (hf : ∀ a, S a → (f a).Frames view) : (p >>= f).Frames view := by
  induction p with
  | ret a => exact hf a hanswers
  | fail => trivial
  | sync eff next ih => exact ⟨hp.1, fun s => ih s (hp.2 s) (hanswers s)⟩
  | await site eff next caught ih ihc =>
    exact ⟨hp.1, fun s => ih s (hp.2.1 s) (hanswers.1 s), ihc hp.2.2 hanswers.2⟩

theorem answers_foldlM {xs : List δ} {body : β → δ → Prog ι σ β} {acc : β} (hinit : R acc)
    (hbody : ∀ acc x, R acc → (body acc x).Answers R) : (xs.foldlM body acc).Answers R := by
  induction xs generalizing acc with
  | nil => exact hinit
  | cons x xs ih =>
    rw [List.foldlM_cons]
    exact answers_bind_of_answers (hbody acc x hinit) fun acc hacc => ih hacc

theorem answers_attempt {p : Prog ι σ β} (hp : p.Answers R) :
    p.attempt.Answers fun result => ∀ a, result = some a → R a := by
  induction p with
  | ret a =>
    intro b hb
    exact Option.some.inj hb ▸ hp
  | fail => exact fun _ h => by contradiction
  | sync eff next ih => exact fun s => ih s (hp s)
  | await site eff next caught ih ihc => exact ⟨fun s => ih s (hp.1 s), ihc hp.2⟩

theorem answers_tryFinally {p : Prog ι σ β} {last : Prog ι σ Unit} (hp : p.Answers R) :
    (p.tryFinally last).Answers R := by
  refine answers_bind_of_answers (answers_attempt hp) fun result hresult => ?_
  refine answers_bind fun _ => ?_
  cases result with
  | none => trivial
  | some a => exact hresult a rfl

theorem Answers.wp {A : CallCond ι σ} {p : Prog ι σ β} (hp : p.Answers R)
    (log : List (Call ι σ)) (s : σ) :
    p.wp A ⟨fun a _ _ => R a, fun _ _ => True, fun _ _ => True⟩ log s := by
  induction p generalizing log s with
  | ret a => exact hp
  | fail => trivial
  | sync eff next ih => exact ih s (hp s) log _
  | await site eff next caught ih ihc =>
    exact ⟨fun _ => ih s (hp.1 s) _ _, fun _ => ihc hp.2 _ _, fun _ => ihc hp.2 _ _,
      fun _ => trivial, fun _ => trivial⟩

end Answers

/-! ## Labels -/

/-- The program with its calls labelled anew. -/
def relabel (f : ι → κ) : Prog ι σ α → Prog κ σ α
  | .ret a => .ret a
  | .fail => .fail
  | .sync eff next => .sync eff fun s => (next s).relabel f
  | .await site eff next caught =>
    .await (f site) eff (fun s => (next s).relabel f) (caught.relabel f)

theorem relabel_bind (f : ι → κ) (p : Prog ι σ α) (g : α → Prog ι σ β) :
    (p >>= g).relabel f = p.relabel f >>= fun a => (g a).relabel f := by
  induction p with
  | ret a => rfl
  | fail => rfl
  | sync eff next ih => exact congrArg (Prog.sync eff) (funext ih)
  | await site eff next caught ih ihc =>
    change Prog.await (f site) eff _ _ = Prog.await (f site) eff _ _
    exact congrArg₂ _ (funext ih) ihc

variable {A : CallCond κ σ} {Q : Post κ σ α} {f : ι → κ} {log : List (Call κ σ)} {s : σ}

/-- A program whose calls nothing disturbs. -/
theorem wp_relabel_of_returns {p : Prog ι σ α} {R : α → σ → Prop} (h : p.Returns s R)
    (hquiet : ∀ past site s fault, A past ⟨f site, s, fault⟩ → fault = .none)
    (hret : ∀ a log s, R a s → Q.ret a log s) : (p.relabel f).wp A Q log s := by
  induction p generalizing log s with
  | ret a => exact hret a log s h
  | fail => exact h.elim
  | sync eff next ih => exact ih s h
  | await site eff next caught ih _ =>
    refine ⟨fun _ => ih s h, ?_, ?_, ?_, ?_⟩
    all_goals
      intro hA
      have := hquiet _ _ _ _ hA
      contradiction

/-- A program that may throw but is not killed shows the same view wherever it stops. -/
theorem wp_relabel_of_frames {view : σ → γ} {p : Prog ι σ α} {v : γ} (h : p.Frames view)
    (hv : view s = v)
    (halive : ∀ past site s fault, A past ⟨f site, s, fault⟩ →
      fault ≠ .killBefore ∧ fault ≠ .killAfter)
    (hret : ∀ a log s, view s = v → Q.ret a log s)
    (hthrown : ∀ log s, view s = v → Q.thrown log s) : (p.relabel f).wp A Q log s := by
  induction p generalizing log s with
  | ret a => exact hret a log s hv
  | fail => exact hthrown log s hv
  | sync eff next ih => exact ih s (h.2 s) ((h.1 s).trans hv)
  | await site eff next caught ih ihc =>
    have hafter := (h.1 s).trans hv
    refine ⟨fun _ => ih s (h.2.1 s) hafter, fun _ => ihc h.2.2 hv, fun _ => ihc h.2.2 hafter,
      fun hA => ?_, fun hA => ?_⟩
    · exact absurd rfl (halive _ _ _ _ hA).1
    · exact absurd rfl (halive _ _ _ _ hA).2

/-! ## Frames with exceptions -/

/-- Only calls at the places `P` change what `view` shows. -/
def FramesBut (P : ι → Prop) (view : σ → γ) : Prog ι σ α → Prop
  | .ret _ => True
  | .fail => True
  | .sync eff next => (∀ s, view (eff s) = view s) ∧ ∀ s, (next s).FramesBut P view
  | .await site eff next caught =>
    (P site ∨ ∀ s, view (eff s) = view s) ∧ (∀ s, (next s).FramesBut P view) ∧
      caught.FramesBut P view

/-- A call at one of the places took effect. -/
def Touched (P : ι → Prop) (log : List (Call ι σ)) : Prop :=
  ∃ call ∈ log, P call.site ∧ ¬call.fault.Before

section FramesBut

variable {P : ι → Prop} {view : σ → γ}

theorem Touched.cons {log : List (Call ι σ)} (h : Touched P log) (call : Call ι σ) :
    Touched P (call :: log) := by
  obtain ⟨touched, hmem, htouched⟩ := h
  exact ⟨touched, List.mem_cons_of_mem _ hmem, htouched⟩

theorem framesBut_relabel {f : κ → ι} {p : Prog κ σ α} (h : p.Frames view) :
    (p.relabel f).FramesBut P view := by
  induction p with
  | ret a => trivial
  | fail => trivial
  | sync eff next ih => exact ⟨h.1, fun s => ih s (h.2 s)⟩
  | await site eff next caught ih ihc => exact ⟨Or.inr h.1, fun s => ih s (h.2.1 s), ihc h.2.2⟩

theorem framesBut_call {site : ι} {eff : σ → σ} {answer : σ → α}
    (h : P site ∨ ∀ s, view (eff s) = view s) : (call site eff answer).FramesBut P view :=
  ⟨h, fun _ => trivial, trivial⟩

theorem framesBut_bind {p : Prog ι σ α} {f : α → Prog ι σ β} (hp : p.FramesBut P view)
    (hf : ∀ a, (f a).FramesBut P view) : (p >>= f).FramesBut P view := by
  induction p with
  | ret a => exact hf a
  | fail => trivial
  | sync eff next ih => exact ⟨hp.1, fun s => ih s (hp.2 s)⟩
  | await site eff next caught ih ihc => exact ⟨hp.1, fun s => ih s (hp.2.1 s), ihc hp.2.2⟩

theorem framesBut_bind_of_answers {S : α → Prop} {p : Prog ι σ α} {f : α → Prog ι σ β}
    (hp : p.FramesBut P view) (hanswers : p.Answers S) (hf : ∀ a, S a → (f a).FramesBut P view) :
    (p >>= f).FramesBut P view := by
  induction p with
  | ret a => exact hf a hanswers
  | fail => trivial
  | sync eff next ih => exact ⟨hp.1, fun s => ih s (hp.2 s) (hanswers s)⟩
  | await site eff next caught ih ihc =>
    exact ⟨hp.1, fun s => ih s (hp.2.1 s) (hanswers.1 s), ihc hp.2.2 hanswers.2⟩

theorem framesBut_attempt {p : Prog ι σ α} (hp : p.FramesBut P view) :
    p.attempt.FramesBut P view := by
  induction p with
  | ret a => trivial
  | fail => trivial
  | sync eff next ih => exact ⟨hp.1, fun s => ih s (hp.2 s)⟩
  | await site eff next caught ih ihc => exact ⟨hp.1, fun s => ih s (hp.2.1 s), ihc hp.2.2⟩

theorem framesBut_tryCatch {p handler : Prog ι σ α} (hp : p.FramesBut P view)
    (hhandler : handler.FramesBut P view) : (p.tryCatch handler).FramesBut P view := by
  apply framesBut_bind (framesBut_attempt hp)
  intro result
  cases result with
  | none => exact hhandler
  | some a => trivial

theorem framesBut_tryFinally {p : Prog ι σ α} {last : Prog ι σ Unit} (hp : p.FramesBut P view)
    (hlast : last.FramesBut P view) : (p.tryFinally last).FramesBut P view := by
  apply framesBut_bind (framesBut_attempt hp)
  intro result
  apply framesBut_bind hlast
  intro _
  cases result <;> trivial

/-- Wherever the program ends, the view is what it was unless a call at the places took
effect. -/
theorem wp_of_framesBut {A : CallCond ι σ} {Q : Post ι σ α} {p : Prog ι σ α}
    {log : List (Call ι σ)} {s : σ} {v : γ} (h : p.FramesBut P view)
    (hv : view s = v ∨ Touched P log)
    (hret : ∀ a log s, view s = v ∨ Touched P log → Q.ret a log s)
    (hthrown : ∀ log s, view s = v ∨ Touched P log → Q.thrown log s)
    (hkilled : ∀ log s, view s = v ∨ Touched P log → Q.killed log s) : p.wp A Q log s := by
  induction p generalizing log s with
  | ret a => exact hret a log s hv
  | fail => exact hthrown log s hv
  | sync eff next ih =>
    refine ih s (h.2 s) ?_
    rw [h.1 s]
    exact hv
  | await site eff next caught ih ihc =>
    have hbefore : ∀ fault, view s = v ∨ Touched P (⟨site, s, fault⟩ :: log) :=
      fun fault => hv.imp id fun ht => ht.cons _
    have hafter : ∀ fault : Fault, ¬fault.Before →
        view (eff s) = v ∨ Touched P (⟨site, s, fault⟩ :: log) := by
      intro fault hfault
      rcases h.1 with hsite | hframe
      · exact Or.inr ⟨_, List.mem_cons_self, hsite, hfault⟩
      · rw [hframe s]
        exact hbefore fault
    have hthrowAfter := hafter .throwAfter fun h => h.not_after (Or.inl rfl)
    have hkillAfter := hafter .killAfter fun h => h.not_after (Or.inr rfl)
    exact ⟨fun _ => ih s (h.2.1 s) (hafter .none Fault.not_before_none),
      fun _ => ihc h.2.2 (hbefore _), fun _ => ihc h.2.2 hthrowAfter,
      fun _ => hkilled _ _ (hbefore _), fun _ => hkilled _ _ hkillAfter⟩

end FramesBut

end Prog

end Async
