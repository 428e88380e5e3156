import Utsuroi.Framework.Program

/-!
# Reasoning about interrupted programs

`p.wp A Q log s`: however the calls of `p` go, as long as each of them meets `A`, the
program ends as `Q` says.  Conditions and postconditions may look at the calls awaited so
far.
-/

namespace Async

variable {ι σ α β : Type}

/-- A condition on a call: the calls before it and the call itself. -/
abbrev CallCond (ι σ : Type) := List (Prog.Call ι σ) → Prog.Call ι σ → Prop

/-- The condition every call meets. -/
def anyCall : CallCond ι σ := fun _ _ => True

/-- Every call of the log meets `A`. -/
def LogMeets (A : CallCond ι σ) : List (Prog.Call ι σ) → Prop
  | [] => True
  | call :: past => A past call ∧ LogMeets A past

theorem LogMeets.older {A : CallCond ι σ} {newer log : List (Prog.Call ι σ)}
    (h : LogMeets A (newer ++ log)) : LogMeets A log := by
  induction newer with
  | nil => exact h
  | cons call newer ih => exact ih h.2

theorem logMeets_anyCall (log : List (Prog.Call ι σ)) : LogMeets anyCall log := by
  induction log with
  | nil => trivial
  | cons call log ih => exact ⟨trivial, ih⟩

theorem logMeets_of_forall {P : Prog.Call ι σ → Prop} {log : List (Prog.Call ι σ)}
    (h : ∀ call ∈ log, P call) : LogMeets (fun _ => P) log := by
  induction log with
  | nil => trivial
  | cons call log ih =>
    exact ⟨h call List.mem_cons_self, ih fun c hc => h c (List.mem_cons_of_mem _ hc)⟩

/-- What a program is to establish for each way it may end. -/
structure Post (ι σ α : Type) where
  ret : α → List (Prog.Call ι σ) → σ → Prop
  thrown : List (Prog.Call ι σ) → σ → Prop
  killed : List (Prog.Call ι σ) → σ → Prop

def Post.Holds (Q : Post ι σ α) (outcome : Prog.Outcome ι σ α) : Prop :=
  match outcome.exit with
  | .ok a => Q.ret a outcome.log outcome.state
  | .thrown => Q.thrown outcome.log outcome.state
  | .killed => Q.killed outcome.log outcome.state

/-- One demand on returns and one on both kinds of interruption. -/
def Post.orStop (ret : α → List (Prog.Call ι σ) → σ → Prop)
    (stop : List (Prog.Call ι σ) → σ → Prop) : Post ι σ α := ⟨ret, stop, stop⟩

/-- The same demand on interrupted runs, another one on returns. -/
def Post.onRet (Q : Post ι σ α) (ret : β → List (Prog.Call ι σ) → σ → Prop) : Post ι σ β :=
  ⟨ret, Q.thrown, Q.killed⟩

namespace Prog

def wp (A : CallCond ι σ) (Q : Post ι σ α) : Prog ι σ α → List (Call ι σ) → σ → Prop
  | .ret a, log, s => Q.ret a log s
  | .fail, log, s => Q.thrown log s
  | .sync eff next, log, s => (next s).wp A Q log (eff s)
  | .await site eff next caught, log, s =>
    (A log ⟨site, s, .none⟩ → (next s).wp A Q (⟨site, s, .none⟩ :: log) (eff s)) ∧
    (A log ⟨site, s, .throwBefore⟩ → caught.wp A Q (⟨site, s, .throwBefore⟩ :: log) s) ∧
    (A log ⟨site, s, .throwAfter⟩ → caught.wp A Q (⟨site, s, .throwAfter⟩ :: log) (eff s)) ∧
    (A log ⟨site, s, .killBefore⟩ → Q.killed (⟨site, s, .killBefore⟩ :: log) s) ∧
    (A log ⟨site, s, .killAfter⟩ → Q.killed (⟨site, s, .killAfter⟩ :: log) (eff s))

variable {A : CallCond ι σ} {Q R : Post ι σ α} {log : List (Call ι σ)} {s : σ}

/-- Executions only add to the log. -/
theorem exec_log (p : Prog ι σ α) (faults : List Fault) (log : List (Call ι σ)) (s : σ) :
    ∃ calls, (p.exec faults log s).log = calls ++ log := by
  induction p generalizing faults log s with
  | ret a => exact ⟨[], rfl⟩
  | fail => exact ⟨[], rfl⟩
  | sync eff next ih => exact ih s faults log (eff s)
  | await site eff next caught ih ihc =>
    have hcons : ∀ {o : Outcome ι σ α} {call : Call ι σ},
        (∃ calls, o.log = calls ++ call :: log) → ∃ calls, o.log = calls ++ log := by
      rintro o call ⟨calls, h⟩
      exact ⟨calls ++ [call], by simp [h]⟩
    simp only [exec]
    cases faults.headD .none with
    | none => exact hcons (ih s _ _ _)
    | throwBefore => exact hcons (ihc _ _ _)
    | throwAfter => exact hcons (ihc _ _ _)
    | killBefore => exact hcons ⟨[], rfl⟩
    | killAfter => exact hcons ⟨[], rfl⟩

private theorem exec_call_meets {p : Prog ι σ α} {faults : List Fault} {call : Call ι σ}
    (h : LogMeets A (p.exec faults (call :: log) s).log) : A log call := by
  obtain ⟨calls, hlog⟩ := exec_log p faults (call :: log) s
  rw [hlog] at h
  exact h.older.1

/-- An execution whose calls meet the condition ends as the precondition promises. -/
theorem wp_exec {p : Prog ι σ α} {faults : List Fault} (h : p.wp A Q log s)
    (hlog : LogMeets A (p.exec faults log s).log) : Q.Holds (p.exec faults log s) := by
  induction p generalizing faults log s with
  | ret a => exact h
  | fail => exact h
  | sync eff next ih => exact ih s h hlog
  | await site eff next caught ih ihc =>
    obtain ⟨hnone, hthrowBefore, hthrowAfter, hkillBefore, hkillAfter⟩ := h
    simp only [exec] at hlog ⊢
    cases hfault : faults.headD .none with
    | none =>
      rw [hfault] at hlog
      exact ih s (hnone (exec_call_meets hlog)) hlog
    | throwBefore =>
      rw [hfault] at hlog
      exact ihc (hthrowBefore (exec_call_meets hlog)) hlog
    | throwAfter =>
      rw [hfault] at hlog
      exact ihc (hthrowAfter (exec_call_meets hlog)) hlog
    | killBefore =>
      rw [hfault] at hlog
      exact hkillBefore hlog.1
    | killAfter =>
      rw [hfault] at hlog
      exact hkillAfter hlog.1

theorem wp_exec_any {p : Prog ι σ α} (faults : List Fault) (h : p.wp anyCall Q log s) :
    Q.Holds (p.exec faults log s) :=
  wp_exec h (logMeets_anyCall _)

/-! ## Rules -/

theorem wp_call {site : ι} {eff : σ → σ} {answer : σ → α}
    (hret : A log ⟨site, s, .none⟩ → Q.ret (answer s) (⟨site, s, .none⟩ :: log) (eff s))
    (hbefore : ∀ fault, fault.Before → A log ⟨site, s, fault⟩ →
      Q.thrown (⟨site, s, fault⟩ :: log) s ∧ Q.killed (⟨site, s, fault⟩ :: log) s)
    (hafter : ∀ fault, fault.After → A log ⟨site, s, fault⟩ →
      Q.thrown (⟨site, s, fault⟩ :: log) (eff s) ∧ Q.killed (⟨site, s, fault⟩ :: log) (eff s)) :
    (call site eff answer).wp A Q log s := by
  refine ⟨hret, fun hA => ?_, fun hA => ?_, fun hA => ?_, fun hA => ?_⟩
  · exact (hbefore _ (Or.inl rfl) hA).1
  · exact (hafter _ (Or.inl rfl) hA).1
  · exact (hbefore _ (Or.inr rfl) hA).2
  · exact (hafter _ (Or.inr rfl) hA).2

/-- A call under one demand on interruptions. -/
theorem wp_call_orStop {site : ι} {eff : σ → σ} {answer : σ → α}
    {ret : α → List (Call ι σ) → σ → Prop} {stop : List (Call ι σ) → σ → Prop}
    (hret : A log ⟨site, s, .none⟩ → ret (answer s) (⟨site, s, .none⟩ :: log) (eff s))
    (hbefore : ∀ fault, fault.Before → A log ⟨site, s, fault⟩ → stop (⟨site, s, fault⟩ :: log) s)
    (hafter : ∀ fault, fault.After → A log ⟨site, s, fault⟩ →
      stop (⟨site, s, fault⟩ :: log) (eff s)) :
    (call site eff answer).wp A (.orStop ret stop) log s :=
  wp_call hret (fun fault hf hA => ⟨hbefore fault hf hA, hbefore fault hf hA⟩)
    fun fault hf hA => ⟨hafter fault hf hA, hafter fault hf hA⟩

theorem wp_mono {p : Prog ι σ α} (h : p.wp A Q log s)
    (hret : ∀ a log s, Q.ret a log s → R.ret a log s)
    (hthrown : ∀ log s, Q.thrown log s → R.thrown log s)
    (hkilled : ∀ log s, Q.killed log s → R.killed log s) : p.wp A R log s := by
  induction p generalizing log s with
  | ret a => exact hret _ _ _ h
  | fail => exact hthrown _ _ h
  | sync eff next ih => exact ih s h
  | await site eff next caught ih ihc =>
    obtain ⟨hnone, hthrowBefore, hthrowAfter, hkillBefore, hkillAfter⟩ := h
    refine ⟨fun hA => ih s (hnone hA), fun hA => ihc (hthrowBefore hA),
      fun hA => ihc (hthrowAfter hA), fun hA => hkilled _ _ (hkillBefore hA),
      fun hA => hkilled _ _ (hkillAfter hA)⟩

/-- The rule of consequence for returns. -/
theorem wp_ret_mono {p : Prog ι σ α} (h : p.wp A Q log s)
    (hret : ∀ a log s, Q.ret a log s → R.ret a log s)
    (hthrown : Q.thrown = R.thrown) (hkilled : Q.killed = R.killed) : p.wp A R log s :=
  wp_mono h hret (fun _ _ h => hthrown ▸ h) (fun _ _ h => hkilled ▸ h)

theorem wp_bind {p : Prog ι σ α} {f : α → Prog ι σ β} {Q : Post ι σ β} :
    (p >>= f).wp A Q log s ↔ p.wp A (Q.onRet fun a log s => (f a).wp A Q log s) log s := by
  induction p generalizing log s with
  | ret a => exact Iff.rfl
  | fail => exact Iff.rfl
  | sync eff next ih => exact ih s
  | await site eff next caught ih ihc =>
    exact and_congr (imp_congr_right fun _ => ih s)
      (and_congr (imp_congr_right fun _ => ihc)
        (and_congr (imp_congr_right fun _ => ihc) Iff.rfl))

/-- Sequencing through an intermediate condition. -/
theorem wp_seq {p : Prog ι σ α} {f : α → Prog ι σ β} {Q : Post ι σ β}
    {M : α → List (Call ι σ) → σ → Prop} (hp : p.wp A (Q.onRet M) log s)
    (hf : ∀ a log s, M a log s → (f a).wp A Q log s) : (p >>= f).wp A Q log s :=
  wp_bind.mpr (wp_ret_mono hp hf rfl rfl)

theorem wp_attempt {p : Prog ι σ α} {Q : Post ι σ (Option α)} :
    p.attempt.wp A Q log s ↔
      p.wp A ⟨fun a => Q.ret (some a), Q.ret none, Q.killed⟩ log s := by
  induction p generalizing log s with
  | ret a => exact Iff.rfl
  | fail => exact Iff.rfl
  | sync eff next ih => exact ih s
  | await site eff next caught ih ihc =>
    exact and_congr (imp_congr_right fun _ => ih s)
      (and_congr (imp_congr_right fun _ => ihc)
        (and_congr (imp_congr_right fun _ => ihc) Iff.rfl))

theorem wp_tryCatch {p handler : Prog ι σ α} :
    (p.tryCatch handler).wp A Q log s ↔
      p.wp A ⟨Q.ret, fun log s => handler.wp A Q log s, Q.killed⟩ log s := by
  simp only [tryCatch, wp_bind, wp_attempt]
  exact Iff.rfl

theorem wp_tryFinally {p : Prog ι σ α} {last : Prog ι σ Unit} :
    (p.tryFinally last).wp A Q log s ↔
      p.wp A ⟨fun a log s => last.wp A ⟨fun _ => Q.ret a, Q.thrown, Q.killed⟩ log s,
        fun log s => last.wp A ⟨fun _ => Q.thrown, Q.thrown, Q.killed⟩ log s, Q.killed⟩ log s := by
  simp only [tryFinally, wp_bind, wp_attempt]
  exact Iff.rfl

/-- The loop rule: an invariant on what the loop has seen so far. -/
theorem wp_forM {xs : List β} {body : β → Prog ι σ PUnit} {Q : Post ι σ PUnit}
    (I : List β → List β → List (Call ι σ) → σ → Prop) (hinit : I [] xs log s)
    (hbody : ∀ done x todo log s, done ++ x :: todo = xs → I done (x :: todo) log s →
      (body x).wp A (Q.onRet fun _ log s => I (done ++ [x]) todo log s) log s)
    (hlast : ∀ log s, I xs [] log s → Q.ret ⟨⟩ log s) : (xs.forM body).wp A Q log s := by
  have hloop : ∀ done todo log s, done ++ todo = xs → I done todo log s →
      (todo.forM body).wp A Q log s := by
    intro done todo
    induction todo generalizing done with
    | nil =>
      intro log s hxs hI
      rw [List.append_nil] at hxs
      exact hlast log s (hxs ▸ hI)
    | cons x todo ih =>
      intro log s hxs hI
      refine wp_seq (hbody done x todo log s hxs hI) ?_
      intro _ log s hI
      exact ih (done ++ [x]) log s (by simp [hxs]) hI
  exact hloop [] xs log s rfl hinit

end Prog

end Async
