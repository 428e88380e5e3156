import Mathlib.Data.List.Basic

/-!
# Asynchronous programs

A program over a shared state that stops at every awaited call.  At such a stop the call
may take effect and answer, throw before or after taking effect, or the program may be
killed before or after it.
-/

namespace Async

variable {ι σ α β : Type}

/-- What becomes of an awaited call. -/
inductive Fault
  | none
  | throwBefore
  | throwAfter
  | killBefore
  | killAfter
  deriving DecidableEq, Repr

/-- The program stops or throws without the call having taken effect. -/
def Fault.Before (fault : Fault) : Prop := fault = .throwBefore ∨ fault = .killBefore

/-- The program stops or throws although the call has taken effect. -/
def Fault.After (fault : Fault) : Prop := fault = .throwAfter ∨ fault = .killAfter

instance : DecidablePred Fault.Before := fun _ => inferInstanceAs (Decidable (_ ∨ _))

theorem Fault.not_before_none : ¬Fault.none.Before := by
  rintro (h | h) <;> contradiction

theorem Fault.not_after_none : ¬Fault.none.After := by
  rintro (h | h) <;> contradiction

theorem Fault.Before.not_after {fault : Fault} (h : fault.Before) : ¬fault.After := by
  rcases h with rfl | rfl <;> rintro (h | h) <;> contradiction

theorem Fault.After.not_before {fault : Fault} (h : fault.After) : ¬fault.Before :=
  fun hbefore => hbefore.not_after h

/-- Programs with awaited calls labelled by `ι` over the state `σ`.  The continuation of a
call sees the state the call found; `caught` is what runs when the call throws. -/
inductive Prog (ι σ α : Type)
  | ret (a : α)
  | fail
  | sync (eff : σ → σ) (next : σ → Prog ι σ α)
  | await (site : ι) (eff : σ → σ) (next : σ → Prog ι σ α) (caught : Prog ι σ α)

namespace Prog

def bind : Prog ι σ α → (α → Prog ι σ β) → Prog ι σ β
  | .ret a, f => f a
  | .fail, _ => .fail
  | .sync eff next, f => .sync eff fun s => (next s).bind f
  | .await site eff next caught, f => .await site eff (fun s => (next s).bind f) (caught.bind f)

instance : Monad (Prog ι σ) where
  pure := .ret
  bind := .bind

/-- Runs `p` and tells how it ended: `none` when it threw. -/
def attempt : Prog ι σ α → Prog ι σ (Option α)
  | .ret a => .ret (some a)
  | .fail => .ret none
  | .sync eff next => .sync eff fun s => (next s).attempt
  | .await site eff next caught => .await site eff (fun s => (next s).attempt) caught.attempt

/-- `try p catch handler` -/
def tryCatch (p handler : Prog ι σ α) : Prog ι σ α :=
  p.attempt >>= fun
    | some a => .ret a
    | none => handler

/-- `try p finally last` -/
def tryFinally (p : Prog ι σ α) (last : Prog ι σ Unit) : Prog ι σ α :=
  p.attempt >>= fun result => last >>= fun _ =>
    match result with
    | some a => .ret a
    | none => .fail

/-- One awaited call whose answer depends on the state it finds. -/
def call (site : ι) (eff : σ → σ) (answer : σ → α) : Prog ι σ α :=
  .await site eff (fun s => .ret (answer s)) .fail

/-- An awaited call that changes nothing. -/
def query (site : ι) (answer : σ → α) : Prog ι σ α := call site id answer

/-- What the program sees between its awaits. -/
def look (view : σ → α) : Prog ι σ α := .sync id fun s => .ret (view s)

/-- An effect of the program's own between its awaits. -/
def act (eff : σ → σ) : Prog ι σ PUnit := .sync eff fun _ => .ret ⟨⟩

@[simp] theorem ret_bind (a : α) (f : α → Prog ι σ β) : (Prog.ret a >>= f) = f a := rfl

@[simp] theorem pure_eq (a : α) : (pure a : Prog ι σ α) = .ret a := rfl

@[simp] theorem fail_bind (f : α → Prog ι σ β) : (Prog.fail >>= f) = .fail := rfl

/-! ## Executions -/

/-- A call that was awaited: where, what state it found and what became of it. -/
structure Call (ι σ : Type) where
  site : ι
  before : σ
  fault : Fault

inductive Exit (α : Type)
  | ok (a : α)
  | thrown
  | killed
  deriving DecidableEq, Repr

/-- How an execution ended; `log` is the calls awaited, newest first. -/
structure Outcome (ι σ α : Type) where
  log : List (Call ι σ)
  exit : Exit α
  state : σ

/-- The execution whose calls meet the faults `faults`, the later ones none. -/
def exec : Prog ι σ α → List Fault → List (Call ι σ) → σ → Outcome ι σ α
  | .ret a, _, log, s => ⟨log, .ok a, s⟩
  | .fail, _, log, s => ⟨log, .thrown, s⟩
  | .sync eff next, faults, log, s => (next s).exec faults log (eff s)
  | .await site eff next caught, faults, log, s =>
    let fault := faults.headD .none
    let log := ⟨site, s, fault⟩ :: log
    match fault with
    | .none => (next s).exec faults.tail log (eff s)
    | .throwBefore => caught.exec faults.tail log s
    | .throwAfter => caught.exec faults.tail log (eff s)
    | .killBefore => ⟨log, .killed, s⟩
    | .killAfter => ⟨log, .killed, eff s⟩

/-- The undisturbed execution: its answer, `none` when it throws of itself, and its state. -/
def run : Prog ι σ α → σ → Option α × σ
  | .ret a, s => (some a, s)
  | .fail, s => (none, s)
  | .sync eff next, s => (next s).run (eff s)
  | .await _ eff next _, s => (next s).run (eff s)

def Exit.ofRun : Option α → Exit α
  | some a => .ok a
  | none => .thrown

theorem exec_nil (p : Prog ι σ α) (log : List (Call ι σ)) (s : σ) :
    (p.exec [] log s).exit = .ofRun (p.run s).1 ∧ (p.exec [] log s).state = (p.run s).2 := by
  induction p generalizing log s with
  | ret a => exact ⟨rfl, rfl⟩
  | fail => exact ⟨rfl, rfl⟩
  | sync eff next ih => exact ih s log (eff s)
  | await site eff next caught ih _ => exact ih s _ (eff s)

@[simp] theorem run_ret (a : α) (s : σ) : (Prog.ret a : Prog ι σ α).run s = (some a, s) := rfl

@[simp] theorem run_fail (s : σ) : (Prog.fail : Prog ι σ α).run s = (none, s) := rfl

@[simp] theorem run_call (site : ι) (eff : σ → σ) (answer : σ → α) (s : σ) :
    (call site eff answer).run s = (some (answer s), eff s) := rfl

@[simp] theorem run_query (site : ι) (answer : σ → α) (s : σ) :
    (query site answer).run s = (some (answer s), s) := rfl

theorem run_bind (p : Prog ι σ α) (f : α → Prog ι σ β) (s : σ) :
    (p >>= f).run s =
      match p.run s with
      | (some a, s') => (f a).run s'
      | (none, s') => (none, s') := by
  induction p generalizing s with
  | ret a => rfl
  | fail => rfl
  | sync eff next ih => exact ih s (eff s)
  | await site eff next caught ih _ => exact ih s (eff s)

theorem run_bind_of_run {p : Prog ι σ α} {f : α → Prog ι σ β} {s s' : σ} {a : α}
    (h : p.run s = (some a, s')) : (p >>= f).run s = (f a).run s' := by
  rw [run_bind, h]

theorem run_attempt (p : Prog ι σ α) (s : σ) :
    p.attempt.run s = (some (p.run s).1, (p.run s).2) := by
  induction p generalizing s with
  | ret a => rfl
  | fail => rfl
  | sync eff next ih => exact ih s (eff s)
  | await site eff next caught ih _ => exact ih s (eff s)

theorem run_attempt_of_run {p : Prog ι σ α} {s s' : σ} {a : α} (h : p.run s = (some a, s')) :
    p.attempt.run s = (some (some a), s') := by
  rw [run_attempt, h]

theorem run_tryCatch_of_run {p handler : Prog ι σ α} {s s' : σ} {a : α}
    (h : p.run s = (some a, s')) : (p.tryCatch handler).run s = (some a, s') := by
  unfold tryCatch
  rw [run_bind_of_run (run_attempt_of_run h)]
  rfl

/-- A loop whose rounds come to `f` comes to the fold of `f`. -/
theorem run_foldlM {γ : Type} {xs : List β} {body : γ → β → Prog ι σ γ}
    (f : γ × σ → β → γ × σ) (I : σ → Prop)
    (hbody : ∀ x ∈ xs, ∀ st : γ × σ, I st.2 →
      (body st.1 x).run st.2 = (some (f st x).1, (f st x).2) ∧ I (f st x).2)
    (st : γ × σ) (hinit : I st.2) :
    (xs.foldlM body st.1).run st.2 = (some (xs.foldl f st).1, (xs.foldl f st).2) ∧
      I (xs.foldl f st).2 := by
  induction xs generalizing st with
  | nil => exact ⟨rfl, hinit⟩
  | cons x xs ih =>
    obtain ⟨hrun, hnext⟩ := hbody x List.mem_cons_self st hinit
    rw [List.foldlM_cons, run_bind_of_run hrun, List.foldl_cons]
    exact ih (fun y hy => hbody y (List.mem_cons_of_mem _ hy)) _ hnext

/-- A loop whose rounds each come to an effect comes to all of them. -/
theorem run_forM {xs : List β} {body : β → Prog ι σ PUnit} (f : σ → β → σ)
    (hbody : ∀ x ∈ xs, ∀ s, (body x).run s = (some ⟨⟩, f s x)) (s : σ) :
    (xs.forM body).run s = (some ⟨⟩, xs.foldl f s) := by
  induction xs generalizing s with
  | nil => rfl
  | cons x xs ih =>
    have hrun := hbody x List.mem_cons_self s
    have hrest := ih (fun y hy => hbody y (List.mem_cons_of_mem _ hy)) (f s x)
    exact (run_bind_of_run hrun).trans hrest

/-! ## Undisturbed runs -/

/-- Undisturbed, `p` returns, and its answer and state are as `R` says. -/
def Returns (p : Prog ι σ α) (s : σ) (R : α → σ → Prop) : Prop :=
  match p.run s with
  | (some a, s') => R a s'
  | (none, _) => False

section Returns

variable {p : Prog ι σ α} {s : σ} {R R' : α → σ → Prop}

@[simp] theorem returns_ret {a : α} : (Prog.ret a : Prog ι σ α).Returns s R ↔ R a s := Iff.rfl

@[simp] theorem returns_fail : (Prog.fail : Prog ι σ α).Returns s R ↔ False := Iff.rfl

@[simp] theorem returns_call {site : ι} {eff : σ → σ} {answer : σ → α} :
    (call site eff answer).Returns s R ↔ R (answer s) (eff s) := Iff.rfl

@[simp] theorem returns_query {site : ι} {answer : σ → α} :
    (query site answer).Returns s R ↔ R (answer s) s := Iff.rfl

@[simp] theorem returns_bind {f : α → Prog ι σ β} {R : β → σ → Prop} :
    (p >>= f).Returns s R ↔ p.Returns s fun a s' => (f a).Returns s' R := by
  unfold Returns
  rw [run_bind]
  rcases p.run s with ⟨_ | a, s'⟩ <;> rfl

theorem Returns.mono (h : p.Returns s R) (himp : ∀ a s', R a s' → R' a s') : p.Returns s R' := by
  unfold Returns at h ⊢
  rcases hrun : p.run s with ⟨_ | a, s'⟩
  · rw [hrun] at h
    exact h
  · rw [hrun] at h
    exact himp a s' h

theorem returns_iff : p.Returns s R ↔ ∃ a s', p.run s = (some a, s') ∧ R a s' := by
  unfold Returns
  rcases p.run s with ⟨_ | a, s'⟩ <;> simp

theorem returns_forM {xs : List β} {body : β → Prog ι σ PUnit} (I : σ → Prop) (hinit : I s)
    (hbody : ∀ x ∈ xs, ∀ s, I s → (body x).Returns s fun _ => I) :
    (xs.forM body).Returns s fun _ => I := by
  induction xs generalizing s with
  | nil => exact hinit
  | cons x xs ih =>
    refine returns_bind.mpr ((hbody x List.mem_cons_self s hinit).mono ?_)
    intro _ s' hs'
    exact ih hs' fun y hy => hbody y (List.mem_cons_of_mem _ hy)

theorem returns_foldlM {γ : Type} {xs : List β} {body : γ → β → Prog ι σ γ} {acc : γ}
    (I : γ → σ → Prop) (hinit : I acc s)
    (hbody : ∀ x ∈ xs, ∀ acc s, I acc s → (body acc x).Returns s I) :
    (xs.foldlM body acc).Returns s I := by
  induction xs generalizing acc s with
  | nil => exact hinit
  | cons x xs ih =>
    rw [List.foldlM_cons]
    refine returns_bind.mpr ((hbody x List.mem_cons_self acc s hinit).mono ?_)
    intro acc s' hs'
    exact ih hs' fun y hy => hbody y (List.mem_cons_of_mem _ hy)

end Returns

end Prog

end Async
