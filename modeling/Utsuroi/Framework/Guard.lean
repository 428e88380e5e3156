import Utsuroi.Framework.Frame

/-!
# Guarded calls

A guard reads the calls of a program one after the other and says which call may come next.
-/

namespace Async

variable {ι κ σ τ α β γ : Type}

/-- What is kept in mind of the calls, and which call is admitted then. -/
structure Guard (ι τ : Type) where
  note : ι → τ → τ
  admits : ι → τ → Prop

namespace Guard

variable (G : Guard ι τ)

/-- What the guard has in mind after the calls of the log. -/
def noted (t : τ) : List (Prog.Call ι σ) → τ
  | [] => t
  | call :: past => G.note call.site (noted t past)

/-- The condition on calls to be admitted. -/
def cond (t : τ) : CallCond ι σ := fun past call => G.admits call.site (G.noted t past)

/-- The guard for programs with other labels. -/
def comap (f : κ → ι) : Guard κ τ where
  note site := G.note (f site)
  admits site := G.admits (f site)

/-- The guard admits the call and keeps nothing in mind of it. -/
def Ignores (site : ι) : Prop := ∀ t, G.note site t = t ∧ G.admits site t

end Guard

theorem logMeets_iff {A : CallCond ι σ} {log : List (Prog.Call ι σ)} : LogMeets A log ↔
    ∀ newer call past, log = newer ++ call :: past → A past call := by
  induction log with
  | nil => simp [LogMeets]
  | cons head log ih =>
    constructor
    · rintro ⟨hhead, hlog⟩ newer call past heq
      cases newer with
      | nil =>
        cases heq
        exact hhead
      | cons first newer =>
        cases heq
        exact ih.mp hlog newer call past rfl
    · intro h
      refine ⟨h [] head log rfl, ih.mpr fun newer call past heq => ?_⟩
      exact h (head :: newer) call past (congrArg (head :: ·) heq)

namespace Prog

/-- Whatever becomes of its calls, all are admitted; what the guard has in mind is as `Q` says
where the program returns and as `T` says where it throws. -/
def Obeys (G : Guard ι τ) (Q : α → τ → Prop) (T : τ → Prop) : Prog ι σ α → τ → Prop
  | .ret a, t => Q a t
  | .fail, t => T t
  | .sync _ next, t => ∀ s, (next s).Obeys G Q T t
  | .await site _ next caught, t =>
    G.admits site t ∧ (∀ s, (next s).Obeys G Q T (G.note site t)) ∧
      caught.Obeys G Q T (G.note site t)

/-- All calls are labelled as `P` says. -/
def Calls (P : ι → Prop) : Prog ι σ α → Prop
  | .ret _ => True
  | .fail => True
  | .sync _ next => ∀ s, (next s).Calls P
  | .await site _ next caught => P site ∧ (∀ s, (next s).Calls P) ∧ caught.Calls P

/-! ## Executions -/

section Exec

variable {G : Guard ι τ} {Q : α → τ → Prop} {T : τ → Prop} {t : τ}

theorem Obeys.exec {p : Prog ι σ α} {log : List (Call ι σ)} (h : p.Obeys G Q T (G.noted t log))
    (hlog : LogMeets (G.cond t) log) (faults : List Fault) (s : σ) :
    LogMeets (G.cond t) (p.exec faults log s).log := by
  induction p generalizing faults log s with
  | ret a => exact hlog
  | fail => exact hlog
  | sync eff next ih => exact ih s (h s) hlog faults (eff s)
  | await site eff next caught ih ihc =>
    obtain ⟨hadmits, hnext, hcaught⟩ := h
    have hmeets : ∀ fault, LogMeets (G.cond t) (⟨site, s, fault⟩ :: log) :=
      fun _ => ⟨hadmits, hlog⟩
    have hnoted : ∀ fault, G.note site (G.noted t log) = G.noted t (⟨site, s, fault⟩ :: log) :=
      fun _ => rfl
    simp only [Prog.exec]
    cases faults.headD .none with
    | none => exact ih s (hnoted .none ▸ hnext s) (hmeets _) _ _
    | throwBefore => exact ihc (hnoted .throwBefore ▸ hcaught) (hmeets _) _ _
    | throwAfter => exact ihc (hnoted .throwAfter ▸ hcaught) (hmeets _) _ _
    | killBefore => exact hmeets _
    | killAfter => exact hmeets _

/-- Every call of an execution is admitted after those before it. -/
theorem Obeys.log {p : Prog ι σ α} (h : p.Obeys G Q T t) (faults : List Fault) (s : σ)
    (newer : List (Call ι σ)) (call : Call ι σ) (past : List (Call ι σ))
    (heq : (p.exec faults [] s).log = newer ++ call :: past) :
    G.admits call.site (G.noted t past) := by
  have hstart : p.Obeys G Q T (G.noted t ([] : List (Call ι σ))) := h
  exact logMeets_iff.mp (hstart.exec trivial faults s) newer call past heq

end Exec

/-! ## Rules -/

section Rules

variable {G : Guard ι τ} {Q : α → τ → Prop} {R : β → τ → Prop} {T : τ → Prop} {t : τ}

/-- A query whose answer does not depend on the state. -/
theorem obeys_ask {site : ι} {a : α} {f : α → Prog ι σ β} (hadmits : G.admits site t)
    (hthrown : T (G.note site t)) (hf : (f a).Obeys G R T (G.note site t)) :
    ((query site fun _ => a) >>= f).Obeys G R T t :=
  ⟨hadmits, fun _ => hf, hthrown⟩

theorem obeys_bind {p : Prog ι σ α} {f : α → Prog ι σ β} (hp : p.Obeys G Q T t)
    (hf : ∀ a t, Q a t → (f a).Obeys G R T t) : (p >>= f).Obeys G R T t := by
  induction p generalizing t with
  | ret a => exact hf a t hp
  | fail => exact hp
  | sync eff next ih => exact fun s => ih s (hp s)
  | await site eff next caught ih ihc => exact ⟨hp.1, fun s => ih s (hp.2.1 s), ihc hp.2.2⟩

theorem Obeys.mono {p : Prog ι σ α} {Q' : α → τ → Prop} {T' : τ → Prop} (h : p.Obeys G Q T t)
    (hret : ∀ a t, Q a t → Q' a t) (hthrown : ∀ t, T t → T' t) : p.Obeys G Q' T' t := by
  induction p generalizing t with
  | ret a => exact hret a t h
  | fail => exact hthrown t h
  | sync eff next ih => exact fun s => ih s (h s)
  | await site eff next caught ih ihc => exact ⟨h.1, fun s => ih s (h.2.1 s), ihc h.2.2⟩

/-- What one guard admits, a laxer one does. -/
theorem Obeys.lax {p : Prog ι σ α} {admits : ι → τ → Prop} (h : p.Obeys G Q T t)
    (himp : ∀ site t, G.admits site t → admits site t) : p.Obeys ⟨G.note, admits⟩ Q T t := by
  induction p generalizing t with
  | ret a => exact h
  | fail => exact h
  | sync eff next ih => exact fun s => ih s (h s)
  | await site eff next caught ih ihc =>
    exact ⟨himp site t h.1, fun s => ih s (h.2.1 s), ihc h.2.2⟩

theorem obeys_attempt {p : Prog ι σ α} {R : Option α → τ → Prop} {T' : τ → Prop}
    (h : p.Obeys G (fun a => R (some a)) (R none) t) : p.attempt.Obeys G R T' t := by
  induction p generalizing t with
  | ret a => exact h
  | fail => exact h
  | sync eff next ih => exact fun s => ih s (h s)
  | await site eff next caught ih ihc => exact ⟨h.1, fun s => ih s (h.2.1 s), ihc h.2.2⟩

theorem obeys_tryCatch {p handler : Prog ι σ α} {M : τ → Prop} (hp : p.Obeys G Q M t)
    (hhandler : ∀ t, M t → handler.Obeys G Q T t) : (p.tryCatch handler).Obeys G Q T t := by
  let R : Option α → τ → Prop := fun result t => result.elim (M t) fun a => Q a t
  have hattempt : p.attempt.Obeys G R T t := obeys_attempt hp
  refine obeys_bind hattempt fun result t hresult => ?_
  cases result with
  | none => exact hhandler t hresult
  | some a => exact hresult

theorem obeys_tryFinally {p : Prog ι σ α} {last : Prog ι σ Unit} {I : τ → Prop}
    (hp : p.Obeys G (fun _ => I) I t) (hlast : ∀ t, I t → last.Obeys G (fun _ => I) I t) :
    (p.tryFinally last).Obeys G (fun _ => I) I t := by
  have hattempt : p.attempt.Obeys G (fun _ => I) I t := obeys_attempt hp
  refine obeys_bind hattempt fun result t hI => ?_
  refine obeys_bind (hlast t hI) fun _ t hI => ?_
  cases result with
  | none => exact hI
  | some a => exact hI

/-- The rule of loops with an invariant. -/
theorem obeys_foldlM {xs : List β} {body : γ → β → Prog ι σ γ} {acc : γ} (I : γ → τ → Prop)
    (hinit : I acc t) (hbody : ∀ acc x t, x ∈ xs → I acc t → (body acc x).Obeys G I T t) :
    (xs.foldlM body acc).Obeys G I T t := by
  induction xs generalizing acc t with
  | nil => exact hinit
  | cons x xs ih =>
    rw [List.foldlM_cons]
    refine obeys_bind (hbody acc x t List.mem_cons_self hinit) fun acc t hI => ?_
    exact ih hI fun acc y t hy => hbody acc y t (List.mem_cons_of_mem _ hy)

theorem obeys_relabel {p : Prog κ σ α} {f : κ → ι} :
    (p.relabel f).Obeys G Q T t ↔ p.Obeys (G.comap f) Q T t := by
  induction p generalizing t with
  | ret a => exact Iff.rfl
  | fail => exact Iff.rfl
  | sync eff next ih => exact forall_congr' fun s => ih s
  | await site eff next caught ih ihc =>
    exact and_congr Iff.rfl (and_congr (forall_congr' fun s => ih s) ihc)

/-- A program without a call that the guard minds. -/
theorem Calls.obeys {p : Prog ι σ α} (h : p.Calls G.Ignores) (hret : ∀ a, Q a t)
    (hthrown : T t) : p.Obeys G Q T t := by
  induction p with
  | ret a => exact hret a
  | fail => exact hthrown
  | sync eff next ih => exact fun s => ih s (h s)
  | await site eff next caught ih ihc =>
    obtain ⟨hsite, hnext, hcaught⟩ := h
    obtain ⟨hnote, hadmits⟩ := hsite t
    refine ⟨hadmits, fun s => ?_, ?_⟩
    · rw [hnote]
      exact ih s (hnext s)
    · rw [hnote]
      exact ihc hcaught

end Rules

section Calls

variable {P P' : ι → Prop}

/-- What the calls of a program leave alone of the log holds wherever it ends. -/
theorem Calls.wp {p : Prog ι σ α} (h : p.Calls P) {I : List (Call ι σ) → Prop}
    (hI : ∀ log call, P call.site → I log → I (call :: log)) {log : List (Call ι σ)} (hlog : I log)
    (s : σ) : p.wp anyCall ⟨fun _ log _ => I log, fun log _ => I log, fun _ _ => True⟩ log s := by
  induction p generalizing log s with
  | ret a => exact hlog
  | fail => exact hlog
  | sync eff next ih => exact ih s (h s) hlog (eff s)
  | await site eff next caught ih ihc =>
    obtain ⟨hsite, hnext, hcaught⟩ := h
    have hcall : ∀ fault, I (⟨site, s, fault⟩ :: log) := fun fault => hI log ⟨site, s, fault⟩ hsite hlog
    exact ⟨fun _ => ih s (hnext s) (hcall _) _, fun _ => ihc hcaught (hcall _) _,
      fun _ => ihc hcaught (hcall _) _, fun _ => trivial, fun _ => trivial⟩

theorem Calls.mono {p : Prog ι σ α} (h : p.Calls P) (himp : ∀ site, P site → P' site) :
    p.Calls P' := by
  induction p with
  | ret a => trivial
  | fail => trivial
  | sync eff next ih => exact fun s => ih s (h s)
  | await site eff next caught ih ihc =>
    exact ⟨himp site h.1, fun s => ih s (h.2.1 s), ihc h.2.2⟩

theorem calls_call {site : ι} {eff : σ → σ} {answer : σ → α} (h : P site) :
    (call site eff answer).Calls P := ⟨h, fun _ => trivial, trivial⟩

theorem calls_query {site : ι} {answer : σ → α} (h : P site) : (query site answer).Calls P :=
  calls_call h

theorem calls_bind {p : Prog ι σ α} {f : α → Prog ι σ β} (hp : p.Calls P)
    (hf : ∀ a, (f a).Calls P) : (p >>= f).Calls P := by
  induction p with
  | ret a => exact hf a
  | fail => trivial
  | sync eff next ih => exact fun s => ih s (hp s)
  | await site eff next caught ih ihc => exact ⟨hp.1, fun s => ih s (hp.2.1 s), ihc hp.2.2⟩

theorem calls_tryCatch {p handler : Prog ι σ α} (hp : p.Calls P) (hhandler : handler.Calls P) :
    (p.tryCatch handler).Calls P := by
  have hattempt : p.attempt.Calls P := by
    clear hhandler
    induction p with
    | ret a => trivial
    | fail => trivial
    | sync eff next ih => exact fun s => ih s (hp s)
    | await site eff next caught ih ihc => exact ⟨hp.1, fun s => ih s (hp.2.1 s), ihc hp.2.2⟩
  refine calls_bind hattempt fun result => ?_
  cases result with
  | none => exact hhandler
  | some a => trivial

theorem calls_relabel {P : κ → Prop} {p : Prog ι σ α} {f : ι → κ}
    (h : p.Calls fun site => P (f site)) : (p.relabel f).Calls P := by
  induction p with
  | ret a => trivial
  | fail => trivial
  | sync eff next ih => exact fun s => ih s (h s)
  | await site eff next caught ih ihc => exact ⟨h.1, fun s => ih s (h.2.1 s), ihc h.2.2⟩

theorem calls_forM {xs : List β} {body : β → Prog ι σ PUnit} (h : ∀ x, (body x).Calls P) :
    (xs.forM body).Calls P := by
  induction xs with
  | nil => trivial
  | cons x xs ih => exact calls_bind (h x) fun _ => ih

theorem calls_foldlM {xs : List β} {body : γ → β → Prog ι σ γ} {acc : γ}
    (h : ∀ acc x, (body acc x).Calls P) : (xs.foldlM body acc).Calls P := by
  induction xs generalizing acc with
  | nil => trivial
  | cons x xs ih =>
    rw [List.foldlM_cons]
    exact calls_bind (h acc x) fun _ => ih

end Calls

end Prog

end Async
