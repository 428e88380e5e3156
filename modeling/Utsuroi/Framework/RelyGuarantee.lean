import Mathlib.Logic.Function.Basic
import Mathlib.Logic.Relation
import Utsuroi.Framework.Program

/-!
# Programs that share a state

Programs that run side by side interleave at their awaits: between two of them a program
runs alone, and while it waits the others may change the state.  Each has a contract: what
it relies on while it waits and what it guarantees of every effect of its own.
-/

namespace Async

open Relation

variable {κ ι σ α β : Type}

/-- `allows` is the condition on the calls: the state they find and what becomes of them. -/
structure Contract (ι σ : Type) where
  rely : σ → σ → Prop
  guar : σ → σ → Prop
  allows : σ → ι → Fault → Prop

/-- What a program is to establish for each way it may end. -/
structure Ends (σ α : Type) where
  ret : α → σ → Prop
  thrown : σ → Prop
  killed : σ → Prop

/-- The same demands on interrupted runs, another one on returns. -/
def Ends.onRet (Q : Ends σ α) (ret : β → σ → Prop) : Ends σ β := ⟨ret, Q.thrown, Q.killed⟩

namespace Prog

/-- However its calls go and whatever the others do while it waits, the program keeps its
contract and ends as `Q` says. -/
def rg (C : Contract ι σ) (Q : Ends σ α) : Prog ι σ α → σ → Prop
  | .ret a, s => Q.ret a s
  | .fail, s => Q.thrown s
  | .sync eff next, s => C.guar s (eff s) ∧ (next s).rg C Q (eff s)
  | .await site eff next caught, s => ∀ found, C.rely s found →
    (C.allows found site .none → C.guar found (eff found) ∧ (next found).rg C Q (eff found)) ∧
    (C.allows found site .throwBefore → caught.rg C Q found) ∧
    (C.allows found site .throwAfter → C.guar found (eff found) ∧ caught.rg C Q (eff found)) ∧
    (C.allows found site .killBefore → Q.killed found) ∧
    (C.allows found site .killAfter → C.guar found (eff found) ∧ Q.killed (eff found))

variable {C : Contract ι σ} {Q R : Ends σ α} {s s' : σ}

/-! ## Rules -/

theorem rg_bind {p : Prog ι σ α} {f : α → Prog ι σ β} {Q : Ends σ β} :
    (p >>= f).rg C Q s ↔ p.rg C (Q.onRet fun a s => (f a).rg C Q s) s := by
  induction p generalizing s with
  | ret a => exact Iff.rfl
  | fail => exact Iff.rfl
  | sync eff next ih => exact and_congr Iff.rfl (ih s)
  | await site eff next caught ih ihc =>
    refine forall_congr' fun found => imp_congr_right fun _ => ?_
    exact and_congr (imp_congr_right fun _ => and_congr Iff.rfl (ih found))
      (and_congr (imp_congr_right fun _ => ihc)
        (and_congr (imp_congr_right fun _ => and_congr Iff.rfl ihc) Iff.rfl))

theorem rg_attempt {p : Prog ι σ α} {Q : Ends σ (Option α)} :
    p.attempt.rg C Q s ↔ p.rg C ⟨fun a => Q.ret (some a), Q.ret none, Q.killed⟩ s := by
  induction p generalizing s with
  | ret a => exact Iff.rfl
  | fail => exact Iff.rfl
  | sync eff next ih => exact and_congr Iff.rfl (ih s)
  | await site eff next caught ih ihc =>
    refine forall_congr' fun found => imp_congr_right fun _ => ?_
    exact and_congr (imp_congr_right fun _ => and_congr Iff.rfl (ih found))
      (and_congr (imp_congr_right fun _ => ihc)
        (and_congr (imp_congr_right fun _ => and_congr Iff.rfl ihc) Iff.rfl))

theorem rg_tryCatch {p handler : Prog ι σ α} :
    (p.tryCatch handler).rg C Q s ↔
      p.rg C ⟨Q.ret, fun s => handler.rg C Q s, Q.killed⟩ s := by
  simp only [tryCatch, rg_bind, rg_attempt]
  exact Iff.rfl

theorem rg_mono {p : Prog ι σ α} (h : p.rg C Q s) (hret : ∀ a s, Q.ret a s → R.ret a s)
    (hthrown : ∀ s, Q.thrown s → R.thrown s) (hkilled : ∀ s, Q.killed s → R.killed s) :
    p.rg C R s := by
  induction p generalizing s with
  | ret a => exact hret a s h
  | fail => exact hthrown s h
  | sync eff next ih => exact ⟨h.1, ih s h.2⟩
  | await site eff next caught ih ihc =>
    intro found hrely
    obtain ⟨hnone, hthrowBefore, hthrowAfter, hkillBefore, hkillAfter⟩ := h found hrely
    refine ⟨fun hA => ?_, fun hA => ihc (hthrowBefore hA), fun hA => ?_,
      fun hA => hkilled _ (hkillBefore hA), fun hA => ?_⟩
    · exact ⟨(hnone hA).1, ih found (hnone hA).2⟩
    · exact ⟨(hthrowAfter hA).1, ihc (hthrowAfter hA).2⟩
    · exact ⟨(hkillAfter hA).1, hkilled _ (hkillAfter hA).2⟩

/-- Sequencing through an intermediate condition. -/
theorem rg_seq {p : Prog ι σ α} {f : α → Prog ι σ β} {Q : Ends σ β} {mid : α → σ → Prop}
    (hp : p.rg C (Q.onRet mid) s) (hf : ∀ a s, mid a s → (f a).rg C Q s) :
    (p >>= f).rg C Q s :=
  rg_bind.mpr (rg_mono hp hf (fun _ h => h) fun _ h => h)

/-- A call under a precondition that the others keep. -/
theorem rg_call {site : ι} {eff : σ → σ} {answer : σ → α} {pre : σ → Prop} (hpre : pre s)
    (hstable : ∀ s s', pre s → C.rely s s' → pre s')
    (hguar : ∀ found, pre found → C.guar found (eff found))
    (hret : ∀ found, pre found → C.allows found site .none → Q.ret (answer found) (eff found))
    (hbefore : ∀ found, pre found → (C.allows found site .throwBefore → Q.thrown found) ∧
      (C.allows found site .killBefore → Q.killed found))
    (hafter : ∀ found, pre found → (C.allows found site .throwAfter → Q.thrown (eff found)) ∧
      (C.allows found site .killAfter → Q.killed (eff found))) :
    (call site eff answer).rg C Q s := by
  intro found hrely
  have hfound := hstable s found hpre hrely
  have heff := hguar found hfound
  obtain ⟨hthrowBefore, hkillBefore⟩ := hbefore found hfound
  obtain ⟨hthrowAfter, hkillAfter⟩ := hafter found hfound
  refine ⟨fun hA => ⟨heff, hret found hfound hA⟩, hthrowBefore, fun hA => ⟨heff, hthrowAfter hA⟩,
    hkillBefore, fun hA => ⟨heff, hkillAfter hA⟩⟩

/-- The loop rule: an invariant on what the loop has still to do. -/
theorem rg_forM {xs : List β} {body : β → Prog ι σ PUnit} {Q : Ends σ PUnit}
    (I : List β → σ → Prop) (hinit : I xs s)
    (hbody : ∀ x todo s, I (x :: todo) s → (body x).rg C (Q.onRet fun _ => I todo) s)
    (hlast : ∀ s, I [] s → Q.ret ⟨⟩ s) : (xs.forM body).rg C Q s := by
  induction xs generalizing s with
  | nil => exact hlast s hinit
  | cons x xs ih =>
    refine rg_seq (hbody x xs s hinit) ?_
    intro _ s hI
    exact ih hI

/-! ## Waiting -/

/-- The program waits for an answer. -/
def Waits : Prog ι σ α → Prop
  | .await .. => True
  | _ => False

/-- A waiting program keeps its contract whatever the others do. -/
theorem rg_stable (htrans : ∀ s₁ s₂ s₃, C.rely s₁ s₂ → C.rely s₂ s₃ → C.rely s₁ s₃)
    {p : Prog ι σ α} (hwaits : p.Waits) (h : p.rg C Q s) (hrely : C.rely s s') : p.rg C Q s' := by
  cases p with
  | await site eff next caught => exact fun found hfound => h found (htrans _ _ _ hrely hfound)
  | _ => exact hwaits.elim

/-- Runs a program on to its next await. -/
def settle : Prog ι σ α → σ → Prog ι σ α × σ
  | .sync eff next, s => (next s).settle (eff s)
  | p, s => (p, s)

theorem settle_rg {p : Prog ι σ α} (h : p.rg C Q s) :
    (p.settle s).1.rg C Q (p.settle s).2 ∧ ReflTransGen C.guar s (p.settle s).2 := by
  induction p generalizing s with
  | sync eff next ih =>
    obtain ⟨hguar, hnext⟩ := h
    obtain ⟨hrg, hsteps⟩ := ih s hnext
    exact ⟨hrg, hsteps.head hguar⟩
  | _ => exact ⟨h, .refl⟩

/-- The program has no effect of its own to go on with. -/
def Settled : Prog ι σ α → Prop
  | .sync .. => False
  | _ => True

theorem settle_settled (p : Prog ι σ α) (s : σ) : (p.settle s).1.Settled := by
  induction p generalizing s with
  | sync eff next ih => exact ih s (eff s)
  | _ => trivial

end Prog

/-! ## Pools -/

/-- Threads over a shared state. -/
structure Pool (κ ι σ : Type) where
  shared : σ
  threads : κ → Option (Prog ι σ PUnit)

/-- What the surroundings do when a thread ends. -/
structure Exits (κ σ : Type) where
  returned : κ → σ → σ
  thrown : κ → σ → σ
  killed : κ → σ → σ

namespace Pool

section Steps

variable [DecidableEq κ]

/-- Thread `k` goes on with `p` from `s` until it waits again or ends. -/
def advance (X : Exits κ σ) (k : κ) (pool : Pool κ ι σ) (p : Prog ι σ PUnit) (s : σ) :
    Pool κ ι σ :=
  match p.settle s with
  | (.ret _, s) => ⟨X.returned k s, Function.update pool.threads k none⟩
  | (.fail, s) => ⟨X.thrown k s, Function.update pool.threads k none⟩
  | (p, s) => ⟨s, Function.update pool.threads k (some p)⟩

/-- The call that thread `k` waits for ends. -/
def resume (X : Exits κ σ) (k : κ) (fault : Fault) (pool : Pool κ ι σ) : Pool κ ι σ :=
  match pool.threads k with
  | some (.await _ eff next caught) =>
    let s := pool.shared
    match fault with
    | .none => pool.advance X k (next s) (eff s)
    | .throwBefore => pool.advance X k caught s
    | .throwAfter => pool.advance X k caught (eff s)
    | .killBefore => ⟨X.killed k s, Function.update pool.threads k none⟩
    | .killAfter => ⟨X.killed k (eff s), Function.update pool.threads k none⟩
  | _ => pool

end Steps

/-- Where thread `k` waits. -/
def waitsAt (pool : Pool κ ι σ) (k : κ) : Option ι :=
  match pool.threads k with
  | some (.await site _ _ _) => some site
  | _ => none

/-- The contracts of a pool's threads; `idle` is what holds of a thread that does not run. -/
structure Contracts (κ ι σ : Type) where
  of : κ → Contract ι σ
  idle : κ → σ → Prop

/-- A thread's end is an effect of its own that leaves it idle. -/
def Contracts.ends (C : Contracts κ ι σ) (X : Exits κ σ) (k : κ) : Ends σ PUnit where
  ret _ s := (C.of k).guar s (X.returned k s) ∧ C.idle k (X.returned k s)
  thrown s := (C.of k).guar s (X.thrown k s) ∧ C.idle k (X.thrown k s)
  killed s := (C.of k).guar s (X.killed k s) ∧ C.idle k (X.killed k s)

/-- The threads tolerate each other. -/
structure Contracts.Compatible (C : Contracts κ ι σ) : Prop where
  trans : ∀ k s₁ s₂ s₃, (C.of k).rely s₁ s₂ → (C.of k).rely s₂ s₃ → (C.of k).rely s₁ s₃
  others : ∀ k j s s', j ≠ k → (C.of k).guar s s' → (C.of j).rely s s'
  idle : ∀ k s s', C.idle k s → (C.of k).rely s s' → C.idle k s'

/-- Thread `k`, waiting or idle, keeps its contract from here on. -/
def Contracts.Keeps (C : Contracts κ ι σ) (X : Exits κ σ) (k : κ) :
    Option (Prog ι σ PUnit) → σ → Prop
  | some p, s => p.Waits ∧ p.rg (C.of k) (C.ends X k) s
  | none, s => C.idle k s

/-- Every thread keeps its contract from here on. -/
def Meets (C : Contracts κ ι σ) (X : Exits κ σ) (pool : Pool κ ι σ) : Prop :=
  ∀ k, C.Keeps X k (pool.threads k) pool.shared

section Meets

variable {C : Contracts κ ι σ} {X : Exits κ σ} {pool : Pool κ ι σ} {k : κ} {s s' : σ}

theorem Contracts.Keeps.stable (hC : C.Compatible) {t : Option (Prog ι σ PUnit)}
    (h : C.Keeps X k t s) (hrely : (C.of k).rely s s') : C.Keeps X k t s' := by
  cases t with
  | none => exact hC.idle k s s' h hrely
  | some p => exact ⟨h.1, Prog.rg_stable (hC.trans k) h.1 h.2 hrely⟩

/-- A step of the surroundings. -/
theorem Meets.environment (hC : C.Compatible) (h : pool.Meets C X)
    (hrely : ∀ k, (C.of k).rely pool.shared s) : Meets C X ⟨s, pool.threads⟩ :=
  fun k => (h k).stable hC (hrely k)

variable [DecidableEq κ]

/-- Effects of thread `k` that leave it waiting or idle. -/
theorem Meets.step (hC : C.Compatible) (h : pool.Meets C X)
    (heffects : ReflTransGen (C.of k).guar pool.shared s) {t : Option (Prog ι σ PUnit)}
    (ht : C.Keeps X k t s) : Meets C X ⟨s, Function.update pool.threads k t⟩ := by
  intro j
  by_cases hj : j = k
  · subst hj
    simpa using ht
  · have hkeeps : C.Keeps X j (pool.threads j) s := by
      clear ht
      induction heffects with
      | refl => exact h j
      | tail _ hguar ih => exact ih.stable hC (hC.others k j _ _ hj hguar)
    simpa [Function.update_of_ne hj] using hkeeps

/-- Thread `k` runs on from a state that effects of its own led to. -/
theorem Meets.advance (hC : C.Compatible) (h : pool.Meets C X) {p : Prog ι σ PUnit}
    (heffects : ReflTransGen (C.of k).guar pool.shared s) (hp : p.rg (C.of k) (C.ends X k) s) :
    Meets C X (pool.advance X k p s) ∧
      ReflTransGen (C.of k).guar pool.shared (pool.advance X k p s).shared := by
  have hsettle := Prog.settle_rg hp
  have hsettled := Prog.settle_settled p s
  unfold Pool.advance
  generalize p.settle s = settled at hsettle hsettled ⊢
  rcases settled with ⟨_ | _ | _ | _, s'⟩
  case ret =>
    obtain ⟨⟨hguar, hidle⟩, hsteps⟩ := hsettle
    have hends := (heffects.trans hsteps).tail hguar
    exact ⟨h.step (t := none) hC hends hidle, hends⟩
  case fail =>
    obtain ⟨⟨hguar, hidle⟩, hsteps⟩ := hsettle
    have hends := (heffects.trans hsteps).tail hguar
    exact ⟨h.step (t := none) hC hends hidle, hends⟩
  case sync => exact False.elim hsettled
  case await =>
    obtain ⟨hrg, hsteps⟩ := hsettle
    have heffects := heffects.trans hsteps
    exact ⟨h.step hC heffects ⟨trivial, hrg⟩, heffects⟩

/-- The call of a thread ends in a way that its contract allows. -/
theorem Meets.resume (hC : C.Compatible) (h : pool.Meets C X) {fault : Fault}
    (hallows : ∀ site, pool.waitsAt k = some site →
      (C.of k).allows pool.shared site fault) (hrefl : (C.of k).rely pool.shared pool.shared) :
    Meets C X (pool.resume X k fault) ∧
      ReflTransGen (C.of k).guar pool.shared (pool.resume X k fault).shared := by
  have hk := h k
  unfold Pool.resume
  unfold Pool.waitsAt at hallows
  rcases hthread : pool.threads k with _ | _ | _ | _ | ⟨site, eff, next, caught⟩
  case some.await =>
    rw [hthread] at hk hallows
    have hsite := hallows site rfl
    obtain ⟨hnone, hthrowBefore, hthrowAfter, hkillBefore, hkillAfter⟩ := hk.2 _ hrefl
    cases fault with
    | none =>
      obtain ⟨hguar, hnext⟩ := hnone hsite
      exact h.advance hC (.single hguar) hnext
    | throwBefore => exact h.advance hC .refl (hthrowBefore hsite)
    | throwAfter =>
      obtain ⟨hguar, hcaught⟩ := hthrowAfter hsite
      exact h.advance hC (.single hguar) hcaught
    | killBefore =>
      obtain ⟨hguar, hidle⟩ := hkillBefore hsite
      exact ⟨h.step hC (.single hguar) hidle, .single hguar⟩
    | killAfter =>
      obtain ⟨hguar, hends, hidle⟩ := hkillAfter hsite
      have heffects := (ReflTransGen.single hguar).tail hends
      exact ⟨h.step hC heffects hidle, heffects⟩
  all_goals exact ⟨h, .refl⟩

end Meets

end Pool

end Async
