import Mathlib.Data.List.Basic
import Utsuroi.Framework.Run

/-!
# Logs

A log lists what happened, oldest first; a condition on an entry may speak about the entries before
it.
-/

namespace Utsuroi.Log

variable {ε : Type} {P : List ε → ε → Prop} {log : List ε}

/-- Every entry meets the condition, given the entries before it. -/
def Each (P : List ε → ε → Prop) (log : List ε) : Prop :=
  ∀ before e after, log = before ++ e :: after → P before e

theorem each_nil : Each P [] := by
  intro before e after hsplit
  simp at hsplit

/-- The entries of a longer log: those there were, and the last one. -/
theorem split_concat {e last : ε} {before after : List ε}
    (h : log ++ [last] = before ++ e :: after) :
    (∃ rest, log = before ++ e :: rest) ∨ log = before ∧ last = e := by
  rcases List.eq_nil_or_concat after with rfl | ⟨rest, other, rfl⟩
  · obtain ⟨hlog, hlast⟩ := List.append_inj' h rfl
    exact Or.inr ⟨hlog, List.head_eq_of_cons_eq hlast⟩
  · have hlonger : log ++ [last] = (before ++ e :: rest) ++ [other] := by simpa using h
    exact Or.inl ⟨rest, (List.append_inj' hlonger rfl).1⟩

theorem Each.concat {e : ε} (h : Each P log) (hlast : P log e) : Each P (log ++ [e]) := by
  intro before other after hsplit
  rcases split_concat hsplit with ⟨rest, hlog⟩ | ⟨rfl, rfl⟩
  · exact h before other rest hlog
  · exact hlast

/-- Entries that meet the condition wherever they stand may be added. -/
theorem Each.append (h : Each P log) {entries : List ε}
    (hfree : ∀ e ∈ entries, ∀ before, P before e) : Each P (log ++ entries) := by
  induction entries generalizing log with
  | nil => simpa using h
  | cons e entries ih =>
      rw [List.forall_mem_cons] at hfree
      rw [List.append_cons]
      exact ih (h.concat (hfree.1 log)) hfree.2

/-! ## Machines that are logged -/

section Machine

open Transition

variable {σ ι : Type} {start s s' : σ} {step : σ → ι → Option (σ × List ε)} {effects : List ε}
  {C : StepCond (σ × List ε) ι} {es : List ι} {e : ι}

/-- A machine together with all that has been seen of it. -/
def machine (start : σ) (step : σ → ι → Option (σ × List ε)) : System (σ × List ε) ι where
  init s := s = (start, [])
  step s e s' := ∃ effects, step s.1 e = some (s'.1, effects) ∧ s'.2 = s.2 ++ effects

theorem machine_start : (machine start step).Run C [] (start, []) := .start rfl

theorem machine_next (h : (machine start step).Run C es (s, log))
    (hstep : step s e = some (s', effects)) (hC : C es (s, log) e) :
    (machine start step).Run C (e :: es) (s', log ++ effects) := .next h ⟨effects, hstep, rfl⟩ hC

/-- The invariant rule, of the state and the log. -/
theorem machine_invariant {I : List ι → σ → List ε → Prop} (h : (machine start step).Run C es (s, log))
    (hinit : I [] start [])
    (hstep : ∀ past s log e s' effects, I past s log → step s e = some (s', effects) →
      C past (s, log) e → I (e :: past) s' (log ++ effects)) : I es s log := by
  refine h.invariant (I := fun es state => I es state.1 state.2) ?_ ?_
  · rintro _ rfl
    exact hinit
  · rintro past before e after - hI ⟨effects, hmove, hlog⟩ hC
    rw [hlog]
    exact hstep past before.1 before.2 e after.1 effects hI hmove hC

end Machine

end Utsuroi.Log
