import Mathlib.Data.List.Basic
import Mathlib.Tactic

/-!
# Wildcard patterns

In a pattern one letter, the star, stands for any word; every other letter stands for itself.
-/

namespace Glob

variable {α : Type*} {star c : α} {p q s t : List α}

/-- The words of a pattern. -/
inductive Matches (star : α) : List α → List α → Prop
  | nil : Matches star [] []
  | skip {p t : List α} (s : List α) (h : Matches star p t) : Matches star (star :: p) (s ++ t)
  | letter {c : α} {p t : List α} (hc : c ≠ star) (h : Matches star p t) :
      Matches star (c :: p) (c :: t)

/-- The pattern has no star. -/
def Plain (star : α) (p : List α) : Prop := star ∉ p

theorem matches_nil : Matches star [] t ↔ t = [] := by
  constructor
  · intro h
    cases h with
    | nil => rfl
  · rintro rfl
    exact .nil

theorem matches_letter (hc : c ≠ star) :
    Matches star (c :: p) t ↔ ∃ rest, t = c :: rest ∧ Matches star p rest := by
  constructor
  · intro h
    cases h with
    | skip => exact absurd rfl hc
    | letter _ h => exact ⟨_, rfl, h⟩
  · rintro ⟨rest, rfl, h⟩
    exact .letter hc h

theorem matches_star : Matches star (star :: p) t ↔ ∃ s rest, t = s ++ rest ∧ Matches star p rest := by
  constructor
  · intro h
    cases h with
    | skip s h => exact ⟨s, _, rfl, h⟩
    | letter hc => exact absurd rfl hc
  · rintro ⟨s, rest, rfl, h⟩
    exact .skip s h

/-- A star in terms of what is left of the text. -/
theorem matches_star_drop {n : Nat} (hn : n ≤ t.length) :
    Matches star (star :: p) (t.drop n) ↔ ∃ k, n ≤ k ∧ k ≤ t.length ∧ Matches star p (t.drop k) := by
  rw [matches_star]
  constructor
  · rintro ⟨s, rest, htext, h⟩
    have hlength := congrArg List.length htext
    simp only [List.length_drop, List.length_append] at hlength
    refine ⟨n + s.length, by omega, by omega, ?_⟩
    rw [← List.drop_drop, htext, List.drop_left]
    exact h
  · rintro ⟨k, hnk, hk, h⟩
    refine ⟨(t.drop n).take (k - n), t.drop k, ?_, h⟩
    have hdrop : t.drop k = (t.drop n).drop (k - n) := by
      rw [List.drop_drop]
      congr 1
      omega
    rw [hdrop, List.take_append_drop]

/-- Letters before the rest of a pattern. -/
theorem matches_plain_append (hq : Plain star q) :
    Matches star (q ++ p) t ↔ ∃ rest, t = q ++ rest ∧ Matches star p rest := by
  induction q generalizing t with
  | nil => simp
  | cons c q ih =>
    have hc : c ≠ star := fun h => hq (h ▸ List.mem_cons_self)
    have hrest : Plain star q := fun h => hq (List.mem_cons_of_mem c h)
    rw [List.cons_append, matches_letter hc]
    constructor
    · rintro ⟨text, rfl, hletters⟩
      obtain ⟨rest, rfl, h⟩ := (ih hrest).mp hletters
      exact ⟨rest, rfl, h⟩
    · rintro ⟨rest, rfl, h⟩
      exact ⟨q ++ rest, rfl, (ih hrest).mpr ⟨rest, rfl, h⟩⟩

/-- Nothing but stars matches the empty word. -/
theorem matches_empty : Matches star p [] ↔ ∀ c ∈ p, c = star := by
  induction p with
  | nil => simp [matches_nil]
  | cons c p ih =>
    by_cases hc : c = star
    · subst hc
      rw [matches_star, List.forall_mem_cons]
      constructor
      · rintro ⟨s, rest, htext, h⟩
        obtain ⟨rfl, rfl⟩ := List.append_eq_nil_iff.mp htext.symm
        exact ⟨rfl, ih.mp h⟩
      · rintro ⟨_, hall⟩
        exact ⟨[], [], rfl, ih.mpr hall⟩
    · rw [matches_letter hc, List.forall_mem_cons]
      constructor
      · rintro ⟨rest, htext, _⟩
        contradiction
      · rintro ⟨hstar, _⟩
        exact absurd hstar hc

/-- A star at the end of a pattern stands for the rest of the text. -/
theorem matches_append_star : Matches star (p ++ [star]) t ↔ ∃ s, s <+: t ∧ Matches star p s := by
  induction p generalizing t with
  | nil =>
    rw [List.nil_append, matches_star]
    constructor
    · intro _
      exact ⟨[], List.nil_prefix, .nil⟩
    · intro _
      exact ⟨t, [], (List.append_nil t).symm, .nil⟩
  | cons c p ih =>
    by_cases hc : c = star
    · subst hc
      rw [List.cons_append, matches_star]
      constructor
      · rintro ⟨s, rest, rfl, h⟩
        obtain ⟨u, ⟨v, rfl⟩, hu⟩ := ih.mp h
        exact ⟨s ++ u, ⟨v, List.append_assoc ..⟩, .skip s hu⟩
      · rintro ⟨s, ⟨v, rfl⟩, h⟩
        obtain ⟨u, rest, rfl, hrest⟩ := matches_star.mp h
        exact ⟨u, rest ++ v, List.append_assoc .., ih.mpr ⟨rest, List.prefix_append .., hrest⟩⟩
    · rw [List.cons_append, matches_letter hc]
      constructor
      · rintro ⟨rest, rfl, h⟩
        obtain ⟨u, ⟨v, rfl⟩, hu⟩ := ih.mp h
        exact ⟨c :: u, ⟨v, rfl⟩, .letter hc hu⟩
      · rintro ⟨s, ⟨v, rfl⟩, h⟩
        obtain ⟨rest, rfl, hrest⟩ := (matches_letter hc).mp h
        exact ⟨rest ++ v, rfl, ih.mpr ⟨rest, List.prefix_append .., hrest⟩⟩

end Glob
