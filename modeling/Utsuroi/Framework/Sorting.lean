import Mathlib.Data.List.Nodup
import Mathlib.Data.List.Perm.Basic

/-!
# Sorting by a total order
-/

namespace Utsuroi.Sorting

/-- `le` orders all values, those of equal rank included. -/
structure TotalOrder {α : Type} (le : α → α → Bool) : Prop where
  trans : ∀ a b c, le a b = true → le b c = true → le a c = true
  total : ∀ a b, (le a b || le b a) = true

variable {α β : Type} {le : α → α → Bool} {xs ys : List α}

theorem TotalOrder.comap (h : TotalOrder le) (key : β → α) :
    TotalOrder fun a b => le (key a) (key b) where
  trans := fun a b c => h.trans (key a) (key b) (key c)
  total := fun a b => h.total (key a) (key b)

/-- Values that are told apart by the order come out the same way, however they were given. -/
theorem mergeSort_eq_of_perm (h : TotalOrder le)
    (hanti : ∀ a ∈ xs, ∀ b ∈ xs, le a b = true → le b a = true → a = b) (hperm : xs.Perm ys) :
    xs.mergeSort le = ys.mergeSort le := by
  have hsorted : (xs.mergeSort le).Perm (ys.mergeSort le) :=
    (List.mergeSort_perm xs le).trans (hperm.trans (List.mergeSort_perm ys le).symm)
  apply hsorted.eq_of_pairwise
  · intro a b ha hb
    exact hanti a (List.mem_mergeSort.mp ha) b (hperm.mem_iff.mpr (List.mem_mergeSort.mp hb))
  · exact List.pairwise_mergeSort h.trans h.total xs
  · exact List.pairwise_mergeSort h.trans h.total ys

/-! ## Values under distinct keys -/

section Keyed

variable {κ ν : Type} [DecidableEq κ] {le : κ → κ → Bool} {xs ys : List (κ × ν)}

theorem lookup_eq_some_iff_mem (h : (xs.map Prod.fst).Nodup) (k : κ) (v : ν) :
    xs.lookup k = some v ↔ (k, v) ∈ xs := by
  induction xs with
  | nil => simp
  | cons x xs ih =>
      rw [List.map_cons, List.nodup_cons] at h
      by_cases hk : k = x.1
      · subst hk
        have hnot : (x.1, v) ∉ xs := fun hmem => h.1 (List.mem_map.mpr ⟨(x.1, v), hmem, rfl⟩)
        have hhere : (x :: xs).lookup x.1 = some x.2 := List.lookup_cons_self
        rw [hhere, List.mem_cons, or_iff_left hnot, Option.some.injEq, Prod.ext_iff, eq_comm]
        exact (and_iff_right rfl).symm
      · have hbeyond : (x :: xs).lookup k = xs.lookup k := by
          rw [List.lookup_cons, beq_false_of_ne hk]
        have hne : (k, v) ≠ x := fun heq => hk (congrArg Prod.fst heq)
        rw [hbeyond, ih h.2, List.mem_cons, or_iff_right hne]

theorem perm_of_lookup (hx : (xs.map Prod.fst).Nodup) (hy : (ys.map Prod.fst).Nodup)
    (h : ∀ k, xs.lookup k = ys.lookup k) : xs.Perm ys := by
  rw [List.perm_ext_iff_of_nodup hx.of_map hy.of_map]
  intro x
  rw [← lookup_eq_some_iff_mem hx, ← lookup_eq_some_iff_mem hy, h]

theorem lookup_of_perm (hx : (xs.map Prod.fst).Nodup) (h : xs.Perm ys) (k : κ) :
    xs.lookup k = ys.lookup k := by
  have hy : (ys.map Prod.fst).Nodup := (h.map Prod.fst).nodup_iff.mp hx
  ext v
  rw [lookup_eq_some_iff_mem hx, lookup_eq_some_iff_mem hy, h.mem_iff]

/-- Sorted by their keys, the values show what is found under each key and nothing else. -/
theorem mergeSort_keyed_eq_iff (hle : TotalOrder le)
    (hanti : ∀ a b, le a b = true → le b a = true → a = b)
    (hx : (xs.map Prod.fst).Nodup) (hy : (ys.map Prod.fst).Nodup) :
    xs.mergeSort (fun a b => le a.1 b.1) = ys.mergeSort (fun a b => le a.1 b.1) ↔
      ∀ k, xs.lookup k = ys.lookup k := by
  constructor
  · intro h
    have hperm : xs.Perm ys :=
      (List.mergeSort_perm xs _).symm.trans (h ▸ List.mergeSort_perm ys _)
    exact lookup_of_perm hx hperm
  · intro h
    apply mergeSort_eq_of_perm (hle.comap Prod.fst)
    · intro a ha b hb hab hba
      exact List.inj_on_of_nodup_map hx ha hb (hanti a.1 b.1 hab hba)
    · exact perm_of_lookup hx hy h

end Keyed

end Utsuroi.Sorting
