import Mathlib.Data.List.Nodup

/-!
# Histories recorded under content keys

A recorder looks at a history of values one after another.  Where a value differs from the
one before it, it records the step under a key, and a key is recorded once only.
-/

namespace KeyedHistory

variable {δ κ : Type*} (differs : δ → δ → Bool) (key : δ → δ → κ)

/-- The keys of the steps at which the history differs from the value before. -/
def stepKeys : δ → List δ → List κ
  | _, [] => []
  | previous, d :: ds =>
    if differs previous d then key previous d :: stepKeys d ds else stepKeys d ds

/-- Every step that differs finds its key unused, where `used` are the keys recorded. -/
def AllRecorded : (κ → Prop) → δ → List δ → Prop
  | _, _, [] => True
  | used, previous, d :: ds =>
    if differs previous d then
      ¬used (key previous d) ∧ AllRecorded (fun k => used k ∨ k = key previous d) d ds
    else AllRecorded used d ds

theorem allRecorded_congr {used used' : κ → Prop} (h : ∀ k, used k ↔ used' k) (previous : δ)
    (ds : List δ) :
    AllRecorded differs key used previous ds ↔ AllRecorded differs key used' previous ds := by
  have : used = used' := funext fun k => propext (h k)
  rw [this]

/-- All steps that differ are recorded exactly when their keys are new and pairwise distinct. -/
theorem allRecorded_iff (used : κ → Prop) (previous : δ) (ds : List δ) :
    AllRecorded differs key used previous ds ↔
      (stepKeys differs key previous ds).Nodup ∧
        ∀ k ∈ stepKeys differs key previous ds, ¬used k := by
  induction ds generalizing used previous with
  | nil => simp [AllRecorded, stepKeys]
  | cons d ds ih =>
    by_cases hdiffers : differs previous d = true
    · simp only [AllRecorded, stepKeys, hdiffers, if_true, ih, List.nodup_cons, List.forall_mem_cons]
      constructor
      · rintro ⟨hunused, hnodup, hall⟩
        refine ⟨⟨fun hmem => ?_, hnodup⟩, hunused, fun k hk hused => hall k hk (Or.inl hused)⟩
        exact hall _ hmem (Or.inr rfl)
      · rintro ⟨⟨hnew, hnodup⟩, hunused, hall⟩
        refine ⟨hunused, hnodup, fun k hk h => ?_⟩
        rcases h with hused | rfl
        · exact hall k hk hused
        · exact hnew hk
    · simp only [AllRecorded, stepKeys, hdiffers, if_false, Bool.false_eq_true]
      exact ih used d

end KeyedHistory
