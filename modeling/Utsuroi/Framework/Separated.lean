import Mathlib.Data.List.Forall2

/-!
# Separated texts

Parts with a separator between them, and what is read of them part by part.
-/

namespace Utsuroi.Separated

theorem mapM_forall₂ {α β : Type} {f : α → Option β} {values : List β} {texts : List α}
    (h : List.Forall₂ (fun value text => f text = some value) values texts) :
    texts.mapM f = some values := by
  induction h with
  | nil => rfl
  | cons hhead _ ih => simp [List.mapM_cons, hhead, ih]

theorem mapM_eq_none {α β : Type} {f : α → Option β} {texts : List α} {text : α}
    (hmem : text ∈ texts) (h : f text = none) : texts.mapM f = none := by
  induction texts with
  | nil => exact absurd hmem List.not_mem_nil
  | cons first rest ih =>
      rw [List.mapM_cons]
      rcases List.mem_cons.mp hmem with rfl | hrest
      · rw [h]
        rfl
      · rw [ih hrest]
        cases f first with
        | none => rfl
        | some value => rfl

theorem forall₂_mem {α β : Type} {R : α → β → Prop} {P : β → Prop} {values : List α}
    {texts : List β} (h : List.Forall₂ R values texts)
    (himp : ∀ value text, R value text → P text) :
    ∀ text ∈ texts, P text := by
  induction h with
  | nil => simp
  | cons hhead _ ih =>
      rw [List.forall_mem_cons]
      exact ⟨himp _ _ hhead, ih⟩

theorem map_inj_of_zip {α β : Type} {f : α → β} {xs ys : List α}
    (hinj : ∀ pair ∈ xs.zip ys, f pair.1 = f pair.2 → pair.1 = pair.2) (h : xs.map f = ys.map f) :
    xs = ys := by
  induction xs generalizing ys with
  | nil => exact (List.map_eq_nil_iff.mp h.symm).symm
  | cons x xs ih =>
      cases ys with
      | nil => cases h
      | cons y ys =>
          rw [List.zip_cons_cons, List.forall_mem_cons] at hinj
          obtain ⟨hhead, hrest⟩ := List.cons.inj h
          have hxy : x = y := hinj.1 hhead
          have hxsys : xs = ys := ih hinj.2 hrest
          rw [hxy, hxsys]

theorem mem_intercalate {α : Type} {sep : List α} {parts : List (List α)} {a : α}
    (h : a ∈ sep.intercalate parts) : a ∈ sep ∨ ∃ part ∈ parts, a ∈ part := by
  induction parts with
  | nil => simp at h
  | cons part parts ih =>
      cases parts with
      | nil =>
          rw [List.intercalate_singleton] at h
          exact .inr ⟨part, List.mem_cons_self, h⟩
      | cons next parts =>
          rw [List.intercalate_cons_cons, List.mem_append, List.mem_append] at h
          rcases h with (hpart | hsep) | hrest
          · exact .inr ⟨part, List.mem_cons_self, hpart⟩
          · exact .inl hsep
          · rcases ih hrest with hsep | ⟨other, hother, hmem⟩
            · exact .inl hsep
            · exact .inr ⟨other, List.mem_cons_of_mem part hother, hmem⟩

theorem mem_intercalate_of_mem {α : Type} {sep : List α} {parts : List (List α)} {part : List α}
    {a : α} (hpart : part ∈ parts) (h : a ∈ part) : a ∈ sep.intercalate parts := by
  induction parts with
  | nil => exact absurd hpart List.not_mem_nil
  | cons other parts ih =>
      cases parts with
      | nil =>
          rw [List.intercalate_singleton, ← List.mem_singleton.mp hpart]
          exact h
      | cons next parts =>
          rw [List.intercalate_cons_cons, List.mem_append, List.mem_append]
          rcases List.mem_cons.mp hpart with rfl | hmore
          · exact .inl (.inl h)
          · exact .inr (ih hmore)

theorem intercalate_ne_nil {α : Type} {sep : List α} {part : List α} {parts : List (List α)}
    (h : part ≠ []) : sep.intercalate (part :: parts) ≠ [] := by
  cases parts with
  | nil => rwa [List.intercalate_singleton]
  | cons next parts => simp [List.intercalate_cons_cons, h]

theorem map_intercalate {α β : Type} (f : α → β) (sep : List α) (parts : List (List α)) :
    (sep.intercalate parts).map f = (sep.map f).intercalate (parts.map (List.map f)) := by
  induction parts with
  | nil => simp
  | cons part parts ih =>
      cases parts with
      | nil => simp [List.intercalate_singleton]
      | cons next parts =>
          rw [List.intercalate_cons_cons, List.map_append, List.map_append, ih]
          simp [List.intercalate_cons_cons]

/-- Each part with the separator behind it. -/
def ended {α : Type} (sep : α) (parts : List (List α)) : List α :=
  parts.flatMap fun part => part ++ [sep]

theorem intercalate_concat {α : Type} {sep : α} (parts : List (List α)) (last : List α) :
    [sep].intercalate (parts ++ [last]) = ended sep parts ++ last := by
  induction parts with
  | nil => simp [ended]
  | cons part parts ih =>
      have hne : parts ++ [last] ≠ [] := by simp
      rw [List.cons_append, List.intercalate_cons_of_ne_nil hne, ih]
      simp [ended]

/-- A separator before parts that end in one stands before the rest as well. -/
theorem cons_ended {α : Type} (sep : α) (parts : List (List α)) :
    ∃ before, sep :: ended sep parts = before ++ [sep] := by
  rcases List.eq_nil_or_concat parts with rfl | ⟨parts, last, rfl⟩
  · exact ⟨[], rfl⟩
  · exact ⟨sep :: ended sep parts ++ last, by simp [ended]⟩

/-- Two ways to cut one text at a separator: at the same one, or at one behind it. -/
theorem append_sep_eq_iff {α : Type} {sep : α} {xs ys us vs : List α} :
    xs ++ sep :: us = ys ++ sep :: vs ↔
      xs = ys ∧ us = vs ∨ (∃ zs, ys = xs ++ sep :: zs ∧ us = zs ++ sep :: vs) ∨
        ∃ zs, xs = ys ++ sep :: zs ∧ vs = zs ++ sep :: us := by
  have hcut : ∀ {xs ys us vs : List α}, (∃ zs, ys = xs ++ zs ∧ sep :: us = zs ++ sep :: vs) ↔
      xs = ys ∧ us = vs ∨ ∃ zs, ys = xs ++ sep :: zs ∧ us = zs ++ sep :: vs := by
    intro xs ys us vs
    constructor
    · intro ⟨zs, hys, hus⟩
      cases zs with
      | nil =>
          rw [List.append_nil] at hys
          exact .inl ⟨hys.symm, (List.cons.inj hus).2⟩
      | cons z zs =>
          obtain ⟨rfl, hrest⟩ := List.cons.inj hus
          exact .inr ⟨zs, hys, hrest⟩
    · rintro (⟨rfl, rfl⟩ | ⟨zs, hys, rfl⟩)
      · exact ⟨[], (List.append_nil _).symm, rfl⟩
      · exact ⟨sep :: zs, hys, rfl⟩
  rw [List.append_eq_append_iff, hcut, hcut]
  constructor
  · rintro ((hsame | hlater) | (⟨hxs, hus⟩ | hlater))
    · exact .inl hsame
    · exact .inr (.inl hlater)
    · exact .inl ⟨hxs.symm, hus.symm⟩
    · exact .inr (.inr hlater)
  · rintro (hsame | hlater | hlater)
    · exact .inl (.inl hsame)
    · exact .inl (.inr hlater)
    · exact .inr (.inr hlater)

section Ended

variable {α : Type} [DecidableEq α] {sep : α}

theorem splitOn_ended (parts : List (List α)) :
    (ended sep parts).splitOn sep = parts.flatMap (List.splitOn sep) ++ [[]] := by
  induction parts with
  | nil => rfl
  | cons part parts ih =>
      have hcons : ended sep (part :: parts) = part ++ sep :: ended sep parts := by simp [ended]
      rw [hcons, List.splitOn_append_cons_self, ih, List.flatMap_cons, List.append_assoc]

/-- Ended parts are told apart by the pieces they are cut into. -/
theorem ended_eq_iff {parts parts' : List (List α)} :
    ended sep parts = ended sep parts' ↔
      parts.flatMap (List.splitOn sep) = parts'.flatMap (List.splitOn sep) := by
  constructor
  · intro h
    have hsplit := congrArg (List.splitOn sep) h
    rw [splitOn_ended, splitOn_ended] at hsplit
    exact List.append_cancel_right hsplit
  · intro h
    have hsplit : (ended sep parts).splitOn sep = (ended sep parts').splitOn sep := by
      rw [splitOn_ended, splitOn_ended, h]
    have hjoined := congrArg [sep].intercalate hsplit
    rwa [List.intercalate_splitOn, List.intercalate_splitOn] at hjoined

theorem flatMap_splitOn {parts : List (List α)} (h : ∀ part ∈ parts, sep ∉ part) :
    parts.flatMap (List.splitOn sep) = parts := by
  induction parts with
  | nil => rfl
  | cons part parts ih =>
      rw [List.forall_mem_cons] at h
      rw [List.flatMap_cons, List.splitOn_eq_singleton h.1, ih h.2]
      rfl

end Ended

end Utsuroi.Separated
