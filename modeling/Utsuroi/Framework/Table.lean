import Mathlib.Data.List.Nodup

/-!
# Tables of numbered entries

What waits under a number, once at most for each: taking an entry out and counting what is left.
-/

namespace Utsuroi.Table

variable {α : Type} {table : List (Nat × α)} {id : Nat} {value : α}

/-- The other entries of a table. -/
def others (table : List (Nat × α)) (id : Nat) : List (Nat × α) :=
  table.filter fun entry => entry.1 ≠ id

/-- How often a number stands in the table. -/
def count (table : List (Nat × α)) (id : Nat) : Nat := table.countP fun entry => entry.1 = id

theorem mem_of_lookup (h : table.lookup id = some value) : (id, value) ∈ table := by
  induction table with
  | nil => simp at h
  | cons entry table ih =>
      rw [List.lookup_cons] at h
      by_cases hid : id = entry.1
      · subst hid
        rw [beq_self_eq_true] at h
        obtain rfl : entry.2 = value := Option.some.inj h
        exact List.mem_cons_self
      · have hbeq : (id == entry.1) = false := by simpa using hid
        rw [hbeq] at h
        exact List.mem_cons_of_mem _ (ih h)

theorem nodup_of_count (h : ∀ id, count table id ≤ 1) : (table.map Prod.fst).Nodup := by
  refine List.nodup_iff_count_le_one.mpr fun id => ?_
  have hcount : (table.map Prod.fst).count id = count table id := by
    rw [List.count, List.countP_map]
    exact List.countP_congr fun entry _ => by simp
  rw [hcount]
  exact h id

private theorem others_absent (h : id ∉ table.map Prod.fst) : others table id = table := by
  refine List.filter_eq_self.mpr fun entry hentry => ?_
  have hne : entry.1 ≠ id := fun heq => h (heq ▸ List.mem_map_of_mem hentry)
  simpa using hne

/-- An entry stands beside the others. -/
theorem others_perm (hnodup : (table.map Prod.fst).Nodup) (h : table.lookup id = some value) :
    table.Perm ((id, value) :: others table id) := by
  induction table with
  | nil => simp at h
  | cons entry table ih =>
      rw [List.map_cons, List.nodup_cons] at hnodup
      rw [List.lookup_cons] at h
      by_cases hid : id = entry.1
      · subst hid
        rw [beq_self_eq_true] at h
        obtain rfl : entry.2 = value := Option.some.inj h
        have hothers : others (entry :: table) entry.1 = table := by
          have hskip : others (entry :: table) entry.1 = others table entry.1 :=
            List.filter_cons_of_neg (by simp)
          rw [hskip, others_absent hnodup.1]
        rw [hothers]
      · have hbeq : (id == entry.1) = false := by simpa using hid
        rw [hbeq] at h
        have hothers : others (entry :: table) id = entry :: others table id :=
          List.filter_cons_of_pos (by simpa using fun heq => hid heq.symm)
        rw [hothers]
        exact ((ih hnodup.2 h).cons entry).trans (.swap _ _ _)

/-- What is counted of the others. -/
theorem countP_others (hnodup : (table.map Prod.fst).Nodup) (h : table.lookup id = some value)
    (test : Nat × α → Bool) :
    (others table id).countP test + (if test (id, value) then 1 else 0) = table.countP test := by
  rw [(others_perm hnodup h).countP_eq, List.countP_cons]

theorem count_others (hnodup : (table.map Prod.fst).Nodup) (h : table.lookup id = some value)
    (other : Nat) : count (others table id) other + (if id = other then 1 else 0) = count table other := by
  have hcount := countP_others hnodup h fun entry => entry.1 = other
  simpa only [count, decide_eq_true_eq] using hcount

/-! ## Accounts -/

/-- Of the numbers given out, each stands in the table, is held, or has come to its end, and that
once. -/
def Accounted (table : List (Nat × α)) (ended : Nat → Nat) (given : Nat) (held : Option Nat) : Prop :=
  ∀ id, count table id + ended id + (if held = some id then 1 else 0) = if id < given then 1 else 0

variable {ended : Nat → Nat} {given : Nat} {held : Option Nat}

theorem accounted_nil : Accounted ([] : List (Nat × α)) (fun _ => 0) 0 none := by
  intro id
  simp [count]

theorem Accounted.nodup (h : Accounted table ended given held) : (table.map Prod.fst).Nodup := by
  refine nodup_of_count fun id => ?_
  have hid := h id
  split at hid <;> split at hid <;> omega

/-- A number is given out and held. -/
theorem Accounted.give (h : Accounted table ended given none) :
    Accounted table ended (given + 1) (some given) := by
  intro id
  have hid := h id
  simp only [Option.some.injEq, reduceCtorEq, if_false] at hid ⊢
  grind

/-- What is held is put into the table. -/
theorem Accounted.put (h : Accounted table ended given (some id)) (value : α) :
    Accounted (table ++ [(id, value)]) ended given none := by
  intro other
  have hother := h other
  simp only [count, List.countP_append, List.countP_singleton, decide_eq_true_eq,
    Option.some.injEq, reduceCtorEq, if_false] at hother ⊢
  omega

/-- What the table holds is taken out. -/
theorem Accounted.take (h : Accounted table ended given none) (hlookup : table.lookup id = some value) :
    Accounted (others table id) ended given (some id) := by
  intro other
  have hother := h other
  have hcount := count_others h.nodup hlookup other
  simp only [Option.some.injEq, reduceCtorEq, if_false] at hother ⊢
  omega

/-- What is held comes to its end. -/
theorem Accounted.finish (h : Accounted table ended given (some id)) {after : Nat → Nat}
    (hafter : ∀ other, after other = ended other + if id = other then 1 else 0) :
    Accounted table after given none := by
  intro other
  have hother := h other
  rw [hafter other]
  simp only [Option.some.injEq, reduceCtorEq, if_false] at hother ⊢
  omega

theorem Accounted.congr (h : Accounted table ended given held) {after : Nat → Nat}
    (hafter : ∀ other, after other = ended other) : Accounted table after given held := by
  intro other
  rw [hafter other]
  exact h other

/-- Where nothing is held, a number given out waits or has ended. -/
theorem Accounted.balance (h : Accounted table ended given none) (id : Nat) :
    count table id + ended id = if id < given then 1 else 0 := by
  simpa using h id

end Utsuroi.Table
