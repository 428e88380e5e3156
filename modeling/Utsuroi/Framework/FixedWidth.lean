import Mathlib.Algebra.Group.Nat.Defs
import Mathlib.Data.List.Basic

/-!
# Numerals of one width

Texts are ordered by their characters' code points, the shorter one first where one is the start of
the other.  Decimal numerals of one width are in the order of their numbers.
-/

namespace Utsuroi.FixedWidth

/-- The order of texts. -/
def Before : List Char → List Char → Prop
  | _, [] => False
  | [], _ :: _ => True
  | c :: cs, d :: ds => c.toNat < d.toNat ∨ c.toNat = d.toNat ∧ Before cs ds

theorem before_irrefl (cs : List Char) : ¬Before cs cs := by
  induction cs with
  | nil => exact id
  | cons c cs ih =>
      intro h
      rcases h with hlt | ⟨-, hrest⟩
      · omega
      · exact ih hrest

theorem before_cons_self (c : Char) (cs ds : List Char) :
    Before (c :: cs) (c :: ds) ↔ Before cs ds := by
  simp [Before]

theorem before_cons_lt {c d : Char} (cs ds : List Char) (h : c.toNat < d.toNat) :
    Before (c :: cs) (d :: ds) := .inl h

theorem not_before_cons {c d : Char} (cs ds : List Char) (h : c.toNat < d.toNat) :
    ¬Before (d :: ds) (c :: cs) := by
  intro hbefore
  rcases hbefore with hlt | ⟨heq, -⟩
  · omega
  · omega

-- Elaboration would otherwise unfold it along texts that are long terms.
attribute [irreducible] Before

theorem before_append {as bs : List Char} (hlength : as.length = bs.length) (cs ds : List Char) :
    Before (as ++ cs) (bs ++ ds) ↔ Before as bs ∨ as = bs ∧ Before cs ds := by
  induction as generalizing bs with
  | nil =>
      cases bs with
      | nil => simp [Before]
      | cons b bs => simp at hlength
  | cons a as ih =>
      cases bs with
      | nil => simp at hlength
      | cons b bs =>
          have hrest := ih (Nat.succ.inj hlength)
          rw [List.cons_append, List.cons_append, Before, Before, hrest, List.cons.injEq,
            ← Char.toNat_inj]
          constructor
          · intro h
            rcases h with hlt | ⟨heq, hbefore | ⟨hsame, hcs⟩⟩
            · exact .inl (.inl hlt)
            · exact .inl (.inr ⟨heq, hbefore⟩)
            · exact .inr ⟨⟨heq, hsame⟩, hcs⟩
          · intro h
            rcases h with (hlt | ⟨heq, hbefore⟩) | ⟨⟨heq, hsame⟩, hcs⟩
            · exact .inl hlt
            · exact .inr ⟨heq, .inl hbefore⟩
            · exact .inr ⟨heq, .inr ⟨hsame, hcs⟩⟩

/-! ## Numerals -/

/-- The last `width` decimal digits. -/
def digits : Nat → Nat → List Char
  | 0, _ => []
  | width + 1, n => digits width (n / 10) ++ [Nat.digitChar (n % 10)]

theorem digits_length (width n : Nat) : (digits width n).length = width := by
  induction width generalizing n with
  | zero => rfl
  | succ width ih => simp [digits, ih]

private theorem before_digit {m n : Nat} (hm : m < 10) (hn : n < 10) :
    Before [Nat.digitChar m] [Nat.digitChar n] ↔ m < n := by
  simp only [Before, Nat.toNat_digitChar_of_lt_ten hm,
    Nat.toNat_digitChar_of_lt_ten hn, and_false, or_false]
  omega

theorem digits_before {width m n : Nat} (hm : m < 10 ^ width) (hn : n < 10 ^ width) :
    (Before (digits width m) (digits width n) ↔ m < n) ∧ (digits width m = digits width n ↔ m = n) := by
  induction width generalizing m n with
  | zero =>
      rw [Nat.pow_zero, Nat.lt_one_iff] at hm hn
      simp [digits, Before, hm, hn]
  | succ width ih =>
      rw [Nat.pow_succ] at hm hn
      have hfront := @ih (m / 10) (n / 10) (by omega) (by omega)
      have hbefore : Before (digits (width + 1) m) (digits (width + 1) n) ↔ m < n := by
        rw [digits, digits, before_append (by rw [digits_length, digits_length]), hfront.1, hfront.2,
          before_digit (Nat.mod_lt m (by decide)) (Nat.mod_lt n (by decide))]
        omega
      refine ⟨hbefore, fun hsame => ?_, fun heq => by rw [heq]⟩
      have hdigits := List.append_inj' (hsame : digits width (m / 10) ++ [Nat.digitChar (m % 10)] =
        digits width (n / 10) ++ [Nat.digitChar (n % 10)]) rfl
      have hlast := congrArg Char.toNat (List.cons.inj hdigits.2).1
      rw [Nat.toNat_digitChar_of_lt_ten (Nat.mod_lt m (by decide)),
        Nat.toNat_digitChar_of_lt_ten (Nat.mod_lt n (by decide))] at hlast
      have hquotient := hfront.2.mp hdigits.1
      omega

/-- Numerals of one width are in the order of their numbers, and only then of what follows. -/
theorem before_digits {width m n : Nat} (hm : m < 10 ^ width) (hn : n < 10 ^ width)
    (cs ds : List Char) :
    Before (digits width m ++ cs) (digits width n ++ ds) ↔ m < n ∨ m = n ∧ Before cs ds := by
  rw [before_append (by rw [digits_length, digits_length]), (digits_before hm hn).1,
    (digits_before hm hn).2]

private theorem digits_zero (width : Nat) : digits width 0 = List.replicate width '0' := by
  induction width with
  | zero => rfl
  | succ width ih => rw [digits, Nat.zero_div, ih, List.replicate_succ']; rfl

/-- The digits of a number with zeros before them. -/
theorem digits_eq {width n : Nat} (hwidth : 0 < width) (h : n < 10 ^ width) :
    digits width n =
      List.replicate (width - (Nat.toDigits 10 n).length) '0' ++ Nat.toDigits 10 n := by
  induction width generalizing n with
  | zero => contradiction
  | succ width ih =>
      rw [Nat.pow_succ] at h
      by_cases hsmall : n < 10
      · rw [Nat.toDigits_of_lt_base hsmall, digits, Nat.div_eq_of_lt hsmall, Nat.mod_eq_of_lt hsmall,
          digits_zero]
        rfl
      · have hrest : 0 < width := by
          cases width with
          | zero =>
              rw [Nat.pow_zero] at h
              omega
          | succ width => exact Nat.succ_pos width
        rw [Nat.toDigits_of_base_le (by decide) (Nat.le_of_not_lt hsmall), digits,
          ih hrest (by omega), List.length_append, List.length_singleton, Nat.add_sub_add_right,
          List.append_assoc]

end Utsuroi.FixedWidth
