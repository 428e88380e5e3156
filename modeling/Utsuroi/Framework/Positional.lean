import Mathlib.Data.Nat.Digits.Defs

/-!
# Numerals

Texts of digits and the numbers they stand for, with letters of either case for the digits from ten
on.
-/

namespace Utsuroi.Positional

/-- Letters count from ten. -/
def digitValue (c : Char) : Nat :=
  if c.toNat < 0x3a then c.toNat - 0x30
  else if c.toNat < 0x61 then c.toNat - 0x37
  else c.toNat - 0x57

def isAlphanumeric (c : Char) : Bool :=
  (0x30 ≤ c.toNat && c.toNat ≤ 0x39) || (0x41 ≤ c.toNat && c.toNat ≤ 0x5a) ||
    (0x61 ≤ c.toNat && c.toNat ≤ 0x7a)

def isDigit (base : Nat) (c : Char) : Bool := isAlphanumeric c && digitValue c < base

/-- The number read digit by digit. -/
def readDigits (base : Nat) (text : List Char) : Nat :=
  text.foldl (fun n c => n * base + digitValue c) 0

/-- The text is a numeral of the number. -/
structure Numeral (base n : Nat) (text : List Char) : Prop where
  ne_nil : text ≠ []
  digits : ∀ c ∈ text, isDigit base c = true
  value : Nat.ofDigits base (text.map digitValue).reverse = n

variable {base n : Nat} {text : List Char}

private theorem foldl_digits (acc : Nat) :
    text.foldl (fun n c => n * base + digitValue c) acc =
      acc * base ^ text.length + Nat.ofDigits base (text.map digitValue).reverse := by
  induction text generalizing acc with
  | nil => simp
  | cons c text ih =>
      rw [List.foldl_cons, ih, List.map_cons, List.reverse_cons, Nat.ofDigits_append,
        Nat.ofDigits_singleton]
      simp only [List.length_cons, List.length_reverse, List.length_map, Nat.pow_succ]
      ring

theorem readDigits_eq :
    readDigits base text = Nat.ofDigits base (text.map digitValue).reverse := by
  rw [readDigits, foldl_digits]
  simp

theorem Numeral.read (h : Numeral base n text) : readDigits base text = n :=
  readDigits_eq.trans h.value

theorem Numeral.isEmpty (h : Numeral base n text) : text.isEmpty = false := by
  cases text with
  | nil => exact absurd rfl h.ne_nil
  | cons c text => rfl

theorem Numeral.all (h : Numeral base n text) : text.all (isDigit base) = true :=
  List.all_eq_true.mpr h.digits

/-! ## Letter case -/

theorem toNat_toLower (c : Char) :
    c.toLower.toNat = if 0x41 ≤ c.toNat ∧ c.toNat ≤ 0x5a then c.toNat + 0x20 else c.toNat := by
  unfold Char.toLower
  split
  next h =>
    have hupper : 0x41 ≤ c.toNat ∧ c.toNat ≤ 0x5a := by
      simpa [UInt32.le_iff_toNat_le] using h
    rw [if_pos hupper]
    show (c.val + 32).toNat = c.val.toNat + 32
    have hval : c.val.toNat ≤ 0x5a := hupper.2
    rw [UInt32.toNat_add]
    simp only [UInt32.reduceToNat]
    omega
  next h =>
    rw [if_neg]
    simpa [UInt32.le_iff_toNat_le] using h

theorem isAlphanumeric_iff {c : Char} : isAlphanumeric c = true ↔
    0x30 ≤ c.toNat ∧ c.toNat ≤ 0x39 ∨ 0x41 ≤ c.toNat ∧ c.toNat ≤ 0x5a ∨
      0x61 ≤ c.toNat ∧ c.toNat ≤ 0x7a := by
  simp [isAlphanumeric, or_assoc]

theorem isAlphanumeric_toLower (c : Char) : isAlphanumeric c.toLower = isAlphanumeric c := by
  rw [Bool.eq_iff_iff, isAlphanumeric_iff, isAlphanumeric_iff, toNat_toLower]
  split
  · omega
  · rfl

theorem digitValue_toLower (c : Char) : digitValue c.toLower = digitValue c := by
  unfold digitValue
  rw [toNat_toLower]
  by_cases hupper : 0x41 ≤ c.toNat ∧ c.toNat ≤ 0x5a
  · rw [if_pos hupper]
    repeat' split
    all_goals omega
  · rw [if_neg hupper]

theorem isDigit_toLower (c : Char) : isDigit base c.toLower = isDigit base c := by
  rw [isDigit, isDigit, isAlphanumeric_toLower, digitValue_toLower]

theorem readDigits_toLower : readDigits base (text.map Char.toLower) = readDigits base text := by
  rw [readDigits_eq, readDigits_eq, List.map_map]
  congr 3
  exact funext digitValue_toLower

theorem Numeral.toLower (h : Numeral base n text) : Numeral base n (text.map Char.toLower) where
  ne_nil := by simpa using h.ne_nil
  digits := by
    intro c hc
    obtain ⟨d, hd, rfl⟩ := List.mem_map.mp hc
    rw [isDigit_toLower]
    exact h.digits d hd
  value := by rw [← readDigits_eq, readDigits_toLower, h.read]

end Utsuroi.Positional
