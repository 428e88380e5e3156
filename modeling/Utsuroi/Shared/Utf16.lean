import Mathlib.Data.List.Basic
import Mathlib.Data.Nat.Bitwise
import Utsuroi.Framework.Sorting

/-!
# Strings as JavaScript counts and orders them
-/

namespace Utsuroi

/-- What `trim` removes. -/
def isJsSpace (c : Char) : Bool :=
  "\t\n\r ".toList.contains c ||
    [0x0b, 0x0c, 0xa0, 0x1680, 0x2028, 0x2029, 0x202f, 0x205f, 0x3000, 0xfeff].contains c.toNat ||
    (0x2000 ≤ c.toNat && c.toNat ≤ 0x200a)

def trim (text : String) : String :=
  String.ofList ((text.toList.dropWhile isJsSpace).reverse.dropWhile isJsSpace).reverse

/-- How many UTF-16 code units the character takes. -/
def utf16Width (c : Char) : Nat := if c.toNat < 0x10000 then 1 else 2

/-- `diff.length` -/
def utf16Length : List Char → Nat
  | [] => 0
  | c :: cs => utf16Width c + utf16Length cs

/-- `diff.slice(0, maxChars)` -/
def utf16Take : Nat → List Char → List Char
  | _, [] => []
  | maxChars, c :: cs =>
    if utf16Width c ≤ maxChars then c :: utf16Take (maxChars - utf16Width c) cs else []

/-- The UTF-16 code units JavaScript sorts strings by. -/
def utf16Units (s : String) : List Nat :=
  s.toList.flatMap fun c =>
    if c.toNat < 0x10000 then [c.toNat]
    else [0xD800 + (c.toNat - 0x10000) / 0x400, 0xDC00 + (c.toNat - 0x10000) % 0x400]

/-- The code units of one character. -/
def charUnits (c : Char) : List Nat :=
  if c.toNat < 0x10000 then [c.toNat]
  else [0xD800 + (c.toNat - 0x10000) / 0x400, 0xDC00 + (c.toNat - 0x10000) % 0x400]

theorem utf16Units_eq (s : String) : utf16Units s = s.toList.flatMap charUnits := rfl

theorem utf16Length_eq (cs : List Char) : utf16Length cs = (cs.flatMap charUnits).length := by
  induction cs with
  | nil => rfl
  | cons c cs ih =>
    simp only [utf16Length, List.flatMap_cons, List.length_append, ih]
    congr 1
    unfold utf16Width charUnits
    split <;> rfl

theorem utf16Length_take_le (maxChars : Nat) (cs : List Char) :
    utf16Length (utf16Take maxChars cs) ≤ maxChars := by
  induction cs generalizing maxChars with
  | nil => simp [utf16Take, utf16Length]
  | cons c cs ih =>
      rw [utf16Take]
      split
      next hfits =>
        have hrest := ih (maxChars - utf16Width c)
        simp only [utf16Length]
        omega
      next => simp [utf16Length]

theorem utf16Length_pos {text : String} (h : text ≠ "") : 1 ≤ utf16Length text.toList := by
  have hwidth : ∀ c, 1 ≤ utf16Width c := by
    intro c
    unfold utf16Width
    split <;> omega
  cases htext : text.toList with
  | nil => exact absurd (String.toList_eq_nil_iff.mp htext) h
  | cons c cs =>
      have hc := hwidth c
      simp only [utf16Length]
      omega

/-- No character is a surrogate, so that the units tell the characters apart. -/
theorem charUnits_append_inj {c d : Char} {xs ys : List Nat}
    (h : charUnits c ++ xs = charUnits d ++ ys) : c = d ∧ xs = ys := by
  have hvalid : ∀ c : Char, c.toNat < 0xD800 ∨ 0xDFFF < c.toNat ∧ c.toNat < 0x110000 :=
    fun c => c.valid
  have hc := hvalid c
  have hd := hvalid d
  unfold charUnits at h
  split at h <;> split at h <;>
    simp only [List.cons_append, List.nil_append, List.cons.injEq] at h
  · exact ⟨Char.toNat_inj.mp h.1, h.2⟩
  · omega
  · omega
  · exact ⟨Char.toNat_inj.mp (by omega), h.2.2⟩

private theorem charUnits_ne_nil (c : Char) : charUnits c ≠ [] := by
  unfold charUnits
  split <;> simp

private theorem flatMap_charUnits_inj (cs ds : List Char)
    (h : cs.flatMap charUnits = ds.flatMap charUnits) : cs = ds := by
  induction cs generalizing ds with
  | nil =>
    cases ds with
    | nil => rfl
    | cons d ds => simp [charUnits_ne_nil] at h
  | cons c cs ih =>
    cases ds with
    | nil => simp [charUnits_ne_nil] at h
    | cons d ds =>
      obtain ⟨rfl, hrest⟩ := charUnits_append_inj h
      rw [ih ds hrest]

theorem utf16Units_injective : Function.Injective utf16Units :=
  fun _ _ h => String.toList_injective (flatMap_charUnits_inj _ _ h)

/-- The order of `sort()`. -/
def unitsLe : List Nat → List Nat → Bool
  | [], _ => true
  | _ :: _, [] => false
  | a :: as, b :: bs => if a < b then true else if b < a then false else unitsLe as bs

theorem unitsLe_refl (as : List Nat) : unitsLe as as = true := by
  induction as with
  | nil => rfl
  | cons a as ih => simp [unitsLe, ih]

theorem unitsLe_trans {as bs cs : List Nat} (h : unitsLe as bs = true) (h' : unitsLe bs cs = true) :
    unitsLe as cs = true := by
  induction as generalizing bs cs with
  | nil => rfl
  | cons a as ih =>
    match bs, cs with
    | [], _ => simp [unitsLe] at h
    | _ :: _, [] => simp [unitsLe] at h'
    | b :: bs, c :: cs =>
      simp only [unitsLe] at h h' ⊢
      by_cases hac : a < c
      · simp [hac]
      · by_cases hca : c < a
        · exfalso
          split at h <;> split at h' <;> grind
        · rw [if_neg hac, if_neg hca]
          split at h <;> split at h' <;> grind

theorem unitsLe_total (as bs : List Nat) : (unitsLe as bs || unitsLe bs as) = true := by
  induction as generalizing bs with
  | nil => rfl
  | cons a as ih =>
      cases bs with
      | nil => rfl
      | cons b bs =>
          have hrest := ih bs
          simp only [unitsLe]
          split
          · rfl
          · split
            · rfl
            · exact hrest

theorem unitsLe_antisymm {as bs : List Nat} (h : unitsLe as bs = true)
    (h' : unitsLe bs as = true) : as = bs := by
  induction as generalizing bs with
  | nil =>
      cases bs with
      | nil => rfl
      | cons b bs => cases h'
  | cons a as ih =>
      cases bs with
      | nil => cases h
      | cons b bs =>
          simp only [unitsLe] at h h'
          have hle : ¬ b < a := by
            intro hlt
            rw [if_neg (by omega), if_pos hlt] at h
            cases h
          have hge : ¬ a < b := by
            intro hlt
            rw [if_neg (by omega), if_pos hlt] at h'
            cases h'
          rw [if_neg hge, if_neg hle] at h
          rw [if_neg hle, if_neg hge] at h'
          rw [ih h h', Nat.le_antisymm (Nat.le_of_not_lt hle) (Nat.le_of_not_lt hge)]

theorem unitsLe_order : Sorting.TotalOrder unitsLe where
  trans := fun _ _ _ => unitsLe_trans
  total := unitsLe_total

/-- `a <= b` -/
def jsLe (a b : String) : Bool := unitsLe (utf16Units a) (utf16Units b)

/-- `a < b` -/
def jsLt (a b : String) : Bool := !jsLe b a

end Utsuroi
