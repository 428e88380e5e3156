import Mathlib.Data.List.Basic

/-!
# UTF-8

Bytes are read one at a time.  A byte that cannot go on with the character begun is read again as
the start of the next one, and what was begun becomes one replacement character.
-/

namespace Utf8

def encode (text : List Char) : List UInt8 := text.flatMap String.utf8EncodeChar

/-- The bytes still owed, the range of the next one, and the bits read so far. -/
structure Partial where
  needed : Nat
  lower : Nat
  upper : Nat
  bits : Nat

def replacement : Char := Char.ofNat 0xfffd

/-- The first byte of a character: either it is one, or more bytes follow. -/
def lead (byte : Nat) : List Char × Option Partial :=
  if byte < 0x80 then ([Char.ofNat byte], none)
  else if byte < 0xc2 then ([replacement], none)
  else if byte < 0xe0 then ([], some ⟨1, 0x80, 0xbf, byte - 0xc0⟩)
  else if byte < 0xf0 then
    ([], some ⟨2, if byte = 0xe0 then 0xa0 else 0x80, if byte = 0xed then 0x9f else 0xbf,
      byte - 0xe0⟩)
  else if byte < 0xf5 then
    ([], some ⟨3, if byte = 0xf0 then 0x90 else 0x80, if byte = 0xf4 then 0x8f else 0xbf,
      byte - 0xf0⟩)
  else ([replacement], none)

/-- What the byte completes, and what is begun after it. -/
def next : Option Partial → Nat → List Char × Option Partial
  | none, byte => lead byte
  | some p, byte =>
    if p.lower ≤ byte ∧ byte ≤ p.upper then
      let bits := p.bits * 0x40 + (byte - 0x80)
      if p.needed = 1 then ([Char.ofNat bits], none)
      else ([], some ⟨p.needed - 1, 0x80, 0xbf, bits⟩)
    else (replacement :: (lead byte).1, (lead byte).2)

def decodeFrom : Option Partial → List UInt8 → List Char
  | none, [] => []
  | some _, [] => [replacement]
  | p, byte :: bytes => (next p byte.toNat).1 ++ decodeFrom (next p byte.toNat).2 bytes

def decode (bytes : List UInt8) : List Char := decodeFrom none bytes

private theorem decodeFrom_cons (p : Option Partial) (n : Nat) (hn : n < 256) (bytes : List UInt8) :
    decodeFrom p (UInt8.ofNat n :: bytes) = (next p n).1 ++ decodeFrom (next p n).2 bytes := by
  have h : (UInt8.ofNat n).toNat = n := by
    rw [UInt8.toNat_ofNat']
    omega
  cases p with
  | none => simp only [decodeFrom, h]
  | some p => simp only [decodeFrom, h]

private theorem next_last {p : Partial} {n : Nat} (hneeded : p.needed = 1) (hlow : p.lower ≤ n)
    (hhigh : n ≤ p.upper) : next (some p) n = ([Char.ofNat (p.bits * 0x40 + (n - 0x80))], none) := by
  simp [next, hneeded, hlow, hhigh]

private theorem next_more {p : Partial} {n : Nat} (hneeded : p.needed ≠ 1) (hlow : p.lower ≤ n)
    (hhigh : n ≤ p.upper) :
    next (some p) n = ([], some ⟨p.needed - 1, 0x80, 0xbf, p.bits * 0x40 + (n - 0x80)⟩) := by
  simp [next, hneeded, hlow, hhigh]

private theorem char_of_toNat {c : Char} {n : Nat} (h : n = c.toNat) : Char.ofNat n = c := by
  rw [h, Char.ofNat_toNat]

/-- The four lengths of a character, each read byte by byte. -/
theorem decodeFrom_char (c : Char) (bytes : List UInt8) :
    decodeFrom none (String.utf8EncodeChar c ++ bytes) = c :: decodeFrom none bytes := by
  have hvalid : c.toNat < 0xD800 ∨ 0xDFFF < c.toNat ∧ c.toNat < 0x110000 := c.valid
  have hval : c.val.toNat = c.toNat := rfl
  unfold String.utf8EncodeChar
  simp only [hval]
  split
  · have hlead : next none c.toNat = ([c], none) := by
      have hsmall : c.toNat < 0x80 := by omega
      simp [next, lead, hsmall]
    simp only [List.cons_append, List.nil_append]
    rw [decodeFrom_cons none c.toNat (by omega), hlead]
    rfl
  · split
    · have hlead : next none (c.toNat / 64 % 0x20 + 0xc0) =
          ([], some ⟨1, 0x80, 0xbf, c.toNat / 64 % 0x20⟩) := by
        have h₁ : ¬ c.toNat / 64 % 0x20 + 0xc0 < 0x80 := by omega
        have h₂ : ¬ c.toNat / 64 % 0x20 + 0xc0 < 0xc2 := by omega
        have h₃ : c.toNat / 64 % 0x20 + 0xc0 < 0xe0 := by omega
        simp [next, lead, h₁, h₂, h₃]
      simp only [List.cons_append, List.nil_append]
      rw [decodeFrom_cons _ _ (by omega), hlead, decodeFrom_cons _ _ (by omega),
        next_last rfl (by simp) (by simp; omega), char_of_toNat (c := c) (by simp; omega)]
      rfl
    · split
      · have hlead : next none (c.toNat / 4096 % 0x10 + 0xe0) =
            ([], some ⟨2, if c.toNat / 4096 % 0x10 = 0 then 0xa0 else 0x80,
              if c.toNat / 4096 % 0x10 = 0xd then 0x9f else 0xbf, c.toNat / 4096 % 0x10⟩) := by
          have h₁ : ¬ c.toNat / 4096 % 0x10 + 0xe0 < 0x80 := by omega
          have h₂ : ¬ c.toNat / 4096 % 0x10 + 0xe0 < 0xc2 := by omega
          have h₃ : ¬ c.toNat / 4096 % 0x10 + 0xe0 < 0xe0 := by omega
          have h₄ : c.toNat / 4096 % 0x10 + 0xe0 < 0xf0 := by omega
          simp [next, lead, h₁, h₂, h₃, h₄]
        simp only [List.cons_append, List.nil_append]
        rw [decodeFrom_cons _ _ (by omega), hlead, decodeFrom_cons _ _ (by omega),
          next_more (by simp) (by simp only; split <;> omega) (by simp only; split <;> omega),
          decodeFrom_cons _ _ (by omega), next_last rfl (by simp) (by simp; omega),
          char_of_toNat (c := c) (by simp; omega)]
        rfl
      · have hlead : next none (c.toNat / 262144 % 0x08 + 0xf0) =
            ([], some ⟨3, if c.toNat / 262144 % 0x08 = 0 then 0x90 else 0x80,
              if c.toNat / 262144 % 0x08 = 4 then 0x8f else 0xbf, c.toNat / 262144 % 0x08⟩) := by
          have h₁ : ¬ c.toNat / 262144 % 0x08 + 0xf0 < 0x80 := by omega
          have h₂ : ¬ c.toNat / 262144 % 0x08 + 0xf0 < 0xc2 := by omega
          have h₃ : ¬ c.toNat / 262144 % 0x08 + 0xf0 < 0xe0 := by omega
          have h₄ : ¬ c.toNat / 262144 % 0x08 + 0xf0 < 0xf0 := by omega
          have h₅ : c.toNat / 262144 % 0x08 + 0xf0 < 0xf5 := by omega
          simp [next, lead, h₁, h₂, h₃, h₄, h₅]
        simp only [List.cons_append, List.nil_append]
        rw [decodeFrom_cons _ _ (by omega), hlead, decodeFrom_cons _ _ (by omega),
          next_more (by simp) (by simp only; split <;> omega) (by simp only; split <;> omega),
          decodeFrom_cons _ _ (by omega), next_more (by simp) (by simp) (by simp; omega),
          decodeFrom_cons _ _ (by omega), next_last rfl (by simp) (by simp; omega),
          char_of_toNat (c := c) (by simp; omega)]
        rfl

theorem decode_encode (text : List Char) : decode (encode text) = text := by
  induction text with
  | nil => rfl
  | cons c text ih =>
      simp only [decode, encode, List.flatMap_cons] at ih ⊢
      rw [decodeFrom_char, ih]

private theorem toListLoop (bytes : ByteArray) (i : Nat) (read : List UInt8) :
    ByteArray.toList.loop bytes i read = read.reverse ++ bytes.data.toList.drop i := by
  fun_induction ByteArray.toList.loop bytes i read with
  | case1 i read h ih =>
      have hlt : i < bytes.data.toList.length := by simpa using h
      rw [ih, List.drop_eq_getElem_cons hlt, List.reverse_cons, List.append_assoc]
      have hget : bytes.get! i = bytes.data.toList[i] := getElem!_pos bytes.data i h
      rw [hget]
      rfl
  | case2 i read h =>
      have hle : bytes.data.toList.length ≤ i := by simpa using Nat.le_of_not_lt h
      rw [List.drop_eq_nil_of_le hle, List.append_nil]

/-- The bytes of a string of one character. -/
theorem toList_toUTF8_singleton (c : Char) :
    (String.singleton c).toUTF8.toList = String.utf8EncodeChar c := by
  rw [String.toUTF8_eq_toByteArray, String.toByteArray_singleton, List.utf8Encode_singleton,
    ByteArray.toList, toListLoop]
  simp

/-- A character below 128 is its own byte. -/
theorem encode_ascii {text : List Char} (h : ∀ c ∈ text, c.toNat < 128) :
    encode text = text.map fun c => UInt8.ofNat c.toNat := by
  induction text with
  | nil => rfl
  | cons c text ih =>
      have hle : c.val.toNat ≤ 0x7f := Nat.le_of_lt_succ (h c List.mem_cons_self)
      have hchar : String.utf8EncodeChar c = [UInt8.ofNat c.toNat] := by
        unfold String.utf8EncodeChar
        simp only [if_pos hle]
        rfl
      have hmore := ih fun d hd => h d (List.mem_cons_of_mem c hd)
      simp only [encode, List.flatMap_cons, List.map_cons] at hmore ⊢
      rw [hmore, hchar]
      rfl

theorem encode_ne_nil {text : List Char} (h : text ≠ []) : encode text ≠ [] := by
  intro hnil
  have hdecode := decode_encode text
  rw [hnil] at hdecode
  exact h hdecode.symm

end Utf8
