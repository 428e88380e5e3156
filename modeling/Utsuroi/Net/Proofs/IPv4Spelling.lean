import Utsuroi.Framework.Separated
import Utsuroi.Net.Hostname

/-!
# The spellings of an IPv4 address

An address is written in one to four parts, each in one of three bases.
-/

namespace Utsuroi

open Positional Separated

/-! ## The forms of IPv4 addresses -/

/-- The texts of a number in decimal, octal and hexadecimal.  A hexadecimal zero needs no digit. -/
inductive PartForm : Nat → List Char → Prop
  | decimal {n : Nat} {text : List Char} : Numeral 10 n text →
      text = ['0'] ∨ text.head? ≠ some '0' → PartForm n text
  | octal {n : Nat} {digits : List Char} : Numeral 8 n digits → PartForm n ('0' :: digits)
  | hexadecimal {n : Nat} {digits : List Char} (x : Char) : x = 'x' ∨ x = 'X' →
      Numeral 16 n digits → PartForm n ('0' :: x :: digits)
  | bareHexadecimal (x : Char) : x = 'x' ∨ x = 'X' → PartForm 0 ['0', x]

/-- What the parts of an address stand for, the last one for all the bytes that are left. -/
def IPv4.partValues (v4 : IPv4) : Nat → List Nat
  | 1 => [((v4.a.val * 256 + v4.b.val) * 256 + v4.c.val) * 256 + v4.d.val]
  | 2 => [v4.a.val, (v4.b.val * 256 + v4.c.val) * 256 + v4.d.val]
  | 3 => [v4.a.val, v4.b.val, v4.c.val * 256 + v4.d.val]
  | 4 => [v4.a.val, v4.b.val, v4.c.val, v4.d.val]
  | _ => []

/-- The texts of an IPv4 address, in one to four parts. -/
inductive IPv4Form (v4 : IPv4) : List Char → Prop
  | parts (count : Nat) (parts : List (List Char)) : 1 ≤ count → count ≤ 4 →
      List.Forall₂ PartForm (v4.partValues count) parts → IPv4Form v4 (['.'].intercalate parts)

/-- `0x` without a digit -/
def isBareHexPart (text : List Char) : Bool := text == ['0', 'x'] || text == ['0', 'X']

def hasBareHexPart (text : List Char) : Bool := (text.splitOn '.').any isBareHexPart

section IPv4

variable {n : Nat} {text : List Char} {v4 : IPv4}

private theorem isDigit_mono {base base' : Nat} (hle : base ≤ base') {c : Char}
    (h : isDigit base c = true) : isDigit base' c = true := by
  simp only [isDigit, Bool.and_eq_true, decide_eq_true_eq] at h ⊢
  exact ⟨h.1, by omega⟩

theorem PartForm.chars (h : PartForm n text) :
    ∀ c ∈ text, isDigit 16 c = true ∨ c = 'x' ∨ c = 'X' := by
  have hzero : isDigit 16 '0' = true := by decide
  cases h with
  | decimal hnumeral => exact fun c hc => .inl (isDigit_mono (by decide) (hnumeral.digits c hc))
  | octal hnumeral =>
      rw [List.forall_mem_cons]
      exact ⟨.inl hzero, fun c hc => .inl (isDigit_mono (by decide) (hnumeral.digits c hc))⟩
  | hexadecimal x hx hnumeral =>
      rw [List.forall_mem_cons, List.forall_mem_cons]
      exact ⟨.inl hzero, .inr hx, fun c hc => .inl (hnumeral.digits c hc)⟩
  | bareHexadecimal x hx =>
      rw [List.forall_mem_cons, List.forall_mem_singleton]
      exact ⟨.inl hzero, .inr hx⟩

theorem PartForm.alphanumeric (h : PartForm n text) : ∀ c ∈ text, isAlphanumeric c = true := by
  intro c hc
  rcases h.chars c hc with hdigit | rfl | rfl
  · exact (Bool.and_eq_true_iff.mp hdigit).1
  · decide
  · decide

theorem PartForm.ne_nil (h : PartForm n text) : text ≠ [] := by
  cases h with
  | decimal hnumeral => exact hnumeral.ne_nil
  | octal => simp
  | hexadecimal => simp
  | bareHexadecimal => simp

private theorem not_mem_of_alphanumeric {c : Char} (hc : isAlphanumeric c = false)
    (h : ∀ d ∈ text, isAlphanumeric d = true) : c ∉ text := by
  intro hmem
  rw [h c hmem] at hc
  contradiction

private theorem not_hexPart_decimal (h : text = ['0'] ∨ text.head? ≠ some '0') :
    isHexPart text = false := by
  rcases h with rfl | hhead
  · rfl
  · unfold isHexPart
    split
    · simp at hhead
    · rfl

private theorem not_octalPart_decimal (h : text = ['0'] ∨ text.head? ≠ some '0') :
    isOctalPart text = false := by
  rcases h with rfl | hhead
  · rfl
  · unfold isOctalPart
    split
    · simp at hhead
    · rfl

private theorem not_hexPart_octal (h : Numeral 8 n text) : isHexPart ('0' :: text) = false := by
  cases text with
  | nil => exact absurd rfl h.ne_nil
  | cons x digits =>
      have hx := h.digits x List.mem_cons_self
      have hletter : (x == 'x' || x == 'X') = false := by
        rw [Bool.or_eq_false_iff]
        constructor
        · cases hlower : x == 'x' with
          | false => rfl
          | true =>
              rw [beq_iff_eq.mp hlower] at hx
              exact absurd hx (by decide)
        · cases hupper : x == 'X' with
          | false => rfl
          | true =>
              rw [beq_iff_eq.mp hupper] at hx
              exact absurd hx (by decide)
      simp [isHexPart, hletter]

theorem parseIPv4Part_form (h : PartForm n text) (hbare : isBareHexPart text = false) :
    parseIPv4Part text = some n := by
  cases h with
  | decimal hnumeral hleading =>
      simp [parseIPv4Part, hnumeral.isEmpty, not_hexPart_decimal hleading,
        not_octalPart_decimal hleading, hnumeral.all, hnumeral.read]
  | @octal _ digits hnumeral =>
      have hoctal : isOctalPart ('0' :: digits) = true := by
        simp only [isOctalPart, hnumeral.isEmpty, hnumeral.all, Bool.not_false, Bool.and_self]
      simp [parseIPv4Part, not_hexPart_octal hnumeral, hoctal, hnumeral.read]
  | @hexadecimal _ digits x hx hnumeral =>
      have hhex : isHexPart ('0' :: x :: digits) = true := by
        have hletter : (x == 'x' || x == 'X') = true := by
          rcases hx with rfl | rfl
          · rfl
          · rfl
        simp only [isHexPart, hletter, hnumeral.isEmpty, hnumeral.all, Bool.not_false, Bool.and_self]
      simp [parseIPv4Part, hhex, hnumeral.read]
  | bareHexadecimal x hx =>
      rcases hx with rfl | rfl
      · exact absurd hbare (by decide)
      · exact absurd hbare (by decide)

/-- The pattern of hexadecimal parts asks for a digit. -/
theorem parseIPv4Part_bare (h : isBareHexPart text = true) : parseIPv4Part text = none := by
  rw [isBareHexPart, Bool.or_eq_true, beq_iff_eq, beq_iff_eq] at h
  rcases h with rfl | rfl
  · decide
  · decide

theorem parseIPv4_bare (h : hasBareHexPart text = true) : parseIPv4 text = none := by
  rw [hasBareHexPart, List.any_eq_true] at h
  obtain ⟨part, hpart, hbare⟩ := h
  have hparts : (text.splitOn '.').mapM parseIPv4Part = none :=
    mapM_eq_none hpart (parseIPv4Part_bare hbare)
  simp only [parseIPv4, hparts, Option.bind_none, ite_self]

theorem decimal_toLower (h : Numeral 10 n text) : text.map Char.toLower = text := by
  have hsame : ∀ c ∈ text, c.toLower = c := by
    intro c hc
    have hdigit := h.digits c hc
    simp only [isDigit, Bool.and_eq_true, decide_eq_true_eq] at hdigit
    apply Char.toNat_inj.mp
    rw [toNat_toLower, if_neg]
    intro hupper
    have hvalue := hdigit.2
    simp only [digitValue] at hvalue
    split at hvalue
    · omega
    · split at hvalue
      · omega
      · omega
  exact (List.map_congr_left hsame).trans (List.map_id' text)

theorem PartForm.toLower (h : PartForm n text) : PartForm n (text.map Char.toLower) := by
  cases h with
  | decimal hnumeral hleading =>
      rw [decimal_toLower hnumeral]
      exact .decimal hnumeral hleading
  | octal hnumeral => exact .octal hnumeral.toLower
  | hexadecimal x hx hnumeral =>
      refine .hexadecimal x.toLower ?_ hnumeral.toLower
      rcases hx with rfl | rfl
      · exact .inl (by decide)
      · exact .inl (by decide)
  | bareHexadecimal x hx =>
      refine .bareHexadecimal x.toLower ?_
      rcases hx with rfl | rfl
      · exact .inl (by decide)
      · exact .inl (by decide)

private theorem toLower_cases {c d : Char} (h : c.toLower = d) :
    (0x41 ≤ c.toNat ∧ c.toNat ≤ 0x5a) ∧ c.toNat + 0x20 = d.toNat ∨
      ¬(0x41 ≤ c.toNat ∧ c.toNat ≤ 0x5a) ∧ c = d := by
  have hlower := toNat_toLower c
  rw [h] at hlower
  split at hlower
  next hupper => exact .inl ⟨hupper, hlower.symm⟩
  next hupper => exact .inr ⟨hupper, Char.toNat_inj.mp hlower.symm⟩

theorem isBareHexPart_toLower : isBareHexPart (text.map Char.toLower) = isBareHexPart text := by
  rw [Bool.eq_iff_iff]
  simp only [isBareHexPart, Bool.or_eq_true, beq_iff_eq]
  constructor
  · intro hlower
    have hlength : text.length = 2 := by
      rcases hlower with h | h
      all_goals simpa using congrArg List.length h
    obtain ⟨c, d, rfl⟩ := List.length_eq_two.mp hlength
    simp only [List.map_cons, List.map_nil, List.cons.injEq, and_true] at hlower ⊢
    have hzero : c = '0' := by
      have hc : c.toLower = '0' := by
        rcases hlower with h | h
        all_goals exact h.1
      rcases toLower_cases hc with ⟨hupper, hnat⟩ | ⟨-, heq⟩
      · rw [show '0'.toNat = 0x30 from rfl] at hnat
        omega
      · exact heq
    rcases hlower with ⟨-, hd⟩ | ⟨-, hd⟩
    · rcases toLower_cases hd with ⟨-, hnat⟩ | ⟨-, rfl⟩
      · exact .inr ⟨hzero, Char.toNat_inj.mp (Nat.add_right_cancel hnat)⟩
      · exact .inl ⟨hzero, rfl⟩
    · rcases toLower_cases hd with ⟨hupper, hnat⟩ | ⟨-, rfl⟩
      · rw [show 'X'.toNat = 0x58 from rfl] at hnat
        omega
      · exact .inr ⟨hzero, rfl⟩
  · rintro (rfl | rfl)
    · exact .inl (by decide)
    · exact .inl (by decide)

private theorem and_byte (n : Nat) : n &&& 0xff = n % 256 := Nat.and_two_pow_sub_one_eq_mod n 8

private theorem lastBytes_succ (count rest : Nat) {byte : Nat} (h : byte < 256) :
    lastBytes (count + 1) (rest * 256 + byte) = lastBytes count rest ++ [byte] := by
  have hrest : (rest * 256 + byte) / 256 = rest := by omega
  have hbyte : (rest * 256 + byte) % 256 = byte := by omega
  rw [lastBytes, and_byte, hrest, hbyte]

private theorem lastBytes_one {byte : Nat} (h : byte < 256) : lastBytes 1 byte = [byte] := by
  rw [lastBytes, and_byte, Nat.mod_eq_of_lt h]
  rfl

private theorem ofBytes_val (v4 : IPv4) :
    IPv4.ofBytes [v4.a.val, v4.b.val, v4.c.val, v4.d.val] = some v4 := by
  have hval : ∀ byte : Fin 256, lowByte byte.val = byte :=
    fun byte => Fin.ext (Nat.mod_eq_of_lt byte.isLt)
  simp only [IPv4.ofBytes, hval]

private theorem ofParts_append {bytes : List Nat} {last : Nat} (hbytes : ∀ byte ∈ bytes, byte < 256)
    (hlast : last < 256 ^ (4 - bytes.length)) :
    IPv4.ofParts (bytes ++ [last]) =
      IPv4.ofBytes (bytes ++ lastBytes (4 - bytes.length) last) := by
  have hlength : (bytes ++ [last]).length - 1 = bytes.length := by simp
  have hsmall : (bytes.any fun byte => decide (255 < byte)) = false := by
    rw [List.any_eq_false]
    intro byte hbyte
    have hlt := hbytes byte hbyte
    simp only [decide_eq_true_eq]
    omega
  have hget : (bytes ++ [last]).getD bytes.length 0 = last := by simp
  rw [IPv4.ofParts]
  simp only [hlength, List.take_left, hget, hsmall, Bool.false_eq_true, if_false]
  rw [if_neg (by omega)]

theorem ofParts_partValues {count : Nat} (hone : 1 ≤ count) (hfour : count ≤ 4) :
    IPv4.ofParts (v4.partValues count) = some v4 := by
  have ha := v4.a.isLt
  have hb := v4.b.isLt
  have hc := v4.c.isLt
  have hd := v4.d.isLt
  have hcases : count = 1 ∨ count = 2 ∨ count = 3 ∨ count = 4 := by omega
  rcases hcases with rfl | rfl | rfl | rfl
  · have hparts := @ofParts_append [] (((v4.a.val * 256 + v4.b.val) * 256 + v4.c.val) * 256 + v4.d.val)
      (by simp) (by simp; omega)
    rw [List.length_nil, lastBytes_succ 3 _ hd, lastBytes_succ 2 _ hc, lastBytes_succ 1 _ hb,
      lastBytes_one ha] at hparts
    exact hparts.trans (ofBytes_val v4)
  · have hparts := @ofParts_append [v4.a.val] ((v4.b.val * 256 + v4.c.val) * 256 + v4.d.val)
      (by simp) (by simp; omega)
    rw [List.length_singleton, lastBytes_succ 2 _ hd, lastBytes_succ 1 _ hc, lastBytes_one hb] at hparts
    exact hparts.trans (ofBytes_val v4)
  · have hparts := @ofParts_append [v4.a.val, v4.b.val] (v4.c.val * 256 + v4.d.val)
      (by simp) (by simp; omega)
    rw [List.length_cons, List.length_singleton, lastBytes_succ 1 _ hd, lastBytes_one hc] at hparts
    exact hparts.trans (ofBytes_val v4)
  · have hparts := @ofParts_append [v4.a.val, v4.b.val, v4.c.val] v4.d.val
      (by simp) (by simp)
    rw [List.length_cons, List.length_cons, List.length_singleton, lastBytes_one hd] at hparts
    exact hparts.trans (ofBytes_val v4)

private theorem parts_length {count : Nat} {parts : List (List Char)} (hone : 1 ≤ count)
    (hfour : count ≤ 4) (hparts : List.Forall₂ PartForm (v4.partValues count) parts) :
    parts.length = count := by
  rw [← hparts.length_eq]
  have hcases : count = 1 ∨ count = 2 ∨ count = 3 ∨ count = 4 := by omega
  rcases hcases with rfl | rfl | rfl | rfl
  all_goals rfl

theorem splitOn_parts {count : Nat} {parts : List (List Char)} (hone : 1 ≤ count)
    (hfour : count ≤ 4) (hparts : List.Forall₂ PartForm (v4.partValues count) parts) :
    (['.'].intercalate parts).splitOn '.' = parts := by
  have hdots : ∀ part ∈ parts, '.' ∉ part :=
    forall₂_mem hparts fun _ _ hpart => not_mem_of_alphanumeric (by decide) hpart.alphanumeric
  refine List.splitOn_intercalate '.' hdots ?_
  have hlength := parts_length hone hfour hparts
  intro hempty
  rw [hempty, List.length_nil] at hlength
  omega

theorem IPv4Form.ne_nil (h : IPv4Form v4 text) : text ≠ [] := by
  obtain ⟨count, parts, hone, hfour, hparts⟩ := h
  have hlength := parts_length hone hfour hparts
  cases parts with
  | nil =>
      rw [List.length_nil] at hlength
      omega
  | cons part parts =>
      exact intercalate_ne_nil (forall₂_mem hparts (fun _ _ => PartForm.ne_nil) part
        List.mem_cons_self)

theorem IPv4Form.chars (h : IPv4Form v4 text) :
    ∀ c ∈ text, (isDigit 16 c = true ∨ c = 'x' ∨ c = 'X') ∨ c = '.' := by
  obtain ⟨count, parts, hone, hfour, hparts⟩ := h
  intro c hc
  rcases mem_intercalate hc with hdot | ⟨part, hpart, hmem⟩
  · exact .inr (List.mem_singleton.mp hdot)
  · exact .inl (forall₂_mem hparts (fun _ _ => PartForm.chars) part hpart c hmem)

theorem IPv4Form.not_mem {c : Char} (h : IPv4Form v4 text) (hdigit : isDigit 16 c = false)
    (hc : c ≠ 'x' ∧ c ≠ 'X' ∧ c ≠ '.') : c ∉ text := by
  intro hmem
  rcases h.chars c hmem with (hhex | hx | hx) | hdot
  · rw [hdigit] at hhex
    contradiction
  · exact hc.1 hx
  · exact hc.2.1 hx
  · exact hc.2.2 hdot

private theorem parts_toLower {parts : List (List Char)} {values : List Nat}
    (h : List.Forall₂ PartForm values parts) :
    List.Forall₂ PartForm values (parts.map (List.map Char.toLower)) := by
  rw [List.forall₂_map_right_iff]
  exact h.imp fun _ _ => PartForm.toLower

theorem IPv4Form.toLower (h : IPv4Form v4 text) : IPv4Form v4 (text.map Char.toLower) := by
  obtain ⟨count, parts, hone, hfour, hparts⟩ := h
  rw [map_intercalate]
  exact .parts count _ hone hfour (parts_toLower hparts)

theorem IPv4Form.bare_toLower (h : IPv4Form v4 text) :
    hasBareHexPart (text.map Char.toLower) = hasBareHexPart text := by
  obtain ⟨count, parts, hone, hfour, hparts⟩ := h
  have hdot : ['.'].map Char.toLower = ['.'] := by decide
  rw [hasBareHexPart, hasBareHexPart, splitOn_parts hone hfour hparts, map_intercalate, hdot,
    splitOn_parts hone hfour (parts_toLower hparts), List.any_map]
  exact congrArg parts.any (funext fun _ => isBareHexPart_toLower)

theorem parseIPv4_form (h : IPv4Form v4 text) (hbare : hasBareHexPart text = false) :
    parseIPv4 text = some v4 := by
  have hempty : text.isEmpty = false := List.isEmpty_eq_false_iff.mpr h.ne_nil
  have hchars : text.all (fun c => isAlphanumeric c || c == '.') = true := by
    rw [List.all_eq_true]
    intro c hc
    rcases h.chars c hc with (hdigit | rfl | rfl) | rfl
    · rw [(Bool.and_eq_true_iff.mp hdigit).1, Bool.true_or]
    · decide
    · decide
    · decide
  obtain ⟨count, parts, hone, hfour, hparts⟩ := h
  have hsplit := splitOn_parts hone hfour hparts
  have hlength := parts_length hone hfour hparts
  have hdigits : ∀ part ∈ parts, isBareHexPart part = false := by
    rw [hasBareHexPart, hsplit, List.any_eq_false] at hbare
    exact fun part hpart => Bool.eq_false_of_not_eq_true (hbare part hpart)
  have hread : List.Forall₂ (fun n part => parseIPv4Part part = some n) (v4.partValues count)
      parts := by
    have hboth := (List.forall₂_and_left parts _).mpr ⟨hdigits, hparts.flip⟩
    exact hboth.flip.imp fun _ _ hpart => parseIPv4Part_form hpart.2 hpart.1
  unfold parseIPv4
  rw [hempty, hchars]
  simp only [Bool.not_false, Bool.and_self, if_true, hsplit, hlength]
  rw [if_neg (by omega), mapM_forall₂ hread, Option.bind_some]
  exact ofParts_partValues hone hfour

end IPv4

end Utsuroi
