import Utsuroi.Framework.Separated
import Utsuroi.Framework.Utf8

/-!
# Parameters of a query

`application/x-www-form-urlencoded`: how names and values are read out of a query and written into
one.  What is read may have been spelled in many ways; it is written in one.
-/

namespace UrlEncoded

abbrev Pair := List Char × List Char

def hexDigit (n : Nat) : Char := Char.ofNat (if n < 10 then 0x30 + n else 0x37 + n)

def hexValue (byte : UInt8) : Option Nat :=
  let n := byte.toNat
  if 0x30 ≤ n ∧ n ≤ 0x39 then some (n - 0x30)
  else if 0x41 ≤ n ∧ n ≤ 0x46 then some (n - 0x37)
  else if 0x61 ≤ n ∧ n ≤ 0x66 then some (n - 0x57)
  else none

/-- Letters, digits and `*-._` stand for themselves. -/
def staysPlain (n : Nat) : Bool :=
  (0x30 ≤ n && n ≤ 0x39) || (0x41 ≤ n && n ≤ 0x5a) || (0x61 ≤ n && n ≤ 0x7a) ||
    [0x2a, 0x2d, 0x2e, 0x5f].contains n

def spellByte (byte : UInt8) : List Char :=
  if byte.toNat = 0x20 then ['+']
  else if staysPlain byte.toNat then [Char.ofNat byte.toNat]
  else ['%', hexDigit (byte.toNat / 16), hexDigit (byte.toNat % 16)]

def spell (text : List Char) : List Char := (Utf8.encode text).flatMap spellByte

def plusToSpace (c : Char) : Char := if c = '+' then ' ' else c

def percentDecode : List UInt8 → List UInt8
  | [] => []
  | [a] => [a]
  | [a, b] => [a, b]
  | a :: b :: c :: rest =>
    if a.toNat = 0x25 then
      match hexValue b, hexValue c with
      | some high, some low => UInt8.ofNat (16 * high + low) :: percentDecode rest
      | _, _ => a :: percentDecode (b :: c :: rest)
    else a :: percentDecode (b :: c :: rest)

def readText (text : List Char) : List Char :=
  Utf8.decode (percentDecode (Utf8.encode (text.map plusToSpace)))

def readPair (part : List Char) : Pair :=
  (readText (part.takeWhile (· ≠ '=')), readText ((part.dropWhile (· ≠ '=')).drop 1))

def spellPair (pair : Pair) : List Char := spell pair.1 ++ '=' :: spell pair.2

/-- The parts of a query that hold a parameter. -/
def parts (query : List Char) : List (List Char) := (query.splitOn '&').filter (· ≠ [])

def parse (query : List Char) : List Pair := (parts query).map readPair

def serialise (pairs : List Pair) : List Char := ['&'].intercalate (pairs.map spellPair)

/-- The part is spelled as `serialise` spells it. -/
def Written (part : List Char) : Prop := ∃ pair, part = spellPair pair

private theorem percentDecode_plain {a : UInt8} (h : a.toNat ≠ 0x25) (rest : List UInt8) :
    percentDecode (a :: rest) = a :: percentDecode rest := by
  match rest with
  | [] => rfl
  | [b] => rfl
  | b :: c :: rest => rw [percentDecode, if_neg h]

private theorem percentDecode_escape {b c : UInt8} {high low : Nat} (hb : hexValue b = some high)
    (hc : hexValue c = some low) (rest : List UInt8) :
    percentDecode (0x25 :: b :: c :: rest) = UInt8.ofNat (16 * high + low) :: percentDecode rest := by
  rw [percentDecode, if_pos (by decide), hb, hc]

/-- The bytes of a text of ASCII characters, once `+` is read as a space. -/
private def asciiBytes (text : List Char) : List UInt8 :=
  text.map fun c => UInt8.ofNat (plusToSpace c).toNat

private theorem hexValue_hexDigit : ∀ n : Fin 16,
    hexValue (UInt8.ofNat (plusToSpace (hexDigit n)).toNat) = some n.val := by
  decide

private theorem byte_char {n : Nat} (h : n < 128) : (Char.ofNat n).toNat = n := by
  have hvalid : n.isValidChar := .inl (by omega)
  unfold Char.ofNat
  rw [dif_pos hvalid]
  rfl

private theorem plain_bounds {n : Nat} (h : staysPlain n = true) :
    n < 128 ∧ n ≠ 0x25 ∧ n ≠ 0x2b := by
  simp only [staysPlain, Bool.or_eq_true, Bool.and_eq_true, decide_eq_true_eq,
    List.contains_eq_mem, List.mem_cons, List.not_mem_nil, or_false] at h
  omega

private theorem percentDecode_spellByte (byte : UInt8) (rest : List UInt8) :
    percentDecode (asciiBytes (spellByte byte) ++ rest) = byte :: percentDecode rest := by
  unfold spellByte
  split
  · next hspace =>
      have hbyte : byte = 0x20 := UInt8.toNat_inj.mp hspace
      rw [hbyte]
      exact percentDecode_plain (by decide) rest
  · split
    · next hplain =>
        have hbounds := plain_bounds hplain
        have hchar := byte_char hbounds.1
        have hplus : plusToSpace (Char.ofNat byte.toNat) = Char.ofNat byte.toNat :=
          if_neg fun hc => hbounds.2.2 (by rw [← hchar, hc]; rfl)
        have hbyte : asciiBytes [Char.ofNat byte.toNat] = [byte] := by
          simp [asciiBytes, hplus, hchar]
        rw [hbyte]
        exact percentDecode_plain hbounds.2.1 rest
    · have hlt : byte.toNat < 256 := byte.toNat_lt
      have hhigh := hexValue_hexDigit ⟨byte.toNat / 16, by omega⟩
      have hlow := hexValue_hexDigit ⟨byte.toNat % 16, by omega⟩
      have hvalue : 16 * (byte.toNat / 16) + byte.toNat % 16 = byte.toNat :=
        Nat.div_add_mod byte.toNat 16
      have hread := percentDecode_escape hhigh hlow rest
      rw [hvalue, UInt8.ofNat_toNat] at hread
      exact hread

private theorem percentDecode_spellBytes (bytes rest : List UInt8) :
    percentDecode (asciiBytes (bytes.flatMap spellByte) ++ rest) = bytes ++ percentDecode rest := by
  induction bytes with
  | nil => rfl
  | cons byte bytes ih =>
      have hsplit : asciiBytes ((byte :: bytes).flatMap spellByte) ++ rest =
          asciiBytes (spellByte byte) ++ (asciiBytes (bytes.flatMap spellByte) ++ rest) := by
        simp [asciiBytes]
      rw [hsplit, percentDecode_spellByte, ih]
      rfl

private theorem hexDigit_char : ∀ n : Fin 16, (hexDigit n).toNat < 128 ∧ hexDigit n ≠ '+' ∧
    hexDigit n ≠ '=' ∧ hexDigit n ≠ '&' := by
  decide

private theorem mem_spellByte {byte : UInt8} {c : Char} (h : c ∈ spellByte byte) :
    c.toNat < 128 ∧ c ≠ '=' ∧ c ≠ '&' := by
  unfold spellByte at h
  split at h
  · rw [List.mem_singleton.mp h]
    decide
  · split at h
    · next hplain =>
        have hchar := byte_char (plain_bounds hplain).1
        rw [List.mem_singleton.mp h, hchar]
        simp only [staysPlain, Bool.or_eq_true, Bool.and_eq_true, decide_eq_true_eq,
          List.contains_eq_mem, List.mem_cons, List.not_mem_nil, or_false] at hplain
        refine ⟨by omega, fun hc => ?_, fun hc => ?_⟩
        · have hnat : byte.toNat = 0x3d := by rw [← hchar, hc]; rfl
          omega
        · have hnat : byte.toNat = 0x26 := by rw [← hchar, hc]; rfl
          omega
    · have hlt : byte.toNat < 256 := byte.toNat_lt
      have hhigh := hexDigit_char ⟨byte.toNat / 16, by omega⟩
      have hlow := hexDigit_char ⟨byte.toNat % 16, by omega⟩
      simp only [List.mem_cons, List.not_mem_nil, or_false] at h
      rcases h with rfl | rfl | rfl
      · decide
      · exact ⟨hhigh.1, hhigh.2.2⟩
      · exact ⟨hlow.1, hlow.2.2⟩

theorem mem_spell {text : List Char} {c : Char} (h : c ∈ spell text) :
    c.toNat < 128 ∧ c ≠ '=' ∧ c ≠ '&' := by
  obtain ⟨byte, _, hbyte⟩ := List.mem_flatMap.mp h
  exact mem_spellByte hbyte

private theorem encode_plus {text : List Char} (h : ∀ c ∈ text, c.toNat < 128) :
    Utf8.encode (text.map plusToSpace) = asciiBytes text := by
  have hascii : ∀ c ∈ text.map plusToSpace, c.toNat < 128 := by
    intro c hc
    obtain ⟨d, hd, rfl⟩ := List.mem_map.mp hc
    unfold plusToSpace
    split
    · decide
    · exact h d hd
  rw [Utf8.encode_ascii hascii, List.map_map]
  rfl

theorem readText_spell (text : List Char) : readText (spell text) = text := by
  have hbytes := percentDecode_spellBytes (Utf8.encode text) []
  rw [List.append_nil, percentDecode, List.append_nil] at hbytes
  rw [readText, encode_plus fun c hc => (mem_spell hc).1]
  exact (congrArg Utf8.decode hbytes).trans (Utf8.decode_encode text)

theorem readPair_spellPair (pair : Pair) : readPair (spellPair pair) = pair := by
  have hname : ∀ c ∈ spell pair.1, decide (c ≠ '=') = true := fun c hc =>
    decide_eq_true (mem_spell hc).2.1
  have htake : (spellPair pair).takeWhile (· ≠ '=') = spell pair.1 := by
    rw [spellPair, List.takeWhile_append_of_pos hname]
    simp
  have hdrop : (spellPair pair).dropWhile (· ≠ '=') = '=' :: spell pair.2 := by
    rw [spellPair, List.dropWhile_append_of_pos hname]
    simp
  rw [readPair, htake, hdrop, readText_spell, List.drop_one, List.tail_cons, readText_spell]

theorem spellPair_ne_nil (pair : Pair) : spellPair pair ≠ [] := by
  simp [spellPair]

private theorem spellPair_not_mem (pair : Pair) : '&' ∉ spellPair pair := by
  intro hmem
  rw [spellPair, List.mem_append, List.mem_cons] at hmem
  rcases hmem with hname | heq | hvalue
  · exact (mem_spell hname).2.2 rfl
  · exact absurd heq (by decide)
  · exact (mem_spell hvalue).2.2 rfl

theorem written_iff (part : List Char) : Written part ↔ spellPair (readPair part) = part := by
  constructor
  · rintro ⟨pair, rfl⟩
    rw [readPair_spellPair]
  · intro h
    exact ⟨readPair part, h.symm⟩

instance (part : List Char) : Decidable (Written part) :=
  decidable_of_iff _ (written_iff part).symm

/-- Parts come back as they were when each of them is spelled as `serialise` spells it. -/
theorem map_spellPair_readPair (texts : List (List Char)) :
    (texts.map readPair).map spellPair = texts ↔ ∀ part ∈ texts, Written part := by
  have hid : (texts.map readPair).map spellPair = texts ↔
      texts.map (spellPair ∘ readPair) = texts.map id := by
    rw [List.map_map, List.map_id]
  rw [hid, List.map_inj_left]
  exact forall₂_congr fun part _ => (written_iff part).symm

theorem splitOn_serialise {pairs : List Pair} (h : pairs ≠ []) :
    (serialise pairs).splitOn '&' = pairs.map spellPair := by
  rw [serialise, List.splitOn_intercalate '&' _ (by simpa using h)]
  intro part hpart
  obtain ⟨pair, _, rfl⟩ := List.mem_map.mp hpart
  exact spellPair_not_mem pair

theorem serialise_eq_nil {pairs : List Pair} : serialise pairs = [] ↔ pairs = [] := by
  cases pairs with
  | nil => simp [serialise]
  | cons pair pairs =>
      have hne : ['&'].intercalate (spellPair pair :: pairs.map spellPair) ≠ [] :=
        Utsuroi.Separated.intercalate_ne_nil (spellPair_ne_nil pair)
      simp [serialise, hne]

theorem parts_nil : parts [] = [] := by
  simp [parts]

end UrlEncoded
