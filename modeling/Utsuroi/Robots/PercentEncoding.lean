import Utsuroi.Framework.Utf8
import Utsuroi.Robots.Parser

/-!
# Percent encoding on code units

A string of JavaScript may hold half a surrogate pair, so its code units are read here.
-/

namespace Utsuroi

/-- The value of a hexadecimal digit. -/
def hexUnit? (unit : Nat) : Option Nat :=
  if 0x30 ≤ unit ∧ unit ≤ 0x39 then some (unit - 0x30)
  else if 0x61 ≤ unit ∧ unit ≤ 0x66 then some (unit - 0x61 + 10)
  else if 0x41 ≤ unit ∧ unit ≤ 0x46 then some (unit - 0x41 + 10)
  else none

def hexUpperUnit (digit : Nat) : Nat := if digit < 10 then 0x30 + digit else 0x41 + (digit - 10)

/-- `%XX` in upper case -/
def percentUnits (byte : Nat) : List Nat :=
  [0x25, hexUpperUnit (byte / 16), hexUpperUnit (byte % 16)]

def isSurrogatePair (high low : Nat) : Bool :=
  0xD800 ≤ high && high ≤ 0xDBFF && 0xDC00 ≤ low && low ≤ 0xDFFF

def pairPoint (high low : Nat) : Nat := 0x10000 + (high - 0xD800) * 0x400 + (low - 0xDC00)

/-- `new TextEncoder().encode`; half a pair becomes the replacement character. -/
def encodePoint (codePoint : Nat) : List Nat :=
  if 0xD800 ≤ codePoint ∧ codePoint ≤ 0xDFFF then [0xEF, 0xBF, 0xBD]
  else (String.utf8EncodeChar (Char.ofNat codePoint)).map UInt8.toNat

/-- What one turn of the loop reads: an escape, or a code point. -/
inductive PercentPiece
  | escape (code : Nat)
  | point (codePoint : Nat)
  deriving DecidableEq

/-- What it writes. -/
def PercentPiece.out : PercentPiece → List Nat
  | escape code => if isUnreservedByte code then [code] else percentUnits code
  | point codePoint =>
    if codePoint > 0x7e then (encodePoint codePoint).flatMap percentUnits
    else if codePoint ≤ 0x20 || codePoint == 0x7f then percentUnits codePoint
    else [codePoint]

def percentPieces : List Nat → List PercentPiece
  | [] => []
  | [a] => [.point a]
  | [a, b] => if isSurrogatePair a b then [.point (pairPoint a b)] else [.point a, .point b]
  | a :: b :: c :: rest =>
    match if a = 0x25 then hexUnit? b else none, hexUnit? c with
    | some high, some low => .escape (high * 16 + low) :: percentPieces rest
    | _, _ =>
      if isSurrogatePair a b then .point (pairPoint a b) :: percentPieces (c :: rest)
      else .point a :: percentPieces (b :: c :: rest)

/-- `normalizePercentEncoding` -/
def normalizeUnits (input : List Nat) : List Nat := (percentPieces input).flatMap PercentPiece.out

section Pieces

variable {a b c x y : Nat} {rest : List Nat}

/-- Two hexadecimal digits come next. -/
def StartsHex : List Nat → Prop
  | b :: c :: _ => (hexUnit? b).isSome ∧ (hexUnit? c).isSome
  | _ => False

theorem percentPieces_escape (hb : hexUnit? b = some x) (hc : hexUnit? c = some y) :
    percentPieces (0x25 :: b :: c :: rest) = .escape (x * 16 + y) :: percentPieces rest := by
  rw [percentPieces, if_pos rfl, hb, hc]

/-- What is neither half a pair nor the start of an escape is read on its own. -/
theorem percentPieces_point (ha : a < 0xD800 ∨ 0xDBFF < a)
    (h : a = 0x25 → ¬ StartsHex rest) :
    percentPieces (a :: rest) = .point a :: percentPieces rest := by
  have hpair : ∀ b, isSurrogatePair a b = false := by
    intro b
    rw [isSurrogatePair]
    rcases ha with ha | ha
    · have hlow : decide (0xD800 ≤ a) = false := decide_eq_false (by omega)
      simp [hlow]
    · have hhigh : decide (a ≤ 0xDBFF) = false := decide_eq_false (by omega)
      simp [hhigh]
  match rest with
  | [] => rfl
  | [b] => simp [percentPieces, hpair]
  | b :: c :: rest =>
      rw [percentPieces, hpair]
      split
      · next hb hc =>
          split at hb
          · next ha' => exact absurd ⟨by rw [hb]; rfl, by rw [hc]; rfl⟩ (h ha')
          · cases hb
      · rfl

theorem percentPieces_pair (h : isSurrogatePair a b = true) :
    percentPieces (a :: b :: rest) = .point (pairPoint a b) :: percentPieces rest := by
  have ha : a ≠ 0x25 := by
    rintro rfl
    exact absurd h (by simp [isSurrogatePair])
  match rest with
  | [] => simp [percentPieces, h]
  | c :: rest =>
      rw [percentPieces, if_neg ha, h]
      rfl

end Pieces

section Characters

theorem hexUnit?_toNat (c : Char) : hexUnit? c.toNat = hexDigit? c := by
  have hle : ∀ a b : Char, a ≤ b ↔ a.toNat ≤ b.toNat := fun _ _ => Iff.rfl
  simp only [hexUnit?, hexDigit?, hle]
  rfl

theorem units_hexUpper {digit : Nat} (h : digit < 16) :
    charUnits (hexUpper digit) = [hexUpperUnit digit] := by
  have hall : ∀ digit : Fin 16, charUnits (hexUpper digit) = [hexUpperUnit digit] := by decide
  exact hall ⟨digit, h⟩

theorem units_percentByte {byte : Nat} (h : byte < 256) :
    (percentByte byte).flatMap charUnits = percentUnits byte := by
  rw [percentByte, List.flatMap_cons, List.flatMap_cons, List.flatMap_cons,
    units_hexUpper (by omega), units_hexUpper (by omega)]
  rfl

theorem units_percentChar (c : Char) :
    (percentChar c).flatMap charUnits = (PercentPiece.point c.toNat).out := by
  have hvalid : c.toNat < 0xD800 ∨ 0xDFFF < c.toNat ∧ c.toNat < 0x110000 := c.valid
  rw [percentChar, PercentPiece.out]
  split
  · have hpoint : encodePoint c.toNat = (String.utf8EncodeChar c).map UInt8.toNat := by
      rw [encodePoint, if_neg (by omega), Char.ofNat_toNat]
    rw [hpoint, Utf8.toList_toUTF8_singleton, List.flatMap_assoc, List.flatMap_map]
    exact List.flatMap_congr fun byte _ => units_percentByte byte.toNat_lt
  · split
    · next hhigh hlow =>
        rw [if_pos (by simp [hlow])]
        exact units_percentByte (by omega)
    · next hhigh hlow =>
        have hdelete : (c.toNat ≤ 0x20 || c.toNat == 0x7f) = false := by
          simp [hlow]
          omega
        have hunits : charUnits c = [c.toNat] := if_pos (by omega)
        rw [hdelete, List.flatMap_cons, hunits]
        rfl

/-- Two hexadecimal digits come next. -/
def StartsHexChars : List Char → Prop
  | b :: c :: _ => (hexDigit? b).isSome ∧ (hexDigit? c).isSome
  | _ => False

theorem normalizeChars_char {c : Char} {rest : List Char} (h : c = '%' → ¬ StartsHexChars rest) :
    normalizeChars (c :: rest) = percentChar c ++ normalizeChars rest := by
  match rest with
  | [] => rfl
  | [_] => rfl
  | b :: d :: rest =>
      rw [normalizeChars]
      split
      · next hb hd =>
          split at hb
          · next hc => exact absurd ⟨by rw [hb]; rfl, by rw [hd]; rfl⟩ (h hc)
          · cases hb
      · rfl

theorem hexDigit?_ascii {c : Char} {digit : Nat} (h : hexDigit? c = some digit) :
    charUnits c = [c.toNat] ∧ digit < 16 := by
  rw [← hexUnit?_toNat, hexUnit?] at h
  have hsmall : c.toNat < 0x67 := by
    split at h
    · omega
    · split at h
      · omega
      · split at h
        · omega
        · cases h
  refine ⟨if_pos (by omega), ?_⟩
  split at h
  · have hdigit := Option.some.inj h
    omega
  · split at h
    · have hdigit := Option.some.inj h
      omega
    · split at h
      · have hdigit := Option.some.inj h
        omega
      · cases h

theorem hexUnit?_lt {unit digit : Nat} (h : hexUnit? unit = some digit) : unit < 0x67 := by
  rw [hexUnit?] at h
  split at h
  · omega
  · split at h
    · omega
    · split at h
      · omega
      · cases h

private theorem pairPoint_add (q r : Nat) :
    pairPoint (0xD800 + q) (0xDC00 + r) = 0x10000 + q * 0x400 + r := by
  unfold pairPoint
  omega

/-- A character is one unit or a pair. -/
theorem charUnits_cases (c : Char) :
    charUnits c = [c.toNat] ∧ (c.toNat < 0xD800 ∨ 0xDBFF < c.toNat) ∨
      ∃ high low, charUnits c = [high, low] ∧ isSurrogatePair high low = true ∧
        pairPoint high low = c.toNat ∧ hexUnit? high = none := by
  have hvalid : c.toNat < 0xD800 ∨ 0xDFFF < c.toNat ∧ c.toNat < 0x110000 := c.valid
  by_cases hsmall : c.toNat < 0x10000
  · exact .inl ⟨if_pos hsmall, by omega⟩
  · have hunits : charUnits c =
        [0xD800 + (c.toNat - 0x10000) / 0x400, 0xDC00 + (c.toNat - 0x10000) % 0x400] := by
      unfold charUnits
      rw [if_neg hsmall]
    right
    refine ⟨0xD800 + (c.toNat - 0x10000) / 0x400, 0xDC00 + (c.toNat - 0x10000) % 0x400, hunits,
      ?_, ?_, ?_⟩
    · simp only [isSurrogatePair, Bool.and_eq_true, decide_eq_true_eq]
      omega
    · rw [pairPoint_add]
      omega
    · cases hhex : hexUnit? (0xD800 + (c.toNat - 0x10000) / 0x400) with
      | none => rfl
      | some digit =>
          have hlt := hexUnit?_lt hhex
          omega

theorem startsHexChars_of_units {text : List Char} (h : StartsHex (text.flatMap charUnits)) :
    StartsHexChars text := by
  cases text with
  | nil => exact h
  | cons b text =>
      rcases charUnits_cases b with ⟨hb, _⟩ | ⟨high, low, hb, _, _, hhex⟩
      · cases text with
        | nil =>
            rw [List.flatMap_cons, hb] at h
            exact h
        | cons c text =>
            rcases charUnits_cases c with ⟨hc, _⟩ | ⟨high, low, hc, _, _, hhex⟩
            · rw [List.flatMap_cons, List.flatMap_cons, hb, hc] at h
              rw [StartsHexChars, ← hexUnit?_toNat, ← hexUnit?_toNat]
              exact h
            · rw [List.flatMap_cons, List.flatMap_cons, hb, hc] at h
              have hsome := h.2
              rw [hhex] at hsome
              exact absurd hsome (by decide)
      · rw [List.flatMap_cons, hb] at h
        have hsome := h.1
        rw [hhex] at hsome
        exact absurd hsome (by decide)

theorem isUnreservedByte_lt {code : Nat} (h : isUnreservedByte code = true) :
    0x20 < code ∧ code < 0x7f ∧ code ≠ 0x25 := by
  simp only [isUnreservedByte, Bool.or_eq_true, Bool.and_eq_true, decide_eq_true_eq,
    beq_iff_eq] at h
  omega

theorem normalizeUnits_chars (text : List Char) :
    normalizeUnits (text.flatMap charUnits) = (normalizeChars text).flatMap charUnits := by
  induction hlength : text.length using Nat.strongRecOn generalizing text with
  | ind n ih =>
      cases text with
      | nil => rfl
      | cons c text =>
          rw [List.length_cons] at hlength
          by_cases hescape : c = '%' ∧ StartsHexChars text
          · obtain ⟨rfl, hhex⟩ := hescape
            match text with
            | [] => exact absurd hhex (by simp [StartsHexChars])
            | [_] => exact absurd hhex (by simp [StartsHexChars])
            | b :: d :: rest =>
                obtain ⟨x, hx⟩ := Option.isSome_iff_exists.mp hhex.1
                obtain ⟨y, hy⟩ := Option.isSome_iff_exists.mp hhex.2
                have hb := hexDigit?_ascii hx
                have hd := hexDigit?_ascii hy
                have hunits : ('%' :: b :: d :: rest).flatMap charUnits =
                    0x25 :: b.toNat :: d.toNat :: rest.flatMap charUnits := by
                  rw [List.flatMap_cons, List.flatMap_cons, List.flatMap_cons, hb.1, hd.1]
                  rfl
                have hrest := ih rest.length (by simp only [List.length_cons] at hlength; omega)
                  rest rfl
                have hchars : normalizeChars ('%' :: b :: d :: rest) =
                    (if isUnreservedByte (x * 16 + y) then [Char.ofNat (x * 16 + y)]
                      else percentByte (x * 16 + y)) ++ normalizeChars rest := by
                  rw [normalizeChars, if_pos rfl, hx, hy]
                rw [hunits, hchars, normalizeUnits,
                  percentPieces_escape ((hexUnit?_toNat b).trans hx) ((hexUnit?_toNat d).trans hy),
                  List.flatMap_cons, List.flatMap_append, ← hrest, normalizeUnits,
                  PercentPiece.out]
                congr 1
                split
                · next hunreserved =>
                    have hcode := isUnreservedByte_lt hunreserved
                    have hchar : (Char.ofNat (x * 16 + y)).toNat = x * 16 + y := by
                      have hvalid : (x * 16 + y).isValidChar := .inl (by omega)
                      unfold Char.ofNat
                      rw [dif_pos hvalid]
                      rfl
                    rw [List.flatMap_cons, charUnits, hchar, if_pos (by omega)]
                    rfl
                · exact (units_percentByte (by omega)).symm
          · have hrest := ih text.length (by omega) text rfl
            have hchars := normalizeChars_char fun hc hhex => hescape ⟨hc, hhex⟩
            rw [hchars, List.flatMap_append, ← hrest, units_percentChar, List.flatMap_cons]
            rcases charUnits_cases c with ⟨hunits, hrange⟩ | ⟨high, low, hunits, hpair, hpoint, _⟩
            · have hstray : c.toNat = 0x25 → ¬ StartsHex (text.flatMap charUnits) := by
                intro hc hhex
                have hpercent : c.toNat = '%'.toNat := hc
                exact hescape ⟨Char.toNat_inj.mp hpercent, startsHexChars_of_units hhex⟩
              rw [hunits, List.singleton_append, normalizeUnits, percentPieces_point hrange hstray]
              rfl
            · rw [hunits, List.cons_append, List.singleton_append, normalizeUnits,
                percentPieces_pair hpair, hpoint]
              rfl

/-- On a string of characters the units are those of `normalizePercentEncoding`. -/
theorem normalizeUnits_string (input : String) :
    normalizeUnits (utf16Units input) = utf16Units (normalizePercentEncoding input) := by
  rw [utf16Units_eq, normalizeUnits_chars, utf16Units_eq, normalizePercentEncoding,
    String.toList_ofList]

end Characters

end Utsuroi
