import Mathlib.Data.List.Basic

/-!
# Base64

Three bytes are four sextets; what is left of one or two bytes is two or three of them.  Letters
stand for sextets in the standard alphabet and in that for URLs.
-/

namespace Base64

def sextetsOf : List UInt8 → List Nat
  | [] => []
  | [a] => [a.toNat / 4, a.toNat % 4 * 16]
  | [a, b] => [a.toNat / 4, a.toNat % 4 * 16 + b.toNat / 16, b.toNat % 16 * 4]
  | a :: b :: c :: bytes =>
    a.toNat / 4 :: (a.toNat % 4 * 16 + b.toNat / 16) :: (b.toNat % 16 * 4 + c.toNat / 64) ::
      c.toNat % 64 :: sextetsOf bytes

/-- Bits that make no whole byte are dropped. -/
def bytesOf : List Nat → List UInt8
  | a :: b :: c :: d :: sextets =>
    UInt8.ofNat (a * 4 + b / 16) :: UInt8.ofNat (b % 16 * 16 + c / 4) :: UInt8.ofNat (c % 4 * 64 + d) ::
      bytesOf sextets
  | [a, b, c] => [UInt8.ofNat (a * 4 + b / 16), UInt8.ofNat (b % 16 * 16 + c / 4)]
  | [a, b] => [UInt8.ofNat (a * 4 + b / 16)]
  | _ => []

private theorem ofNat_eq {n : Nat} {byte : UInt8} (h : n = byte.toNat) : UInt8.ofNat n = byte := by
  rw [h, UInt8.ofNat_toNat]

theorem bytesOf_sextetsOf (bytes : List UInt8) : bytesOf (sextetsOf bytes) = bytes := by
  induction bytes using sextetsOf.induct with
  | case1 => rfl
  | case2 a =>
    have ha := a.toNat_lt
    simp only [sextetsOf, bytesOf, List.cons.injEq, and_true]
    exact ofNat_eq (by omega)
  | case3 a b =>
    have ha := a.toNat_lt
    have hb := b.toNat_lt
    simp only [sextetsOf, bytesOf, List.cons.injEq, and_true]
    exact ⟨ofNat_eq (by omega), ofNat_eq (by omega)⟩
  | case4 a b c bytes ih =>
    have ha := a.toNat_lt
    have hb := b.toNat_lt
    have hc := c.toNat_lt
    simp only [sextetsOf, bytesOf, ih, List.cons.injEq, and_true]
    exact ⟨ofNat_eq (by omega), ofNat_eq (by omega), ofNat_eq (by omega)⟩

theorem sextetsOf_lt {bytes : List UInt8} {sextet : Nat} (h : sextet ∈ sextetsOf bytes) :
    sextet < 64 := by
  induction bytes using sextetsOf.induct with
  | case1 => simp [sextetsOf] at h
  | case2 a =>
    have ha := a.toNat_lt
    simp only [sextetsOf, List.mem_cons, List.not_mem_nil, or_false] at h
    omega
  | case3 a b =>
    have ha := a.toNat_lt
    have hb := b.toNat_lt
    simp only [sextetsOf, List.mem_cons, List.not_mem_nil, or_false] at h
    omega
  | case4 a b c bytes ih =>
    have ha := a.toNat_lt
    have hb := b.toNat_lt
    have hc := c.toNat_lt
    simp only [sextetsOf, List.mem_cons] at h
    rcases h with h | h | h | h | h
    · omega
    · omega
    · omega
    · omega
    · exact ih h

/-- How many letters there are without padding. -/
theorem length_sextetsOf (bytes : List UInt8) :
    (sextetsOf bytes).length = (bytes.length * 4 + 2) / 3 := by
  induction bytes using sextetsOf.induct with
  | case1 => rfl
  | case2 a => simp [sextetsOf]
  | case3 a b => simp [sextetsOf]
  | case4 a b c bytes ih =>
    simp only [sextetsOf, List.length_cons, ih]
    omega

/-! ## Alphabets -/

def letters : List Char := "ABCDEFGHIJKLMNOPQRSTUVWXYZabcdefghijklmnopqrstuvwxyz0123456789".toList

/-- The alphabet whose last two letters are these. -/
def letter (plus slash : Char) (sextet : Nat) : Char :=
  (letters ++ [plus, slash]).getD sextet '='

/-- The sextet of a letter of either alphabet. -/
def sextet? (c : Char) : Option Nat :=
  if c = '+' ∨ c = '-' then some 62
  else if c = '/' ∨ c = '_' then some 63
  else letters.findIdx? (· == c)

theorem sextet?_letter {sextet : Nat} (h : sextet < 64) :
    sextet? (letter '+' '/' sextet) = some sextet ∧ sextet? (letter '-' '_' sextet) = some sextet := by
  have hall : ∀ n < 64, sextet? (letter '+' '/' n) = some n ∧ sextet? (letter '-' '_' n) = some n := by
    decide +kernel
  exact hall sextet h

/-- The text without padding. -/
def unpadded (plus slash : Char) (bytes : List UInt8) : List Char :=
  (sextetsOf bytes).map (letter plus slash)

/-- The padding of the last group. -/
def padding (bytes : List UInt8) : List Char := List.replicate ((3 - bytes.length % 3) % 3) '='

/-- Characters of neither alphabet are skipped, and padding ends the text. -/
def decode (text : List Char) : List UInt8 :=
  bytesOf ((text.takeWhile (· != '=')).filterMap sextet?)

section Decode

variable {plus slash : Char} (hletter : ∀ n < 64, sextet? (letter plus slash n) = some n)

include hletter

private theorem filterMap_unpadded (bytes : List UInt8) :
    (unpadded plus slash bytes).filterMap sextet? = sextetsOf bytes := by
  unfold unpadded
  rw [List.filterMap_map]
  have hsome : ∀ sextet ∈ sextetsOf bytes, (sextet? ∘ letter plus slash) sextet = some sextet :=
    fun sextet hmem => hletter sextet (sextetsOf_lt hmem)
  rw [List.filterMap_congr hsome, List.filterMap_some]

private theorem unpadded_ne (bytes : List UInt8) : ∀ c ∈ unpadded plus slash bytes, (c != '=') = true := by
  intro c hc
  obtain ⟨sextet, hmem, rfl⟩ := List.mem_map.mp hc
  have hsome := hletter sextet (sextetsOf_lt hmem)
  by_contra heq
  rw [show letter plus slash sextet = '=' by simpa using heq] at hsome
  contradiction

/-- With or without padding, the bytes come back. -/
theorem decode_unpadded (bytes : List UInt8) (n : Nat) :
    decode (unpadded plus slash bytes ++ List.replicate n '=') = bytes := by
  have hpad : (List.replicate n '=').takeWhile (· != '=') = [] := by
    cases n with
    | zero => rfl
    | succ n => rfl
  unfold decode
  rw [List.takeWhile_append_of_pos (unpadded_ne hletter bytes), hpad, List.append_nil,
    filterMap_unpadded hletter, bytesOf_sextetsOf]

end Decode

/-! ## The strict decoder -/

def isAsciiSpace (c : Char) : Bool := [9, 10, 12, 13, 32].contains c.toNat

/-- One or two signs of padding at the end are taken off. -/
def dropPadding (text : List Char) : List Char :=
  match text.reverse with
  | a :: b :: rest =>
    if a ≠ '=' then text else if b ≠ '=' then (b :: rest).reverse else rest.reverse
  | [a] => if a ≠ '=' then text else []
  | [] => []

/-- The sextet of a letter of the standard alphabet. -/
def standard? (c : Char) : Option Nat := if c = '-' ∨ c = '_' then none else sextet? c

/-- The bytes of a text without spaces, `none` where it is no text of the standard alphabet. -/
def decodeGroups (text : List Char) : Option (List UInt8) :=
  let unpadded := if text.length % 4 = 0 then dropPadding text else text
  if unpadded.length % 4 = 1 then none else (unpadded.mapM standard?).map bytesOf

def decode? (text : List Char) : Option (List UInt8) :=
  decodeGroups (text.filter fun c => !isAsciiSpace c)

private theorem letter_facts {sextet : Nat} (h : sextet < 64) :
    standard? (letter '+' '/' sextet) = some sextet ∧ isAsciiSpace (letter '+' '/' sextet) = false ∧
      letter '+' '/' sextet ≠ '=' := by
  have hall : ∀ n < 64, standard? (letter '+' '/' n) = some n ∧
      isAsciiSpace (letter '+' '/' n) = false ∧ letter '+' '/' n ≠ '=' := by
    decide +kernel
  exact hall sextet h

private theorem mapM_unpadded {sextets : List Nat} (h : ∀ sextet ∈ sextets, sextet < 64) :
    (sextets.map (letter '+' '/')).mapM standard? = some sextets := by
  induction sextets with
  | nil => rfl
  | cons sextet sextets ih =>
      have hfirst := (letter_facts (h sextet List.mem_cons_self)).1
      have hrest := ih fun s hs => h s (List.mem_cons_of_mem sextet hs)
      rw [List.map_cons, List.mapM_cons, hfirst, hrest]
      rfl

theorem unpadded_ne_padding {bytes : List UInt8} {c : Char} (h : c ∈ unpadded '+' '/' bytes) :
    c ≠ '=' := by
  obtain ⟨sextet, hsextet, rfl⟩ := List.mem_map.mp h
  exact (letter_facts (sextetsOf_lt hsextet)).2.2

private theorem dropPadding_replicate {text : List Char} (h : ∀ c ∈ text, c ≠ '=') {n : Nat}
    (hn : n ≤ 2) : dropPadding (text ++ List.replicate n '=') = text := by
  have hback : (text ++ List.replicate n '=').reverse = List.replicate n '=' ++ text.reverse := by
    rw [List.reverse_append, List.reverse_replicate]
  have hplain : ∀ c ∈ text.reverse, c ≠ '=' := fun c hc => h c (List.mem_reverse.mp hc)
  have htext : text = text.reverse.reverse := (List.reverse_reverse text).symm
  unfold dropPadding
  rw [hback]
  generalize hrev : text.reverse = back at hplain htext
  obtain rfl | rfl | rfl : n = 0 ∨ n = 1 ∨ n = 2 := by omega
  · match back with
    | [] => simpa using htext.symm
    | [a] => simp [hplain]
    | a :: b :: rest => simp [hplain]
  · match back with
    | [] => simpa using htext.symm
    | b :: rest => simp [hplain, htext]
  · simp [htext]

/-- What `btoa` writes reads back. -/
theorem decode?_padded (bytes : List UInt8) :
    decode? (unpadded '+' '/' bytes ++ padding bytes) = some bytes := by
  have hspace : (unpadded '+' '/' bytes ++ padding bytes).filter (fun c => !isAsciiSpace c) =
      unpadded '+' '/' bytes ++ padding bytes := by
    rw [List.filter_eq_self]
    intro c hc
    rcases List.mem_append.mp hc with hc | hc
    · obtain ⟨sextet, hsextet, rfl⟩ := List.mem_map.mp hc
      rw [(letter_facts (sextetsOf_lt hsextet)).2.1]
      rfl
    · rw [(List.mem_replicate.mp hc).2]
      decide
  have hunpadded : (unpadded '+' '/' bytes).length = (bytes.length * 4 + 2) / 3 := by
    rw [unpadded, List.length_map, length_sextetsOf]
  have hlength : (unpadded '+' '/' bytes ++ padding bytes).length % 4 = 0 := by
    rw [List.length_append, hunpadded, padding, List.length_replicate]
    have hrest : bytes.length % 3 = 0 ∨ bytes.length % 3 = 1 ∨ bytes.length % 3 = 2 := by omega
    rcases hrest with h | h | h <;>
      · rw [h]
        omega
  have hdrop : dropPadding (unpadded '+' '/' bytes ++ padding bytes) = unpadded '+' '/' bytes :=
    dropPadding_replicate (fun c hc => unpadded_ne_padding hc) (by omega)
  have hwhole : ¬ (unpadded '+' '/' bytes).length % 4 = 1 := by
    rw [hunpadded]
    omega
  rw [decode?, hspace, decodeGroups, if_pos hlength, hdrop, if_neg hwhole, unpadded,
    mapM_unpadded fun _ => sextetsOf_lt, Option.map_some, bytesOf_sextetsOf]

end Base64
