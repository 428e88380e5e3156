import Mathlib.Algebra.Group.Nat.Defs
import Mathlib.Data.List.Basic

/-!
# JSON

Values, the text they are written as, and the reader.  Whatever is written reads back as itself.
-/

/-- A number is the decimal `mantissa * 10 ^ exponent`; members stand in the order written. -/
inductive Json
  | null
  | bool (value : Bool)
  | number (mantissa exponent : Int)
  | string (value : String)
  | array (items : List Json)
  | object (members : List (String × Json))

namespace Json

def int (n : Int) : Json := .number n 0

/-- The number meant. -/
def decimal (mantissa exponent : Int) : Rat :=
  mkRat (mantissa * (10 ^ exponent.toNat : Nat)) (10 ^ (-exponent).toNat)

theorem decimal_int (n : Int) : decimal n 0 = n := by
  simp [decimal, Rat.mkRat_one]

/-- The last member of a key is the one that counts. -/
def member? (members : List (String × Json)) (key : String) : Option Json :=
  members.reverse.lookup key

/-! ## Writer -/

def hexDigits (n : Nat) : List Char :=
  ['0', '0', Nat.digitChar (n / 16), Nat.digitChar (n % 16)]

/-- Quotes, backslashes and control characters are escaped. -/
def escaped (c : Char) : List Char :=
  if c = '"' then ['\\', '"']
  else if c = '\\' then ['\\', '\\']
  else if c.toNat = 8 then ['\\', 'b']
  else if c.toNat = 9 then ['\\', 't']
  else if c.toNat = 10 then ['\\', 'n']
  else if c.toNat = 12 then ['\\', 'f']
  else if c.toNat = 13 then ['\\', 'r']
  else if c.toNat < 0x20 then '\\' :: 'u' :: hexDigits c.toNat
  else [c]

def quoted (value : String) : List Char := '"' :: value.toList.flatMap escaped ++ ['"']

def intText (n : Int) : List Char :=
  if n < 0 then '-' :: Nat.toDigits 10 n.natAbs else Nat.toDigits 10 n.natAbs

/-- A number that is no integer is written with its exponent. -/
def numberText (mantissa exponent : Int) : List Char :=
  if exponent = 0 then intText mantissa else intText mantissa ++ 'e' :: intText exponent

mutual

def text : Json → List Char
  | .null => "null".toList
  | .bool true => "true".toList
  | .bool false => "false".toList
  | .number mantissa exponent => numberText mantissa exponent
  | .string value => quoted value
  | .array [] => "[]".toList
  | .array (item :: items) => '[' :: text item ++ itemsText items
  | .object [] => "\x7b\x7d".toList
  | .object ((key, value) :: members) => '\x7b' :: quoted key ++ ':' :: text value ++ membersText members

def itemsText : List Json → List Char
  | [] => [']']
  | item :: items => ',' :: text item ++ itemsText items

def membersText : List (String × Json) → List Char
  | [] => ['\x7d']
  | (key, value) :: members => ',' :: quoted key ++ ':' :: text value ++ membersText members

end

/-! ## Reader -/

def isSpace (c : Char) : Bool := c = ' ' || c = '\t' || c = '\n' || c = '\r'

def skipSpace (text : List Char) : List Char := text.dropWhile isSpace

def hex? (c : Char) : Option Nat :=
  if c.isDigit then some (c.toNat - 48)
  else if 97 ≤ c.toNat ∧ c.toNat ≤ 102 then some (c.toNat - 87)
  else if 65 ≤ c.toNat ∧ c.toNat ≤ 70 then some (c.toNat - 55)
  else none

def escape? (c : Char) : Option Char :=
  if c = '"' ∨ c = '\\' ∨ c = '/' then some c
  else if c = 'b' then some (Char.ofNat 8)
  else if c = 't' then some '\t'
  else if c = 'n' then some '\n'
  else if c = 'f' then some (Char.ofNat 12)
  else if c = 'r' then some '\r'
  else none

/-- What stands up to the closing quote: characters, and the UTF-16 units of numeric escapes. -/
def pieces : List Char → Option (List (Char ⊕ Nat) × List Char)
  | [] => none
  | c :: text =>
    if c = '"' then some ([], text)
    else if c = '\\' then
      match text with
      | [] => none
      | e :: text =>
        if e = 'u' then
          match text with
          | a :: b :: c :: d :: text => do
            let unit := (((← hex? a) * 16 + (← hex? b)) * 16 + (← hex? c)) * 16 + (← hex? d)
            let r ← pieces text
            some (.inr unit :: r.1, r.2)
          | _ => none
        else do
          let c ← escape? e
          let r ← pieces text
          some (.inl c :: r.1, r.2)
    else if c.toNat < 0x20 then none
    else do
      let r ← pieces text
      some (.inl c :: r.1, r.2)

/-- Half of a surrogate pair stands for no character. -/
def single (unit : Nat) : Char :=
  if 0xD800 ≤ unit ∧ unit < 0xE000 then Char.ofNat 0xFFFD else Char.ofNat unit

def joined : List (Char ⊕ Nat) → List Char
  | [] => []
  | .inl c :: more => c :: joined more
  | [.inr unit] => [single unit]
  | .inr high :: .inr low :: more =>
    if 0xD800 ≤ high ∧ high < 0xDC00 ∧ 0xDC00 ≤ low ∧ low < 0xE000 then
      Char.ofNat (0x10000 + (high - 0xD800) * 0x400 + (low - 0xDC00)) :: joined more
    else single high :: joined (.inr low :: more)
  | .inr unit :: .inl c :: more => single unit :: c :: joined more

/-- The string after an opening quote. -/
def readString (text : List Char) : Option (String × List Char) :=
  (pieces text).map fun r => (String.ofList (joined r.1), r.2)

def readLiteral (word : List Char) (value : Json) (text : List Char) : Option (Json × List Char) :=
  if word.isPrefixOf text then some (value, text.drop word.length) else none

/-- Digits, at least one. -/
def readDigits (text : List Char) : Option (List Char × List Char) :=
  let digits := text.takeWhile Char.isDigit
  if digits = [] then none else some (digits, text.dropWhile Char.isDigit)

def readSign (text : List Char) : Int × List Char :=
  match text with
  | '-' :: text => (-1, text)
  | text => (1, text)

def readFraction (text : List Char) : Option (List Char × List Char) :=
  match text with
  | '.' :: text => readDigits text
  | text => some ([], text)

def readExponentSign (text : List Char) : Int × List Char :=
  match text with
  | '+' :: text => (1, text)
  | text => readSign text

def readExponent (text : List Char) : Option (Int × List Char) :=
  match text with
  | [] => some (0, [])
  | c :: rest =>
    if c = 'e' ∨ c = 'E' then
      let signed := readExponentSign rest
      (readDigits signed.2).map fun r => (signed.1 * (Nat.ofDigitChars 10 r.1 0 : Nat), r.2)
    else some (0, c :: rest)

def readNumber (text : List Char) : Option (Json × List Char) := do
  let signed := readSign text
  let whole ← readDigits signed.2
  -- No number but zero starts with a zero.
  guard (whole.1 = ['0'] ∨ whole.1.head? ≠ some '0')
  let fraction ← readFraction whole.2
  let exponent ← readExponent fraction.2
  some (.number (signed.1 * (Nat.ofDigitChars 10 (whole.1 ++ fraction.1) 0 : Nat))
    (exponent.1 - fraction.1.length), exponent.2)

mutual

def readValue : Nat → List Char → Option (Json × List Char)
  | 0, _ => none
  | fuel + 1, text =>
    match skipSpace text with
    | [] => none
    | c :: rest =>
      if c = '\x7b' then
        match skipSpace rest with
        | '\x7d' :: rest => some (.object [], rest)
        | rest => (readMembers fuel rest).map fun r => (.object r.1, r.2)
      else if c = '[' then
        match skipSpace rest with
        | ']' :: rest => some (.array [], rest)
        | rest => (readItems fuel rest).map fun r => (.array r.1, r.2)
      else if c = '"' then (readString rest).map fun r => (.string r.1, r.2)
      else if c = 't' then readLiteral "rue".toList (.bool true) rest
      else if c = 'f' then readLiteral "alse".toList (.bool false) rest
      else if c = 'n' then readLiteral "ull".toList .null rest
      else readNumber (c :: rest)

def readItems : Nat → List Char → Option (List Json × List Char)
  | 0, _ => none
  | fuel + 1, text => do
    let (item, rest) ← readValue fuel text
    match skipSpace rest with
    | ',' :: rest => (readItems fuel rest).map fun r => (item :: r.1, r.2)
    | ']' :: rest => some ([item], rest)
    | _ => none

def readMembers : Nat → List Char → Option (List (String × Json) × List Char)
  | 0, _ => none
  | fuel + 1, text => do
    let (key, rest) ← match skipSpace text with
      | '"' :: rest => readString rest
      | _ => none
    let rest ← match skipSpace rest with
      | ':' :: rest => some rest
      | _ => none
    let (value, rest) ← readValue fuel rest
    match skipSpace rest with
    | ',' :: rest => (readMembers fuel rest).map fun r => ((key, value) :: r.1, r.2)
    | '\x7d' :: rest => some ([(key, value)], rest)
    | _ => none

end

/-- Every two levels take a character of the text. -/
def parse (text : List Char) : Option Json :=
  match readValue (2 * text.length + 1) text with
  | some (value, rest) => if skipSpace rest = [] then some value else none
  | none => none

/-! ## Strings read back -/

/-- How a character of a string reads. -/
def piece (c : Char) : Char ⊕ Nat :=
  if c.toNat < 0x20 ∧ c.toNat ≠ 8 ∧ c.toNat ≠ 9 ∧ c.toNat ≠ 10 ∧ c.toNat ≠ 12 ∧ c.toNat ≠ 13 then
    .inr c.toNat
  else .inl c

private theorem char_eq {c : Char} {n : Nat} (h : c.toNat = n) : c = Char.ofNat n := by
  rw [← h, Char.ofNat_toNat]

private theorem hex?_digitChar {n : Nat} (h : n < 16) : hex? (Nat.digitChar n) = some n := by
  have hall : ∀ m < 16, hex? (Nat.digitChar m) = some m := by decide
  exact hall n h

private theorem pieces_control {c : Char} (hlow : c.toNat < 0x20) (rest : List Char) :
    pieces ('\\' :: 'u' :: hexDigits c.toNat ++ rest) =
      (pieces rest).map fun r => (.inr c.toNat :: r.1, r.2) := by
  have hhigh := hex?_digitChar (n := c.toNat / 16) (by omega)
  have hrest := hex?_digitChar (n := c.toNat % 16) (Nat.mod_lt _ (by omega))
  have hzero : hex? '0' = some 0 := rfl
  have hunit : c.toNat / 16 * 16 + c.toNat % 16 = c.toNat := Nat.div_add_mod' _ _
  cases hpieces : pieces rest with
  | none =>
      rw [pieces.eq_def]
      simp [hexDigits, hhigh, hrest, hzero, hpieces]
  | some r =>
      rw [pieces.eq_def]
      simp [hexDigits, hhigh, hrest, hzero, hpieces, hunit]

private theorem pieces_escape {e c : Char} (he : e ≠ 'u') (hescape : escape? e = some c)
    (rest : List Char) :
    pieces ('\\' :: e :: rest) = (pieces rest).map fun r => (.inl c :: r.1, r.2) := by
  cases hpieces : pieces rest with
  | none =>
      rw [pieces.eq_def]
      simp [he, hescape, hpieces]
  | some r =>
      rw [pieces.eq_def]
      simp [he, hescape, hpieces]

private theorem pieces_plain {c : Char} (hquote : c ≠ '"') (hslash : c ≠ '\\')
    (hcontrol : ¬ c.toNat < 0x20) (rest : List Char) :
    pieces (c :: rest) = (pieces rest).map fun r => (.inl c :: r.1, r.2) := by
  cases hpieces : pieces rest with
  | none =>
      rw [pieces.eq_def]
      simp [hquote, hslash, hcontrol, hpieces]
  | some r =>
      rw [pieces.eq_def]
      simp [hquote, hslash, hcontrol, hpieces]

theorem pieces_escaped (c : Char) (rest : List Char) :
    pieces (escaped c ++ rest) = (pieces rest).map fun r => (piece c :: r.1, r.2) := by
  by_cases hquote : c = '"'
  · subst hquote
    exact pieces_escape (by decide) rfl rest
  by_cases hslash : c = '\\'
  · subst hslash
    exact pieces_escape (by decide) rfl rest
  by_cases h8 : c.toNat = 8
  · rw [char_eq h8]
    exact pieces_escape (by decide) rfl rest
  by_cases h9 : c.toNat = 9
  · rw [char_eq h9]
    exact pieces_escape (by decide) rfl rest
  by_cases h10 : c.toNat = 10
  · rw [char_eq h10]
    exact pieces_escape (by decide) rfl rest
  by_cases h12 : c.toNat = 12
  · rw [char_eq h12]
    exact pieces_escape (by decide) rfl rest
  by_cases h13 : c.toNat = 13
  · rw [char_eq h13]
    exact pieces_escape (by decide) rfl rest
  by_cases hcontrol : c.toNat < 0x20
  · have hescaped : escaped c = '\\' :: 'u' :: hexDigits c.toNat := by
      simp [escaped, hquote, hslash, h8, h9, h10, h12, h13, hcontrol]
    have hpiece : piece c = .inr c.toNat := by simp [piece, h8, h9, h10, h12, h13, hcontrol]
    rw [hescaped, hpiece]
    exact pieces_control hcontrol rest
  · have hescaped : escaped c = [c] := by
      simp [escaped, hquote, hslash, h8, h9, h10, h12, h13, hcontrol]
    have hpiece : piece c = .inl c := by simp [piece, hcontrol]
    rw [hescaped, hpiece]
    exact pieces_plain hquote hslash hcontrol rest

theorem pieces_string (cs rest : List Char) :
    pieces (cs.flatMap escaped ++ '"' :: rest) = some (cs.map piece, rest) := by
  induction cs with
  | nil =>
      rw [pieces.eq_def]
      simp
  | cons c cs ih => simp [pieces_escaped, ih]

/-- No unit the writer escapes is half of a pair. -/
private theorem joined_small {unit : Nat} (h : unit < 0x20) (more : List (Char ⊕ Nat)) :
    joined (.inr unit :: more) = Char.ofNat unit :: joined more := by
  have hsingle : single unit = Char.ofNat unit := by
    rw [single, if_neg (by omega)]
  match more with
  | [] => simp [joined, hsingle]
  | .inl c :: more => simp [joined, hsingle]
  | .inr low :: more =>
    have hpair : ¬ (0xD800 ≤ unit ∧ unit < 0xDC00 ∧ 0xDC00 ≤ low ∧ low < 0xE000) := by omega
    simp [joined, hsingle, hpair]

theorem joined_piece (cs : List Char) : joined (cs.map piece) = cs := by
  induction cs with
  | nil => rfl
  | cons c cs ih =>
      rw [List.map_cons]
      by_cases hcontrol : c.toNat < 0x20 ∧ c.toNat ≠ 8 ∧ c.toNat ≠ 9 ∧ c.toNat ≠ 10 ∧ c.toNat ≠ 12 ∧
          c.toNat ≠ 13
      · have hpiece : piece c = .inr c.toNat := by rw [piece, if_pos hcontrol]
        rw [hpiece, joined_small hcontrol.1, ih, Char.ofNat_toNat]
      · have hpiece : piece c = .inl c := by rw [piece, if_neg hcontrol]
        rw [hpiece, joined, ih]

theorem readString_quoted (value : String) (rest : List Char) :
    readString (value.toList.flatMap escaped ++ '"' :: rest) = some (value, rest) := by
  simp [readString, pieces_string, joined_piece]

/-! ## Numbers read back -/

/-- What may stand after a value. -/
def Stops (rest : List Char) : Prop := ∀ c ∈ rest.head?, c = ',' ∨ c = ']' ∨ c = '\x7d'

private theorem stops_nil : Stops [] := by simp [Stops]

private theorem not_digit_of_stops {rest : List Char} (h : Stops rest) :
    rest.dropWhile Char.isDigit = rest ∧ rest.takeWhile Char.isDigit = [] := by
  match rest with
  | [] => simp
  | c :: rest =>
    have hdigit : c.isDigit = false := by
      rcases h c rfl with rfl | rfl | rfl <;> rfl
    simp [hdigit]

private theorem toDigits_isDigit (n : Nat) : ∀ c ∈ Nat.toDigits 10 n, c.isDigit = true :=
  fun _ => Nat.isDigit_of_mem_toDigits (by decide) (by decide)

private theorem readDigits_toDigits (n : Nat) {rest : List Char}
    (hdrop : rest.dropWhile Char.isDigit = rest) (htake : rest.takeWhile Char.isDigit = []) :
    readDigits (Nat.toDigits 10 n ++ rest) = some (Nat.toDigits 10 n, rest) := by
  have hne : Nat.toDigits 10 n ≠ [] := Nat.toDigits_ne_nil
  rw [readDigits, List.takeWhile_append_of_pos (toDigits_isDigit n),
    List.dropWhile_append_of_pos (toDigits_isDigit n), hdrop, htake, List.append_nil]
  simp [hne]

/-- The first digit is no zero. -/
private theorem toDigits_head {n : Nat} (h : n ≠ 0) : (Nat.toDigits 10 n).head? ≠ some '0' := by
  induction n using Nat.strongRecOn with
  | ind n ih =>
    by_cases hlt : n < 10
    · have hall : ∀ m < 10, m ≠ 0 → (Nat.toDigits 10 m).head? ≠ some '0' := by decide
      exact hall n hlt h
    · have hsplit := Nat.toDigits_of_base_le (b := 10) (n := n) (by decide) (by omega)
      have hprefix := ih (n / 10) (by omega) (by omega)
      have hne : Nat.toDigits 10 (n / 10) ≠ [] := Nat.toDigits_ne_nil
      rw [hsplit, List.head?_append_of_ne_nil _ hne]
      exact hprefix

private theorem toDigits_whole (n : Nat) :
    Nat.toDigits 10 n = ['0'] ∨ (Nat.toDigits 10 n).head? ≠ some '0' := by
  by_cases h : n = 0
  · subst h
    decide
  · exact .inr (toDigits_head h)

private theorem toDigits_cons (n : Nat) :
    ∃ c cs, Nat.toDigits 10 n = c :: cs ∧ c.isDigit = true := by
  obtain ⟨c, cs, hcs⟩ := List.exists_cons_of_ne_nil (Nat.toDigits_ne_nil (b := 10) (n := n))
  exact ⟨c, cs, hcs, toDigits_isDigit n c (by simp [hcs])⟩

/-- The sign apart, an integer's text is the digits of its absolute value. -/
private theorem intText_cases (n : Int) :
    n < 0 ∧ intText n = '-' :: Nat.toDigits 10 n.natAbs ∨
      0 ≤ n ∧ intText n = Nat.toDigits 10 n.natAbs := by
  by_cases h : n < 0
  · exact .inl ⟨h, by simp [intText, h]⟩
  · exact .inr ⟨by omega, by simp [intText, h]⟩

private theorem readSign_digit {c : Char} (hc : c.isDigit = true) (rest : List Char) :
    readSign (c :: rest) = (1, c :: rest) := by
  have hminus : c ≠ '-' := by
    intro h
    subst h
    contradiction
  simp [readSign, hminus]

private theorem readSign_intText (n : Int) (rest : List Char) :
    ∃ sign : Int, readSign (intText n ++ rest) = (sign, Nat.toDigits 10 n.natAbs ++ rest) ∧
      sign * (Nat.ofDigitChars 10 (Nat.toDigits 10 n.natAbs) 0 : Nat) = n := by
  rw [Nat.ofDigitChars_ten_toDigits]
  rcases intText_cases n with ⟨hneg, htext⟩ | ⟨hpos, htext⟩
  · exact ⟨-1, by simp [htext, readSign], by omega⟩
  · obtain ⟨c, cs, hcs, hdigit⟩ := toDigits_cons n.natAbs
    refine ⟨1, ?_, by omega⟩
    rw [htext, hcs]
    exact readSign_digit hdigit _

private theorem readExponentSign_intText (n : Int) (rest : List Char) :
    readExponentSign (intText n ++ rest) = readSign (intText n ++ rest) := by
  have hplus : (intText n ++ rest).head? ≠ some '+' := by
    rcases intText_cases n with ⟨hneg, htext⟩ | ⟨hpos, htext⟩
    · simp [htext]
    · obtain ⟨c, cs, hcs, hdigit⟩ := toDigits_cons n.natAbs
      intro h
      simp only [htext, hcs, List.cons_append, List.head?_cons, Option.some.injEq] at h
      subst h
      contradiction
  match h : intText n ++ rest with
  | [] => rfl
  | c :: text =>
    have hne : c ≠ '+' := by simpa [h] using hplus
    simp [readExponentSign, hne]

private theorem readExponent_stops {rest : List Char} (h : Stops rest) :
    readExponent rest = some (0, rest) := by
  match rest with
  | [] => rfl
  | c :: rest =>
    have hne : ¬ (c = 'e' ∨ c = 'E') := by
      rcases h c rfl with rfl | rfl | rfl <;> decide
    simp [readExponent, hne]

private theorem readExponent_intText (n : Int) {rest : List Char} (h : Stops rest) :
    readExponent ('e' :: (intText n ++ rest)) = some (n, rest) := by
  obtain ⟨hdrop, htake⟩ := not_digit_of_stops h
  obtain ⟨sign, hsign, hn⟩ := readSign_intText n rest
  rw [readExponent, if_pos (.inl rfl), readExponentSign_intText, hsign]
  simp only [readDigits_toDigits _ hdrop htake, Option.map_some, hn]

private theorem readFraction_of_ne {rest : List Char} (h : rest.head? ≠ some '.') :
    readFraction rest = some ([], rest) := by
  match rest with
  | [] => rfl
  | c :: rest =>
    have hne : c ≠ '.' := by simpa using h
    simp [readFraction, hne]

/-- The integer, and after it the exponent. -/
private theorem readNumber_intText (mantissa exponent : Int) {tail rest : List Char}
    (hdrop : tail.dropWhile Char.isDigit = tail) (htake : tail.takeWhile Char.isDigit = [])
    (hpoint : tail.head? ≠ some '.') (hexponent : readExponent tail = some (exponent, rest)) :
    readNumber (intText mantissa ++ tail) = some (.number mantissa exponent, rest) := by
  obtain ⟨sign, hsign, hn⟩ := readSign_intText mantissa tail
  have hwhole := toDigits_whole mantissa.natAbs
  rw [readNumber, hsign]
  simp only [readDigits_toDigits _ hdrop htake, Option.bind_eq_bind, Option.bind_some, guard,
    if_pos hwhole, Option.pure_def, readFraction_of_ne hpoint, hexponent, List.append_nil, hn,
    List.length_nil, Int.natCast_zero, Int.sub_zero]

theorem readNumber_numberText (mantissa exponent : Int) {rest : List Char} (h : Stops rest) :
    readNumber (numberText mantissa exponent ++ rest) = some (.number mantissa exponent, rest) := by
  by_cases hzero : exponent = 0
  · subst hzero
    obtain ⟨hdrop, htake⟩ := not_digit_of_stops h
    have hpoint : rest.head? ≠ some '.' := by
      intro hhead
      rcases h '.' hhead with h | h | h <;> contradiction
    simpa [numberText] using readNumber_intText mantissa 0 hdrop htake hpoint (readExponent_stops h)
  · simpa [numberText, hzero] using
      readNumber_intText mantissa exponent (by simp) (by simp) (by simp)
        (readExponent_intText exponent h)

/-! ## Values read back -/

mutual

/-- Fuel enough to read the value's text. -/
def cost : Json → Nat
  | .null => 1
  | .bool _ => 1
  | .number _ _ => 1
  | .string _ => 1
  | .array items => 1 + itemsCost items
  | .object members => 1 + membersCost members

def itemsCost : List Json → Nat
  | [] => 0
  | item :: items => 1 + cost item + itemsCost items

def membersCost : List (String × Json) → Nat
  | [] => 0
  | (_, value) :: members => 1 + cost value + membersCost members

end

private theorem numberText_head (mantissa exponent : Int) :
    ∃ c cs, numberText mantissa exponent = c :: cs ∧ (c = '-' ∨ c.isDigit = true) := by
  have hint : ∃ c cs, intText mantissa = c :: cs ∧ (c = '-' ∨ c.isDigit = true) := by
    rcases intText_cases mantissa with ⟨-, htext⟩ | ⟨-, htext⟩
    · exact ⟨'-', _, htext, .inl rfl⟩
    · obtain ⟨c, cs, hcs, hdigit⟩ := toDigits_cons mantissa.natAbs
      exact ⟨c, cs, htext.trans hcs, .inr hdigit⟩
  obtain ⟨c, cs, hcs, hc⟩ := hint
  by_cases hzero : exponent = 0
  · exact ⟨c, cs, by simp [numberText, hzero, hcs], hc⟩
  · exact ⟨c, cs ++ 'e' :: intText exponent, by simp [numberText, hzero, hcs], hc⟩

/-- No number starts like another kind of value. -/
private theorem number_start {c : Char} (h : c = '-' ∨ c.isDigit = true) :
    isSpace c = false ∧ c ≠ '\x7b' ∧ c ≠ '[' ∧ c ≠ '"' ∧ c ≠ 't' ∧ c ≠ 'f' ∧ c ≠ 'n' ∧ c ≠ ']' ∧
      c ≠ '\x7d' := by
  rcases h with rfl | h
  · decide
  · have hspace : isSpace c = false := by
      by_contra hspace
      simp only [isSpace, Bool.not_eq_false, Bool.or_eq_true, decide_eq_true_eq] at hspace
      rcases hspace with ((rfl | rfl) | rfl) | rfl <;> contradiction
    refine ⟨hspace, ?_, ?_, ?_, ?_, ?_, ?_, ?_, ?_⟩ <;>
      · intro heq
        subst heq
        contradiction

private theorem skipSpace_cons {c : Char} (h : isSpace c = false) (rest : List Char) :
    skipSpace (c :: rest) = c :: rest := by
  simp [skipSpace, h]

/-- A value's text starts with no space and closes nothing. -/
theorem text_head (value : Json) :
    ∃ c cs, text value = c :: cs ∧ isSpace c = false ∧ c ≠ ']' ∧ c ≠ '\x7d' := by
  match value with
  | .null => exact ⟨'n', "ull".toList, by simp [text], by decide⟩
  | .bool true => exact ⟨'t', "rue".toList, by simp [text], by decide⟩
  | .bool false => exact ⟨'f', "alse".toList, by simp [text], by decide⟩
  | .number mantissa exponent =>
      obtain ⟨c, cs, hcs, hc⟩ := numberText_head mantissa exponent
      have hstart := number_start hc
      exact ⟨c, cs, by rw [text, hcs], hstart.1, hstart.2.2.2.2.2.2.2⟩
  | .string value => exact ⟨'"', _, by rw [text, quoted, List.cons_append], by decide⟩
  | .array [] => exact ⟨'[', [']'], by simp [text], by decide⟩
  | .array (item :: items) => exact ⟨'[', _, by rw [text, List.cons_append], by decide⟩
  | .object [] => exact ⟨'\x7b', ['\x7d'], by simp [text], by decide⟩
  | .object ((key, value) :: members) =>
      exact ⟨'\x7b', _, by rw [text, List.cons_append, List.cons_append], by decide⟩

private theorem stops_itemsText (items : List Json) (rest : List Char) :
    Stops (itemsText items ++ rest) := by
  cases items with
  | nil => simp [itemsText, Stops]
  | cons item items => simp [itemsText, Stops]

private theorem stops_membersText (members : List (String × Json)) (rest : List Char) :
    Stops (membersText members ++ rest) := by
  cases members with
  | nil => simp [membersText, Stops]
  | cons member members => simp [membersText, Stops]

mutual

theorem readValue_text : ∀ (value : Json) (fuel : Nat) (rest : List Char), cost value ≤ fuel →
    Stops rest → readValue fuel (text value ++ rest) = some (value, rest)
  | value, 0, rest, hcost, _ => by
      cases value <;> simp [cost] at hcost
  | .null, fuel + 1, rest, _, _ => by
      simp [readValue, text, skipSpace, isSpace, readLiteral]
  | .bool true, fuel + 1, rest, _, _ => by
      simp [readValue, text, skipSpace, isSpace, readLiteral]
  | .bool false, fuel + 1, rest, _, _ => by
      simp [readValue, text, skipSpace, isSpace, readLiteral]
  | .number mantissa exponent, fuel + 1, rest, _, hstops => by
      obtain ⟨c, cs, hcs, hc⟩ := numberText_head mantissa exponent
      obtain ⟨hspace, h₁, h₂, h₃, h₄, h₅, h₆, -⟩ := number_start hc
      have hread := readNumber_numberText mantissa exponent hstops
      rw [hcs, List.cons_append] at hread
      simp [readValue, text, hcs, skipSpace_cons hspace, h₁, h₂, h₃, h₄, h₅, h₆, hread]
  | .string value, fuel + 1, rest, _, _ => by
      simp [readValue, text, quoted, skipSpace, isSpace, readString_quoted]
  | .array [], fuel + 1, rest, _, _ => by
      simp [readValue, text, skipSpace, isSpace]
  | .array (item :: items), fuel + 1, rest, hcost, hstops => by
      obtain ⟨c, cs, hcs, hspace, hclose, -⟩ := text_head item
      have hread := readItems_text item items fuel rest (by simp [cost, itemsCost] at hcost; omega)
      rw [hcs] at hread
      have hskip : skipSpace (c :: (cs ++ (itemsText items ++ rest))) =
          c :: (cs ++ (itemsText items ++ rest)) := skipSpace_cons hspace _
      have hbracket : skipSpace ('[' :: c :: (cs ++ (itemsText items ++ rest))) =
          '[' :: c :: (cs ++ (itemsText items ++ rest)) := skipSpace_cons (by decide) _
      simp only [List.cons_append] at hread
      simp [readValue, text, hcs, hskip, hbracket, hclose, hread]
  | .object [], fuel + 1, rest, _, _ => by
      simp [readValue, text, skipSpace, isSpace]
  | .object ((key, value) :: members), fuel + 1, rest, hcost, hstops => by
      have hread := readMembers_text key value members fuel rest
        (by simp [cost, membersCost] at hcost; omega)
      simp only [quoted, List.cons_append, List.append_assoc, List.nil_append] at hread
      simp [readValue, text, quoted, skipSpace, isSpace, hread]

theorem readItems_text : ∀ (item : Json) (items : List Json) (fuel : Nat) (rest : List Char),
    1 + cost item + itemsCost items ≤ fuel →
      readItems fuel (text item ++ (itemsText items ++ rest)) = some (item :: items, rest)
  | item, items, 0, rest, hcost => by omega
  | item, [], fuel + 1, rest, hcost => by
      have hread := readValue_text item fuel (itemsText [] ++ rest)
        (by simp [itemsCost] at hcost; omega) (stops_itemsText [] rest)
      rw [readItems, hread]
      simp [itemsText, skipSpace, isSpace]
  | item, next :: items, fuel + 1, rest, hcost => by
      have hread := readValue_text item fuel (itemsText (next :: items) ++ rest)
        (by omega) (stops_itemsText (next :: items) rest)
      have hmore := readItems_text next items fuel rest (by simp [itemsCost] at hcost; omega)
      rw [readItems, hread]
      simp [itemsText, skipSpace, isSpace, hmore]

theorem readMembers_text : ∀ (key : String) (value : Json) (members : List (String × Json))
    (fuel : Nat) (rest : List Char), 1 + cost value + membersCost members ≤ fuel →
      readMembers fuel (quoted key ++ ':' :: (text value ++ (membersText members ++ rest))) =
        some ((key, value) :: members, rest)
  | key, value, members, 0, rest, hcost => by omega
  | key, value, [], fuel + 1, rest, hcost => by
      have hread := readValue_text value fuel (membersText [] ++ rest)
        (by simp [membersCost] at hcost; omega) (stops_membersText [] rest)
      simp [readMembers, quoted, skipSpace, isSpace, readString_quoted, hread]
      simp [membersText, isSpace]
  | key, value, (key', next) :: members, fuel + 1, rest, hcost => by
      have hread := readValue_text value fuel (membersText ((key', next) :: members) ++ rest)
        (by omega) (stops_membersText ((key', next) :: members) rest)
      have hmore := readMembers_text key' next members fuel rest
        (by simp [membersCost] at hcost; omega)
      simp [readMembers, quoted, skipSpace, isSpace, readString_quoted, hread]
      simp [membersText, isSpace, hmore]

end

mutual

private theorem cost_le : ∀ value : Json, cost value ≤ 2 * (text value).length
  | .null => by simp [cost, text]
  | .bool true => by simp [cost, text]
  | .bool false => by simp [cost, text]
  | .number mantissa exponent => by
      obtain ⟨c, cs, hcs, -⟩ := numberText_head mantissa exponent
      simp only [cost, text, hcs, List.length_cons]
      omega
  | .string value => by
      simp only [cost, text, quoted, List.length_cons, List.cons_append]
      omega
  | .array [] => by simp [cost, itemsCost, text]
  | .array (item :: items) => by
      have hitem := cost_le item
      have hitems := itemsCost_le items
      simp only [cost, itemsCost, text, List.length_cons, List.length_append, List.cons_append]
      omega
  | .object [] => by simp [cost, membersCost, text]
  | .object ((key, value) :: members) => by
      have hvalue := cost_le value
      have hmembers := membersCost_le members
      simp only [cost, membersCost, text, List.length_cons, List.length_append, List.cons_append]
      omega

private theorem itemsCost_le : ∀ items : List Json, itemsCost items ≤ 2 * (itemsText items).length
  | [] => by simp [itemsCost]
  | item :: items => by
      have hitem := cost_le item
      have hitems := itemsCost_le items
      simp only [itemsCost, itemsText, List.length_cons, List.length_append, List.cons_append]
      omega

private theorem membersCost_le : ∀ members : List (String × Json),
    membersCost members ≤ 2 * (membersText members).length
  | [] => by simp [membersCost]
  | (key, value) :: members => by
      have hvalue := cost_le value
      have hmembers := membersCost_le members
      simp only [membersCost, membersText, List.length_cons, List.length_append, List.cons_append]
      omega

end

/-- Every value reads back as itself. -/
theorem parse_text (value : Json) : parse (text value) = some value := by
  have hcost := cost_le value
  have hread := readValue_text value (2 * (text value).length + 1) [] (by omega) stops_nil
  rw [List.append_nil] at hread
  rw [parse, hread]
  rfl

end Json
