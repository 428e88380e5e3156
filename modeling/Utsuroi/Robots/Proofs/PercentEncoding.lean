import Utsuroi.Robots.PercentEncoding

/-!
# Normalising twice

What is normalised is normalised again without a change, but for a `%` that begins no escape where
what follows it is written as one.
-/

namespace Utsuroi

/-- The piece is written as this hexadecimal digit. -/
def PercentPiece.WritesHex (piece : PercentPiece) (unit digit : Nat) : Prop :=
  piece.out = [unit] ∧ hexUnit? unit = some digit

/-- A lower-case hexadecimal digit. -/
def isLowerHex (unit : Nat) : Bool := 0x61 ≤ unit && unit ≤ 0x66

/-- The escape of these digits is normalised to something else. -/
def changesEscape (b c x y : Nat) : Bool :=
  isUnreservedByte (x * 16 + y) || isLowerHex b || isLowerHex c

/-- Behind a `%` the two pieces are written as an escape that is not in normal form. -/
def CompletesEscape (first second : PercentPiece) : Prop :=
  ∃ b c x y, first.WritesHex b x ∧ second.WritesHex c y ∧ changesEscape b c x y = true

/-- No `%` that begins no escape is completed to one that is not in normal form. -/
def NoLateEscape (pieces : List PercentPiece) : Prop :=
  ∀ front first second back, pieces = front ++ .point 0x25 :: first :: second :: back →
    ¬ CompletesEscape first second

section Reading

variable {a b c x y : Nat} {rest : List Nat}

theorem hexUnit?_cases (h : hexUnit? b = some x) :
    x < 16 ∧ (b = hexUpperUnit x ∧ isLowerHex b = false ∨ b ≠ hexUpperUnit x ∧ isLowerHex b = true) := by
  simp only [hexUnit?] at h
  simp only [hexUpperUnit, isLowerHex]
  split at h
  · have hx := Option.some.inj h
    refine ⟨by omega, .inl ⟨?_, ?_⟩⟩
    · rw [if_pos (by omega)]
      omega
    · simp
      omega
  · split at h
    · have hx := Option.some.inj h
      refine ⟨by omega, .inr ⟨?_, ?_⟩⟩
      · rw [if_neg (by omega)]
        omega
      · simp
        omega
    · split at h
      · have hx := Option.some.inj h
        refine ⟨by omega, .inl ⟨?_, ?_⟩⟩
        · rw [if_neg (by omega)]
          omega
        · simp
          omega
      · cases h

theorem hexUnit?_upper (digit : Nat) (h : digit < 16) : hexUnit? (hexUpperUnit digit) = some digit := by
  have hall : ∀ digit : Fin 16, hexUnit? (hexUpperUnit digit) = some digit.val := by decide
  exact hall ⟨digit, h⟩

/-- An escape in upper case is read back. -/
theorem normalizeUnits_percentUnits {byte : Nat} (h : byte < 256)
    (hreserved : isUnreservedByte byte = false) (rest : List Nat) :
    normalizeUnits (percentUnits byte ++ rest) = percentUnits byte ++ normalizeUnits rest := by
  have hvalue : byte / 16 * 16 + byte % 16 = byte := Nat.div_add_mod' byte 16
  have hpieces : percentPieces (percentUnits byte ++ rest) = .escape byte :: percentPieces rest := by
    have hhigh := hexUnit?_upper (byte / 16) (by omega)
    have hlow := hexUnit?_upper (byte % 16) (by omega)
    rw [percentUnits, List.cons_append, List.cons_append, List.cons_append, List.nil_append,
      percentPieces_escape hhigh hlow, hvalue]
  rw [normalizeUnits, hpieces, List.flatMap_cons, PercentPiece.out, hreserved]
  rfl

/-- A printable character that begins no escape is left alone. -/
theorem normalizeUnits_printable (hlow : 0x20 < a) (hhigh : a < 0x7f)
    (h : a = 0x25 → ¬ StartsHex rest) :
    normalizeUnits (a :: rest) = a :: normalizeUnits rest := by
  have hout : (PercentPiece.point a).out = [a] := by
    have hnot : (a ≤ 0x20 || a == 0x7f) = false := by
      simp
      omega
    rw [PercentPiece.out, if_neg (by omega), hnot]
    rfl
  rw [normalizeUnits, percentPieces_point (.inl (by omega)) h, List.flatMap_cons, hout]
  rfl

theorem hexUnit?_printable (h : hexUnit? b = some x) : 0x20 < b ∧ b < 0x7f ∧ b ≠ 0x25 := by
  simp only [hexUnit?] at h
  split at h
  · omega
  · split at h
    · omega
    · split at h
      · omega
      · cases h

theorem normalizeUnits_escape (hb : hexUnit? b = some x) (hc : hexUnit? c = some y) :
    normalizeUnits (0x25 :: b :: c :: rest) =
      (PercentPiece.escape (x * 16 + y)).out ++ normalizeUnits rest := by
  rw [normalizeUnits, percentPieces_escape hb hc]
  rfl

/-- How digits behind a `%` are written. -/
theorem out_escape (hb : hexUnit? b = some x) (hc : hexUnit? c = some y) :
    (PercentPiece.escape (x * 16 + y)).out =
      if isUnreservedByte (x * 16 + y) then [x * 16 + y]
      else [0x25, hexUpperUnit x, hexUpperUnit y] := by
  have hx := (hexUnit?_cases hb).1
  have hy := (hexUnit?_cases hc).1
  have hhigh : (x * 16 + y) / 16 = x := by omega
  have hlow : (x * 16 + y) % 16 = y := by omega
  rw [PercentPiece.out, percentUnits, hhigh, hlow]

/-- Digits behind a `%` that began no escape are left as they are when their escape is in normal
form. -/
theorem normalizeUnits_late (hb : hexUnit? b = some x) (hc : hexUnit? c = some y)
    (h : changesEscape b c x y = false) :
    normalizeUnits (0x25 :: b :: c :: rest) = 0x25 :: normalizeUnits (b :: c :: rest) := by
  have hbprint := hexUnit?_printable hb
  have hcprint := hexUnit?_printable hc
  rw [changesEscape, Bool.or_eq_false_iff, Bool.or_eq_false_iff] at h
  have hbupper := (hexUnit?_cases hb).2.resolve_right fun hlower => by simp [hlower.2] at h
  have hcupper := (hexUnit?_cases hc).2.resolve_right fun hlower => by simp [hlower.2] at h
  rw [normalizeUnits_escape hb hc, out_escape hb hc, h.1.1,
    normalizeUnits_printable hbprint.1 hbprint.2.1 fun h => absurd h hbprint.2.2,
    normalizeUnits_printable hcprint.1 hcprint.2.1 fun h => absurd h hcprint.2.2, ← hbupper.1,
    ← hcupper.1]
  rfl

/-- Otherwise something else comes out. -/
theorem not_changesEscape (hb : hexUnit? b = some x) (hc : hexUnit? c = some y) {text : List Nat}
    (h : normalizeUnits (0x25 :: b :: c :: rest) = 0x25 :: b :: c :: text) :
    changesEscape b c x y = false := by
  rw [normalizeUnits_escape hb hc, out_escape hb hc] at h
  rw [changesEscape]
  cases hunreserved : isUnreservedByte (x * 16 + y) with
  | true =>
      rw [hunreserved, if_pos rfl] at h
      exact absurd (List.cons.inj h).1 (isUnreservedByte_lt hunreserved).2.2
  | false =>
      rw [hunreserved, if_neg (by decide)] at h
      simp only [List.cons_append, List.nil_append, List.cons.injEq, true_and] at h
      have hbupper := (hexUnit?_cases hb).2.resolve_right fun hlower => hlower.1 h.1.symm
      have hcupper := (hexUnit?_cases hc).2.resolve_right fun hlower => hlower.1 h.2.1.symm
      rw [hbupper.2, hcupper.2]
      rfl

theorem normalizeUnits_bytes {bytes : List Nat}
    (h : ∀ byte ∈ bytes, byte < 256 ∧ isUnreservedByte byte = false) (rest : List Nat) :
    normalizeUnits (bytes.flatMap percentUnits ++ rest) =
      bytes.flatMap percentUnits ++ normalizeUnits rest := by
  induction bytes with
  | nil => rfl
  | cons byte bytes ih =>
      have hbyte := h byte List.mem_cons_self
      rw [List.flatMap_cons, List.append_assoc, List.append_assoc,
        normalizeUnits_percentUnits hbyte.1 hbyte.2,
        ih fun other hother => h other (List.mem_cons_of_mem byte hother)]

end Reading

section Pieces

/-- A piece as `percentPieces` makes them. -/
def PercentPiece.Ok : PercentPiece → Prop
  | escape code => code < 256
  | point _ => True

theorem percentPieces_ok (input : List Nat) : ∀ piece ∈ percentPieces input, piece.Ok := by
  fun_induction percentPieces input with
  | case1 => simp
  | case2 a => simp [PercentPiece.Ok]
  | case3 a b h => simp [PercentPiece.Ok]
  | case4 a b h => simp [PercentPiece.Ok]
  | case5 a b c rest high low hlow hhigh ih =>
      rw [List.forall_mem_cons]
      refine ⟨?_, ih⟩
      split at hhigh
      · have hx := (hexUnit?_cases hhigh).1
        have hy := (hexUnit?_cases hlow).1
        simp only [PercentPiece.Ok]
        omega
      · cases hhigh
  | case6 a b c rest hnone h ih =>
      rw [List.forall_mem_cons]
      exact ⟨trivial, ih⟩
  | case7 a b c rest hnone h ih =>
      rw [List.forall_mem_cons]
      exact ⟨trivial, ih⟩

theorem utf8_byte {c : Char} {byte : UInt8} (h : byte ∈ String.utf8EncodeChar c) :
    byte.toNat = c.toNat ∨ 0x80 ≤ byte.toNat := by
  have hval : c.val.toNat = c.toNat := rfl
  have hvalid : c.toNat < 0xD800 ∨ 0xDFFF < c.toNat ∧ c.toNat < 0x110000 := c.valid
  unfold String.utf8EncodeChar at h
  simp only [hval] at h
  split at h
  · rw [List.mem_singleton.mp h]
    simp
    omega
  · split at h
    · simp only [List.mem_cons, List.not_mem_nil, or_false] at h
      rcases h with rfl | rfl <;> simp <;> omega
    · split at h
      · simp only [List.mem_cons, List.not_mem_nil, or_false] at h
        rcases h with rfl | rfl | rfl <;> simp <;> omega
      · simp only [List.mem_cons, List.not_mem_nil, or_false] at h
        rcases h with rfl | rfl | rfl | rfl <;> simp <;> omega

theorem encodePoint_bytes {codePoint : Nat} (h : 0x7e < codePoint) :
    encodePoint codePoint ≠ [] ∧
      ∀ byte ∈ encodePoint codePoint, byte < 256 ∧ isUnreservedByte byte = false := by
  have hfar : ∀ byte, byte = 0 ∨ 0x7e < byte → isUnreservedByte byte = false := by
    intro byte hbyte
    rw [← Bool.not_eq_true]
    intro hunreserved
    have hlt := isUnreservedByte_lt hunreserved
    omega
  rw [encodePoint]
  split
  · refine ⟨List.cons_ne_nil _ _, ?_⟩
    decide
  · refine ⟨?_, fun byte hbyte => ?_⟩
    · rw [ne_eq, List.map_eq_nil_iff]
      exact fun hnil => Utf8.encode_ne_nil (List.cons_ne_nil (Char.ofNat codePoint) [])
        (by rw [Utf8.encode, List.flatMap_cons, hnil]; rfl)
    · obtain ⟨byte, hmem, rfl⟩ := List.mem_map.mp hbyte
      refine ⟨byte.toNat_lt, hfar _ ?_⟩
      rcases utf8_byte hmem with hsame | hhigh
      · rw [hsame]
        by_cases hvalid : codePoint.isValidChar
        · have hchar : (Char.ofNat codePoint).toNat = codePoint := by
            unfold Char.ofNat
            rw [dif_pos hvalid]
            rfl
          omega
        · have hchar : (Char.ofNat codePoint).toNat = 0 := by
            unfold Char.ofNat
            rw [dif_neg hvalid]
            rfl
          omega
      · omega

/-- What a piece is written as: one printable character, or escapes in normal form. -/
theorem out_cases {piece : PercentPiece} (hok : piece.Ok) :
    (∃ unit, piece.out = [unit] ∧ 0x20 < unit ∧ unit < 0x7f ∧
      (unit = 0x25 → piece = .point 0x25)) ∨
    ∃ bytes, piece.out = bytes.flatMap percentUnits ∧ bytes ≠ [] ∧
      ∀ byte ∈ bytes, byte < 256 ∧ isUnreservedByte byte = false := by
  cases piece with
  | escape code =>
      rw [PercentPiece.out]
      cases hunreserved : isUnreservedByte code with
      | true =>
          have hcode := isUnreservedByte_lt hunreserved
          exact .inl ⟨code, rfl, hcode.1, hcode.2.1, fun h => absurd h hcode.2.2⟩
      | false =>
          exact .inr ⟨[code], by simp, List.cons_ne_nil code [],
            List.forall_mem_singleton.mpr ⟨hok, hunreserved⟩⟩
  | point codePoint =>
      rw [PercentPiece.out]
      split
      · next hhigh =>
          have hbytes := encodePoint_bytes hhigh
          exact .inr ⟨_, rfl, hbytes.1, hbytes.2⟩
      · split
        · next hhigh hlow =>
            have hsmall : codePoint ≤ 0x20 := by
              simp only [Bool.or_eq_true, decide_eq_true_eq, beq_iff_eq] at hlow
              omega
            have hreserved : isUnreservedByte codePoint = false := by
              rw [← Bool.not_eq_true]
              intro hunreserved
              have hlt := isUnreservedByte_lt hunreserved
              omega
            exact .inr ⟨[codePoint], by simp, List.cons_ne_nil codePoint [],
              List.forall_mem_singleton.mpr ⟨by omega, hreserved⟩⟩
        · next hhigh hlow =>
            simp only [Bool.or_eq_true, decide_eq_true_eq, beq_iff_eq, not_or] at hlow
            exact .inl ⟨codePoint, rfl, by omega, by omega, fun h => by rw [h]⟩

theorem noLateEscape_cons (piece : PercentPiece) (pieces : List PercentPiece) :
    NoLateEscape (piece :: pieces) ↔
      (piece = .point 0x25 → ∀ first second back, pieces = first :: second :: back →
        ¬ CompletesEscape first second) ∧ NoLateEscape pieces := by
  constructor
  · intro h
    constructor
    · rintro rfl first second back rfl
      exact h [] first second back rfl
    · intro front first second back hpieces
      exact h (piece :: front) first second back (by rw [hpieces]; rfl)
  · rintro ⟨hhead, hrest⟩ front first second back hpieces
    cases front with
    | nil =>
        have hcons := List.cons.inj hpieces
        exact hhead hcons.1 first second back hcons.2
    | cons other front => exact hrest front first second back (List.cons.inj hpieces).2

/-- A hexadecimal digit is written by one piece alone. -/
theorem writes_of_hex {pieces : List PercentPiece} (hok : ∀ piece ∈ pieces, piece.Ok)
    {unit digit : Nat} {rest : List Nat} (htext : pieces.flatMap PercentPiece.out = unit :: rest)
    (hhex : hexUnit? unit = some digit) :
    ∃ first back, pieces = first :: back ∧ first.WritesHex unit digit ∧
      back.flatMap PercentPiece.out = rest := by
  cases pieces with
  | nil => exact absurd htext (by simp)
  | cons first back =>
      rw [List.flatMap_cons] at htext
      rcases out_cases (hok first List.mem_cons_self) with ⟨other, hout, _⟩ | ⟨bytes, hout, hne, _⟩
      · rw [hout, List.singleton_append] at htext
        have hcons := List.cons.inj htext
        exact ⟨first, back, rfl, ⟨by rw [hout, hcons.1], hhex⟩, hcons.2⟩
      · obtain ⟨byte, bytes, rfl⟩ := List.exists_cons_of_ne_nil hne
        rw [hout] at htext
        have hpercent : unit = 0x25 := (List.cons.inj htext).1.symm
        exact absurd hpercent (hexUnit?_printable hhex).2.2

theorem normalizeUnits_out {pieces : List PercentPiece} (hok : ∀ piece ∈ pieces, piece.Ok) :
    normalizeUnits (pieces.flatMap PercentPiece.out) = pieces.flatMap PercentPiece.out ↔
      NoLateEscape pieces := by
  induction pieces with
  | nil => exact iff_of_true rfl fun front _ _ _ h => absurd h (by simp)
  | cons piece pieces ih =>
      have hmore : ∀ piece ∈ pieces, piece.Ok := fun other h => hok other (List.mem_cons_of_mem piece h)
      rw [List.flatMap_cons, noLateEscape_cons, ← ih hmore]
      rcases out_cases (hok piece List.mem_cons_self) with
        ⟨unit, hout, hlow, hhigh, hpercent⟩ | ⟨bytes, hout, hne, hbytes⟩
      · rw [hout, List.singleton_append]
        by_cases hlate : unit = 0x25 ∧ StartsHex (pieces.flatMap PercentPiece.out)
        · obtain ⟨rfl, hhex⟩ := hlate
          match htext : pieces.flatMap PercentPiece.out, hhex with
          | b :: c :: rest, hhex =>
              obtain ⟨x, hx⟩ := Option.isSome_iff_exists.mp hhex.1
              obtain ⟨y, hy⟩ := Option.isSome_iff_exists.mp hhex.2
              obtain ⟨first, pieces, rfl, hfirst, htail⟩ := writes_of_hex hmore htext hx
              obtain ⟨second, back, rfl, hsecond, _⟩ := writes_of_hex
                (fun other h => hmore other (List.mem_cons_of_mem first h)) htail hy
              constructor
              · intro heq
                have hkeeps := not_changesEscape hx hy heq
                rw [normalizeUnits_late hx hy hkeeps] at heq
                refine ⟨fun _ first' second' back' hcons => ?_, (List.cons.inj heq).2⟩
                have hone := List.cons.inj hcons
                have htwo := List.cons.inj hone.2
                rw [← hone.1, ← htwo.1]
                rintro ⟨b', c', x', y', hfirst', hsecond', hchanges⟩
                have hb : b' = b := (List.cons.inj (hfirst'.1.symm.trans hfirst.1)).1
                have hc : c' = c := (List.cons.inj (hsecond'.1.symm.trans hsecond.1)).1
                subst hb hc
                have hx' : x' = x := Option.some.inj (hfirst'.2.symm.trans hx)
                have hy' : y' = y := Option.some.inj (hsecond'.2.symm.trans hy)
                rw [hx', hy', hkeeps] at hchanges
                exact absurd hchanges (by decide)
              · rintro ⟨hno, heq⟩
                have hkeeps : changesEscape b c x y = false := by
                  rw [← Bool.not_eq_true]
                  exact fun hchanges => hno (hpercent rfl) first second back rfl
                    ⟨b, c, x, y, hfirst, hsecond, hchanges⟩
                rw [normalizeUnits_late hx hy hkeeps, heq]
        · have hread := normalizeUnits_printable hlow hhigh fun h hhex => hlate ⟨h, hhex⟩
          rw [hread, List.cons.injEq, and_iff_right rfl, iff_and_self]
          rintro _ hpiece first second back rfl ⟨b, c, x, y, hfirst, hsecond, _⟩
          apply hlate
          have hunit : (PercentPiece.point 0x25).out = [0x25] := rfl
          rw [hpiece, hunit] at hout
          refine ⟨(List.cons.inj hout).1.symm, ?_⟩
          rw [List.flatMap_cons, List.flatMap_cons, hfirst.1, hsecond.1]
          exact ⟨by rw [hfirst.2]; rfl, by rw [hsecond.2]; rfl⟩
      · rw [hout, normalizeUnits_bytes hbytes, List.append_cancel_left_eq, iff_and_self]
        rintro _ rfl
        obtain ⟨byte, bytes, rfl⟩ := List.exists_cons_of_ne_nil hne
        have hlength := congrArg List.length hout
        simp [PercentPiece.out, percentUnits] at hlength

/-- Normalising a second time changes nothing exactly when no `%` that begins no escape stands
before two characters or escapes of hexadecimal digits that are written as an escape of an
unreserved character or with a lower-case digit.  The units may be any; those of a string of
characters are what the rules of a file and the path of a URL are normalised from. -/
theorem normalizePercentEncoding_idempotent_iff :
    (∀ input : List Nat, normalizeUnits (normalizeUnits input) = normalizeUnits input ↔
      NoLateEscape (percentPieces input)) ∧
    ∀ input : String, normalizePercentEncoding (normalizePercentEncoding input) =
      normalizePercentEncoding input ↔ NoLateEscape (percentPieces (utf16Units input)) := by
  have hunits : ∀ input : List Nat, normalizeUnits (normalizeUnits input) = normalizeUnits input ↔
      NoLateEscape (percentPieces input) := fun input => normalizeUnits_out (percentPieces_ok input)
  refine ⟨hunits, fun input => ?_⟩
  rw [← hunits, normalizeUnits_string, normalizeUnits_string, utf16Units_injective.eq_iff]

/-- The escaped digit completes an escape: `%4%31` is written `%41` and then `A`. -/
theorem normalizePercentEncoding_late :
    normalizePercentEncoding "%4%31" = "%41" ∧
      normalizePercentEncoding (normalizePercentEncoding "%4%31") = "A" ∧
      normalizeUnits (normalizeUnits (utf16Units "%4%31")) ≠ normalizeUnits (utf16Units "%4%31") := by
  decide +kernel

end Pieces

end Utsuroi
