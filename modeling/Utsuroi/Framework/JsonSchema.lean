import Mathlib.Data.List.Forall2
import Mathlib.Data.List.Dedup
import Utsuroi.Framework.Json
import Utsuroi.Framework.Utf8

/-!
# Schemas of JSON values, and the size of their text

A schema accepts a value or does not.  An object written with the members of its schema, each once,
is accepted exactly where each member is.  The bytes of a value's text are counted from its parts.
-/

/-- A check of a value. -/
abbrev Schema := Json → Bool

namespace Schema

def string (check : String → Bool) : Schema
  | .string value => check value
  | _ => false

def number (check : Rat → Bool) : Schema
  | .number mantissa exponent => check (Json.decimal mantissa exponent)
  | _ => false

def boolean : Schema
  | .bool _ => true
  | _ => false

def nullable (schema : Schema) : Schema
  | .null => true
  | value => schema value

/-- The member is there and accepted. -/
def member (members : List (String × Json)) (field : String × Schema) : Bool :=
  (Json.member? members field.1).any field.2

/-- Members the schema does not name are let through. -/
def object (fields : List (String × Schema)) : Schema
  | .object members => fields.all (member members)
  | _ => false

/-- Any members at all, whose keys and values are accepted, and so is the number of keys. -/
def record (key : String → Bool) (value : Schema) (size : Nat → Bool) : Schema
  | .object members =>
    (members.all fun entry => key entry.1 && member members (entry.1, value)) &&
      size (members.map Prod.fst).dedup.length
  | _ => false

/-- The member `tag` says which of the schemas applies. -/
def discriminatedUnion (tag : String) (schemas : List (String × Schema)) : Schema
  | .object members =>
    match Json.member? members tag with
    | some (.string kind) => (schemas.lookup kind).any fun schema => schema (.object members)
    | _ => false
  | _ => false

/-! ## Objects no key of which comes twice -/

private theorem lookup_of_mem {entries : List (String × Json)} {key : String} {value : Json}
    (hkeys : (entries.map Prod.fst).Nodup) (hmem : (key, value) ∈ entries) :
    entries.lookup key = some value := by
  induction entries with
  | nil => cases hmem
  | cons entry entries ih =>
      obtain ⟨hfresh, hrest⟩ := List.nodup_cons.mp hkeys
      rw [List.lookup_cons]
      cases List.mem_cons.mp hmem with
      | inl heq =>
          rw [← heq]
          simp
      | inr htail =>
          have hne : key ≠ entry.1 := by
            intro heq
            rw [← heq] at hfresh
            exact hfresh (List.mem_map_of_mem htail)
          have hbeq : (key == entry.1) = false := beq_eq_false_iff_ne.mpr hne
          rw [hbeq]
          exact ih hrest htail

section Members

variable {members : List (String × Json)} (hnodup : (members.map Prod.fst).Nodup)

include hnodup

theorem member?_eq {key : String} {value : Json} (h : (key, value) ∈ members) :
    Json.member? members key = some value := by
  have hkeys : (members.reverse.map Prod.fst).Nodup := by
    rw [List.map_reverse]
    exact List.nodup_reverse.mpr hnodup
  exact lookup_of_mem hkeys (List.mem_reverse.mpr h)

private theorem all_member_iff {fields : List (String × Schema)} {entries : List (String × Json)}
    (hkeys : fields.map Prod.fst = entries.map Prod.fst) (hentries : entries ⊆ members) :
    fields.all (member members) = true ↔
      List.Forall₂ (fun field entry => field.2 entry.2 = true) fields entries := by
  induction fields generalizing entries with
  | nil =>
      cases entries with
      | nil => simp
      | cons entry entries => cases hkeys
  | cons field fields ih =>
      cases entries with
      | nil => cases hkeys
      | cons entry entries =>
          simp only [List.map_cons, List.cons.injEq] at hkeys
          have hentry : Json.member? members field.1 = some entry.2 := by
            rw [hkeys.1]
            exact member?_eq hnodup (hentries List.mem_cons_self)
          have hrest := ih hkeys.2 fun e he => hentries (List.mem_cons_of_mem entry he)
          rw [List.all_cons, Bool.and_eq_true, hrest, List.forall₂_cons, member, hentry,
            Option.any_some]

/-- Field by field. -/
theorem object_iff {fields : List (String × Schema)}
    (hkeys : fields.map Prod.fst = members.map Prod.fst) :
    object fields (.object members) = true ↔
      List.Forall₂ (fun field entry => field.2 entry.2 = true) fields members :=
  all_member_iff hnodup hkeys fun _ h => h

theorem record_of_forall {key : String → Bool} {value : Schema} {size : Nat → Bool}
    (hentries : ∀ entry ∈ members, key entry.1 = true ∧ value entry.2 = true)
    (hsize : size members.length = true) : record key value size (.object members) = true := by
  unfold record
  rw [Bool.and_eq_true, List.all_eq_true, List.dedup_eq_self.mpr hnodup, List.length_map]
  refine ⟨fun entry hentry => ?_, hsize⟩
  obtain ⟨hkey, hvalue⟩ := hentries entry hentry
  have hmember : Json.member? members entry.1 = some entry.2 := member?_eq hnodup hentry
  rw [Bool.and_eq_true, member, hmember]
  exact ⟨hkey, hvalue⟩

theorem discriminatedUnion_eq {tag kind : String} {schemas : List (String × Schema)}
    {schema : Schema} (htag : (tag, .string kind) ∈ members)
    (hschema : schemas.lookup kind = some schema) :
    discriminatedUnion tag schemas (.object members) = schema (.object members) := by
  unfold discriminatedUnion
  simp only [member?_eq hnodup htag, hschema, Option.any_some]

end Members

end Schema

namespace Json

/-! ## Values of one type -/

def string? : Json → Option String
  | .string value => some value
  | _ => none

def bool? : Json → Option Bool
  | .bool value => some value
  | _ => none

def number? : Json → Option Rat
  | .number mantissa exponent => some (decimal mantissa exponent)
  | _ => none

def object? : Json → Option (List (String × Json))
  | .object members => some members
  | _ => none

/-- The entries of the object read: each key once, with the value that counts. -/
def objectEntries (members : List (String × Json)) : List (String × Json) :=
  (members.map Prod.fst).dedup.filterMap fun key => (member? members key).map fun value => (key, value)

theorem objectEntries_eq {members : List (String × Json)} (hnodup : (members.map Prod.fst).Nodup) :
    objectEntries members = members := by
  have hget : ∀ entry ∈ members, member? members entry.1 = some entry.2 :=
    fun entry hentry => Schema.member?_eq hnodup hentry
  rw [objectEntries, List.dedup_eq_self.mpr hnodup, List.filterMap_map]
  calc members.filterMap _ = members.filterMap some := by
        apply List.filterMap_congr
        intro entry hentry
        simp [hget entry hentry]
    _ = members := List.filterMap_some

/-! ## Sizes -/

/-- The bytes a character of a string takes. -/
def escapedSize (c : Char) : Nat :=
  if c = '"' ∨ c = '\\' ∨ c.toNat = 8 ∨ c.toNat = 9 ∨ c.toNat = 10 ∨ c.toNat = 12 ∨ c.toNat = 13
    then 2
  else if c.toNat < 0x20 then 6
  else c.utf8Size

def charsSize : List Char → Nat
  | [] => 0
  | c :: cs => escapedSize c + charsSize cs

def quotedSize (value : String) : Nat := charsSize value.toList + 2

mutual

/-- The bytes of the value's text. -/
def size : Json → Nat
  | .null => 4
  | .bool true => 4
  | .bool false => 5
  | .number mantissa exponent => (numberText mantissa exponent).length
  | .string value => quotedSize value
  | .array [] => 2
  | .array (item :: items) => size item + itemsSize items + 1
  | .object [] => 2
  | .object ((key, value) :: members) => quotedSize key + size value + membersSize members + 2

def itemsSize : List Json → Nat
  | [] => 1
  | item :: items => size item + itemsSize items + 1

def membersSize : List (String × Json) → Nat
  | [] => 1
  | (key, value) :: members => quotedSize key + size value + membersSize members + 2

end

private theorem digitChar_ascii {n : Nat} (h : n < 16) : (Nat.digitChar n).toNat < 128 := by
  have hall : ∀ m < 16, (Nat.digitChar m).toNat < 128 := by decide
  exact hall n h

private theorem hexDigits_ascii (n : Nat) (h : n < 0x20) : ∀ c ∈ hexDigits n, c.toNat < 128 := by
  intro c hc
  simp only [hexDigits, List.mem_cons, List.not_mem_nil, or_false] at hc
  rcases hc with rfl | rfl | rfl | rfl
  · decide
  · decide
  · exact digitChar_ascii (by omega)
  · exact digitChar_ascii (by omega)

theorem length_encode_append (as bs : List Char) :
    (Utf8.encode (as ++ bs)).length = (Utf8.encode as).length + (Utf8.encode bs).length := by
  simp [Utf8.encode]

theorem length_encode_cons (c : Char) (cs : List Char) :
    (Utf8.encode (c :: cs)).length = c.utf8Size + (Utf8.encode cs).length := by
  simp [Utf8.encode]

theorem length_encode_ascii {cs : List Char} (h : ∀ c ∈ cs, c.toNat < 128) :
    (Utf8.encode cs).length = cs.length := by
  rw [Utf8.encode_ascii h, List.length_map]

theorem length_encode_escaped (c : Char) : (Utf8.encode (escaped c)).length = escapedSize c := by
  by_cases hshort : c = '"' ∨ c = '\\' ∨ c.toNat = 8 ∨ c.toNat = 9 ∨ c.toNat = 10 ∨ c.toNat = 12 ∨
      c.toNat = 13
  · have hcode : ∀ n, c.toNat = n → c = Char.ofNat n := by
      intro n hn
      rw [← hn, Char.ofNat_toNat]
    rw [escapedSize, if_pos hshort]
    rcases hshort with rfl | rfl | h | h | h | h | h
    · decide
    · decide
    all_goals
      rw [hcode _ h]
      decide
  · have hlong := hshort
    simp only [not_or] at hlong
    obtain ⟨hquote, hslash, h8, h9, h10, h12, h13⟩ := hlong
    rw [escapedSize, if_neg hshort]
    by_cases hcontrol : c.toNat < 0x20
    · have hescaped : escaped c = '\\' :: 'u' :: hexDigits c.toNat := by
        simp [escaped, hquote, hslash, h8, h9, h10, h12, h13, hcontrol]
      rw [hescaped, if_pos hcontrol, length_encode_cons, length_encode_cons,
        length_encode_ascii (hexDigits_ascii _ hcontrol)]
      rfl
    · have hescaped : escaped c = [c] := by
        simp [escaped, hquote, hslash, h8, h9, h10, h12, h13, hcontrol]
      rw [hescaped, if_neg hcontrol, length_encode_cons]
      rfl

theorem length_encode_quoted (value : String) :
    (Utf8.encode (quoted value)).length = quotedSize value := by
  have hbody : (Utf8.encode (value.toList.flatMap escaped)).length = charsSize value.toList := by
    induction value.toList with
    | nil => rfl
    | cons c cs ih =>
        rw [List.flatMap_cons, length_encode_append, length_encode_escaped, ih, charsSize]
  have hquote : '"'.utf8Size = 1 := rfl
  rw [quoted, List.cons_append, length_encode_cons, length_encode_append, hbody, quotedSize,
    length_encode_cons, hquote]
  simp [Utf8.encode]
  omega

private theorem intText_ascii (n : Int) : ∀ c ∈ intText n, c.toNat < 128 := by
  have hdigits : ∀ c ∈ Nat.toDigits 10 n.natAbs, c.toNat < 128 := by
    intro c hc
    have hdigit := Nat.isDigit_of_mem_toDigits (by decide) (by decide) hc
    simp only [Char.isDigit, Bool.and_eq_true, decide_eq_true_eq] at hdigit
    have hle : c.toNat ≤ 57 := hdigit.2
    omega
  intro c hc
  unfold intText at hc
  split at hc
  · rcases List.mem_cons.mp hc with rfl | hc
    · decide
    · exact hdigits c hc
  · exact hdigits c hc

private theorem numberText_ascii (mantissa exponent : Int) :
    ∀ c ∈ numberText mantissa exponent, c.toNat < 128 := by
  intro c hc
  unfold numberText at hc
  split at hc
  · exact intText_ascii mantissa c hc
  · rcases List.mem_append.mp hc with hc | hc
    · exact intText_ascii mantissa c hc
    · rcases List.mem_cons.mp hc with rfl | hc
      · decide
      · exact intText_ascii exponent c hc

mutual

/-- The text takes that many bytes. -/
theorem length_encode_text : ∀ value : Json, (Utf8.encode (text value)).length = size value
  | .null => by
      rw [text]
      decide
  | .bool true => by
      rw [text]
      decide
  | .bool false => by
      rw [text]
      decide
  | .number mantissa exponent => by
      rw [text, size, length_encode_ascii (numberText_ascii mantissa exponent)]
  | .string value => by rw [text, size, length_encode_quoted]
  | .array [] => by
      rw [text]
      decide
  | .array (item :: items) => by
      have hbracket : '['.utf8Size = 1 := rfl
      rw [text, size, List.cons_append, length_encode_cons, length_encode_append,
        length_encode_text item, length_encode_itemsText items, hbracket]
      omega
  | .object [] => by
      rw [text]
      decide
  | .object ((key, value) :: members) => by
      have hbrace : '\x7b'.utf8Size = 1 := rfl
      have hcolon : ':'.utf8Size = 1 := rfl
      simp only [text, size, List.cons_append, List.append_assoc, length_encode_cons,
        length_encode_append, length_encode_quoted, length_encode_text value,
        length_encode_membersText members, hbrace, hcolon]
      omega

theorem length_encode_itemsText : ∀ items : List Json,
    (Utf8.encode (itemsText items)).length = itemsSize items
  | [] => by
      rw [itemsText]
      decide
  | item :: items => by
      have hcomma : ','.utf8Size = 1 := rfl
      rw [itemsText, itemsSize, List.cons_append, length_encode_cons, length_encode_append,
        length_encode_text item, length_encode_itemsText items, hcomma]
      omega

theorem length_encode_membersText : ∀ members : List (String × Json),
    (Utf8.encode (membersText members)).length = membersSize members
  | [] => by
      rw [membersText]
      decide
  | (key, value) :: members => by
      have hcomma : ','.utf8Size = 1 := rfl
      have hcolon : ':'.utf8Size = 1 := rfl
      simp only [membersText, membersSize, List.cons_append, List.append_assoc, length_encode_cons,
        length_encode_append, length_encode_quoted, length_encode_text value,
        length_encode_membersText members, hcomma, hcolon]
      omega

end

private theorem charsSize_plain {text : List Char} (h : ∀ c ∈ text, escapedSize c = 1) :
    charsSize text = text.length := by
  induction text with
  | nil => rfl
  | cons c text ih =>
      have hc := h c List.mem_cons_self
      have htext := ih fun d hd => h d (List.mem_cons_of_mem c hd)
      simp only [charsSize, List.length_cons]
      omega

/-- A string written without an escape in one byte a character. -/
theorem quotedSize_plain {value : String}
    (h : ∀ c ∈ value.toList, escapedSize c = 1) : quotedSize value = value.toList.length + 2 := by
  rw [quotedSize, charsSize_plain h]

end Json
