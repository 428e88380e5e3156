import Utsuroi.Net.Proofs.IPv4Spelling

/-!
# The spellings of an IPv6 address

Groups are written with or without leading zeros and in either case, one run of zeros may be left
out, and the last two groups may be written as an IPv4 address.  All of these texts are read as the
same groups, so that the verdict on a host does not depend on how its address is written.
-/

namespace Utsuroi

open Positional Separated

/-! ## The forms of IPv6 addresses -/

/-- The texts of a group. -/
structure GroupForm (n : Nat) (text : List Char) : Prop where
  numeral : Numeral 16 n text
  length : text.length ≤ 4

/-- Four decimal numbers without leading zeros. -/
inductive DottedDecimal (v4 : IPv4) : List Char → Prop
  | parts (parts : List (List Char)) :
      List.Forall₂ (fun n text => Numeral 10 n text ∧ (text = ['0'] ∨ text.head? ≠ some '0'))
        (v4.partValues 4) parts → DottedDecimal v4 (['.'].intercalate parts)

/-- The texts of the last groups, of which two may be written as an IPv4 address. -/
inductive TailForm : List Nat → List (List Char) → Prop
  | groups {groups : List Nat} {texts : List (List Char)} :
      List.Forall₂ GroupForm groups texts → TailForm groups texts
  | dotted {groups : List Nat} {texts : List (List Char)} {v4 : IPv4} {text : List Char} :
      List.Forall₂ GroupForm groups texts → DottedDecimal v4 text →
        TailForm (groups ++ [v4.high, v4.low]) (texts ++ [text])

def colons (texts : List (List Char)) : List Char := [':'].intercalate texts

/-- The texts of an IPv6 address without brackets. -/
inductive IPv6Form : List Nat → List Char → Prop
  | full {groups : List Nat} {texts : List (List Char)} : groups.length = 8 →
      TailForm groups texts → IPv6Form groups (colons texts)
  | compressed {head tail : List Nat} {heads tails : List (List Char)} (zeros : Nat) : 1 ≤ zeros →
      head.length + zeros + tail.length = 8 → List.Forall₂ GroupForm head heads →
        TailForm tail tails →
          IPv6Form (head ++ List.replicate zeros 0 ++ tail) (colons heads ++ ':' :: ':' :: colons tails)

/-- The texts of an IPv6 address. -/
inductive IPv6Literal (groups : List Nat) : List Char → Prop
  | bare {text : List Char} : IPv6Form groups text → IPv6Literal groups text
  | bracketed {text : List Char} : IPv6Form groups text → IPv6Literal groups ('[' :: text ++ [']'])

/-! ## Colons -/

/-- No two colons stand together, nor one at the end. -/
def Spaced : List Char → Prop
  | [] => True
  | [c] => c ≠ ':'
  | c :: d :: rest => ¬(c = ':' ∧ d = ':') ∧ Spaced (d :: rest)

section Colons

variable {text rest : List Char} {texts : List (List Char)}

theorem splitDoubleColon_spaced (h : Spaced text) : splitDoubleColon text = [text] := by
  fun_induction Spaced text with
  | case1 => rfl
  | case2 => rfl
  | case3 c d rest ih =>
      rw [splitDoubleColon, if_neg h.1, ih h.2]
      rfl

theorem splitDoubleColon_append (h : Spaced text) :
    splitDoubleColon (text ++ ':' :: ':' :: rest) = text :: splitDoubleColon rest := by
  fun_induction Spaced text with
  | case1 => simp [splitDoubleColon]
  | case2 c =>
      have hc : ¬(c = ':' ∧ ':' = ':') := fun hboth => h hboth.1
      rw [List.singleton_append, splitDoubleColon, if_neg hc, splitDoubleColon, if_pos ⟨rfl, rfl⟩]
      rfl
  | case3 c d text ih =>
      have htail := ih h.2
      rw [List.cons_append] at htail
      rw [List.cons_append, List.cons_append, splitDoubleColon, if_neg h.1, htail]
      rfl

private theorem spaced_cons {c : Char} (hc : c ≠ ':') (h : Spaced text) : Spaced (c :: text) := by
  cases text with
  | nil => exact hc
  | cons d text => exact ⟨fun hboth => hc hboth.1, h⟩

private theorem spaced_append (hcolon : ':' ∉ text) (h : Spaced rest) : Spaced (text ++ rest) := by
  induction text with
  | nil => exact h
  | cons c text ih =>
      rw [List.mem_cons, not_or] at hcolon
      exact spaced_cons (Ne.symm hcolon.1) (ih hcolon.2)

theorem spaced_colons (h : ∀ text ∈ texts, text ≠ [] ∧ ':' ∉ text) : Spaced (colons texts) := by
  induction texts with
  | nil => trivial
  | cons text texts ih =>
      rw [List.forall_mem_cons] at h
      have hrest := ih h.2
      cases texts with
      | nil =>
          rw [colons, List.intercalate_singleton, ← List.append_nil text]
          exact spaced_append h.1.2 trivial
      | cons next texts =>
          have hnext := h.2 next List.mem_cons_self
          rw [colons, List.intercalate_cons_cons, List.append_assoc]
          refine spaced_append h.1.2 ?_
          have hhead : ∃ c text, colons (next :: texts) = c :: text ∧ c ≠ ':' := by
            obtain ⟨c, next, rfl⟩ := List.exists_cons_of_ne_nil hnext.1
            have hc : c ≠ ':' := fun heq => hnext.2 (heq ▸ List.mem_cons_self)
            cases texts with
            | nil => exact ⟨c, next, List.intercalate_singleton, hc⟩
            | cons other texts => exact ⟨c, _, List.intercalate_cons_cons, hc⟩
          obtain ⟨c, text, hcolons, hc⟩ := hhead
          rw [colons] at hcolons hrest
          rw [hcolons] at hrest ⊢
          exact ⟨fun hboth => hc hboth.2, hrest⟩

end Colons

/-! ## Groups -/

section Groups

variable {n : Nat} {v4 : IPv4} {text : List Char} {groups : List Nat} {texts : List (List Char)}

private theorem not_mem_of_digits {c : Char} (hc : isDigit 16 c = false)
    (h : ∀ d ∈ text, isDigit 16 d = true) : c ∉ text := by
  intro hmem
  rw [h c hmem] at hc
  contradiction

theorem parseGroup_form (h : GroupForm n text) : parseGroup text = some n := by
  simp [parseGroup, h.numeral.isEmpty, h.length, h.numeral.all, h.numeral.read]

theorem GroupForm.toLower (h : GroupForm n text) : GroupForm n (text.map Char.toLower) where
  numeral := h.numeral.toLower
  length := by simpa using h.length

private theorem groups_spaced (h : List.Forall₂ GroupForm groups texts) : Spaced (colons texts) :=
  spaced_colons (forall₂_mem h fun _ _ hgroup =>
    ⟨hgroup.numeral.ne_nil, not_mem_of_digits (by decide) hgroup.numeral.digits⟩)

theorem parseGroups_form (h : List.Forall₂ GroupForm groups texts) :
    parseGroups (colons texts) = some groups := by
  cases h with
  | nil => rfl
  | @cons n text groups texts hgroup hrest =>
      have hnil : (colons (text :: texts)).isEmpty = false := by
        rw [List.isEmpty_eq_false_iff]
        exact intercalate_ne_nil hgroup.numeral.ne_nil
      have hall : List.Forall₂ GroupForm (n :: groups) (text :: texts) := .cons hgroup hrest
      have hcolon : ∀ text' ∈ text :: texts, ':' ∉ text' :=
        forall₂_mem hall fun _ _ hgroup => not_mem_of_digits (by decide) hgroup.numeral.digits
      rw [parseGroups, hnil]
      simp only [Bool.false_eq_true, if_false]
      rw [colons, List.splitOn_intercalate ':' hcolon (List.cons_ne_nil text texts)]
      exact mapM_forall₂ (hall.imp fun _ _ => parseGroup_form)

theorem parseExpanded_full (hlength : groups.length = 8) (h : List.Forall₂ GroupForm groups texts) :
    parseExpanded (colons texts) = some groups := by
  rw [parseExpanded, splitDoubleColon_spaced (groups_spaced h)]
  simp [parseGroups_form h, Option.filter, hlength]

theorem parseExpanded_compressed {head tail : List Nat} {heads tails : List (List Char)}
    {zeros : Nat} (hlength : head.length + zeros + tail.length = 8)
    (hhead : List.Forall₂ GroupForm head heads) (htail : List.Forall₂ GroupForm tail tails) :
    parseExpanded (colons heads ++ ':' :: ':' :: colons tails) =
      some (head ++ List.replicate zeros 0 ++ tail) := by
  have hzeros : 8 - head.length - tail.length = zeros := by omega
  rw [parseExpanded, splitDoubleColon_append (groups_spaced hhead),
    splitDoubleColon_spaced (groups_spaced htail)]
  simp only [parseGroups_form hhead, parseGroups_form htail, Option.bind_some]
  rw [if_neg (by omega), hzeros]

/-! ## The IPv4 address at the end -/

private theorem hexByte_digits (byte : Fin 256) : (hexByte byte.val).length = 2 ∧
    (hexByte byte.val).all (isDigit 16) = true ∧ readDigits 16 (hexByte byte.val) = byte.val := by
  revert byte
  decide +kernel

private theorem hexBytes_form (high low : Fin 256) :
    GroupForm (high.val * 256 + low.val) (hexByte high.val ++ hexByte low.val) := by
  obtain ⟨hhighLength, hhighDigits, hhigh⟩ := hexByte_digits high
  obtain ⟨hlowLength, hlowDigits, hlow⟩ := hexByte_digits low
  rw [readDigits_eq] at hhigh hlow
  refine ⟨⟨?_, ?_, ?_⟩, ?_⟩
  · intro hnil
    have hlength := congrArg List.length hnil
    rw [List.length_append, hhighLength] at hlength
    simp at hlength
  · intro c hc
    rcases List.mem_append.mp hc with hmem | hmem
    · exact List.all_eq_true.mp hhighDigits c hmem
    · exact List.all_eq_true.mp hlowDigits c hmem
  · rw [List.map_append, List.reverse_append, Nat.ofDigits_append, hhigh, hlow, List.length_reverse,
      List.length_map, hlowLength]
    omega
  · rw [List.length_append, hhighLength, hlowLength]

theorem DottedDecimal.form (h : DottedDecimal v4 text) : IPv4Form v4 text := by
  obtain ⟨parts, hparts⟩ := h
  exact .parts 4 parts (by omega) (le_refl 4) (hparts.imp fun _ _ hpart => .decimal hpart.1 hpart.2)

theorem DottedDecimal.toLower (h : DottedDecimal v4 text) :
    DottedDecimal v4 (text.map Char.toLower) := by
  obtain ⟨parts, hparts⟩ := h
  rw [map_intercalate]
  refine .parts _ ?_
  rw [List.forall₂_map_right_iff]
  exact hparts.imp fun n text hpart => by
    rw [decimal_toLower hpart.1]
    exact hpart

theorem DottedDecimal.bare_false (h : DottedDecimal v4 text) : hasBareHexPart text = false := by
  obtain ⟨parts, hparts⟩ := h
  have hdecimal : ∀ part ∈ parts, ∀ c ∈ part, isDigit 10 c = true :=
    forall₂_mem hparts fun _ _ hpart => hpart.1.digits
  have hnil : parts ≠ [] := by
    intro hempty
    rw [hempty] at hparts
    cases hparts
  have hdots : ∀ part ∈ parts, '.' ∉ part := by
    intro part hpart hdot
    exact absurd (hdecimal part hpart '.' hdot) (by decide)
  rw [hasBareHexPart, List.splitOn_intercalate '.' hdots hnil, List.any_eq_false]
  intro part hpart hbare
  rw [isBareHexPart, Bool.or_eq_true, beq_iff_eq, beq_iff_eq] at hbare
  rcases hbare with rfl | rfl
  · exact absurd (hdecimal _ hpart 'x' (by simp)) (by decide)
  · exact absurd (hdecimal _ hpart 'X' (by simp)) (by decide)

theorem DottedDecimal.mem_dot (h : DottedDecimal v4 text) : '.' ∈ text := by
  obtain ⟨parts, hparts⟩ := h
  obtain ⟨first, second, rest, rfl⟩ : ∃ first second rest, parts = first :: second :: rest := by
    cases hparts with
    | cons _ hrest =>
        cases hrest with
        | cons _ _ => exact ⟨_, _, _, rfl⟩
  rw [List.intercalate_cons_cons]
  simp

private theorem DottedDecimal.not_mem_colon (h : DottedDecimal v4 text) : ':' ∉ text :=
  h.form.not_mem (by decide) (by decide)

theorem afterLastColon_append {before after : List Char} (h : ':' ∉ after) :
    afterLastColon (before ++ ':' :: after) = after := by
  have hother : ∀ c ∈ after.reverse, (c != ':') = true := by
    intro c hc
    rw [bne_iff_ne]
    exact fun heq => h (heq ▸ List.mem_reverse.mp hc)
  have hreverse : (before ++ ':' :: after).reverse = after.reverse ++ ':' :: before.reverse := by simp
  rw [afterLastColon, hreverse, List.takeWhile_append_of_pos hother]
  simp

theorem expandEmbedded_dotted {before : List Char} (h : DottedDecimal v4 text) :
    expandEmbedded (before ++ ':' :: text) = some (before ++ ':' :: hexGroups v4) := by
  have hdot : (before ++ ':' :: text).contains '.' = true := by
    rw [List.contains_iff_mem]
    exact List.mem_append_right before (List.mem_cons_of_mem ':' h.mem_dot)
  have hcolon : (before ++ ':' :: text).contains ':' = true := by
    rw [List.contains_iff_mem]
    exact List.mem_append_right before List.mem_cons_self
  have htake : (before ++ ':' :: text).take ((before ++ ':' :: text).length - text.length) =
      before ++ [':'] := by
    have hsplit : before ++ ':' :: text = (before ++ [':']) ++ text := by simp
    rw [hsplit, List.length_append, Nat.add_sub_cancel, List.take_left]
  rw [expandEmbedded, hdot, hcolon, afterLastColon_append h.not_mem_colon, htake,
    parseIPv4_form h.form h.bare_false]
  simp

theorem expandEmbedded_plain (h : '.' ∉ text) : expandEmbedded text = some text := by
  have hdot : text.contains '.' = false := by
    rw [Bool.eq_false_iff]
    exact fun hcontains => h (List.contains_iff_mem.mp hcontains)
  rw [expandEmbedded, hdot]
  rfl

private theorem colons_groups (before : List (List Char)) (v4 : IPv4) :
    colons (before ++ [hexByte v4.a.val ++ hexByte v4.b.val, hexByte v4.c.val ++ hexByte v4.d.val]) =
      ended ':' before ++ hexGroups v4 := by
  have hsplit : before ++ [hexByte v4.a.val ++ hexByte v4.b.val,
      hexByte v4.c.val ++ hexByte v4.d.val] =
      (before ++ [hexByte v4.a.val ++ hexByte v4.b.val]) ++
        [hexByte v4.c.val ++ hexByte v4.d.val] := by simp
  rw [colons, hsplit, intercalate_concat]
  simp [ended, hexGroups]

/-- Where the last groups are written as an IPv4 address, they are put into groups. -/
theorem TailForm.expand (h : TailForm groups texts) (before : List Char) (hdot : '.' ∉ before) :
    ∃ plain, List.Forall₂ GroupForm groups plain ∧
      expandEmbedded (before ++ ':' :: colons texts) = some (before ++ ':' :: colons plain) := by
  cases h with
  | groups hgroups =>
      refine ⟨texts, hgroups, expandEmbedded_plain ?_⟩
      intro hmem
      rcases List.mem_append.mp hmem with hbefore | hrest
      · exact hdot hbefore
      rcases List.mem_cons.mp hrest with hcolon | hcolons
      · exact absurd hcolon (by decide)
      rcases mem_intercalate hcolons with hsep | ⟨text, htext, hmem⟩
      · exact absurd (List.mem_singleton.mp hsep) (by decide)
      · exact forall₂_mem hgroups (fun _ _ hgroup => not_mem_of_digits (by decide)
          hgroup.numeral.digits) text htext hmem
  | @dotted groups texts v4 text hgroups hdotted =>
      refine ⟨texts ++ [hexByte v4.a.val ++ hexByte v4.b.val, hexByte v4.c.val ++ hexByte v4.d.val],
        List.rel_append hgroups (.cons (hexBytes_form v4.a v4.b) (.cons (hexBytes_form v4.c v4.d) .nil)),
        ?_⟩
      obtain ⟨start, hstart⟩ := cons_ended ':' texts
      have hfront : before ++ ':' :: colons (texts ++ [text]) = (before ++ start) ++ ':' :: text := by
        rw [colons, intercalate_concat, ← List.cons_append, hstart]
        simp
      have hback : before ++ ':' :: (ended ':' texts ++ hexGroups v4) =
          (before ++ start) ++ ':' :: hexGroups v4 := by
        rw [← List.cons_append, hstart]
        simp
      rw [hfront, colons_groups, hback]
      exact expandEmbedded_dotted hdotted

/-- Eight groups begin with one that is written as such. -/
theorem TailForm.first (h : TailForm groups texts) (hlength : groups.length = 8) :
    ∃ n text rest next others, groups = n :: rest ∧ texts = text :: next :: others ∧
      GroupForm n text ∧ TailForm rest (next :: others) := by
  cases h with
  | groups hgroups =>
      cases hgroups with
      | nil => simp at hlength
      | cons hfirst hrest =>
          cases hrest with
          | nil => simp at hlength
          | cons hsecond hothers => exact ⟨_, _, _, _, _, rfl, rfl, hfirst, .groups (.cons hsecond hothers)⟩
  | @dotted groups texts v4 text hgroups hdotted =>
      cases hgroups with
      | nil => simp at hlength
      | cons hfirst hrest =>
          cases hrest with
          | nil => simp at hlength
          | cons hsecond hothers =>
              exact ⟨_, _, _, _, _, rfl, rfl, hfirst, .dotted (.cons hsecond hothers) hdotted⟩

end Groups

/-! ## Whole addresses -/

section Address

variable {text : List Char} {groups : List Nat}

private theorem not_mem_groups {c : Char} {ns : List Nat} {texts : List (List Char)}
    (hc : isDigit 16 c = false) (hcolon : c ≠ ':') (h : List.Forall₂ GroupForm ns texts) :
    c ∉ colons texts := by
  intro hmem
  rcases mem_intercalate hmem with hsep | ⟨text, htext, hmem⟩
  · exact hcolon (List.mem_singleton.mp hsep)
  · exact forall₂_mem h (fun _ _ hgroup => not_mem_of_digits hc hgroup.numeral.digits) text htext hmem

theorem parseExpanded_form (h : IPv6Form groups text) :
    (expandEmbedded text).bind parseExpanded = some groups := by
  cases h with
  | full hlength htail =>
      obtain ⟨n, first, rest, next, others, rfl, rfl, hfirst, hothers⟩ := htail.first hlength
      obtain ⟨plain, hplain, hexpand⟩ := hothers.expand first
        (not_mem_of_digits (by decide) hfirst.numeral.digits)
      have hcolons : colons (first :: next :: others) = first ++ ':' :: colons (next :: others) := by
        rw [colons, List.intercalate_cons_cons, List.append_assoc]
        rfl
      have hplainNil : plain ≠ [] := by
        intro hnil
        have hsame := hplain.length_eq
        rw [hnil, List.length_nil] at hsame
        rw [List.length_cons, hsame] at hlength
        contradiction
      have hback : first ++ ':' :: colons plain = colons (first :: plain) := by
        rw [colons, colons, List.intercalate_cons_of_ne_nil hplainNil, List.append_assoc]
        rfl
      rw [hcolons, hexpand, Option.bind_some, hback]
      exact parseExpanded_full hlength (.cons hfirst hplain)
  | @compressed head tail heads tails zeros hzeros hlength hhead htail =>
      have hdot : '.' ∉ colons heads ++ [':'] := by
        intro hmem
        rcases List.mem_append.mp hmem with hheads | hcolon
        · exact not_mem_groups (by decide) (by decide) hhead hheads
        · exact absurd (List.mem_singleton.mp hcolon) (by decide)
      obtain ⟨plain, hplain, hexpand⟩ := htail.expand (colons heads ++ [':']) hdot
      rw [List.append_assoc, List.append_assoc, List.singleton_append, List.singleton_append] at hexpand
      rw [hexpand, Option.bind_some]
      exact parseExpanded_compressed hlength hhead hplain

/-- A colon stands in each text of an address. -/
theorem IPv6Form.mem_colon (h : IPv6Form groups text) : ':' ∈ text := by
  cases h with
  | full hlength htail =>
      obtain ⟨n, first, rest, next, others, rfl, rfl, hfirst, hothers⟩ := htail.first hlength
      rw [colons, List.intercalate_cons_cons]
      simp
  | compressed => simp

private theorem TailForm.not_mem {c : Char} {ns : List Nat} {texts : List (List Char)}
    (hdigit : isDigit 16 c = false) (hcolon : c ≠ ':') (halphanumeric : isAlphanumeric c = false)
    (hdot : c ≠ '.') (h : TailForm ns texts) : c ∉ colons texts := by
  cases h with
  | groups hgroups => exact not_mem_groups hdigit hcolon hgroups
  | dotted hgroups hdotted =>
      intro hmem
      rcases mem_intercalate hmem with hsep | ⟨text, htext, hin⟩
      · exact hcolon (List.mem_singleton.mp hsep)
      rcases List.mem_append.mp htext with hgroup | hlast
      · exact forall₂_mem hgroups (fun _ _ hgroup => not_mem_of_digits hdigit hgroup.numeral.digits)
          text hgroup hin
      · obtain rfl := List.mem_singleton.mp hlast
        have hx : c ≠ 'x' ∧ c ≠ 'X' := by
          constructor
          · rintro rfl
            exact absurd halphanumeric (by decide)
          · rintro rfl
            exact absurd halphanumeric (by decide)
        exact hdotted.form.not_mem hdigit ⟨hx.1, hx.2, hdot⟩ hin

theorem IPv6Form.not_mem {c : Char} (hdigit : isDigit 16 c = false) (hcolon : c ≠ ':')
    (halphanumeric : isAlphanumeric c = false) (hdot : c ≠ '.') (h : IPv6Form groups text) :
    c ∉ text := by
  cases h with
  | full hlength htail => exact htail.not_mem hdigit hcolon halphanumeric hdot
  | compressed zeros hzeros hlength hhead htail =>
      intro hmem
      rcases List.mem_append.mp hmem with hheads | hrest
      · exact not_mem_groups hdigit hcolon hhead hheads
      rcases List.mem_cons.mp hrest with hsep | hrest
      · exact hcolon hsep
      rcases List.mem_cons.mp hrest with hsep | htails
      · exact hcolon hsep
      · exact htail.not_mem hdigit hcolon halphanumeric hdot htails

private theorem IPv6Form.stripBrackets_eq (h : IPv6Form groups text) : stripBrackets text = text := by
  have hbracket := h.not_mem (c := '[') (by decide) (by decide) (by decide) (by decide)
  rw [stripBrackets, if_neg]
  intro hboth
  exact hbracket (List.mem_of_mem_head? hboth.1)

theorem stripBrackets_bracketed (text : List Char) : stripBrackets ('[' :: text ++ [']']) = text := by
  have hlast : ('[' :: text ++ [']']).getLast? = some ']' := List.getLast?_concat
  rw [stripBrackets, hlast]
  simp

/-- Each text of an address is read as its groups. -/
theorem parseIPv6_literal (h : IPv6Literal groups text) : parseIPv6 text = some groups := by
  obtain ⟨inner, hstrip, hform⟩ : ∃ inner, stripBrackets text = inner ∧ IPv6Form groups inner := by
    cases h with
    | bare hform => exact ⟨text, hform.stripBrackets_eq, hform⟩
    | bracketed hform => exact ⟨_, stripBrackets_bracketed _, hform⟩
  have hempty : inner.isEmpty = false := by
    rw [List.isEmpty_eq_false_iff]
    exact List.ne_nil_of_mem hform.mem_colon
  rw [parseIPv6, hstrip]
  simp only [hempty, Bool.false_eq_true, if_false]
  exact parseExpanded_form hform

theorem parseIPv6_name (hnil : text ≠ []) (hcolon : ':' ∉ text) (hbracket : text.head? ≠ some '[') :
    parseIPv6 text = none := by
  have hstrip : stripBrackets text = text := by
    rw [stripBrackets, if_neg]
    exact fun hboth => hbracket hboth.1
  have hexpand : expandEmbedded text = some text := by
    have hcontains : text.contains ':' = false := by
      rw [Bool.eq_false_iff]
      exact fun hmem => hcolon (List.contains_iff_mem.mp hmem)
    rw [expandEmbedded, hcontains, Bool.and_false]
    rfl
  have hsplit : splitDoubleColon text = [text] := by
    have hspaced := @spaced_colons [text] (by simpa using ⟨hnil, hcolon⟩)
    rw [colons, List.intercalate_singleton] at hspaced
    exact splitDoubleColon_spaced hspaced
  have hgroups : (parseGroups text).filter (fun groups => groups.length == 8) = none := by
    rw [parseGroups, List.splitOn_eq_singleton hcolon, List.isEmpty_eq_false_iff.mpr hnil]
    cases hgroup : parseGroup text with
    | none => simp [hgroup]
    | some group => simp [hgroup, Option.filter]
  rw [parseIPv6, hstrip, List.isEmpty_eq_false_iff.mpr hnil]
  simp only [Bool.false_eq_true, if_false]
  rw [hexpand, Option.bind_some, parseExpanded, hsplit]
  exact hgroups

/-! ## Letter case -/

private theorem groups_toLower {ns : List Nat} {texts : List (List Char)}
    (h : List.Forall₂ GroupForm ns texts) :
    List.Forall₂ GroupForm ns (texts.map (List.map Char.toLower)) := by
  rw [List.forall₂_map_right_iff]
  exact h.imp fun _ _ => GroupForm.toLower

theorem TailForm.toLower {ns : List Nat} {texts : List (List Char)} (h : TailForm ns texts) :
    TailForm ns (texts.map (List.map Char.toLower)) := by
  cases h with
  | groups hgroups => exact .groups (groups_toLower hgroups)
  | dotted hgroups hdotted =>
      rw [List.map_append]
      exact .dotted (groups_toLower hgroups) hdotted.toLower

private theorem colons_toLower (texts : List (List Char)) :
    (colons texts).map Char.toLower = colons (texts.map (List.map Char.toLower)) :=
  map_intercalate _ _ _

theorem IPv6Form.toLower (h : IPv6Form groups text) : IPv6Form groups (text.map Char.toLower) := by
  cases h with
  | full hlength htail =>
      rw [colons_toLower]
      exact .full hlength htail.toLower
  | compressed zeros hzeros hlength hhead htail =>
      rw [List.map_append, List.map_cons, List.map_cons, colons_toLower, colons_toLower]
      exact .compressed zeros hzeros hlength (groups_toLower hhead) htail.toLower

theorem IPv6Literal.toLower (h : IPv6Literal groups text) :
    IPv6Literal groups (text.map Char.toLower) := by
  cases h with
  | bare hform => exact .bare hform.toLower
  | bracketed hform =>
      rw [List.cons_append, List.map_cons, List.map_append]
      exact .bracketed hform.toLower

/-! ## Verdicts -/

theorem IPv6Literal.mem_colon (h : IPv6Literal groups text) : ':' ∈ text := by
  cases h with
  | bare hform => exact hform.mem_colon
  | bracketed hform => simp [hform.mem_colon]

theorem parseIPv4_colon (h : ':' ∈ text) : parseIPv4 text = none := by
  have hall : text.all (fun c => isAlphanumeric c || c == '.') = false := by
    rw [List.all_eq_false]
    exact ⟨':', h, by decide⟩
  rw [parseIPv4, hall]
  simp

theorem toList_toLower (text : String) : text.toLower.toList = text.toList.map Char.toLower :=
  String.toList_map

theorem toLower_ofList (text : List Char) :
    (String.ofList text).toLower.toList = text.map Char.toLower := by
  rw [toList_toLower, String.toList_ofList]

theorem classifyHostname_literal (h : IPv6Literal groups text) :
    classifyHostname (String.ofList text) = classifyIPv6 groups := by
  have hlower := h.toLower
  rw [classifyHostname]
  simp only [toLower_ofList, parseIPv6_literal hlower, parseIPv4_colon hlower.mem_colon, ite_self]

private theorem bracket_lower {v4 : IPv4} (h : IPv4Form v4 text) :
    (text.map Char.toLower).head? ≠ some '[' := fun hhead =>
  h.toLower.not_mem (by decide) (by decide) (List.mem_of_mem_head? hhead)

theorem classifyHostname_form {v4 : IPv4} (h : IPv4Form v4 text)
    (hbare : hasBareHexPart text = false) :
    classifyHostname (String.ofList text) = classifyIPv4 v4 := by
  rw [← h.bare_toLower] at hbare
  rw [classifyHostname]
  simp only [toLower_ofList, bracket_lower h, false_and, if_false, parseIPv4_form h.toLower hbare]

/-- The blocked names all have an `l`, which no address has. -/
theorem classifyName_form {v4 : IPv4} {host : String} (h : IPv4Form v4 host.toList) :
    classifyName host = .pass := by
  have hletter : 'l' ∉ host.toList := h.not_mem (by decide) (by decide)
  have hname : ∀ name : String, 'l' ∈ name.toList → host ≠ name := by
    rintro _ hmem rfl
    exact hletter hmem
  have hsuffix : ".localhost".toList.isSuffixOf host.toList = false := by
    rw [Bool.eq_false_iff]
    intro hsuffix
    exact hletter ((List.isSuffixOf_iff_suffix.mp hsuffix).mem (by simp))
  have hknown : KNOWN_BLOCKED_HOSTNAMES.contains host = false := by
    rw [Bool.eq_false_iff]
    intro hknown
    simp only [KNOWN_BLOCKED_HOSTNAMES, List.contains_iff_mem, List.mem_cons, List.not_mem_nil,
      or_false] at hknown
    rcases hknown with rfl | rfl | rfl | rfl
    all_goals exact hletter (by simp)
  rw [classifyName, if_neg, hknown]
  · rfl
  · rintro (hlocal | hlocal)
    · exact hname "localhost" (by simp) hlocal
    · rw [hsuffix] at hlocal
      contradiction

theorem parseIPv6_form {v4 : IPv4} (h : IPv4Form v4 text) : parseIPv6 text = none :=
  parseIPv6_name h.ne_nil (h.not_mem (by decide) (by decide)) fun hhead =>
    h.not_mem (by decide) (by decide) (List.mem_of_mem_head? hhead)

theorem classifyHostname_bare {v4 : IPv4} (h : IPv4Form v4 text)
    (hbare : hasBareHexPart text = true) : classifyHostname (String.ofList text) = .pass := by
  rw [← h.bare_toLower] at hbare
  have hname : classifyName (String.ofList text).toLower = .pass :=
    classifyName_form ((toLower_ofList text).symm ▸ h.toLower)
  rw [classifyHostname]
  simp only [toLower_ofList, bracket_lower h, false_and, if_false, parseIPv4_bare hbare,
    parseIPv6_form h.toLower, hname]

theorem classifyIpAddress_bare {v4 : IPv4} (h : IPv4Form v4 text)
    (hbare : hasBareHexPart text = true) : classifyIpAddress (String.ofList text) = .pass := by
  rw [classifyIpAddress]
  simp only [String.toList_ofList, parseIPv4_bare hbare, parseIPv6_form h]

/-- However an address is written, it is read as itself and gets its own verdict, as long as no part
is a bare `0x`.  With such a part the host is let through. -/
theorem addresses_spelling (text : List Char) :
    (∀ v4, IPv4Form v4 text →
      ((parseIPv4 text = some v4 ∧
          classifyHostname (String.ofList text) = classifyIPv4 v4 ∧
          classifyIpAddress (String.ofList text) = classifyIPv4 v4) ↔
        hasBareHexPart text = false) ∧
      (hasBareHexPart text = true → parseIPv4 text = none ∧
        classifyHostname (String.ofList text) = .pass ∧
        classifyIpAddress (String.ofList text) = .pass)) ∧
    ∀ groups, IPv6Literal groups text → parseIPv6 text = some groups ∧
      classifyHostname (String.ofList text) = classifyIPv6 groups ∧
      classifyIpAddress (String.ofList text) = classifyIPv6 groups := by
  constructor
  · intro v4 h
    have hbare (hbare : hasBareHexPart text = true) : parseIPv4 text = none ∧
        classifyHostname (String.ofList text) = .pass ∧
        classifyIpAddress (String.ofList text) = .pass :=
      ⟨parseIPv4_bare hbare, classifyHostname_bare h hbare, classifyIpAddress_bare h hbare⟩
    refine ⟨⟨?_, ?_⟩, hbare⟩
    · rintro ⟨hread, -⟩
      by_contra hnot
      rw [(hbare (Bool.eq_true_of_not_eq_false hnot)).1] at hread
      contradiction
    · intro hdigits
      refine ⟨parseIPv4_form h hdigits, classifyHostname_form h hdigits, ?_⟩
      simp only [classifyIpAddress, String.toList_ofList, parseIPv4_form h hdigits]
  · intro groups h
    refine ⟨parseIPv6_literal h, classifyHostname_literal h, ?_⟩
    simp only [classifyIpAddress, String.toList_ofList, parseIPv4_colon h.mem_colon,
      parseIPv6_literal h]

/-- A loopback address that is let through, both parts in the middle being zeros without digits. -/
theorem bareHexPart_passed :
    IPv4Form ⟨127, 0, 0, 1⟩ "127.0x.0x.1".toList ∧ parseIPv4 "127.0x.0x.1".toList = none ∧
      classifyHostname "127.0x.0x.1" = .pass ∧ classifyIpAddress "127.0x.0x.1" = .pass ∧
      classifyIPv4 ⟨127, 0, 0, 1⟩ = .block .loopback := by
  have hform : IPv4Form ⟨127, 0, 0, 1⟩ "127.0x.0x.1".toList := by
    have h127 : PartForm 127 "127".toList :=
      .decimal ⟨by simp, List.all_eq_true.mp (by decide), by decide⟩ (.inr (by decide))
    have hzero : PartForm 0 ['0', 'x'] := .bareHexadecimal 'x' (.inl rfl)
    have hone : PartForm 1 "1".toList :=
      .decimal ⟨by simp, List.all_eq_true.mp (by decide), by decide⟩ (.inr (by decide))
    exact .parts 4 ["127".toList, ['0', 'x'], ['0', 'x'], "1".toList] (by decide) (by decide)
      (.cons h127 (.cons hzero (.cons hzero (.cons hone .nil))))
  have hbare : hasBareHexPart "127.0x.0x.1".toList = true := by decide
  exact ⟨hform, parseIPv4_bare hbare, classifyHostname_bare hform hbare,
    classifyIpAddress_bare hform hbare, rfl⟩

end Address

end Utsuroi
