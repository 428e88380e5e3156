import Utsuroi.Executors.AddressPolicy

/-!
# IPv4 addresses inside IPv6 addresses
-/

namespace Utsuroi

/-- The forms in which an IPv6 address embeds an IPv4 address. -/
inductive Embedding
  | mapped
  | compatible
  | nat64
  | sixToFour
  deriving DecidableEq, Repr

/-- The groups are an IPv6 address that embeds the IPv4 address in this form. -/
inductive Embedding.Embeds (v4 : IPv4) : Embedding → List Nat → Prop
  | mapped : Embeds v4 mapped [0, 0, 0, 0, 0, 0xffff, v4.high, v4.low]
  | compatible : Embeds v4 compatible [0, 0, 0, 0, 0, 0, v4.high, v4.low]
  | nat64 : Embeds v4 nat64 [0x64, 0xff9b, 0, 0, 0, 0, v4.high, v4.low]
  | sixToFour (g₃ g₄ g₅ g₆ g₇ : Fin 0x10000) :
    Embeds v4 sixToFour [0x2002, v4.high, v4.low, g₃, g₄, g₅, g₆, g₇]

section Embedded

variable (v4 : IPv4)

theorem IPv4.high_lt : v4.high < 2 ^ 16 := by
  have ha := v4.a.isLt
  have hb := v4.b.isLt
  unfold IPv4.high
  omega

theorem IPv4.low_lt : v4.low < 2 ^ 16 := by
  have hc := v4.c.isLt
  have hd := v4.d.isLt
  unfold IPv4.low
  omega

private theorem byte_high (x y : Fin 256) : Fin.ofNat 256 ((x.val * 256 + y.val) >>> 8) = x := by
  apply Fin.ext
  have hx := x.isLt
  have hy := y.isLt
  simp only [Fin.ofNat, Nat.shiftRight_eq_div_pow]
  omega

private theorem byte_low (x y : Fin 256) : Fin.ofNat 256 ((x.val * 256 + y.val) &&& 0xff) = y := by
  apply Fin.ext
  have hy := y.isLt
  have hmask : (x.val * 256 + y.val) &&& 0xff = (x.val * 256 + y.val) % 2 ^ 8 :=
    Nat.and_two_pow_sub_one_eq_mod _ 8
  simp only [Fin.ofNat, hmask]
  omega

/-- The groups hold the bytes of the address. -/
theorem IPv4.ofGroups_high_low : IPv4.ofGroups v4.high v4.low = v4 := by
  unfold IPv4.ofGroups IPv4.high IPv4.low
  rw [byte_high, byte_low, byte_high, byte_low]

/-- The first group is written first. -/
private theorem groupsToHex_head (group : Nat) (groups : List Nat) (h : hexGroup group ≠ []) :
    (groupsToHex (group :: groups)).head? = (hexGroup group).head? := by
  cases groups with
  | nil => simp [groupsToHex]
  | cons next groups =>
    unfold groupsToHex
    rw [List.map_cons, List.map_cons, List.intercalate_cons_cons, List.append_assoc,
      List.head?_append_of_ne_nil _ h]

private theorem not_metadata {group : Nat} {groups : List Nat} {ch : Char}
    (hhead : (hexGroup group).head? = some ch) (hch : ch ≠ 'f') :
    groupsToHex (group :: groups) ≠ "fd00:0ec2:0000:0000:0000:0000:0000:0254".toList := by
  intro heq
  have hne : hexGroup group ≠ [] := by
    intro hnil
    rw [hnil] at hhead
    cases hhead
  have hfirst := groupsToHex_head group groups hne
  rw [heq, hhead] at hfirst
  exact hch (Option.some.inj hfirst).symm

private theorem not_zeros {group : Nat} (hgroup : group ≠ 0) (groups : List Nat) (n : Nat) :
    ((group :: groups).take (n + 1)).all isZero = false := by
  rw [List.take_succ_cons, List.all_cons, isZero, beq_eq_false_iff_ne.mpr hgroup, Bool.false_and]

/-- An address that begins so passes. -/
private theorem passes {group : Nat} {groups : List Nat} {ch : Char} (hgroup : group ≠ 0)
    (hhead : (hexGroup group).head? = some ch) (hch : ch ≠ 'f')
    (hlink : group &&& 0xffc0 ≠ 0xfe80) (hlocal : group &&& 0xfe00 ≠ 0xfc00) :
    classifyIPv6 (group :: groups) = .pass := by
  have hzeros := not_zeros hgroup groups
  have hall : (group :: groups).all isZero = false := by
    rw [← hzeros groups.length, ← List.length_cons, List.take_length]
  have hfirst : groupAt (group :: groups) 0 = group := rfl
  simp only [classifyIPv6]
  rw [if_neg fun h => ne_true_of_eq_false (hzeros 6) h.1, if_neg (ne_true_of_eq_false hall),
    if_neg (not_metadata hhead hch), if_neg fun h => ne_true_of_eq_false (hzeros 4) h.1,
    if_neg (ne_true_of_eq_false (hzeros 5)), hfirst, if_neg hlink, if_neg hlocal]

private theorem zero_not_metadata (groups : List Nat) :
    groupsToHex (0 :: groups) ≠ "fd00:0ec2:0000:0000:0000:0000:0000:0254".toList := by
  have hhead : (hexGroup 0).head? = some '0' := by decide
  exact not_metadata hhead (by decide)

theorem classify_mapped :
    classifyIPv6 [0, 0, 0, 0, 0, 0xffff, v4.high, v4.low] = classifyIPv4 v4 := by
  have hseven : ([0, 0, 0, 0, 0, 0xffff, v4.high, v4.low].take 7).all isZero = false := rfl
  have hall : [0, 0, 0, 0, 0, 0xffff, v4.high, v4.low].all isZero = false := rfl
  have hfive : ([0, 0, 0, 0, 0, 0xffff, v4.high, v4.low].take 5).all isZero = true := rfl
  have hbytes : IPv4.ofGroups (groupAt [0, 0, 0, 0, 0, 0xffff, v4.high, v4.low] 6)
      (groupAt [0, 0, 0, 0, 0, 0xffff, v4.high, v4.low] 7) = v4 := v4.ofGroups_high_low
  simp only [classifyIPv6]
  rw [if_neg fun h => ne_true_of_eq_false hseven h.1, if_neg (ne_true_of_eq_false hall),
    if_neg (zero_not_metadata _), if_pos ⟨hfive, rfl⟩, hbytes]

theorem classify_compatible (h : (classifyIPv4 v4).blocked = true) :
    (classifyIPv6 [0, 0, 0, 0, 0, 0, v4.high, v4.low]).blocked = true := by
  have hsix : ([0, 0, 0, 0, 0, 0, v4.high, v4.low].take 6).all isZero = true := rfl
  have hfifth : groupAt [0, 0, 0, 0, 0, 0, v4.high, v4.low] 5 = 0 := rfl
  have hbytes : IPv4.ofGroups (groupAt [0, 0, 0, 0, 0, 0, v4.high, v4.low] 6)
      (groupAt [0, 0, 0, 0, 0, 0, v4.high, v4.low] 7) = v4 := v4.ofGroups_high_low
  simp only [classifyIPv6]
  by_cases hloopback : ([0, 0, 0, 0, 0, 0, v4.high, v4.low].take 7).all isZero ∧
      groupAt [0, 0, 0, 0, 0, 0, v4.high, v4.low] 7 = 1
  · rw [if_pos hloopback]
    rfl
  rw [if_neg hloopback]
  by_cases hall : [0, 0, 0, 0, 0, 0, v4.high, v4.low].all isZero = true
  · rw [if_pos hall]
    rfl
  rw [if_neg hall, if_neg (zero_not_metadata _), if_neg fun hmapped => by simp [hfifth] at hmapped,
    if_pos hsix, hbytes]
  exact h

theorem classify_nat64 : classifyIPv6 [0x64, 0xff9b, 0, 0, 0, 0, v4.high, v4.low] = .pass := by
  have hhead : (hexGroup 0x64).head? = some '0' := by decide
  exact passes (by decide) hhead (by decide) (by decide) (by decide)

theorem classify_sixToFour (groups : List Nat) : classifyIPv6 (0x2002 :: groups) = .pass := by
  have hhead : (hexGroup 0x2002).head? = some '2' := by decide
  exact passes (by decide) hhead (by decide) (by decide) (by decide)

end Embedded

/-! ## The executors -/

/-- The executors refuse every address that embeds an IPv4 address. -/
theorem embedded_isBlocked {v4 : IPv4} {form : Embedding} {groups : List Nat}
    (h : form.Embeds v4 groups) (extra : ExtraBlockList) :
    isBlockedAddress extra (.v6 groups) = true := by
  have hhigh := v4.high_lt
  have hlow := v4.low_lt
  apply List.any_eq_true.mpr
  cases h with
  | mapped =>
    refine ⟨⟨valueOf [0, 0, 0, 0, 0, 0xffff, 0, 0], 96⟩, by simp [V6_RANGES], ?_⟩
    simp only [Subnet.contains, valueOf, List.foldl, beq_iff_eq]
    omega
  | compatible =>
    refine ⟨⟨valueOf [0, 0, 0, 0, 0, 0, 0, 0], 96⟩, by simp [V6_RANGES], ?_⟩
    simp only [Subnet.contains, valueOf, List.foldl, beq_iff_eq]
    omega
  | nat64 =>
    refine ⟨⟨valueOf [0x64, 0xff9b, 0, 0, 0, 0, 0, 0], 96⟩, by simp [V6_RANGES], ?_⟩
    simp only [Subnet.contains, valueOf, List.foldl, beq_iff_eq]
    omega
  | sixToFour g₃ g₄ g₅ g₆ g₇ =>
    refine ⟨⟨valueOf [0x2002, 0, 0, 0, 0, 0, 0, 0], 16⟩, by simp [V6_RANGES], ?_⟩
    simp only [Subnet.contains, valueOf, List.foldl, beq_iff_eq]
    omega

/-- The Worker refuses an embedded address exactly in the mapped and in the compatible form, the
executors in every form. -/
theorem embeddedIPv4_blocked_iff {v4 : IPv4} {form : Embedding} {groups : List Nat}
    (hblocked : (classifyIPv4 v4).blocked = true) (h : form.Embeds v4 groups)
    (extra : ExtraBlockList) :
    isBlockedAddress extra (.v6 groups) = true ∧
      ((classifyIPv6 groups).blocked = true ↔ form = .mapped ∨ form = .compatible) := by
  refine ⟨embedded_isBlocked h extra, ?_⟩
  cases h with
  | mapped => simpa [classify_mapped] using hblocked
  | compatible => simpa using classify_compatible v4 hblocked
  | nat64 => simp [classify_nat64, IpCheckResult.pass]
  | sixToFour => simp [classify_sixToFour, IpCheckResult.pass]

/-- The loopback address in the form of 6to4. -/
theorem embeddedIPv4_blocked_sixToFour :
    isBlockedAddress ⟨[], []⟩ (.v6 [0x2002, 0x7f00, 1, 0, 0, 0, 0, 1]) = true ∧
      ((classifyIPv6 [0x2002, 0x7f00, 1, 0, 0, 0, 0, 1]).blocked = true ↔
        Embedding.sixToFour = .mapped ∨ Embedding.sixToFour = .compatible) :=
  @embeddedIPv4_blocked_iff ⟨127, 0, 0, 1⟩ _ _ (by decide) (.sixToFour 0 0 0 0 1) ⟨[], []⟩

/-- `64:ff9b::7f00:1` is the loopback address behind NAT64. -/
theorem nat64_loopback_passes :
    (classifyIPv4 ⟨127, 0, 0, 1⟩).blocked = true ∧
      Embedding.nat64.Embeds ⟨127, 0, 0, 1⟩ [0x64, 0xff9b, 0, 0, 0, 0, 0x7f00, 1] ∧
      (classifyIPv6 [0x64, 0xff9b, 0, 0, 0, 0, 0x7f00, 1]).blocked = false ∧
      isBlockedAddress ⟨[], []⟩ (.v6 [0x64, 0xff9b, 0, 0, 0, 0, 0x7f00, 1]) = true := by
  refine ⟨by decide, .nat64, by decide, by decide⟩

end Utsuroi
