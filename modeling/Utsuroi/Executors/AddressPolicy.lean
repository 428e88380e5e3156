import Utsuroi.Net.Ip
import Mathlib.Algebra.Group.Nat.Defs

/-!
# The address policy of the executors

An executor refuses an address in one of its ranges, those of IPv4 and of IPv6 kept apart.
-/

namespace Utsuroi

/-- An address range. -/
structure Subnet where
  network : Nat
  bits : Nat
  deriving DecidableEq, Repr

/-- The address as a number of 32 bits. -/
def IPv4.value (v4 : IPv4) : Nat := v4.high * 2 ^ 16 + v4.low

/-- The groups of an IPv6 address as one number of 128 bits. -/
def valueOf (groups : List Nat) : Nat := groups.foldl (fun value group => value * 2 ^ 16 + group) 0

/-- The address and the network have the same leading bits. -/
def Subnet.contains (subnet : Subnet) (width address : Nat) : Bool :=
  address / 2 ^ (width - subnet.bits) == subnet.network / 2 ^ (width - subnet.bits)

private def v4Range (a b c d bits : Nat) : Subnet := ⟨((a * 256 + b) * 256 + c) * 256 + d, bits⟩

def V4_RANGES : List Subnet :=
  [v4Range 0 0 0 0 8, v4Range 10 0 0 0 8, v4Range 100 64 0 0 10, v4Range 127 0 0 0 8,
    v4Range 169 254 0 0 16, v4Range 172 16 0 0 12, v4Range 192 0 0 0 24, v4Range 192 0 2 0 24,
    v4Range 192 88 99 0 24, v4Range 192 168 0 0 16, v4Range 198 18 0 0 15, v4Range 198 51 100 0 24,
    v4Range 203 0 113 0 24, v4Range 224 0 0 0 4, v4Range 240 0 0 0 4]

def V6_RANGES : List Subnet :=
  [⟨valueOf [0, 0, 0, 0, 0, 0, 0, 0], 128⟩, ⟨valueOf [0, 0, 0, 0, 0, 0, 0, 1], 128⟩,
    ⟨valueOf [0, 0, 0, 0, 0, 0xffff, 0, 0], 96⟩, ⟨valueOf [0, 0, 0, 0, 0, 0, 0, 0], 96⟩,
    ⟨valueOf [0x64, 0xff9b, 0, 0, 0, 0, 0, 0], 96⟩, ⟨valueOf [0x64, 0xff9b, 1, 0, 0, 0, 0, 0], 48⟩,
    ⟨valueOf [0x100, 0, 0, 0, 0, 0, 0, 0], 64⟩, ⟨valueOf [0x2001, 0, 0, 0, 0, 0, 0, 0], 32⟩,
    ⟨valueOf [0x2001, 0xdb8, 0, 0, 0, 0, 0, 0], 32⟩, ⟨valueOf [0x2002, 0, 0, 0, 0, 0, 0, 0], 16⟩,
    ⟨valueOf [0xfc00, 0, 0, 0, 0, 0, 0, 0], 7⟩, ⟨valueOf [0xfe80, 0, 0, 0, 0, 0, 0, 0], 10⟩,
    ⟨valueOf [0xfec0, 0, 0, 0, 0, 0, 0, 0], 10⟩, ⟨valueOf [0xff00, 0, 0, 0, 0, 0, 0, 0], 8⟩]

/-- Ranges refused besides the built-in ones. -/
structure ExtraBlockList where
  v4 : List Subnet
  v6 : List Subnet
  deriving DecidableEq, Repr

/-- What `isIP` finds in a text. -/
inductive IpAddress
  | v4 (bytes : IPv4)
  | v6 (groups : List Nat)
  | none
  deriving DecidableEq, Repr

def isBlockedAddress (extra : ExtraBlockList) : IpAddress → Bool
  | .none => true
  | .v4 bytes => (V4_RANGES ++ extra.v4).any (·.contains 32 bytes.value)
  | .v6 groups => (V6_RANGES ++ extra.v6).any (·.contains 128 (valueOf groups))

end Utsuroi
