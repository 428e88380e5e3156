import Mathlib.Data.List.Basic

/-!
# Classification of IP addresses
-/

namespace Utsuroi

inductive IpBlockReason
  | loopback
  | «private»
  | linkLocal
  | cgn
  | metadata
  | invalid
  deriving DecidableEq, Repr

structure IpCheckResult where
  blocked : Bool
  reason : Option IpBlockReason
  deriving DecidableEq, Repr

def IpCheckResult.block (reason : IpBlockReason) : IpCheckResult := ⟨true, some reason⟩

def IpCheckResult.pass : IpCheckResult := ⟨false, none⟩

/-- The four bytes of an address. -/
structure IPv4 where
  a : Fin 256
  b : Fin 256
  c : Fin 256
  d : Fin 256
  deriving DecidableEq, Repr

/-- The first two bytes as a group of an IPv6 address. -/
def IPv4.high (v4 : IPv4) : Nat := v4.a.val * 256 + v4.b.val

def IPv4.low (v4 : IPv4) : Nat := v4.c.val * 256 + v4.d.val

/-- The address in two groups. -/
def IPv4.ofGroups (high low : Nat) : IPv4 :=
  ⟨Fin.ofNat 256 (high >>> 8), Fin.ofNat 256 (high &&& 0xff), Fin.ofNat 256 (low >>> 8),
    Fin.ofNat 256 (low &&& 0xff)⟩

def classifyIPv4 (bytes : IPv4) : IpCheckResult :=
  let a := bytes.a.val
  let b := bytes.b.val
  if a = 127 then .block .loopback
  else if a = 0 then .block .invalid
  else if a = 169 ∧ b = 254 then
    if bytes.c.val = 169 ∧ bytes.d.val = 254 then .block .metadata else .block .linkLocal
  else if a = 10 then .block .private
  else if a = 172 ∧ b ≥ 16 ∧ b ≤ 31 then .block .private
  else if a = 192 ∧ b = 168 then .block .private
  else if a = 100 ∧ b ≥ 64 ∧ b ≤ 127 then .block .cgn
  else if a ≥ 224 then .block .invalid
  else .pass

/-- `g.toString(16).padStart(4, '0')` -/
def hexGroup (group : Nat) : List Char := (Nat.toDigits 16 group).leftpad 4 '0'

def groupsToHex (groups : List Nat) : List Char := [':'].intercalate (groups.map hexGroup)

def isZero (n : Nat) : Bool := n == 0

/-- The group with this index; there are eight. -/
def groupAt (groups : List Nat) (index : Nat) : Nat := groups.getD index 0

def classifyIPv6 (groups : List Nat) : IpCheckResult :=
  let hex := groupsToHex groups
  if (groups.take 7).all isZero ∧ groupAt groups 7 = 1 then .block .loopback
  else if groups.all isZero then .block .invalid
  else if hex = "fd00:0ec2:0000:0000:0000:0000:0000:0254".toList then .block .metadata
  else if (groups.take 5).all isZero ∧ groupAt groups 5 = 0xffff then
    classifyIPv4 (.ofGroups (groupAt groups 6) (groupAt groups 7))
  else if (groups.take 6).all isZero then
    classifyIPv4 (.ofGroups (groupAt groups 6) (groupAt groups 7))
  else if groupAt groups 0 &&& 0xffc0 = 0xfe80 then .block .linkLocal
  else if groupAt groups 0 &&& 0xfe00 = 0xfc00 then .block .private
  else .pass

end Utsuroi
