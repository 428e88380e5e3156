import Utsuroi.Framework.Positional
import Utsuroi.Net.Ip
import Utsuroi.Net.Ssrf

/-!
# Host names and IP literals

`parseIPv4` also reads addresses of one to three parts and in other bases.  The URL parser has put
host names in ASCII.
-/

namespace Utsuroi

open Positional

/-! ## IPv4 -/

/-- `/^0x[0-9a-f]+$/i` -/
def isHexPart : List Char → Bool
  | '0' :: x :: digits => (x == 'x' || x == 'X') && !digits.isEmpty && digits.all (isDigit 16)
  | _ => false

/-- `/^0[0-7]+$/` -/
def isOctalPart : List Char → Bool
  | '0' :: digits => !digits.isEmpty && digits.all (isDigit 8)
  | _ => false

def parseIPv4Part (raw : List Char) : Option Nat :=
  if raw.isEmpty then none
  else if isHexPart raw then some (readDigits 16 (raw.drop 2))
  else if isOctalPart raw then some (readDigits 8 (raw.drop 1))
  else if raw.all (isDigit 10) then some (readDigits 10 raw)
  else none

def lowByte (n : Nat) : Fin 256 := ⟨n % 256, Nat.mod_lt n (by decide)⟩

def IPv4.ofBytes (bytes : List Nat) : Option IPv4 :=
  match bytes with
  | [a, b, c, d] => some ⟨lowByte a, lowByte b, lowByte c, lowByte d⟩
  | _ => none

/-- The bytes of the last part. -/
def lastBytes : Nat → Nat → List Nat
  | 0, _ => []
  | count + 1, last => lastBytes count (last / 256) ++ [last &&& 0xff]

def IPv4.ofParts (values : List Nat) : Option IPv4 :=
  let lastIndex := values.length - 1
  let bytes := values.take lastIndex
  let last := values.getD lastIndex 0
  if bytes.any fun byte => decide (255 < byte) then none
  else if 256 ^ (4 - lastIndex) - 1 < last then none
  else IPv4.ofBytes (bytes ++ lastBytes (4 - lastIndex) last)

def parseIPv4 (host : List Char) : Option IPv4 :=
  if !host.isEmpty && host.all (fun c => isAlphanumeric c || c == '.') then
    let parts := host.splitOn '.'
    if parts.length < 1 ∨ 4 < parts.length then none
    else (parts.mapM parseIPv4Part).bind IPv4.ofParts
  else none

/-! ## IPv6 -/

/-- Without the brackets around it. -/
def stripBrackets (host : List Char) : List Char :=
  if host.head? = some '[' ∧ host.getLast? = some ']' then (host.drop 1).dropLast else host

/-- `byte.toString(16).padStart(2, '0')` -/
def hexByte (byte : Nat) : List Char := (Nat.toDigits 16 byte).leftpad 2 '0'

/-- The two groups of an address. -/
def hexGroups (v4 : IPv4) : List Char :=
  hexByte v4.a.val ++ hexByte v4.b.val ++ ':' :: (hexByte v4.c.val ++ hexByte v4.d.val)

/-- What follows the last colon. -/
def afterLastColon (host : List Char) : List Char :=
  (host.reverse.takeWhile (· != ':')).reverse

/-- An IPv4 address at the end is put into two groups. -/
def expandEmbedded (host : List Char) : Option (List Char) :=
  if host.contains '.' && host.contains ':' then
    (parseIPv4 (afterLastColon host)).map fun embeddedV4 =>
      host.take (host.length - (afterLastColon host).length) ++ hexGroups embeddedV4
  else some host

/-- `text.split('::')` -/
def splitDoubleColon : List Char → List (List Char)
  | [] => [[]]
  | [c] => [[c]]
  | c :: d :: rest =>
    if c = ':' ∧ d = ':' then [] :: splitDoubleColon rest
    else (splitDoubleColon (d :: rest)).modifyHead (c :: ·)

/-- One group of up to four hexadecimal digits. -/
def parseGroup (g : List Char) : Option Nat :=
  if !g.isEmpty && g.length ≤ 4 && g.all (isDigit 16) then some (readDigits 16 g) else none

def parseGroups (s : List Char) : Option (List Nat) :=
  if s.isEmpty then some [] else (s.splitOn ':').mapM parseGroup

/-- The groups of an address without an IPv4 part. -/
def parseExpanded (host : List Char) : Option (List Nat) :=
  match splitDoubleColon host with
  | [whole] => (parseGroups whole).filter fun groups => groups.length == 8
  | [head, tail] =>
    (parseGroups head).bind fun head => (parseGroups tail).bind fun tail =>
      if 8 < head.length + tail.length then none
      else some (head ++ List.replicate (8 - head.length - tail.length) 0 ++ tail)
  | _ => none

def parseIPv6 (rawHost : List Char) : Option (List Nat) :=
  let host := stripBrackets rawHost
  if host.isEmpty then none else (expandEmbedded host).bind parseExpanded

/-! ## Names -/

def KNOWN_BLOCKED_HOSTNAMES : List String :=
  ["localhost", "metadata.google.internal", "metadata.internal", "instance-data.ec2.internal"]

/-- What the name alone tells, in lower case. -/
def classifyName (hostname : String) : IpCheckResult :=
  if hostname = "localhost" ∨ ".localhost".toList.isSuffixOf hostname.toList then .block .loopback
  else if KNOWN_BLOCKED_HOSTNAMES.contains hostname then .block .metadata
  else .pass

def classifyHostname (hostnameRaw : String) : IpCheckResult :=
  let hostname := hostnameRaw.toLower
  if hostname.toList.head? = some '[' ∧ hostname.toList.getLast? = some ']' then
    match parseIPv6 hostname.toList with
    | some groups => classifyIPv6 groups
    | none => .pass
  else
    match parseIPv4 hostname.toList with
    | some v4 => classifyIPv4 v4
    | none =>
      match parseIPv6 hostname.toList with
      | some groups => classifyIPv6 groups
      | none => classifyName hostname

def classifyIpAddress (ip : String) : IpCheckResult :=
  match parseIPv4 ip.toList with
  | some v4 => classifyIPv4 v4
  | none =>
    match parseIPv6 ip.toList with
    | some groups => classifyIPv6 groups
    | none => .pass

def IpBlockReason.text : IpBlockReason → String
  | .loopback => "loopback"
  | .private => "private"
  | .linkLocal => "link-local"
  | .cgn => "cgn"
  | .metadata => "metadata"
  | .invalid => "invalid"

/-- `classification.reason ?? 'private'` where the host is blocked -/
def hostnameReason (hostname : String) : Option String :=
  let classification := classifyHostname hostname
  if classification.blocked then some (classification.reason.elim "private" IpBlockReason.text)
  else none

/-- The platform with the classification of host names above. -/
def NetTools.classifying (net : NetTools) : NetTools := { net with classifyHostname := hostnameReason }

end Utsuroi
