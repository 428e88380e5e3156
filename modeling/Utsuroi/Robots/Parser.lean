import Utsuroi.Robots.Types
import Utsuroi.Shared.Utf16

/-!
# The parser of robots.txt

A robots.txt is read line by line.  Consecutive user-agent lines begin a group, and the rules after
them belong to it.
-/

namespace Utsuroi

/-! ## Percent encoding -/

def isUnreservedByte (code : Nat) : Bool :=
  (0x41 ≤ code && code ≤ 0x5a) || (0x61 ≤ code && code ≤ 0x7a) || (0x30 ≤ code && code ≤ 0x39) ||
    code == 0x2d || code == 0x2e || code == 0x5f || code == 0x7e

/-- The value of a hexadecimal digit. -/
def hexDigit? (ch : Char) : Option Nat :=
  if '0' ≤ ch ∧ ch ≤ '9' then some (ch.toNat - 0x30)
  else if 'a' ≤ ch ∧ ch ≤ 'f' then some (ch.toNat - 0x61 + 10)
  else if 'A' ≤ ch ∧ ch ≤ 'F' then some (ch.toNat - 0x41 + 10)
  else none

def hexUpper (digit : Nat) : Char :=
  if digit < 10 then Char.ofNat (0x30 + digit) else Char.ofNat (0x41 + (digit - 10))

/-- `%XX` in upper case -/
def percentByte (byte : Nat) : List Char := ['%', hexUpper (byte / 16), hexUpper (byte % 16)]

/-- One character as it is left or encoded. -/
def percentChar (ch : Char) : List Char :=
  if ch.toNat > 0x7e then
    (String.singleton ch).toUTF8.toList.flatMap fun byte => percentByte byte.toNat
  else if ch.toNat ≤ 0x20 then percentByte ch.toNat
  else [ch]

def normalizeChars : List Char → List Char
  | [] => []
  | ch :: h₁ :: h₂ :: rest =>
    match if ch = '%' then hexDigit? h₁ else none, hexDigit? h₂ with
    | some high, some low =>
      let code := high * 16 + low
      (if isUnreservedByte code then [Char.ofNat code] else percentByte code) ++ normalizeChars rest
    | _, _ => percentChar ch ++ normalizeChars (h₁ :: h₂ :: rest)
  | ch :: rest => percentChar ch ++ normalizeChars rest

def normalizePercentEncoding (input : String) : String := String.ofList (normalizeChars input.toList)

/-! ## Lines -/

def stripComment (line : List Char) : List Char := line.takeWhile (· ≠ '#')

structure RawDirective where
  field : String
  value : String
  deriving DecidableEq, Repr

/-- `text.replace(/\r\n?/g, '\n')` -/
def unifyNewlines : List Char → List Char
  | [] => []
  | '\r' :: '\n' :: rest => '\n' :: unifyNewlines rest
  | '\r' :: rest => '\n' :: unifyNewlines rest
  | ch :: rest => ch :: unifyNewlines rest

def stripBom : List Char → List Char
  | [] => []
  | ch :: rest => if ch = '\uFEFF' then rest else ch :: rest

/-- The lines of a robots.txt. -/
def robotsLines (text : String) : List (List Char) :=
  (unifyNewlines (stripBom text.toList)).splitOn '\n'

section Parser

-- `toLowerCase` of the platform
variable (toLowerCase : String → String)

def parseLine (line : List Char) : Option RawDirective :=
  let withoutComment := (trim (String.ofList (stripComment line))).toList
  if withoutComment = [] then none
  else if ':' ∈ withoutComment then
    let field := toLowerCase (trim (String.ofList (withoutComment.takeWhile (· ≠ ':'))))
    let value := trim (String.ofList (withoutComment.dropWhile (· ≠ ':')).tail)
    some ⟨field, value⟩
  else none

def isValidPathValue (value : String) : Bool :=
  value == "" || value.toList.head? == some '/' || value.toList.head? == some '*'

structure ParserState where
  groups : List RobotsGroup
  sitemaps : List String
  currentAgents : List String
  currentRules : List RobotsRule
  collectingAgents : Bool
  deriving DecidableEq, Repr

def ParserState.start : ParserState := ⟨[], [], [], [], false⟩

def ParserState.flushGroup (state : ParserState) : ParserState :=
  { state with
    groups :=
      if state.currentAgents = [] then state.groups
      else state.groups ++ [⟨state.currentAgents, state.currentRules⟩]
    currentAgents := []
    currentRules := [] }

def robotsDirective? : String → Option RobotsDirective
  | "allow" => some .allow
  | "disallow" => some .disallow
  | _ => none

def ParserState.step (state : ParserState) (line : RawDirective) : ParserState :=
  if line.field = "user-agent" then
    let state := if state.collectingAgents then state else state.flushGroup
    let token := toLowerCase line.value
    { state with
      currentAgents := if token = "" then state.currentAgents else state.currentAgents ++ [token]
      collectingAgents := true }
  else
    match robotsDirective? line.field with
    | some directive =>
      let state := { state with collectingAgents := false }
      if state.currentAgents = [] then state
      else if !isValidPathValue line.value then state
      else if directive = .disallow ∧ line.value = "" then state
      else
        let pattern := normalizePercentEncoding line.value
        { state with currentRules := state.currentRules ++ [⟨directive, pattern⟩] }
    | none =>
      if line.field = "sitemap" then
        { state with
          collectingAgents := false
          sitemaps := if line.value = "" then state.sitemaps else state.sitemaps ++ [line.value] }
      else state

/-- The lines that are directives, in turn. -/
def parseLines (lines : List (List Char)) : RobotsRules :=
  let state := (lines.filterMap (parseLine toLowerCase)).foldl (ParserState.step toLowerCase)
    ParserState.start
  ⟨state.flushGroup.groups, state.flushGroup.sitemaps⟩

def parseRobotsTxt (text : String) : RobotsRules := parseLines toLowerCase (robotsLines text)

end Parser

end Utsuroi
