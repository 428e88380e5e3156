import Utsuroi.Adapters.Dates
import Utsuroi.Framework.Positional

/-!
# Dates in the format of RFC 822

A text is first read by one pattern.  What the pattern does not match, and what it matches with
numbers out of range, is left to the platform's parser.
-/

namespace Utsuroi

def RFC822_MONTHS : List (String × Nat) :=
  [("jan", 0), ("feb", 1), ("mar", 2), ("apr", 3), ("may", 4), ("jun", 5), ("jul", 6), ("aug", 7),
    ("sep", 8), ("oct", 9), ("nov", 10), ("dec", 11)]

/-- Minutes from UTC. -/
def RFC822_ZONES : List (String × Int) :=
  [("ut", 0), ("gmt", 0), ("utc", 0), ("z", 0), ("est", -300), ("edt", -240), ("cst", -360),
    ("cdt", -300), ("mst", -420), ("mdt", -360), ("pst", -480), ("pdt", -420)]

/-! ## The pattern -/

/-- What `\d` matched between `lo` and `hi` times. -/
structure Digits (lo hi : Nat) where
  text : List Char
  length_ge : lo ≤ text.length
  length_le : text.length ≤ hi
  digits : ∀ c ∈ text, Positional.isDigit 10 c = true

namespace Digits

variable {lo hi : Nat}

/-- `parseInt` -/
def value (d : Digits lo hi) : Nat := Positional.readDigits 10 d.text

theorem value_lt (d : Digits lo hi) : d.value < 10 ^ hi := by
  have hdigits : ∀ n ∈ (d.text.map Positional.digitValue).reverse, n < 10 := by
    intro n hn
    obtain ⟨c, hc, rfl⟩ := List.mem_map.mp (List.mem_reverse.mp hn)
    have hdigit := d.digits c hc
    rw [Positional.isDigit, Bool.and_eq_true, decide_eq_true_eq] at hdigit
    exact hdigit.2
  have hlt := Nat.ofDigits_lt_base_pow_length (by decide) hdigits
  rw [List.length_reverse, List.length_map] at hlt
  rw [value, Positional.readDigits_eq]
  exact Nat.lt_of_lt_of_le hlt (Nat.pow_le_pow_right (by decide) d.length_le)

end Digits

inductive ZoneText
  | absent
  | numeric (negative : Bool) (hours minutes : Digits 2 2)
  | named (letters : List Char)

/-- The groups of the pattern. -/
structure Rfc822Match where
  day : Digits 1 2
  month : List Char
  year : Digits 2 4
  hour : Digits 1 2
  minute : Digits 2 2
  second : Option (Digits 2 2)
  zone : ZoneText

def takeDigits (lo hi : Nat) (text : List Char) : Option (Digits lo hi × List Char) :=
  let run := text.takeWhile (Positional.isDigit 10)
  if h : lo ≤ run.length ∧ run.length ≤ hi then
    some (⟨run, h.1, h.2, List.all_eq_true.mp List.all_takeWhile⟩, text.drop run.length)
  else none

/-- `\d{4}`, of which `slice(1, 3)` and `slice(3, 5)` are read. -/
def takeZoneDigits (text : List Char) : Option (Digits 2 2 × Digits 2 2 × List Char) :=
  match takeDigits 4 4 text with
  | none => none
  | some (four, rest) => do
    let (hours, _) ← takeDigits 2 2 (four.text.take 2)
    let (minutes, _) ← takeDigits 2 2 (four.text.drop 2)
    some (hours, minutes, rest)

def skipSpaces (text : List Char) : List Char := text.dropWhile isJsSpace

/-- `\s+` -/
def takeSpaces (text : List Char) : Option (List Char) :=
  if text.head?.any isJsSpace then some (skipSpaces text) else none

def takeChar (expected : Char) : List Char → Option (List Char)
  | c :: text => if c = expected then some text else none
  | [] => none

/-- `(?:[A-Za-z]{3},\s*)?` -/
def skipWeekday (text : List Char) : List Char :=
  if (text.take 3).all Char.isAlpha && (text.drop 3).head? == some ',' then
    skipSpaces (text.drop 4)
  else text

/-- `(?:\([^)]*\))?` before anything that is no bracket -/
def skipComment (text : List Char) : Option (List Char) :=
  match text with
  | '(' :: rest =>
    if rest.contains ')' then some ((rest.dropWhile (· ≠ ')')).drop 1) else none
  | _ => some text

def takeSeconds (text : List Char) : Option (Option (Digits 2 2) × List Char) :=
  match text with
  | ':' :: rest => (takeDigits 2 2 rest).map fun (second, rest) => (some second, rest)
  | _ => some (none, text)

def takeZone (text : List Char) : Option (ZoneText × List Char) :=
  match text with
  | '+' :: rest =>
    (takeZoneDigits rest).map fun (hours, minutes, rest) => (.numeric false hours minutes, rest)
  | '-' :: rest =>
    (takeZoneDigits rest).map fun (hours, minutes, rest) => (.numeric true hours minutes, rest)
  | _ =>
    let letters := text.takeWhile Char.isAlpha
    some (if letters = [] then .absent else .named letters, text.drop letters.length)

/-- `s.match(RFC822_PATTERN)` -/
def matchRfc822 (s : String) : Option Rfc822Match := do
  let (day, text) ← takeDigits 1 2 (skipWeekday s.toList)
  let text ← takeSpaces text
  let month := text.takeWhile Char.isAlpha
  let text ← if month.length = 3 then takeSpaces (text.drop 3) else none
  let (year, text) ← takeDigits 2 4 text
  let text ← takeSpaces text
  let (hour, text) ← takeDigits 1 2 text
  let text ← takeChar ':' text
  let (minute, text) ← takeDigits 2 2 text
  let (second, text) ← takeSeconds text
  let text ← skipComment (skipSpaces text)
  let (zone, text) ← takeZone (skipSpaces text)
  if skipSpaces text = [] then some ⟨day, month, year, hour, minute, second, zone⟩ else none

/-! ## The fields -/

def lowerText (letters : List Char) : String := String.ofList (letters.map Char.toLower)

/-- What `RFC822_ZONES` has under a name; `constructor` is a property of every object. -/
inductive ZoneOffset
  | minutes (offset : Int)
  | nan
  | unknown
  deriving DecidableEq

def ZoneText.offset : ZoneText → ZoneOffset
  | .absent => .minutes 0
  | .numeric negative hours minutes =>
    let offset : Int := hours.value * 60 + minutes.value
    .minutes (if negative then -offset else offset)
  | .named letters =>
    match RFC822_ZONES.lookup (lowerText letters) with
    | some offset => .minutes offset
    | none => if lowerText letters = "constructor" then .nan else .unknown

namespace Rfc822Match

variable (m : Rfc822Match)

/-- The month from 0, `none` where it has no such name. -/
def monthIndex : Option Nat := RFC822_MONTHS.lookup (lowerText m.month)

/-- Years of two digits are those from 1970 to 2069. -/
def yearNumber : Int :=
  if m.year.text.length = 2 then m.year.value + (if m.year.value < 70 then 2000 else 1900)
  else m.year.value

def secondNumber : Nat := m.second.elim 0 Digits.value

/-- The numbers that `Date.UTC` would carry over. -/
def outOfRange : Bool :=
  decide (m.day.value < 1) || decide (31 < m.day.value) || decide (23 < m.hour.value) ||
    decide (59 < m.minute.value) || decide (59 < m.secondNumber)

end Rfc822Match

/-! ## `Date.UTC` -/

/-- The first day of a month, counted from 1970-01-01; months count from 0. -/
def firstDay (year : Int) (month : Nat) : Int :=
  let marchYear := if month < 2 then year - 1 else year
  let marchMonth := if month < 2 then month + 10 else month - 2
  let yearOfEra := (marchYear % 400).toNat
  marchYear / 400 * 146097 +
    (365 * yearOfEra + yearOfEra / 4 - yearOfEra / 100 + (153 * marchMonth + 2) / 5 : Nat) - 719468

/-- Years up to 99 are counted from 1900. -/
def utcYear (year : Int) : Int := if 0 ≤ year ∧ year ≤ 99 then 1900 + year else year

def dateUTC (year : Int) (month day hour minute second : Nat) : Int :=
  (firstDay (utcYear year) month + day - 1) * 86400000 +
    ((hour * 60 + minute) * 60 + second : Nat) * 1000

/-- `new Date(ms).toISOString()`, `none` where the time is not finite -/
def isoOfMs (ms : Int) : Option String :=
  if -8640000000000000 ≤ ms ∧ ms ≤ 8640000000000000 then some (isoString ms) else none

/-! ## Normalisation -/

def fallbackParse (tools : DateTools) (s : String) : Option String :=
  (tools.parse s).map Instant.iso

def normalizeRfc822Date (tools : DateTools) (raw : String) : Option String :=
  let s := trim raw
  match matchRfc822 s with
  | none => fallbackParse tools s
  | some m =>
    match m.monthIndex with
    | none => fallbackParse tools s
    | some month =>
      if m.outOfRange then fallbackParse tools s
      else
        match m.zone.offset with
        | .unknown => fallbackParse tools s
        | .nan => none
        | .minutes offset =>
          isoOfMs (dateUTC m.yearNumber month m.day.value m.hour.value m.minute.value
            m.secondNumber - offset * 60000)

end Utsuroi
