import Mathlib.Data.Int.Notation

/-!
# Dates as `toISOString` writes them
-/

namespace Utsuroi

/-- `n` in decimal with at least `width` digits. -/
def padded (width n : Nat) : String :=
  let digits := toString n
  String.ofList (List.replicate (width - digits.length) '0') ++ digits

structure CivilDate where
  year : Int
  month : Nat
  day : Nat
  deriving DecidableEq, Repr

/-- The date of a day counted from 1970-01-01, in years that begin in March. -/
def civilDate (days : Int) : CivilDate :=
  let shifted := days + 719468
  let era := shifted / 146097
  let dayOfEra := (shifted % 146097).toNat
  let yearOfEra := (dayOfEra - dayOfEra / 1460 + dayOfEra / 36524 - dayOfEra / 146096) / 365
  let dayOfYear := dayOfEra - (365 * yearOfEra + yearOfEra / 4 - yearOfEra / 100)
  let marchMonth := (5 * dayOfYear + 2) / 153
  let month := if marchMonth < 10 then marchMonth + 3 else marchMonth - 9
  { year := yearOfEra + era * 400 + (if month ≤ 2 then 1 else 0)
    month := month
    day := dayOfYear - (153 * marchMonth + 2) / 5 + 1 }

/-- Years outside 0 to 9999 have a sign and six digits. -/
def isoYear (year : Int) : String :=
  if year < 0 then "-" ++ padded 6 year.natAbs
  else if 9999 < year then "+" ++ padded 6 year.natAbs
  else padded 4 year.natAbs

/-- `new Date(ms).toISOString()` -/
def isoString (ms : Int) : String :=
  let date := civilDate (ms / 86400000)
  let msOfDay := (ms % 86400000).toNat
  isoYear date.year ++ "-" ++ padded 2 date.month ++ "-" ++ padded 2 date.day ++ "T" ++
    padded 2 (msOfDay / 3600000) ++ ":" ++ padded 2 (msOfDay / 60000 % 60) ++ ":" ++
    padded 2 (msOfDay / 1000 % 60) ++ "." ++ padded 3 (msOfDay % 1000) ++ "Z"

/-- The times of a valid `Date`. -/
structure Instant where
  ms : Int
  low : -8640000000000000 ≤ ms
  high : ms ≤ 8640000000000000
  deriving DecidableEq, Repr

/-- `date.toISOString()` -/
def Instant.iso (x : Instant) : String := isoString x.ms

end Utsuroi
