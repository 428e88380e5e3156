import Utsuroi.Shared.IsoDate
import Utsuroi.Shared.Utf16

/-!
# Dates of feeds and sitemaps
-/

namespace Utsuroi

/-- The first instant of the year 10000. -/
def yearTenThousand : Instant := ⟨253402300800000, by decide, by decide⟩

structure DateTools where
  /-- `new Date(text)`, `none` where it is invalid -/
  parse : String → Option Instant
  /-- A year beyond 9999 is read from its text. -/
  parse_beyond : parse "+010000-01-01T00:00:00.000Z" = some yearTenThousand

/-- What is not a date is returned as it is. -/
def normalizeIsoDate (tools : DateTools) (raw : String) : Option String :=
  let s := trim raw
  if s = "" then none
  else
    match tools.parse s with
    | some d => some d.iso
    | none => some s

end Utsuroi
