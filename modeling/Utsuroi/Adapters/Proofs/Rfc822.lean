import Mathlib.Tactic.IntervalCases
import Utsuroi.Adapters.Rfc822
import Utsuroi.Shared.Proofs.IsoOrder

/-!
# Dates of RFC 822 that the calendar does not have

`Date.UTC` carries a day over that its month does not have, and counts the years up to 99 from 1900.
All other dates and times are those of the instant that is written.
-/

namespace Utsuroi

open FixedWidth

/-! ## The calendar -/

def isLeapYear (year : Int) : Prop := year % 4 = 0 ∧ (year % 100 ≠ 0 ∨ year % 400 = 0)

instance (year : Int) : Decidable (isLeapYear year) := inferInstanceAs (Decidable (_ ∧ _))

/-- Months count from 0. -/
def daysInMonth (year : Int) (month : Nat) : Nat :=
  if month = 1 then (if isLeapYear year then 29 else 28)
  else if month ∈ [3, 5, 8, 10] then 30
  else 31

/-- The last day of a year that begins in March, 365 days long in a leap year's spring. -/
def lastOfYear (year : Nat) : Nat :=
  364 + if (year + 1) % 4 = 0 ∧ ((year + 1) % 100 ≠ 0 ∨ (year + 1) % 400 = 0) then 1 else 0

theorem yearOfEra_ends : ∀ year : Fin 400, yearOfEra (yearStart year) = year ∧
    yearOfEra (yearStart year + lastOfYear year) = year ∧
    yearStart year + lastOfYear year < 146097 := by
  decide +kernel

theorem yearOfEra_eq {year day : Nat} (hyear : year < 400) (hday : day ≤ lastOfYear year) :
    yearOfEra (yearStart year + day) = year := by
  obtain ⟨hfirst, hlast, hera⟩ := yearOfEra_ends ⟨year, hyear⟩
  have hle := yearOfEra_mono (Nat.le_add_right (yearStart year) day) (by simp only at hera; omega)
  have hge := yearOfEra_mono (Nat.add_le_add_left hday (yearStart year)) hera
  simp only at hfirst hlast
  omega

theorem lastOfYear_before (year : Int) :
    lastOfYear ((year - 1) % 400).toNat = if isLeapYear year then 365 else 364 := by
  have hleap : (((year - 1) % 400).toNat + 1) % 4 = 0 ∧
      ((((year - 1) % 400).toNat + 1) % 100 ≠ 0 ∨ (((year - 1) % 400).toNat + 1) % 400 = 0) ↔
      isLeapYear year := by
    unfold isLeapYear
    omega
  rw [lastOfYear]
  by_cases h : isLeapYear year
  · rw [if_pos h, if_pos (hleap.mpr h)]
  · rw [if_neg h, if_neg (hleap.not.mpr h)]

/-- The days before a month of a year, both counted from March. -/
def monthStart (month : Nat) : Nat := (153 * month + 2) / 5

theorem monthOfYear_eq {month day : Nat} (hday : 1 ≤ day)
    (hday' : monthStart month + day ≤ monthStart (month + 1)) :
    monthOfYear (monthStart month + (day - 1)) = month ∧
      dayOfMonth (monthStart month + (day - 1)) = day := by
  have hmonth : monthOfYear (monthStart month + (day - 1)) = month := by
    unfold monthOfYear monthStart at *
    omega
  refine ⟨hmonth, ?_⟩
  rw [dayOfMonth, hmonth]
  unfold monthStart
  omega

/-- Dates of a year that begins in March, the year given within its era. -/
theorem civilDate_march {era : Int} {year month day : Nat} (hyear : year < 400) (hday : 1 ≤ day)
    (hday' : monthStart month + day ≤ monthStart (month + 1))
    (hlast : monthStart month + (day - 1) ≤ lastOfYear year) :
    civilDate (era * 146097 + (yearStart year + (monthStart month + (day - 1)) : Nat) - 719468) =
      ⟨year + era * 400 + (if month < 10 then 0 else 1),
        if month < 10 then month + 3 else month - 9, day⟩ := by
  obtain ⟨hmonth, hdate⟩ := monthOfYear_eq hday hday'
  have hyear' := yearOfEra_eq hyear hlast
  have hera := (yearOfEra_ends ⟨year, hyear⟩).2.2
  simp only at hera
  generalize hoffset : monthStart month + (day - 1) = offset at *
  generalize hdays : era * 146097 + ((yearStart year + offset : Nat) : Int) - 719468 = days
  have hday_era : dayOfEra days = yearStart year + offset := by
    unfold dayOfEra
    omega
  have hday_year : dayOfYear days = offset := by
    rw [dayOfYear, hday_era, hyear']
    omega
  have hmarch : marchYear days = year + era * 400 := by
    rw [marchYear, hday_era, hyear']
    omega
  rw [civilDate_eq, hday_year, hmonth, hdate, hmarch]

/-- The days of a month follow one another. -/
theorem civilDate_firstDay {year : Int} {month day : Nat} (hmonth : month ≤ 11) (hday : 1 ≤ day)
    (hday' : day ≤ daysInMonth year month) :
    civilDate (firstDay year month + day - 1) = ⟨year, month + 1, day⟩ := by
  by_cases hearly : month < 2
  · have hyear : ((year - 1) % 400).toNat < 400 := by omega
    have hlength : monthStart (month + 10) + day ≤ monthStart (month + 10 + 1) ∧
        monthStart (month + 10) + (day - 1) ≤ lastOfYear ((year - 1) % 400).toNat := by
      unfold daysInMonth at hday'
      rw [lastOfYear_before]
      unfold monthStart
      interval_cases month
      · simp at hday'
        split <;> omega
      · rw [if_pos rfl] at hday'
        by_cases hleap : isLeapYear year
        · rw [if_pos hleap] at hday' ⊢
          omega
        · rw [if_neg hleap] at hday' ⊢
          omega
    have hdate := @civilDate_march ((year - 1) / 400) _ _ _ hyear hday hlength.1 hlength.2
    have hfirst : firstDay year month + day - 1 = (year - 1) / 400 * 146097 +
        (yearStart ((year - 1) % 400).toNat + (monthStart (month + 10) + (day - 1)) : Nat) -
          719468 := by
      simp only [firstDay, if_pos hearly, yearStart, monthStart]
      omega
    rw [hfirst, hdate, if_neg (by omega), if_neg (by omega)]
    congr 1
    omega
  · have hyear : (year % 400).toNat < 400 := by omega
    have hlength : monthStart (month - 2) + day ≤ monthStart (month - 2 + 1) ∧
        monthStart (month - 2) + (day - 1) ≤ lastOfYear (year % 400).toNat := by
      unfold daysInMonth at hday'
      unfold monthStart lastOfYear
      interval_cases month
      all_goals
        simp at hday'
        omega
    have hdate := @civilDate_march (year / 400) _ _ _ hyear hday hlength.1 hlength.2
    have hfirst : firstDay year month + day - 1 = year / 400 * 146097 +
        (yearStart (year % 400).toNat + (monthStart (month - 2) + (day - 1)) : Nat) - 719468 := by
      simp only [firstDay, if_neg hearly, yearStart, monthStart]
      omega
    rw [hfirst, hdate, if_pos (by omega), if_pos (by omega)]
    congr 1
    · omega
    · omega

theorem firstDay_bounds {year : Int} {month : Nat} (hmonth : month ≤ 11)
    (hyear : 0 ≤ year ∧ year ≤ 20000) :
    -800000 ≤ firstDay year month ∧ firstDay year month ≤ 7000000 := by
  by_cases hearly : month < 2
  · simp only [firstDay, if_pos hearly]
    omega
  · simp only [firstDay, if_neg hearly]
    omega

/-- A later day of the calendar is in no earlier year. -/
theorem year_le_of_day_le {a b : Int} (h : a ≤ b) : (civilDate a).year ≤ (civilDate b).year := by
  rcases Int.lt_or_eq_of_le h with hlt | heq
  · rcases civilDate_before hlt with hyear | ⟨hyear, -⟩
    · omega
    · omega
  · rw [heq]

/-! ## What a text says -/

structure Rfc822Time where
  year : Int
  month : Nat
  day : Nat
  hour : Nat
  minute : Nat
  second : Nat
  offsetMinutes : Int
  deriving DecidableEq

namespace Rfc822Time

variable (t : Rfc822Time)

def RealDate : Prop := 1 ≤ t.day ∧ t.day ≤ daysInMonth t.year t.month

def RealTime : Prop := t.hour ≤ 23 ∧ t.minute ≤ 59 ∧ t.second ≤ 59

instance : Decidable t.RealDate := inferInstanceAs (Decidable (_ ∧ _))

instance : Decidable t.RealTime := inferInstanceAs (Decidable (_ ∧ _))

/-- At the instant, clocks of the zone show the date and the time. -/
def At (x : Instant) : Prop :=
  civilDate ((x.ms + t.offsetMinutes * 60000) / 86400000) = ⟨t.year, t.month + 1, t.day⟩ ∧
    (x.ms + t.offsetMinutes * 60000) % 86400000 =
      (((t.hour * 60 + t.minute) * 60 + t.second : Nat) : Int) * 1000

/-- What the text can say at all. -/
structure Bounded : Prop where
  month : t.month ≤ 11
  year : 0 ≤ t.year ∧ t.year ≤ 12000
  offset : -6039 ≤ t.offsetMinutes ∧ t.offsetMinutes ≤ 6039

def ms : Int :=
  dateUTC t.year t.month t.day t.hour t.minute t.second - t.offsetMinutes * 60000

end Rfc822Time

def Rfc822Match.time (m : Rfc822Match) (month : Nat) (offset : Int) : Rfc822Time :=
  ⟨m.yearNumber, month, m.day.value, m.hour.value, m.minute.value, m.secondNumber, offset⟩

/-- The pattern matches, and month and zone are known. -/
def Reads (raw : String) (t : Rfc822Time) : Prop :=
  ∃ m month offset, matchRfc822 (trim raw) = some m ∧ m.monthIndex = some month ∧
    m.zone.offset = .minutes offset ∧ t = m.time month offset

def ZoneOffset.minutes? : ZoneOffset → Option Int
  | .minutes offset => some offset
  | .nan => none
  | .unknown => none

/-- What the text says, computed. -/
def readTime (raw : String) : Option Rfc822Time :=
  (matchRfc822 (trim raw)).bind fun m => m.monthIndex.bind fun month =>
    m.zone.offset.minutes?.map fun offset => m.time month offset

theorem reads_of_readTime {raw : String} {t : Rfc822Time} (h : readTime raw = some t) :
    Reads raw t := by
  obtain ⟨m, hmatch, h⟩ := Option.bind_eq_some_iff.mp h
  obtain ⟨month, hmonth, h⟩ := Option.bind_eq_some_iff.mp h
  obtain ⟨offset, hoffset, rfl⟩ := Option.map_eq_some_iff.mp h
  refine ⟨m, month, offset, hmatch, hmonth, ?_, rfl⟩
  cases hzone : m.zone.offset with
  | minutes known =>
      rw [hzone] at hoffset
      rw [Option.some.inj hoffset]
  | nan =>
      rw [hzone] at hoffset
      cases hoffset
  | unknown =>
      rw [hzone] at hoffset
      cases hoffset

theorem mem_of_lookup {α β : Type} [BEq α] [LawfulBEq α] {entries : List (α × β)} {key : α}
    {value : β} (h : entries.lookup key = some value) : (key, value) ∈ entries := by
  obtain ⟨before, after, rfl, -⟩ := List.lookup_eq_some_iff.mp h
  exact List.mem_append_right _ List.mem_cons_self

theorem offset_bounds {zone : ZoneText} {offset : Int} (h : zone.offset = .minutes offset) :
    -6039 ≤ offset ∧ offset ≤ 6039 := by
  cases zone with
  | absent =>
      obtain rfl := ZoneOffset.minutes.inj h
      decide
  | numeric negative hours minutes =>
      have hhours := hours.value_lt
      have hminutes := minutes.value_lt
      obtain rfl := ZoneOffset.minutes.inj h
      split <;> omega
  | named letters =>
      rw [ZoneText.offset] at h
      split at h
      · next known hlookup =>
          obtain rfl := ZoneOffset.minutes.inj h
          have hall : ∀ entry ∈ RFC822_ZONES, -6039 ≤ entry.2 ∧ entry.2 ≤ 6039 := by decide
          exact hall _ (mem_of_lookup hlookup)
      · split at h
        · cases h
        · cases h

theorem Reads.bounded {raw : String} {t : Rfc822Time} (h : Reads raw t) : t.Bounded := by
  obtain ⟨m, month, offset, -, hmonth, hzone, rfl⟩ := h
  have hyear := m.year.value_lt
  have hall : ∀ entry ∈ RFC822_MONTHS, entry.2 ≤ 11 := by decide
  refine ⟨hall _ (mem_of_lookup hmonth), ?_, offset_bounds hzone⟩
  simp only [Rfc822Match.time, Rfc822Match.yearNumber]
  split
  · split <;> omega
  · omega

namespace Rfc822Time

variable {t : Rfc822Time}

theorem Bounded.ms (h : t.Bounded) (hday : t.day ≤ 31) (htime : t.RealTime) :
    -8640000000000000 ≤ t.ms ∧ t.ms ≤ 8640000000000000 := by
  have hutc : 0 ≤ utcYear t.year ∧ utcYear t.year ≤ 20000 := by
    have hyear := h.year
    unfold utcYear
    split <;> omega
  have hfirst := firstDay_bounds h.month hutc
  have hoffset := h.offset
  unfold RealTime at htime
  simp only [Rfc822Time.ms, dateUTC]
  omega

/-- Local time and day of what `Date.UTC` makes of the numbers. -/
theorem local_split (htime : t.RealTime) :
    (t.ms + t.offsetMinutes * 60000) / 86400000 = firstDay (utcYear t.year) t.month + t.day - 1 ∧
      (t.ms + t.offsetMinutes * 60000) % 86400000 =
        (((t.hour * 60 + t.minute) * 60 + t.second : Nat) : Int) * 1000 := by
  unfold RealTime at htime
  simp only [Rfc822Time.ms, dateUTC]
  omega

theorem daysInMonth_le (year : Int) (month : Nat) : daysInMonth year month ≤ 31 := by
  unfold daysInMonth
  split
  · split <;> omega
  · split <;> omega

theorem at_ms (h : t.Bounded) (hdate : t.RealDate) (htime : t.RealTime) (hyear : 100 ≤ t.year)
    {x : Instant} (hx : x.ms = t.ms) : t.At x := by
  have hutc : utcYear t.year = t.year := if_neg (by omega)
  obtain ⟨hday, hrest⟩ := local_split htime
  rw [At, hx, hday, hrest, hutc]
  exact ⟨civilDate_firstDay h.month hdate.1 hdate.2, rfl⟩

/-- The years that are counted from 1900 are missed by centuries. -/
theorem not_at_ms (h : t.Bounded) (hday : 1 ≤ t.day) (htime : t.RealTime) (hyear : t.year < 100)
    {x : Instant} (hx : x.ms = t.ms) : ¬ t.At x := by
  intro hat
  have hbounds := h.year
  have hutc : utcYear t.year = 1900 + t.year := if_pos (by omega)
  have hlocal := hat.1
  rw [hx, (local_split htime).1, hutc] at hlocal
  have hmonth : 1 ≤ daysInMonth (1900 + t.year) t.month := by
    unfold daysInMonth
    split
    · split <;> omega
    · split <;> omega
  have hfirst := civilDate_firstDay h.month (Nat.le_refl 1) hmonth
  have hle : firstDay (1900 + t.year) t.month + (1 : Nat) - 1 ≤
      firstDay (1900 + t.year) t.month + t.day - 1 := by omega
  have hyears := year_le_of_day_le hle
  rw [hfirst, hlocal] at hyears
  simp only at hyears
  omega

end Rfc822Time

/-! ## When the text is read exactly -/

section Exact

variable {tools : DateTools} {raw : String} {t : Rfc822Time}

/-- A real date and time give their instant, a date that is not in the calendar gives none. -/
structure ExactOrNothing (tools : DateTools) (raw : String) (t : Rfc822Time) : Prop where
  exact : t.RealDate → t.RealTime → ∃ x, t.At x ∧ normalizeRfc822Date tools raw = some x.iso
  nothing : ¬ t.RealDate → normalizeRfc822Date tools raw = none

theorem normalizeRfc822Date_ms (h : Reads raw t) (hday : 1 ≤ t.day) (hday' : t.day ≤ 31)
    (htime : t.RealTime) : normalizeRfc822Date tools raw = some (isoString t.ms) := by
  have hbounds := h.bounded.ms hday' htime
  obtain ⟨m, month, offset, hmatch, hmonth, hzone, rfl⟩ := h
  have hrange : m.outOfRange = false := by
    simp only [Rfc822Time.RealTime, Rfc822Match.time] at htime hday hday'
    simp only [Rfc822Match.outOfRange, Bool.or_eq_false_iff, decide_eq_false_iff_not]
    omega
  simp only [normalizeRfc822Date, hmatch, hmonth, hrange, hzone]
  exact if_pos hbounds

theorem normalizeRfc822Date_fallback (h : Reads raw t)
    (hout : ¬ (1 ≤ t.day ∧ t.day ≤ 31 ∧ t.RealTime)) :
    normalizeRfc822Date tools raw = fallbackParse tools (trim raw) := by
  obtain ⟨m, month, offset, hmatch, hmonth, hzone, rfl⟩ := h
  have hrange : m.outOfRange = true := by
    by_contra hin
    rw [Bool.not_eq_true] at hin
    simp only [Rfc822Match.outOfRange, Bool.or_eq_false_iff, decide_eq_false_iff_not] at hin
    simp only [Rfc822Time.RealTime, Rfc822Match.time] at hout
    omega
  simp [normalizeRfc822Date, hmatch, hmonth, hrange]

theorem normalizeRfc822Date_exact_iff (tools : DateTools) (h : Reads raw t) :
    ExactOrNothing tools raw t ↔
      (t.RealDate → t.RealTime → 100 ≤ t.year) ∧
        (¬ t.RealDate →
          ¬ (1 ≤ t.day ∧ t.day ≤ 31 ∧ t.RealTime) ∧ tools.parse (trim raw) = none) := by
  have hbounded := h.bounded
  have hlast := Rfc822Time.daysInMonth_le t.year t.month
  constructor
  · intro hexact
    refine ⟨fun hdate htime => ?_, fun hdate => ?_⟩
    · by_contra hyear
      have hday := hdate.2
      have hms := @normalizeRfc822Date_ms tools raw t h hdate.1 (by omega) htime
      have hbounds := hbounded.ms (by omega) htime
      obtain ⟨x, hat, hx⟩ := hexact.exact hdate htime
      have hiso : (⟨t.ms, hbounds.1, hbounds.2⟩ : Instant).iso = x.iso :=
        Option.some.inj (hms.symm.trans hx)
      have heq := Instant.iso_injective hiso
      exact Rfc822Time.not_at_ms hbounded hdate.1 htime (by omega) heq.symm hat
    · have hnone := hexact.nothing hdate
      by_cases hin : 1 ≤ t.day ∧ t.day ≤ 31 ∧ t.RealTime
      · rw [normalizeRfc822Date_ms h hin.1 hin.2.1 hin.2.2] at hnone
        cases hnone
      · rw [normalizeRfc822Date_fallback h hin, fallbackParse, Option.map_eq_none_iff] at hnone
        exact ⟨hin, hnone⟩
  · intro ⟨hyears, hdates⟩
    refine ⟨fun hdate htime => ?_, fun hdate => ?_⟩
    · have hday := hdate.2
      have hbounds := hbounded.ms (by omega) htime
      refine ⟨⟨t.ms, hbounds.1, hbounds.2⟩, ?_, ?_⟩
      · exact Rfc822Time.at_ms hbounded hdate htime (hyears hdate htime) rfl
      · exact normalizeRfc822Date_ms h hdate.1 (by omega) htime
    · obtain ⟨hout, hparse⟩ := hdates hdate
      rw [normalizeRfc822Date_fallback h hout, fallbackParse, hparse]
      rfl

end Exact

/-- No text is a date, but for that of the year 10000. -/
private def rejectingTools : DateTools where
  parse text := if text = "+010000-01-01T00:00:00.000Z" then some yearTenThousand else none
  parse_beyond := rfl

theorem normalizeRfc822Date_exact_october :
    ∃ t, t.At ⟨1033545600000, by decide, by decide⟩ ∧
      ExactOrNothing rejectingTools "Wed, 02 Oct 2002 08:00:00 GMT" t := by
  have hreads : Reads "Wed, 02 Oct 2002 08:00:00 GMT" ⟨2002, 9, 2, 8, 0, 0, 0⟩ :=
    reads_of_readTime (by decide +kernel)
  have hdate : Rfc822Time.RealDate ⟨2002, 9, 2, 8, 0, 0, 0⟩ := by decide
  refine ⟨_, ⟨by decide +kernel, by decide⟩, (normalizeRfc822Date_exact_iff _ hreads).mpr ?_⟩
  exact ⟨fun _ _ => by decide, fun hno => absurd hdate hno⟩

/-- The 31st of February is carried over into March, and the year 50 read as 1950. -/
theorem normalizeRfc822Date_carries :
    (∃ t, Reads "31 Feb 2002 08:00:00 GMT" t ∧
      ¬ ExactOrNothing rejectingTools "31 Feb 2002 08:00:00 GMT" t) ∧
    normalizeRfc822Date rejectingTools "31 Feb 2002 08:00:00 GMT" =
      some "2002-03-03T08:00:00.000Z" ∧
    ∃ t, Reads "01 Jan 0050 00:00:00 GMT" t ∧
      ¬ ExactOrNothing rejectingTools "01 Jan 0050 00:00:00 GMT" t := by
  have hfebruary : normalizeRfc822Date rejectingTools "31 Feb 2002 08:00:00 GMT" =
      some "2002-03-03T08:00:00.000Z" := by decide +kernel
  have hfifty : normalizeRfc822Date rejectingTools "01 Jan 0050 00:00:00 GMT" =
      some "1950-01-01T00:00:00.000Z" := by decide +kernel
  refine ⟨⟨⟨2002, 1, 31, 8, 0, 0, 0⟩, reads_of_readTime (by decide +kernel), ?_⟩, hfebruary,
    ⟨50, 0, 1, 0, 0, 0, 0⟩, reads_of_readTime (by decide +kernel), ?_⟩
  · intro h
    have hdate : ¬ Rfc822Time.RealDate ⟨2002, 1, 31, 8, 0, 0, 0⟩ := by decide
    rw [h.nothing hdate] at hfebruary
    cases hfebruary
  · intro h
    obtain ⟨x, hat, hx⟩ := h.exact (by decide) (by decide)
    have hiso : x.iso = (⟨-631152000000, by decide, by decide⟩ : Instant).iso :=
      (Option.some.inj (hx.symm.trans hfifty)).trans (by decide +kernel)
    have hlocal := hat.1
    rw [Instant.iso_injective hiso] at hlocal
    have hnot : civilDate ((-631152000000 + (0 : Int) * 60000) / 86400000) ≠ ⟨50, 0 + 1, 1⟩ := by
      decide
    exact hnot hlocal

end Utsuroi
