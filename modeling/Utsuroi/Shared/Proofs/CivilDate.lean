import Mathlib.Data.List.Basic
import Utsuroi.Shared.IsoDate

/-!
# Civil dates are in the order of their days

The day of an era determines its year, which begins in March, by an estimate from the mean lengths of
four years and of a century.  Within the year the month follows from the day in the same way.
-/

namespace Utsuroi

/-! ## Years of an era -/

/-- The year of a day of an era of 400 years. -/
def yearOfEra (dayOfEra : Nat) : Nat :=
  (dayOfEra - dayOfEra / 1460 + dayOfEra / 36524 - dayOfEra / 146096) / 365

/-- The first day of a year of an era. -/
def yearStart (year : Nat) : Nat := 365 * year + year / 4 - year / 100

theorem yearOfEra_century {century day : Nat} (hcentury : century ≤ 3) (hday : day < 36524) :
    yearOfEra (36524 * century + day) =
      100 * century + (day - (day + 24 * century) / 1460) / 365 := by
  have hfour : (36524 * century + day) / 1460 = 25 * century + (day + 24 * century) / 1460 := by omega
  have hcent : (36524 * century + day) / 36524 = century := by omega
  have hera : (36524 * century + day) / 146096 = 0 := by omega
  have hle : (day + 24 * century) / 1460 ≤ day := by omega
  rw [yearOfEra, hfour, hcent, hera]
  generalize (day + 24 * century) / 1460 = leapDays at hle ⊢
  have hsplit : 36524 * century + day - (25 * century + leapDays) + century - 0 =
      (day - leapDays) + 365 * (100 * century) := by omega
  rw [hsplit, Nat.add_mul_div_left _ _ (by omega)]
  omega

/-- A day lies in the year it is given. -/
theorem yearOfEra_spec {day : Nat} (h : day < 146097) :
    yearOfEra day ≤ 399 ∧ yearStart (yearOfEra day) ≤ day ∧
      day ≤ yearStart (yearOfEra day) + 365 := by
  by_cases hlast : day = 146096
  · rw [hlast]
    decide
  · obtain ⟨century, rest, hcentury, hrest, rfl⟩ :
        ∃ century rest, century ≤ 3 ∧ rest < 36524 ∧ day = 36524 * century + rest :=
      ⟨day / 36524, day % 36524, by omega, by omega, by omega⟩
    rw [yearOfEra_century hcentury hrest]
    have hleap : (rest + 24 * century) / 1460 ≤ rest := by omega
    have hyear : (rest - (rest + 24 * century) / 1460) / 365 ≤ 99 := by omega
    have hstart : 365 * ((rest - (rest + 24 * century) / 1460) / 365) +
        (rest - (rest + 24 * century) / 1460) / 365 / 4 ≤ rest := by omega
    have hend : rest ≤ 365 * ((rest - (rest + 24 * century) / 1460) / 365) +
        (rest - (rest + 24 * century) / 1460) / 365 / 4 + 365 := by omega
    generalize (rest - (rest + 24 * century) / 1460) / 365 = year at hyear hstart hend ⊢
    have hfours : (100 * century + year) / 4 = 25 * century + year / 4 := by omega
    have hcenturies : (100 * century + year) / 100 = century := by omega
    rw [yearStart, hfours, hcenturies]
    omega

theorem yearOfEra_mono {a b : Nat} (h : a ≤ b) (hb : b < 146097) : yearOfEra a ≤ yearOfEra b := by
  induction b with
  | zero => exact Nat.le_of_eq (congrArg yearOfEra (Nat.le_zero.mp h))
  | succ b ih =>
      by_cases hlast : a = b + 1
      · exact Nat.le_of_eq (congrArg yearOfEra hlast)
      · refine Nat.le_trans (ih (by omega) (by omega)) ?_
        unfold yearOfEra
        apply Nat.div_le_div_right
        omega

/-! ## Months of a year -/

/-- The month of a day of a year, counted from March. -/
def monthOfYear (dayOfYear : Nat) : Nat := (5 * dayOfYear + 2) / 153

def dayOfMonth (dayOfYear : Nat) : Nat := dayOfYear - (153 * monthOfYear dayOfYear + 2) / 5 + 1

theorem monthOfYear_lt {a b : Nat} (h : a < b) :
    monthOfYear a < monthOfYear b ∨ monthOfYear a = monthOfYear b ∧ dayOfMonth a < dayOfMonth b := by
  unfold dayOfMonth monthOfYear
  omega

theorem monthOfYear_le {day : Nat} (h : day ≤ 365) : monthOfYear day ≤ 11 := by
  unfold monthOfYear
  omega

theorem dayOfMonth_le {day : Nat} : 1 ≤ dayOfMonth day ∧ dayOfMonth day ≤ 31 := by
  unfold dayOfMonth monthOfYear
  omega

/-! ## Dates -/

/-- The order of years, months and days. -/
def CivilDate.Before (a b : CivilDate) : Prop :=
  a.year < b.year ∨ a.year = b.year ∧ (a.month < b.month ∨ a.month = b.month ∧ a.day < b.day)

def dayOfEra (days : Int) : Nat := ((days + 719468) % 146097).toNat

def dayOfYear (days : Int) : Nat := dayOfEra days - yearStart (yearOfEra (dayOfEra days))

/-- The year that begins in March. -/
def marchYear (days : Int) : Int := yearOfEra (dayOfEra days) + (days + 719468) / 146097 * 400

theorem dayOfEra_lt (days : Int) : dayOfEra days < 146097 := by
  unfold dayOfEra
  omega

theorem dayOfYear_le (days : Int) : dayOfYear days ≤ 365 := by
  have hspec := yearOfEra_spec (dayOfEra_lt days)
  unfold dayOfYear
  omega

theorem civilDate_eq (days : Int) : civilDate days =
    ⟨marchYear days + (if monthOfYear (dayOfYear days) < 10 then 0 else 1),
      if monthOfYear (dayOfYear days) < 10 then monthOfYear (dayOfYear days) + 3
        else monthOfYear (dayOfYear days) - 9,
      dayOfMonth (dayOfYear days)⟩ := by
  have hmonth := monthOfYear_le (dayOfYear_le days)
  have hcalendar : civilDate days =
      ⟨marchYear days + (if (if monthOfYear (dayOfYear days) < 10 then monthOfYear (dayOfYear days) + 3
          else monthOfYear (dayOfYear days) - 9) ≤ 2 then 1 else 0),
        if monthOfYear (dayOfYear days) < 10 then monthOfYear (dayOfYear days) + 3
          else monthOfYear (dayOfYear days) - 9,
        dayOfMonth (dayOfYear days)⟩ := rfl
  rw [hcalendar]
  by_cases hearly : monthOfYear (dayOfYear days) < 10
  · rw [if_pos hearly, if_pos hearly, if_neg (by omega)]
  · rw [if_neg hearly, if_neg hearly, if_pos (by omega)]

theorem marchYear_lt {a b : Int} (h : a < b) :
    marchYear a < marchYear b ∨ marchYear a = marchYear b ∧ dayOfYear a < dayOfYear b := by
  have ha := yearOfEra_spec (dayOfEra_lt a)
  have hb := yearOfEra_spec (dayOfEra_lt b)
  by_cases hera : (a + 719468) / 146097 = (b + 719468) / 146097
  · have hday : dayOfEra a < dayOfEra b := by
      unfold dayOfEra
      omega
    have hmono := yearOfEra_mono (Nat.le_of_lt hday) (dayOfEra_lt b)
    unfold marchYear dayOfYear
    rw [hera]
    by_cases hyear : yearOfEra (dayOfEra a) = yearOfEra (dayOfEra b)
    · right
      rw [hyear] at ha ⊢
      omega
    · left
      omega
  · left
    unfold marchYear
    omega

/-- A later day has a later date. -/
theorem civilDate_before {a b : Int} (h : a < b) : (civilDate a).Before (civilDate b) := by
  have ha := monthOfYear_le (dayOfYear_le a)
  have hb := monthOfYear_le (dayOfYear_le b)
  rw [civilDate_eq, civilDate_eq]
  unfold CivilDate.Before
  dsimp only
  rcases marchYear_lt h with hyear | ⟨hyear, hday⟩
  · split
    · split
      · omega
      · omega
    · split
      · omega
      · omega
  · rcases monthOfYear_lt hday with hmonth | ⟨hmonth, hdate⟩
    · split
      · split
        · omega
        · omega
      · split
        · omega
        · omega
    · rw [hmonth]
      omega

end Utsuroi
