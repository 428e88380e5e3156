import Utsuroi.Framework.FixedWidth
import Utsuroi.Shared.Proofs.CivilDate
import Utsuroi.Shared.Utf16

/-!
# The order of ISO dates as texts

Within the years 0 to 9999 the texts are in the order of the instants, and within the years beyond
them.  The sign of all other years puts the years beyond before everything else, and turns the
negative years round.
-/

namespace Utsuroi

open FixedWidth

/-! ## Comparisons of strings -/

theorem lt_iff_before (a b : String) : a < b ↔ Before a.toList b.toList := by
  have hlist : ∀ cs ds : List Char, cs < ds ↔ Before cs ds := by
    intro cs
    induction cs with
    | nil =>
        intro ds
        cases ds with
        | nil => simp [Before]
        | cons d ds => simp [Before]
    | cons c cs ih =>
        intro ds
        cases ds with
        | nil => simp [Before]
        | cons d ds =>
            rw [List.cons_lt_cons_iff, Before, ih, Char.toNat_inj]
            rfl
  exact hlist _ _

/-- The first code unit of a character, and whether it is the whole character. -/
private theorem charUnits_head (c : Char) :
    ∃ u units, charUnits c = u :: units ∧ (c.toNat < 0xD800 → u = c.toNat ∧ units = []) ∧
      (0xD800 ≤ c.toNat → 0xD800 ≤ u) := by
  unfold charUnits
  split
  · exact ⟨_, _, rfl, fun _ => ⟨rfl, rfl⟩, id⟩
  · exact ⟨_, _, rfl, by omega, by omega⟩

/-- The text has no character from the surrogates on. -/
def Narrow (text : String) : Prop := ∀ c ∈ text.toList, c.toNat < 0xD800

/-- Code units are ordered as characters are where one of the two texts has narrow ones only. -/
private theorem unitsLe_flatMap {cs : List Char} (ds : List Char) (h : ∀ c ∈ cs, c.toNat < 0xD800) :
    unitsLe (cs.flatMap charUnits) (ds.flatMap charUnits) = true ↔ ¬Before ds cs := by
  induction cs generalizing ds with
  | nil => simp [unitsLe, Before]
  | cons c cs ih =>
      rw [List.forall_mem_cons] at h
      obtain ⟨u, units, hunits, hnarrow, -⟩ := charUnits_head c
      obtain ⟨rfl, rfl⟩ := hnarrow h.1
      rw [List.flatMap_cons, hunits]
      cases ds with
      | nil => simp [unitsLe, Before]
      | cons d ds =>
          obtain ⟨v, others, hothers, hsmall, hlarge⟩ := charUnits_head d
          rw [List.flatMap_cons, hothers, List.singleton_append, List.cons_append, unitsLe, Before]
          by_cases hd : d.toNat < 0xD800
          · obtain ⟨rfl, rfl⟩ := hsmall hd
            rw [List.nil_append]
            by_cases hlt : c.toNat < d.toNat
            · rw [if_pos hlt]
              simp only [true_iff]
              omega
            · rw [if_neg hlt]
              by_cases hgt : d.toNat < c.toNat
              · simp [hgt]
              · rw [if_neg hgt, ih ds h.2]
                have heq : d.toNat = c.toNat := by omega
                simp [heq]
          · have hv := hlarge (by omega)
            rw [if_pos (by omega)]
            simp only [true_iff]
            omega

theorem jsLe_iff_before {a b : String} (ha : Narrow a) :
    jsLe a b = true ↔ ¬Before b.toList a.toList := by
  rw [jsLe, utf16Units_eq, utf16Units_eq, unitsLe_flatMap _ ha]

theorem jsLt_iff_before {a b : String} (hb : Narrow b) :
    jsLt a b = true ↔ Before a.toList b.toList := by
  rw [jsLt, Bool.not_eq_true', ← Bool.not_eq_true, jsLe_iff_before hb, Classical.not_not]

/-! ## The fields of a date -/

theorem padded_toList {width n : Nat} (hwidth : 0 < width) (h : n < 10 ^ width) :
    (padded width n).toList = digits width n := by
  have htext : toString n = String.ofList (Nat.toDigits 10 n) := rfl
  rw [digits_eq hwidth h, padded]
  simp only [htext, String.toList_append, String.toList_ofList, String.length_ofList]

def yearOf (ms : Int) : Int := (civilDate (ms / 86400000)).year

def msOfDay (ms : Int) : Nat := (ms % 86400000).toNat

/-- What follows the year. -/
def isoRest (ms : Int) : List Char :=
  let date := civilDate (ms / 86400000)
  '-' :: (digits 2 date.month ++ '-' :: (digits 2 date.day ++ 'T' ::
    (digits 2 (msOfDay ms / 3600000) ++ ':' :: (digits 2 (msOfDay ms / 60000 % 60) ++ ':' ::
      (digits 2 (msOfDay ms / 1000 % 60) ++ '.' :: (digits 3 (msOfDay ms % 1000) ++ ['Z']))))))

private theorem timeOfDay_lt_iff {a b : Nat} (ha : a < 86400000) (hb : b < 86400000) :
    a / 3600000 < b / 3600000 ∨ a / 3600000 = b / 3600000 ∧
      (a / 60000 % 60 < b / 60000 % 60 ∨ a / 60000 % 60 = b / 60000 % 60 ∧
        (a / 1000 % 60 < b / 1000 % 60 ∨ a / 1000 % 60 = b / 1000 % 60 ∧ a % 1000 < b % 1000)) ↔
    a < b := by
  omega

theorem msOfDay_lt (ms : Int) : msOfDay ms < 86400000 := by
  unfold msOfDay
  omega

theorem civilDate_bounds (days : Int) :
    (civilDate days).month < 10 ^ 2 ∧ (civilDate days).day < 10 ^ 2 := by
  have hmonth := monthOfYear_le (dayOfYear_le days)
  have hday := @dayOfMonth_le (dayOfYear days)
  rw [civilDate_eq]
  dsimp only
  split
  · omega
  · omega

/-- Within a year the rest of the text is in the order of the instants. -/
theorem isoRest_before {x y : Int} (hyear : yearOf x = yearOf y) :
    Before (isoRest x) (isoRest y) ↔ x < y := by
  have hx := civilDate_bounds (x / 86400000)
  have hy := civilDate_bounds (y / 86400000)
  have htx := msOfDay_lt x
  have hty := msOfDay_lt y
  have htext : Before (isoRest x) (isoRest y) ↔
      (civilDate (x / 86400000)).month < (civilDate (y / 86400000)).month ∨
      (civilDate (x / 86400000)).month = (civilDate (y / 86400000)).month ∧
      ((civilDate (x / 86400000)).day < (civilDate (y / 86400000)).day ∨
      (civilDate (x / 86400000)).day = (civilDate (y / 86400000)).day ∧
        msOfDay x < msOfDay y) := by
    rw [← timeOfDay_lt_iff htx hty]
    unfold isoRest
    dsimp only
    rw [before_cons_self, before_digits hx.1 hy.1, before_cons_self, before_digits hx.2 hy.2,
      before_cons_self, before_digits (by omega) (by omega), before_cons_self,
      before_digits (by omega) (by omega), before_cons_self, before_digits (by omega) (by omega),
      before_cons_self, before_digits (by omega) (by omega)]
    simp only [before_irrefl, and_false, or_false]
  rw [htext]
  have hdays : x / 86400000 < y / 86400000 ∨ x / 86400000 = y / 86400000 ∨
      y / 86400000 < x / 86400000 := by omega
  unfold yearOf at hyear
  rcases hdays with hlt | heq | hgt
  · have hbefore := civilDate_before hlt
    unfold CivilDate.Before at hbefore
    omega
  · rw [heq]
    unfold msOfDay
    omega
  · have hbefore := civilDate_before hgt
    unfold CivilDate.Before at hbefore
    omega

/-- A date in a later year is later. -/
theorem lt_of_yearOf {x y : Int} (h : yearOf x < yearOf y) : x < y := by
  by_contra hle
  by_cases hdays : x / 86400000 = y / 86400000
  · unfold yearOf at h
    rw [hdays] at h
    omega
  · have hbefore := @civilDate_before (y / 86400000) (x / 86400000) (by omega)
    unfold CivilDate.Before at hbefore
    unfold yearOf at h
    omega

/-! ## Instants -/

def Instant.year (x : Instant) : Int := yearOf x.ms

theorem Instant.year_bounds (x : Instant) : x.year.natAbs < 10 ^ 6 := by
  have hlow := x.low
  have hhigh := x.high
  have hera := dayOfEra_lt (x.ms / 86400000)
  have hyear := (yearOfEra_spec hera).1
  unfold Instant.year yearOf
  rw [civilDate_eq]
  unfold marchYear
  dsimp only
  split
  · omega
  · omega

private def yearChars (year : Int) : List Char :=
  if year < 0 then '-' :: digits 6 year.natAbs
  else if 9999 < year then '+' :: digits 6 year.natAbs
  else digits 4 year.natAbs

theorem Instant.iso_toList (x : Instant) : x.iso.toList = yearChars x.year ++ isoRest x.ms := by
  have hyear : (isoYear x.year).toList = yearChars x.year := by
    have hbounds := x.year_bounds
    unfold isoYear yearChars
    split
    · rw [String.toList_append, padded_toList (by decide) hbounds]
      rfl
    · split
      · rw [String.toList_append, padded_toList (by decide) hbounds]
        rfl
      · rw [padded_toList (by decide) (by omega)]
  have hdate := civilDate_bounds (x.ms / 86400000)
  have htime := msOfDay_lt x.ms
  have hmonth := @padded_toList 2 _ (by decide) hdate.1
  have hday := @padded_toList 2 _ (by decide) hdate.2
  have hhour := @padded_toList 2 (msOfDay x.ms / 3600000) (by decide) (by omega)
  have hminute := @padded_toList 2 (msOfDay x.ms / 60000 % 60) (by decide) (by omega)
  have hsecond := @padded_toList 2 (msOfDay x.ms / 1000 % 60) (by decide) (by omega)
  have hmilli := @padded_toList 3 (msOfDay x.ms % 1000) (by decide) (by omega)
  have htext : x.iso = isoYear x.year ++ "-" ++ padded 2 (civilDate (x.ms / 86400000)).month ++ "-" ++
      padded 2 (civilDate (x.ms / 86400000)).day ++ "T" ++ padded 2 (msOfDay x.ms / 3600000) ++ ":" ++
      padded 2 (msOfDay x.ms / 60000 % 60) ++ ":" ++ padded 2 (msOfDay x.ms / 1000 % 60) ++ "." ++
      padded 3 (msOfDay x.ms % 1000) ++ "Z" := rfl
  rw [htext]
  simp only [String.toList_append, hyear, hmonth, hday, hhour, hminute, hsecond, hmilli]
  simp [isoRest]

private theorem digits_narrow {width n : Nat} : ∀ c ∈ digits width n, c.toNat < 0xD800 := by
  induction width generalizing n with
  | zero => simp [digits]
  | succ width ih =>
      intro c hc
      rcases List.mem_append.mp hc with hfront | hlast
      · exact ih c hfront
      · rw [List.mem_singleton.mp hlast, Nat.toNat_digitChar_of_lt_ten (Nat.mod_lt n (by decide))]
        omega

theorem Instant.iso_narrow (x : Instant) : Narrow x.iso := by
  have hyear : ∀ c ∈ yearChars x.year, c.toNat < 0xD800 := by
    unfold yearChars
    split
    · exact List.forall_mem_cons.mpr ⟨by decide, digits_narrow⟩
    · split
      · exact List.forall_mem_cons.mpr ⟨by decide, digits_narrow⟩
      · exact digits_narrow
  have hfield : ∀ (width n : Nat) (d : Char) (rest : List Char), d.toNat < 0xD800 →
      (∀ c ∈ rest, c.toNat < 0xD800) → ∀ c ∈ d :: (digits width n ++ rest), c.toNat < 0xD800 :=
    fun width n d rest hd hrest => List.forall_mem_cons.mpr
      ⟨hd, List.forall_mem_append.mpr ⟨digits_narrow, hrest⟩⟩
  have hrest : ∀ c ∈ isoRest x.ms, c.toNat < 0xD800 := by
    unfold isoRest
    refine hfield _ _ _ _ (by decide) (hfield _ _ _ _ (by decide) (hfield _ _ _ _ (by decide)
      (hfield _ _ _ _ (by decide) (hfield _ _ _ _ (by decide) (hfield _ _ _ _ (by decide) ?_)))))
    simp
  intro c hc
  rw [x.iso_toList] at hc
  rcases List.mem_append.mp hc with hfront | hback
  · exact hyear c hfront
  · exact hrest c hback

/-- The texts of the two instants are ordered as their times are. -/
def Instant.Comparable (x y : Instant) : Prop :=
  9999 < x.year ∧ 9999 < y.year ∨
    x.year ≤ 9999 ∧ y.year ≤ 9999 ∧ (x.year < 0 → y.year < 0 → x.year = y.year)

private theorem before_iso {x y : Instant} :
    Before x.iso.toList y.iso.toList ↔
      Before (yearChars x.year ++ isoRest x.ms) (yearChars y.year ++ isoRest y.ms) := by
  rw [x.iso_toList, y.iso_toList]

private theorem rest_iff {x y : Instant} :
    x.year < y.year ∨ x.year = y.year ∧ Before (isoRest x.ms) (isoRest y.ms) ↔ x.ms < y.ms := by
  constructor
  · intro h
    rcases h with hyear | ⟨hyear, hrest⟩
    · exact lt_of_yearOf hyear
    · exact (isoRest_before hyear).mp hrest
  · intro h
    rcases Int.lt_trichotomy x.year y.year with hyear | hyear | hyear
    · exact .inl hyear
    · exact .inr ⟨hyear, (isoRest_before hyear).mpr h⟩
    · have hgt := lt_of_yearOf hyear
      omega

/-- The order of the texts where the years are written alike. -/
theorem Instant.before_alike {x y : Instant}
    (h : 9999 < x.year ∧ 9999 < y.year ∨
      (0 ≤ x.year ∧ x.year ≤ 9999) ∧ 0 ≤ y.year ∧ y.year ≤ 9999) :
    Before x.iso.toList y.iso.toList ↔ x.ms < y.ms := by
  have hx := x.year_bounds
  have hy := y.year_bounds
  have hlt : x.year.natAbs < y.year.natAbs ↔ x.year < y.year := by omega
  have heq : x.year.natAbs = y.year.natAbs ↔ x.year = y.year := by omega
  rw [before_iso, ← rest_iff, ← hlt, ← heq]
  rcases h with ⟨hxbeyond, hybeyond⟩ | ⟨hxyear, hyyear⟩
  · have hxneg : ¬x.year < 0 := by omega
    have hyneg : ¬y.year < 0 := by omega
    simp only [yearChars, hxneg, hyneg, hxbeyond, hybeyond, if_true, if_false, List.cons_append]
    rw [before_cons_self, before_digits hx hy]
  · have hxneg : ¬x.year < 0 := by omega
    have hyneg : ¬y.year < 0 := by omega
    have hxbeyond : ¬9999 < x.year := by omega
    have hybeyond : ¬9999 < y.year := by omega
    simp only [yearChars, hxneg, hyneg, hxbeyond, hybeyond, if_false]
    rw [before_digits (by omega) (by omega)]

/-- Negative years are turned round. -/
theorem Instant.before_negative {x y : Instant} (hxneg : x.year < 0) (hyneg : y.year < 0) :
    Before x.iso.toList y.iso.toList ↔
      y.year < x.year ∨ x.year = y.year ∧ x.ms < y.ms := by
  have hx := x.year_bounds
  have hy := y.year_bounds
  rw [before_iso]
  simp only [yearChars, hxneg, hyneg, if_true, List.cons_append]
  rw [before_cons_self, before_digits hx hy]
  constructor
  · intro h
    rcases h with hlt | ⟨heq, hrest⟩
    · left
      omega
    · have hyear : x.year = y.year := by omega
      exact .inr ⟨hyear, (isoRest_before hyear).mp hrest⟩
  · intro h
    rcases h with hlt | ⟨hyear, hms⟩
    · left
      omega
    · refine .inr ⟨by rw [hyear], (isoRest_before hyear).mpr hms⟩

private theorem before_sign {c d : Char} {cs ds : List Char} (h : c.toNat < d.toNat) :
    Before (c :: cs) (d :: ds) ∧ ¬Before (d :: ds) (c :: cs) :=
  ⟨before_cons_lt cs ds h, not_before_cons cs ds h⟩

/-- A four-digit year begins with a digit. -/
private theorem yearChars_digit {year : Int} (h : 0 ≤ year ∧ year ≤ 9999) :
    ∃ d rest, yearChars year = d :: rest ∧ 0x30 ≤ d.toNat := by
  have hneg : ¬year < 0 := by omega
  have hbeyond : ¬9999 < year := by omega
  simp only [yearChars, hneg, hbeyond, if_false]
  refine ⟨Nat.digitChar (year.natAbs / 10 / 10 / 10 % 10), _, rfl, ?_⟩
  rw [Nat.toNat_digitChar_of_lt_ten (by omega)]
  omega

/-- A year beyond 9999 stands before all others. -/
theorem Instant.before_beyond {x y : Instant} (hx : 9999 < x.year) (hy : y.year ≤ 9999) :
    Before x.iso.toList y.iso.toList ∧ ¬Before y.iso.toList x.iso.toList := by
  have hxneg : ¬x.year < 0 := by omega
  have hxtext : yearChars x.year = '+' :: digits 6 x.year.natAbs := by
    simp only [yearChars, hxneg, hx, if_true, if_false]
  rw [before_iso, before_iso, hxtext]
  by_cases hyneg : y.year < 0
  · have hytext : yearChars y.year = '-' :: digits 6 y.year.natAbs := by
      simp only [yearChars, hyneg, if_true]
    rw [hytext]
    exact before_sign (by decide)
  · obtain ⟨d, rest, hytext, hd⟩ := yearChars_digit ⟨Int.not_lt.mp hyneg, hy⟩
    rw [hytext]
    exact before_sign (Nat.lt_of_lt_of_le (by decide) hd)

/-- A negative year stands before the years of four digits. -/
theorem Instant.before_signed {x y : Instant} (hx : x.year < 0) (hy : 0 ≤ y.year ∧ y.year ≤ 9999) :
    Before x.iso.toList y.iso.toList ∧ ¬Before y.iso.toList x.iso.toList := by
  have hxtext : yearChars x.year = '-' :: digits 6 x.year.natAbs := by
    simp only [yearChars, hx, if_true]
  obtain ⟨d, rest, hytext, hd⟩ := yearChars_digit hy
  rw [before_iso, before_iso, hxtext, hytext]
  exact before_sign (Nat.lt_of_lt_of_le (by decide) hd)

theorem Instant.Comparable.symm {x y : Instant} (h : x.Comparable y) : y.Comparable x := by
  unfold Comparable at h ⊢
  omega

theorem Instant.lt_of_year {x y : Instant} (h : x.year < y.year) : x.ms < y.ms := lt_of_yearOf h

/-- Comparable instants have texts in their order. -/
theorem Instant.Comparable.before_iff {x y : Instant} (h : x.Comparable y) :
    Before x.iso.toList y.iso.toList ↔ x.ms < y.ms := by
  rcases h with hbeyond | ⟨hx, hy, hsame⟩
  · exact before_alike (.inl hbeyond)
  · by_cases hxneg : x.year < 0
    · by_cases hyneg : y.year < 0
      · have hyear := hsame hxneg hyneg
        rw [before_negative hxneg hyneg]
        constructor
        · intro h
          rcases h with hlt | hsame
          · omega
          · exact hsame.2
        · exact fun hlt => .inr ⟨hyear, hlt⟩
      · obtain ⟨hbefore, -⟩ := @before_signed x y hxneg ⟨Int.not_lt.mp hyneg, hy⟩
        have hlater := @lt_of_year x y (by omega)
        exact ⟨fun _ => hlater, fun _ => hbefore⟩
    · by_cases hyneg : y.year < 0
      · obtain ⟨-, hnot⟩ := @before_signed y x hyneg ⟨Int.not_lt.mp hxneg, hx⟩
        have hlater := @lt_of_year y x (by omega)
        exact ⟨fun hbefore => absurd hbefore hnot, fun hlt => by omega⟩
      · exact before_alike (.inr ⟨⟨Int.not_lt.mp hxneg, hx⟩, Int.not_lt.mp hyneg, hy⟩)

/-- All others have texts in the other order. -/
theorem Instant.before_of_not_comparable {x y : Instant} (h : ¬x.Comparable y) (hlt : x.ms < y.ms) :
    ¬Before x.iso.toList y.iso.toList := by
  have hyears : x.year ≤ y.year := by
    by_contra hgt
    have hlater := @lt_of_year y x (Int.not_le.mp hgt)
    omega
  unfold Comparable at h
  by_cases hy : 9999 < y.year
  · exact (before_beyond hy (by omega)).2
  · have hneg : x.year < 0 ∧ y.year < 0 ∧ x.year ≠ y.year := by omega
    rw [before_negative hneg.1 hneg.2.1]
    omega

/-- The texts of two instants differ. -/
theorem Instant.before_or {x y : Instant} (hlt : x.ms < y.ms) :
    Before x.iso.toList y.iso.toList ∨ Before y.iso.toList x.iso.toList := by
  by_cases hcomparable : x.Comparable y
  · exact .inl (hcomparable.before_iff.mpr hlt)
  · have hyears : x.year ≤ y.year := by
      by_contra hgt
      have hlater := @lt_of_year y x (Int.not_le.mp hgt)
      omega
    unfold Comparable at hcomparable
    right
    by_cases hy : 9999 < y.year
    · exact (before_beyond hy (by omega)).1
    · have hneg : x.year < 0 ∧ y.year < 0 ∧ x.year < y.year := by omega
      exact (before_negative hneg.2.1 hneg.1).mpr (.inl hneg.2.2)

theorem Instant.iso_injective {x y : Instant} (h : x.iso = y.iso) : x.ms = y.ms := by
  rcases Int.lt_trichotomy x.ms y.ms with hlt | heq | hgt
  · have hbefore := before_or hlt
    rw [h, or_self] at hbefore
    exact absurd hbefore (before_irrefl _)
  · exact heq
  · have hbefore := before_or hgt
    rw [h, or_self] at hbefore
    exact absurd hbefore (before_irrefl _)

end Utsuroi
