import Utsuroi.Adapters.Dates
import Utsuroi.Pipeline.SitemapTraversal
import Utsuroi.Shared.Proofs.IsoOrder

/-!
# The order of sitemap timestamps

The cutoff, the order of the children and the watermarks compare normalised lastmod texts.  For most
instants that is their order in time; a text that is no date keeps the gate closed unless it stands
before all dates.
-/

namespace Utsuroi

open FixedWidth

section Timestamps

variable (tools : DateTools)

/-- The lastmod is a date. -/
def Denotes (raw : String) (x : Instant) : Prop :=
  trim raw ≠ "" ∧ tools.parse (trim raw) = some x

/-- The lastmod is a text that is no date. -/
def Garbage (raw : String) : Prop := trim raw ≠ "" ∧ tools.parse (trim raw) = none

/-- Every comparison of the texts of two instants is that of the instants. -/
structure Agrees (known latest : String) (x y : Instant) : Prop where
  cutoff : tooOld known latest = true ↔ y.ms < x.ms
  recency : ∀ loc loc', newerFirst ⟨loc, known⟩ ⟨loc', latest⟩ = true ↔ y.ms ≤ x.ms
  gate : gateCloses ⟨true, some known⟩ latest = true ↔ y.ms ≤ x.ms
  advance : ∀ row : TargetRow, row.lastKnownUpdatedAt = some known →
    (advanceWatermark latest row).lastKnownUpdatedAt = some (if x.ms < y.ms then latest else known)

variable {tools} {raw : String} {x y : Instant}

theorem normalizeIsoDate_denotes (h : Denotes tools raw x) : normalizeIsoDate tools raw = some x.iso := by
  simp [normalizeIsoDate, h.1, h.2]

theorem normalizeIsoDate_garbage (h : Garbage tools raw) : normalizeIsoDate tools raw = some (trim raw) := by
  simp [normalizeIsoDate, h.1, h.2]

theorem agrees_iff : Agrees x.iso y.iso x y ↔ x.Comparable y := by
  have hx := x.iso_narrow
  have hy := y.iso_narrow
  have hcutoff : tooOld x.iso y.iso = true ↔ Before y.iso.toList x.iso.toList :=
    jsLt_iff_before hx
  have hrecency : ∀ loc loc', newerFirst ⟨loc, x.iso⟩ ⟨loc', y.iso⟩ = true ↔
      ¬Before x.iso.toList y.iso.toList := fun _ _ => jsLe_iff_before hy
  have hgate : gateCloses ⟨true, some x.iso⟩ y.iso = true ↔ ¬Before x.iso.toList y.iso.toList := by
    simp only [gateCloses, Bool.true_and, Option.any_some]
    exact jsLe_iff_before hy
  constructor
  · intro hagrees
    by_contra hnot
    rcases Int.lt_trichotomy x.ms y.ms with hlt | heq | hgt
    · have hbefore := Instant.before_of_not_comparable hnot hlt
      have hle := hagrees.gate.mp (hgate.mpr hbefore)
      omega
    · have hyear : x.year = y.year := congrArg yearOf heq
      unfold Instant.Comparable at hnot
      omega
    · have hbefore := Instant.before_of_not_comparable (fun h => hnot h.symm) hgt
      exact hbefore (hcutoff.mp (hagrees.cutoff.mpr hgt))
  · intro hcomparable
    have hxy := hcomparable.before_iff
    have hyx := hcomparable.symm.before_iff
    refine ⟨hcutoff.trans hyx, ?_, ?_, ?_⟩
    · intro loc loc'
      rw [hrecency, hxy]
      omega
    · rw [hgate, hxy]
      omega
    · intro row hrow
      rw [advanceWatermark, hrow]
      dsimp only
      by_cases hlt : x.ms < y.ms
      · rw [if_pos hlt, if_pos ((lt_iff_before _ _).mpr (hxy.mpr hlt))]
      · rw [if_neg hlt, if_neg (fun h => hlt (hxy.mp ((lt_iff_before _ _).mp h))), hrow]

theorem yearTenThousand_iso : yearTenThousand.iso = "+010000-01-01T00:00:00.000Z" := by
  decide +kernel

theorem yearTenThousand_year : yearTenThousand.year = 10000 := by
  decide +kernel

/-- No date stands before the first one of the year 10000. -/
theorem yearTenThousand_first (y : Instant) : jsLe yearTenThousand.iso y.iso = true := by
  rw [jsLe_iff_before yearTenThousand.iso_narrow]
  have hyear := yearTenThousand_year
  by_cases hbeyond : 9999 < y.year
  · rw [Instant.before_alike (.inl ⟨hbeyond, by omega⟩)]
    intro hlt
    have hlast : yearOf (yearTenThousand.ms - 1) = 9999 := by decide +kernel
    have hlater := @lt_of_yearOf (yearTenThousand.ms - 1) y.ms (by
      rw [hlast]
      exact hbeyond)
    omega
  · exact (Instant.before_beyond (by omega) (by omega)).2

theorem yearTenThousand_denotes : Denotes tools "+010000-01-01T00:00:00.000Z" yearTenThousand := by
  have htrim : trim "+010000-01-01T00:00:00.000Z" = "+010000-01-01T00:00:00.000Z" := by decide
  refine ⟨?_, ?_⟩
  · rw [htrim]
    decide
  · rw [htrim]
    exact tools.parse_beyond

/-- SQLite orders texts by their bytes, which is as JavaScript orders them before a date. -/
theorem advanceWatermark_iso_iff {known : String} {row : TargetRow}
    (hrow : row.lastKnownUpdatedAt = some known) :
    (advanceWatermark y.iso row).lastKnownUpdatedAt = some y.iso ↔
      jsLt known y.iso = true ∨ known = y.iso := by
  rw [jsLt_iff_before y.iso_narrow, ← lt_iff_before, advanceWatermark, hrow]
  dsimp only
  by_cases hlt : known < y.iso
  · simp [hlt]
  · rw [if_neg hlt, hrow, Option.some.injEq, or_iff_right hlt]

/-- Every date stands after the text exactly where the first date beyond 9999 does. -/
theorem garbage_overtaken_iff (ha : Garbage tools raw) :
    jsLt (trim raw) "+010000-01-01T00:00:00.000Z" = true ↔
      ∀ b y, Denotes tools b y → ∀ known latest,
        normalizeIsoDate tools raw = some known → normalizeIsoDate tools b = some latest →
          jsLt known latest = true := by
  rw [← yearTenThousand_iso]
  constructor
  · intro hbefore b y hb known latest hknown hlatest
    rw [normalizeIsoDate_garbage ha, Option.some.injEq] at hknown
    rw [normalizeIsoDate_denotes hb, Option.some.injEq] at hlatest
    rw [← hknown, ← hlatest, jsLt, Bool.not_eq_true', ← Bool.not_eq_true]
    intro hcloses
    have hall : jsLe yearTenThousand.iso (trim raw) = true :=
      unitsLe_trans (yearTenThousand_first y) hcloses
    rw [jsLt, hall] at hbefore
    contradiction
  · intro hnever
    exact hnever _ _ yearTenThousand_denotes _ _ (normalizeIsoDate_garbage ha)
      (normalizeIsoDate_denotes yearTenThousand_denotes)

end Timestamps

/-- For two dates all comparisons agree with time exactly where both years are beyond 9999, or none
is and not two different ones are negative.  A text that is no date never closes the gate for a date
exactly where it stands before the first date beyond 9999, which is before all dates, and exactly
there the guarded update always puts the date in its place. -/
theorem timestamps_iff (tools : DateTools) :
    (∀ a b x y, Denotes tools a x → Denotes tools b y → ∀ known latest,
      normalizeIsoDate tools a = some known → normalizeIsoDate tools b = some latest →
        (Agrees known latest x y ↔ x.Comparable y)) ∧
    ∀ a, Garbage tools a →
      ((∀ b y, Denotes tools b y → ∀ known latest,
        normalizeIsoDate tools a = some known → normalizeIsoDate tools b = some latest →
          gateCloses ⟨true, some known⟩ latest = false) ↔
        jsLt (trim a) "+010000-01-01T00:00:00.000Z" = true) ∧
      ((∀ b y, Denotes tools b y → ∀ known latest,
        normalizeIsoDate tools a = some known → normalizeIsoDate tools b = some latest →
          ∀ row : TargetRow, row.lastKnownUpdatedAt = some known →
            (advanceWatermark latest row).lastKnownUpdatedAt = some latest) ↔
        jsLt (trim a) "+010000-01-01T00:00:00.000Z" = true) := by
  constructor
  · intro a b x y ha hb known latest hknown hlatest
    rw [normalizeIsoDate_denotes ha, Option.some.injEq] at hknown
    rw [normalizeIsoDate_denotes hb, Option.some.injEq] at hlatest
    rw [← hknown, ← hlatest]
    exact agrees_iff
  · intro a ha
    constructor
    · rw [garbage_overtaken_iff ha]
      simp only [gateCloses, Bool.true_and, Option.any_some, jsLt, Bool.not_eq_true']
    · constructor
      · intro halways
        have hrow := halways _ _ yearTenThousand_denotes _ _ (normalizeIsoDate_garbage ha)
          (normalizeIsoDate_denotes yearTenThousand_denotes) ⟨⟨0, ""⟩, none, none, some (trim a)⟩ rfl
        rcases (advanceWatermark_iso_iff rfl).mp hrow with hlt | heq
        · rwa [yearTenThousand_iso] at hlt
        · -- the first date beyond 9999 is a date
          have hparse := ha.2
          rw [heq, yearTenThousand_iso, tools.parse_beyond] at hparse
          contradiction
      · intro hbefore b y hb known latest hknown hlatest row hrow
        have hlt := (garbage_overtaken_iff ha).mp hbefore b y hb known latest hknown hlatest
        rw [normalizeIsoDate_denotes hb, Option.some.injEq] at hlatest
        rw [← hlatest] at hlt ⊢
        exact (advanceWatermark_iso_iff hrow).mpr (.inl hlt)

private def janTools : DateTools where
  parse text :=
    if text = "+010000-01-01T00:00:00.000Z" then some yearTenThousand
    else if text = "2026-01-02" then some ⟨1767312000000, by decide, by decide⟩
    else none
  parse_beyond := rfl

/-- A child recorded with `yesterday` keeps closed the gate for its next lastmod. -/
theorem yesterday_closes :
    Garbage janTools "yesterday" ∧
      Denotes janTools "2026-01-02" ⟨1767312000000, by decide, by decide⟩ ∧
      normalizeIsoDate janTools "yesterday" = some "yesterday" ∧
      normalizeIsoDate janTools "2026-01-02" = some "2026-01-02T00:00:00.000Z" ∧
      gateCloses ⟨true, some "yesterday"⟩ "2026-01-02T00:00:00.000Z" = true := by
  refine ⟨⟨by decide, by decide⟩, ⟨by decide, by decide⟩, by decide, by decide +kernel, by decide⟩

end Utsuroi
