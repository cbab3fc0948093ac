import MomBot.MemberNotifications.Schedule
import MomBot.Python.Months

/-!
# The series of occurrence dates

`isOccurrenceDate` looks at one date.  Taken over all dates it describes a series: an
arithmetic progression from the anchor date on for the weekly and the biweekly cadence
(`recursEvery_iff`), and one date a month for the monthly cadence
(`isOccurrenceDate_monthly_iff`).

With months counted as in `Months.lean`, the monthly rule is that the day is that of the
anchor date, or the last one of a shorter month.  The anchor's own month needs no case
of its own: the day there is the anchor's, so the date is the anchor date.
-/

namespace MomBot.MemberNotifications

open Python

/-! ## Every seven or fourteen days -/

variable {anchorDate d d' : Date}

theorem recursEvery_iff {period : ℕ} (hperiod : 0 < period) :
    recursEvery period anchorDate d = true ↔
      ∃ k : ℕ, anchorDate.addDays (period * k) = some d := by
  have hrecurs : recursEvery period anchorDate d = true ↔
      0 ≤ d.sub anchorDate ∧ d.sub anchorDate % period = 0 := by
    simp [recursEvery]
  simp only [hrecurs, Date.addDays_eq_some_iff]
  constructor
  · rintro ⟨hnonneg, hmod⟩
    obtain ⟨k, hk⟩ := Int.dvd_of_emod_eq_zero hmod
    have hk' : 0 ≤ k := by
      apply Int.nonneg_of_mul_nonneg_right (hk ▸ hnonneg)
      exact_mod_cast hperiod
    refine ⟨k.toNat, ?_⟩
    rw [Int.toNat_of_nonneg hk', ← hk, Date.sub]
    omega
  · rintro ⟨k, hk⟩
    have hsub : d.sub anchorDate = period * k := by
      rw [Date.sub]
      omega
    rw [hsub]
    exact ⟨by positivity, Int.mul_emod_right ..⟩

/-! ## Once a month -/

theorem monthLt_iff : monthLt d d' = true ↔ d.monthIndex < d'.monthIndex := by
  have hd := d.year_eq
  have hd' := d'.year_eq
  have hmonth := d.month_eq
  have hmonth' := d'.month_eq
  simp only [monthLt, Bool.or_eq_true, Bool.and_eq_true, decide_eq_true_eq]
  omega

theorem clampedAnchorDay_eq (anchorDay : ℕ) (d : Date) :
    clampedAnchorDay anchorDay d.year d.month = min anchorDay (monthLength d.monthIndex) := by
  rw [clampedAnchorDay, monthLength, d.year_eq, d.month_eq]

/-- In its own month, an occurrence is the anchor date. -/
theorem eq_anchor_of_day (hmonth : d.monthIndex = anchorDate.monthIndex)
    (hday : d.day = min anchorDate.day (monthLength d.monthIndex)) : d = anchorDate := by
  apply Date.eq_of_monthIndex hmonth
  have := anchorDate.day_le
  rw [hday, hmonth]
  omega

theorem isOccurrenceDate_monthly_iff :
    isOccurrenceDate anchorDate .monthly d = some true ↔
      anchorDate.monthIndex ≤ d.monthIndex ∧
        d.day = min anchorDate.day (monthLength d.monthIndex) := by
  have hyear := d.year_eq
  have hmonth := d.month_eq
  have hanchorYear := anchorDate.year_eq
  have hanchorMonth := anchorDate.month_eq
  simp only [isOccurrenceDate]
  split
  next hbefore =>
    have hlt := monthLt_iff.mp hbefore
    simp only [Option.some.injEq, Bool.false_eq_true, false_iff]
    omega
  next hnotBefore =>
    have hle : anchorDate.monthIndex ≤ d.monthIndex :=
      Nat.le_of_not_lt fun hlt => hnotBefore (monthLt_iff.mpr hlt)
    split
    next hearly =>
      obtain ⟨hsameYear, hsameMonth, hlt⟩ := hearly
      simp only [Option.some.injEq, Bool.false_eq_true, false_iff]
      rintro ⟨-, hday⟩
      have hanchor : d = anchorDate := eq_anchor_of_day (by omega) hday
      subst hanchor
      exact Nat.lt_irrefl _ hlt
    next =>
      rw [clampedAnchorDay_eq]
      simp [hle]

theorem anchor_le_of_monthly (hd : isOccurrenceDate anchorDate .monthly d = some true) :
    anchorDate.ordinal ≤ d.ordinal := by
  obtain ⟨hmonth, hday⟩ := isOccurrenceDate_monthly_iff.mp hd
  rcases Nat.lt_or_eq_of_le hmonth with hlt | heq
  · exact Nat.le_of_lt (Date.ordinal_lt_of_monthIndex_lt hlt)
  · rw [eq_anchor_of_day heq.symm hday]

/-- A month has one occurrence. -/
theorem monthly_unique (hd : isOccurrenceDate anchorDate .monthly d = some true)
    (hd' : isOccurrenceDate anchorDate .monthly d' = some true)
    (hmonth : d.monthIndex = d'.monthIndex) : d = d' := by
  apply Date.eq_of_monthIndex hmonth
  rw [(isOccurrenceDate_monthly_iff.mp hd).2, (isOccurrenceDate_monthly_iff.mp hd').2, hmonth]

/-- A month from the anchor's on has an occurrence. -/
theorem exists_monthly {index : ℕ} (hlow : anchorDate.monthIndex ≤ index)
    (hhigh : index < 120000) :
    ∃ d, isOccurrenceDate anchorDate .monthly d = some true ∧ d.monthIndex = index := by
  have hlength := monthLength_bounds index
  have hday := anchorDate.one_le_day
  have hindex := anchorDate.le_monthIndex
  obtain ⟨d, hmonth, hdday⟩ := Date.exists_of_monthIndex index
    (min anchorDate.day (monthLength index)) (by omega) hhigh (by omega) (by omega)
  refine ⟨d, isOccurrenceDate_monthly_iff.mpr ⟨by omega, ?_⟩, hmonth⟩
  rw [hdday, hmonth]

/-- Two occurrences with none between them are in two months that follow each other. -/
theorem monthIndex_of_consecutive (hd : isOccurrenceDate anchorDate .monthly d = some true)
    (hd' : isOccurrenceDate anchorDate .monthly d' = some true) (hlt : d.ordinal < d'.ordinal)
    (hnone : ∀ e : Date, d.ordinal < e.ordinal → e.ordinal < d'.ordinal →
      isOccurrenceDate anchorDate .monthly e ≠ some true) :
    d'.monthIndex = d.monthIndex + 1 := by
  have hless : d.monthIndex < d'.monthIndex := by
    rcases Nat.lt_trichotomy d.monthIndex d'.monthIndex with hless | heq | hgt
    · exact hless
    · rw [monthly_unique hd hd' heq] at hlt
      exact absurd hlt (Nat.lt_irrefl _)
    · exact absurd (Date.ordinal_lt_of_monthIndex_lt hgt) (Nat.lt_asymm hlt)
  by_contra hgap
  -- the month after that of `d` has an occurrence too
  have hhigh := d'.monthIndex_lt
  have hanchor := (isOccurrenceDate_monthly_iff.mp hd).1
  obtain ⟨e, he, hemonth⟩ : ∃ e, isOccurrenceDate anchorDate .monthly e = some true ∧
      e.monthIndex = d.monthIndex + 1 := exists_monthly (by omega) (by omega)
  exact hnone e (Date.ordinal_lt_of_monthIndex_lt (by omega))
    (Date.ordinal_lt_of_monthIndex_lt (by omega)) he

theorem monthly_apart (hd : isOccurrenceDate anchorDate .monthly d = some true)
    (hd' : isOccurrenceDate anchorDate .monthly d' = some true) (hlt : d.ordinal < d'.ordinal)
    (hnone : ∀ e : Date, d.ordinal < e.ordinal → e.ordinal < d'.ordinal →
      isOccurrenceDate anchorDate .monthly e ≠ some true) :
    28 ≤ d'.sub d ∧ d'.sub d ≤ 31 := by
  have hnext := monthIndex_of_consecutive hd hd' hlt hnone
  have hday := (isOccurrenceDate_monthly_iff.mp hd).2
  have hday' := (isOccurrenceDate_monthly_iff.mp hd').2
  have hlength := monthLength_bounds d.monthIndex
  have hlength' := monthLength_bounds d'.monthIndex
  have hordinal := d.ordinal_eq
  have hordinal' := d'.ordinal_eq
  rw [hnext, firstOrdinal_succ d.le_monthIndex] at hordinal'
  rw [hnext] at hday' hlength'
  rw [Date.sub]
  omega

/-! ## The intended series -/

/-- What the monthly occurrences of an anchor date are. -/
structure MonthlySeries (anchorDate : Date) : Prop where
  /-- Every month of the calendar, from the anchor's on, has one occurrence. -/
  once : ∀ year month, year ≤ 9999 → 1 ≤ month → month ≤ 12 →
    (anchorDate.year < year ∨ anchorDate.year = year ∧ anchorDate.month ≤ month) →
    ∃ d : Date, isOccurrenceDate anchorDate .monthly d = some true ∧
      d.year = year ∧ d.month = month ∧
      d.day = min anchorDate.day (daysInMonth (isLeap year) month) ∧
      ∀ e : Date, isOccurrenceDate anchorDate .monthly e = some true →
        e.year = year → e.month = month → e = d
  /-- The day never drifts. -/
  day : ∀ d, isOccurrenceDate anchorDate .monthly d = some true →
    d.day = min anchorDate.day (daysInMonth (isLeap d.year) d.month)
  notBefore : ∀ d, isOccurrenceDate anchorDate .monthly d = some true →
    anchorDate.ordinal ≤ d.ordinal
  anchor : isOccurrenceDate anchorDate .monthly anchorDate = some true
  /-- Consecutive occurrences. -/
  apart : ∀ d d' : Date, isOccurrenceDate anchorDate .monthly d = some true →
    isOccurrenceDate anchorDate .monthly d' = some true → d.ordinal < d'.ordinal →
    (∀ e : Date, d.ordinal < e.ordinal → e.ordinal < d'.ordinal →
      isOccurrenceDate anchorDate .monthly e ≠ some true) →
    28 ≤ d'.sub d ∧ d'.sub d ≤ 31

theorem monthlySeries (anchorDate : Date) : MonthlySeries anchorDate where
  once := by
    intro year month hyear hlow hhigh hfrom
    have hindex : monthIndex year month / 12 = year ∧ monthIndex year month % 12 + 1 = month := by
      rw [monthIndex]
      omega
    have hanchorYear := anchorDate.year_eq
    have hanchorMonth := anchorDate.month_eq
    obtain ⟨d, hd, hmonth⟩ : ∃ d, isOccurrenceDate anchorDate .monthly d = some true ∧
        d.monthIndex = monthIndex year month := exists_monthly (by omega) (by omega)
    obtain ⟨rfl, rfl⟩ := (Date.monthIndex_eq_iff hlow hhigh).mp hmonth
    refine ⟨d, hd, rfl, rfl, ?_, fun e he heyear hemonth => ?_⟩
    · rw [← clampedAnchorDay, clampedAnchorDay_eq]
      exact (isOccurrenceDate_monthly_iff.mp hd).2
    · apply monthly_unique he hd
      rw [Date.monthIndex, Date.monthIndex, heyear, hemonth]
  day := by
    intro d hd
    rw [← clampedAnchorDay, clampedAnchorDay_eq]
    exact (isOccurrenceDate_monthly_iff.mp hd).2
  notBefore _ hd := anchor_le_of_monthly hd
  anchor := isOccurrenceDate_anchor anchorDate (by simp)
  apart _ _ hd hd' := monthly_apart hd hd'

/-- **The occurrence dates of each cadence.** -/
theorem isOccurrenceDate_series (anchorDate : Date) :
    (∀ d, isOccurrenceDate anchorDate .weekly d = some true ↔
      ∃ k : ℕ, anchorDate.addDays (7 * k) = some d) ∧
    (∀ d, isOccurrenceDate anchorDate .biweekly d = some true ↔
      ∃ k : ℕ, anchorDate.addDays (14 * k) = some d) ∧
    MonthlySeries anchorDate := by
  refine ⟨fun d => ?_, fun d => ?_, monthlySeries anchorDate⟩
  · simp only [isOccurrenceDate, Option.some.injEq]
    exact recursEvery_iff (by decide : 0 < 7)
  · simp only [isOccurrenceDate, Option.some.injEq]
    exact recursEvery_iff (by decide : 0 < 14)

end MomBot.MemberNotifications
