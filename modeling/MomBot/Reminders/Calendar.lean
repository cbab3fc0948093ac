import MomBot.Python.Datetime

/-!
# Calendar predicates of the reminder scheduler

Tank Week ends on the first Tuesday of a month, and its heads-up fires seven days
earlier.  Siege starts repeat every fourteen days from an anchor date.  A predicate
that does date arithmetic can overflow, and then the result is `none`.
-/

namespace MomBot.Reminders

open Python

/-- `SIEGE_ANCHOR_DATE`. -/
def siegeAnchorDate : Date := ⟨ymdToOrdinal 2026 7 21, by decide⟩

/-- `SIEGE_PERIOD_DAYS`. -/
def siegePeriodDays : ℤ := 14

/-- The first Tuesday of a month; `none` is `ValueError`. -/
def tankWeekEndingTuesday (year month : ℕ) : Option Date := do
  let first ← Date.ofYmd year month 1
  let daysAhead := ((1 : ℤ) - first.weekday) % 7
  Date.ofYmd year month (1 + daysAhead.toNat)

/-- `is_end_of_tank_date`. -/
def isEndOfTankDate (today : Date) : Bool :=
  today.weekday = 1 && tankWeekEndingTuesday today.year today.month = some today

/-- `none` is `OverflowError`, in the first and the last week of the calendar. -/
def isTankWeekHeadsupDate (today : Date) : Option Bool :=
  if today.weekday ≠ 1 then some false
  else do
    let candidate ← today.addDays 7
    let ending ← tankWeekEndingTuesday candidate.year candidate.month
    let headsup ← ending.addDays (-7)
    return today = headsup

/-- Days since the last Siege start. -/
def siegeOffset (today : Date) : ℤ := today.sub siegeAnchorDate % siegePeriodDays

/-- `is_siege_start_date`. -/
def isSiegeStartDate (today : Date) : Bool := siegeOffset today = 0

/-- `is_siege_48h_headsup_date`. -/
def isSiege48hHeadsupDate (today : Date) : Bool := siegeOffset today = 12

/-- `is_siege_24h_headsup_date`. -/
def isSiege24hHeadsupDate (today : Date) : Bool := siegeOffset today = 13

/-- The month of a date has a first Tuesday, so the equality in `isEndOfTankDate`
compares two dates. -/
theorem exists_tankWeekEndingTuesday (d : Date) :
    ∃ ending, tankWeekEndingTuesday d.year d.month = some ending ∧ ending.weekday = 1 ∧
      ending.ordinal ≤ d.ordinal + 6 := by
  obtain ⟨first, hfirst, hfirstOrdinal⟩ := d.exists_ofYmd 1 (by omega) (by omega)
  have hday : 1 ≤ d.day := d.ymd_isValid.2.2.2.1
  have hahead : ((1 : ℤ) - first.weekday) % 7 < 7 := by omega
  obtain ⟨ending, hending, hendingOrdinal⟩ :=
    d.exists_ofYmd (1 + (((1 : ℤ) - first.weekday) % 7).toNat) (by omega) (by omega)
  refine ⟨ending, ?_, ?_, by omega⟩
  · simpa [tankWeekEndingTuesday, hfirst] using hending
  · simp only [Date.weekday] at *
    omega

end MomBot.Reminders
