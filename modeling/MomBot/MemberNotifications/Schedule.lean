import MomBot.Python.Datetime

/-!
# Occurrence dates of member notifications

A weekly or biweekly notification recurs every 7 or 14 days from its anchor date, a
monthly one on the anchor's day of the month, or on the last day of a month that is
too short.  None occurs before its anchor date.
-/

namespace MomBot.MemberNotifications

open Python

/-- The column `cadence`.  Its CHECK clause admits no `other` text. -/
inductive Cadence where
  | weekly
  | biweekly
  | monthly
  | other (text : String)
  deriving DecidableEq, Repr

/-- The day of the anchor, or the last day of a month that is too short for it. -/
def clampedAnchorDay (anchorDay year month : ℕ) : ℕ :=
  min anchorDay (daysInMonth (isLeap year) month)

/-- Every `period` days from the anchor date on. -/
def recursEvery (period : ℤ) (anchorDate today : Date) : Bool :=
  0 ≤ today.sub anchorDate && today.sub anchorDate % period = 0

/-- The tuple `(year, month)` of one date is smaller than that of another. -/
def monthLt (a b : Date) : Bool :=
  a.year < b.year || (a.year = b.year && a.month < b.month)

/-- `none` is `ValueError`. -/
def isOccurrenceDate (anchorDate : Date) (cadence : Cadence) (today : Date) : Option Bool :=
  match cadence with
  | .weekly => some (recursEvery 7 anchorDate today)
  | .biweekly => some (recursEvery 14 anchorDate today)
  | .monthly =>
      if monthLt today anchorDate then some false
      else if today.year = anchorDate.year ∧ today.month = anchorDate.month ∧
          today.ordinal < anchorDate.ordinal then some false
      else some (today.day = clampedAnchorDay anchorDate.day today.year today.month)
  | .other _ => none

/-- A notification occurs on its anchor date, whatever its cadence. -/
theorem isOccurrenceDate_anchor (anchorDate : Date) {cadence : Cadence}
    (h : ∀ text, cadence ≠ .other text) :
    isOccurrenceDate anchorDate cadence anchorDate = some true := by
  cases cadence with
  | weekly => simp [isOccurrenceDate, recursEvery, Date.sub]
  | biweekly => simp [isOccurrenceDate, recursEvery, Date.sub]
  | monthly =>
      have hday := anchorDate.ymd_isValid.2.2.2.2
      have hclamped : clampedAnchorDay anchorDate.day anchorDate.year anchorDate.month =
          anchorDate.day :=
        Nat.min_eq_left hday
      simp [isOccurrenceDate, monthLt, hclamped]
  | other text => exact absurd rfl (h text)

end MomBot.MemberNotifications
