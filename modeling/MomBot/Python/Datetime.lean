import Mathlib.Data.Int.Notation
import Mathlib.Data.Nat.Notation

/-!
# `datetime.date`, `datetime.time` and `datetime.datetime`

A date is its proleptic Gregorian ordinal, as `date.toordinal` counts it: 1 is
0001-01-01 and `maxOrdinal` is 9999-12-31.  Year, month and day come out of the
ordinal as the interpreter computes them.  A time is the number of microseconds
since midnight.  All datetimes here are UTC.
-/

namespace MomBot.Python

/-- `date.max.toordinal()`. -/
def maxOrdinal : ℕ := 3652059

/-- `datetime.date`, by its proleptic ordinal. -/
structure Date where
  ordinal : ℕ
  inRange : 1 ≤ ordinal ∧ ordinal ≤ maxOrdinal
  deriving DecidableEq, Repr

theorem Date.ext_ordinal {a b : Date} (h : a.ordinal = b.ordinal) : a = b := by
  cases a
  cases b
  cases h
  rfl

/-! ## The Gregorian calendar -/

/-- `_is_leap`. -/
def isLeap (year : ℕ) : Bool :=
  year % 4 = 0 ∧ (year % 100 ≠ 0 ∨ year % 400 = 0)

/-- `_days_before_year`. -/
def daysBeforeYear (year : ℕ) : ℕ :=
  (year - 1) * 365 + (year - 1) / 4 - (year - 1) / 100 + (year - 1) / 400

/-- Days before the month in a year that is not a leap year. -/
def daysBeforeMonthTable : ℕ → ℕ
  | 1 => 0
  | 2 => 31
  | 3 => 59
  | 4 => 90
  | 5 => 120
  | 6 => 151
  | 7 => 181
  | 8 => 212
  | 9 => 243
  | 10 => 273
  | 11 => 304
  | _ => 334

/-- The days of each month in a year that is not leap. -/
def daysInMonthTable : ℕ → ℕ
  | 2 => 28
  | 4 | 6 | 9 | 11 => 30
  | _ => 31

/-- `_days_before_month`. -/
def daysBeforeMonth (leap : Bool) (month : ℕ) : ℕ :=
  daysBeforeMonthTable month + if 2 < month ∧ leap then 1 else 0

/-- `_days_in_month`. -/
def daysInMonth (leap : Bool) (month : ℕ) : ℕ :=
  daysInMonthTable month + if month = 2 ∧ leap then 1 else 0

/-- `_ymd2ord`. -/
def ymdToOrdinal (year month day : ℕ) : ℕ :=
  daysBeforeYear year + daysBeforeMonth (isLeap year) month + day

/-- A date by its three fields. -/
structure YearMonthDay where
  year : ℕ
  month : ℕ
  day : ℕ
  deriving DecidableEq, Repr

/-- The month and day of the `n`-th day of a year, counted from 0. -/
def monthDay (leap : Bool) (n : ℕ) : ℕ × ℕ :=
  let estimate := (n + 50) / 32
  let month := if n < daysBeforeMonth leap estimate then estimate - 1 else estimate
  (month, n - daysBeforeMonth leap month + 1)

/-- `_ord2ymd`: whole cycles of 400, 100, 4 and 1 years, and what is left. -/
def ordinalToYmd (ordinal : ℕ) : YearMonthDay :=
  let n := ordinal - 1
  let n400 := n / 146097
  let n100 := n % 146097 / 36524
  let n4 := n % 146097 % 36524 / 1461
  let n1 := n % 146097 % 36524 % 1461 / 365
  let rest := n % 146097 % 36524 % 1461 % 365
  let year := n400 * 400 + 1 + n100 * 100 + n4 * 4 + n1
  if n1 = 4 ∨ n100 = 4 then ⟨year - 1, 12, 31⟩
  else
    let leap := n1 = 3 ∧ (n4 ≠ 24 ∨ n100 = 3)
    ⟨year, (monthDay leap rest).1, (monthDay leap rest).2⟩

namespace Date

/-- The fields of a date. -/
def ymd (d : Date) : YearMonthDay := ordinalToYmd d.ordinal

/-- `date.year`. -/
def year (d : Date) : ℕ := d.ymd.year

/-- `date.month`. -/
def month (d : Date) : ℕ := d.ymd.month

/-- `date.day`. -/
def day (d : Date) : ℕ := d.ymd.day

/-- Monday is 0. -/
def weekday (d : Date) : ℕ := (d.ordinal + 6) % 7

/-- The date with an ordinal; `none` is `OverflowError`. -/
def ofOrdinal (ordinal : ℤ) : Option Date :=
  if h : 1 ≤ ordinal.toNat ∧ ordinal.toNat ≤ maxOrdinal then some ⟨ordinal.toNat, h⟩ else none

/-- `d + timedelta(days=days)`; `none` is `OverflowError`. -/
def addDays (d : Date) (days : ℤ) : Option Date := ofOrdinal (d.ordinal + days)

/-- `date(year, month, day)`; `none` is `ValueError`. -/
def ofYmd (year month day : ℕ) : Option Date :=
  if 1 ≤ year ∧ year ≤ 9999 ∧ 1 ≤ month ∧ month ≤ 12 ∧ 1 ≤ day ∧
      day ≤ daysInMonth (isLeap year) month then
    ofOrdinal (ymdToOrdinal year month day)
  else none

/-- `(d - other).days`. -/
def sub (d other : Date) : ℤ := d.ordinal - other.ordinal

end Date

/-- The month estimate is right, or one too high. -/
theorem monthDay_spec (leap : Bool) {n : ℕ} (hn : n < 365 + leap.toNat) :
    1 ≤ (monthDay leap n).1 ∧ (monthDay leap n).1 ≤ 12 ∧
      (monthDay leap n).2 ≤ daysInMonth leap (monthDay leap n).1 ∧
      daysBeforeMonth leap (monthDay leap n).1 + (monthDay leap n).2 = n + 1 := by
  have hall : ∀ leap : Bool, ∀ n < 366, n < 365 + leap.toNat →
      1 ≤ (monthDay leap n).1 ∧ (monthDay leap n).1 ≤ 12 ∧
        (monthDay leap n).2 ≤ daysInMonth leap (monthDay leap n).1 ∧
        daysBeforeMonth leap (monthDay leap n).1 + (monthDay leap n).2 = n + 1 := by
    decide +kernel
  refine hall leap n ?_ hn
  cases leap <;> simp at hn <;> omega

/-- The days before a year, from the cycles that `_ord2ymd` counts. -/
theorem daysBeforeYear_cycles {a b c e : ℕ} (hb : b ≤ 3) (hc : c ≤ 24) (he : e ≤ 3) :
    daysBeforeYear (a * 400 + 1 + b * 100 + c * 4 + e) =
      146097 * a + 36524 * b + 1461 * c + 365 * e := by
  simp only [daysBeforeYear]
  omega

theorem isLeap_cycles {a b c e : ℕ} (hb : b ≤ 3) (hc : c ≤ 24) (he : e ≤ 3) :
    isLeap (a * 400 + 1 + b * 100 + c * 4 + e) = decide (e = 3 ∧ (c ≠ 24 ∨ b = 3)) := by
  simp only [isLeap, decide_eq_decide]
  omega

/-- A day of a calendar. -/
def YearMonthDay.IsValid (d : YearMonthDay) : Prop :=
  1 ≤ d.year ∧ 1 ≤ d.month ∧ d.month ≤ 12 ∧ 1 ≤ d.day ∧
    d.day ≤ daysInMonth (isLeap d.year) d.month

/-- The fourth year or century that the division counts too much: the last day of a leap
year. -/
theorem lastDay_spec {a b c e r : ℕ} (hc : c ≤ 24)
    (hcentury : b ≤ 3 ∨ b = 4 ∧ c = 0 ∧ e = 0 ∧ r = 0)
    (hyear : e ≤ 3 ∨ e = 4 ∧ c ≤ 23 ∧ r = 0) (hlast : e = 4 ∨ b = 4) :
    (YearMonthDay.mk (a * 400 + 1 + b * 100 + c * 4 + e - 1) 12 31).IsValid ∧
      ymdToOrdinal (a * 400 + 1 + b * 100 + c * 4 + e - 1) 12 31 =
        146097 * a + 36524 * b + 1461 * c + 365 * e + r + 1 := by
  have hleap : isLeap (a * 400 + 1 + b * 100 + c * 4 + e - 1) = true := by
    simp only [isLeap, decide_eq_true_eq]
    omega
  refine ⟨⟨?_, (by decide : 1 ≤ 12), (by decide : 12 ≤ 12), (by decide : 1 ≤ 31), ?_⟩, ?_⟩
  · show 1 ≤ a * 400 + 1 + b * 100 + c * 4 + e - 1
    omega
  · show 31 ≤ daysInMonth (isLeap (a * 400 + 1 + b * 100 + c * 4 + e - 1)) 12
    rw [hleap]
    decide
  · have hmonth : daysBeforeMonth true 12 = 335 := by decide
    simp only [ymdToOrdinal, hleap, hmonth, daysBeforeYear]
    omega

/-- Any other day is day `r` of its year. -/
theorem innerDay_spec {a b c e r : ℕ} (hb : b ≤ 3) (hc : c ≤ 24) (he : e ≤ 3) (hr : r < 365)
    {leap : Bool} (hleap : leap = decide (e = 3 ∧ (c ≠ 24 ∨ b = 3))) :
    (YearMonthDay.mk (a * 400 + 1 + b * 100 + c * 4 + e) (monthDay leap r).1
        (monthDay leap r).2).IsValid ∧
      ymdToOrdinal (a * 400 + 1 + b * 100 + c * 4 + e) (monthDay leap r).1 (monthDay leap r).2 =
        146097 * a + 36524 * b + 1461 * c + 365 * e + r + 1 := by
  obtain ⟨hlow, hhigh, hday, hsum⟩ := monthDay_spec leap (Nat.lt_add_right _ hr)
  refine ⟨⟨?_, hlow, hhigh, ?_, ?_⟩, ?_⟩
  · show 1 ≤ a * 400 + 1 + b * 100 + c * 4 + e
    omega
  · exact Nat.succ_pos _
  · show _ ≤ daysInMonth (isLeap (a * 400 + 1 + b * 100 + c * 4 + e)) _
    rw [isLeap_cycles hb hc he, ← hleap]
    exact hday
  · rw [ymdToOrdinal, isLeap_cycles hb hc he, ← hleap, daysBeforeYear_cycles hb hc he]
    omega

/-- Year, month and day of an ordinal are a day of the calendar, the one with that
ordinal. -/
theorem ordinalToYmd_spec {ordinal : ℕ} (h : 1 ≤ ordinal) :
    (ordinalToYmd ordinal).IsValid ∧
      ymdToOrdinal (ordinalToYmd ordinal).year (ordinalToYmd ordinal).month
        (ordinalToYmd ordinal).day = ordinal := by
  obtain ⟨n, rfl⟩ : ∃ n, ordinal = n + 1 := ⟨ordinal - 1, by omega⟩
  simp only [ordinalToYmd, Nat.add_sub_cancel]
  have hsum : n = 146097 * (n / 146097) + 36524 * (n % 146097 / 36524) +
      1461 * (n % 146097 % 36524 / 1461) + 365 * (n % 146097 % 36524 % 1461 / 365) +
      n % 146097 % 36524 % 1461 % 365 := by
    omega
  have hrest : n % 146097 % 36524 % 1461 % 365 < 365 := by omega
  have hc : n % 146097 % 36524 / 1461 ≤ 24 := by omega
  have hcentury : n % 146097 / 36524 ≤ 3 ∨ n % 146097 / 36524 = 4 ∧
      n % 146097 % 36524 / 1461 = 0 ∧ n % 146097 % 36524 % 1461 / 365 = 0 ∧
      n % 146097 % 36524 % 1461 % 365 = 0 := by
    omega
  have hyear : n % 146097 % 36524 % 1461 / 365 ≤ 3 ∨ n % 146097 % 36524 % 1461 / 365 = 4 ∧
      n % 146097 % 36524 / 1461 ≤ 23 ∧ n % 146097 % 36524 % 1461 % 365 = 0 := by
    omega
  -- from here on only the bounds of the digits count
  generalize n / 146097 = a at *
  generalize n % 146097 / 36524 = b at *
  generalize n % 146097 % 36524 / 1461 = c at *
  generalize n % 146097 % 36524 % 1461 / 365 = e at *
  generalize n % 146097 % 36524 % 1461 % 365 = r at *
  subst hsum
  split
  next hlast => exact lastDay_spec hc hcentury hyear hlast
  next hinner =>
    have hb : b ≤ 3 := by omega
    have he : e ≤ 3 := by omega
    exact innerDay_spec hb hc he hrest rfl

namespace Date

theorem ymd_isValid (d : Date) : d.ymd.IsValid :=
  (ordinalToYmd_spec d.inRange.1).1

theorem ymdToOrdinal_ymd (d : Date) : ymdToOrdinal d.year d.month d.day = d.ordinal :=
  (ordinalToYmd_spec d.inRange.1).2

theorem year_le (d : Date) : d.year ≤ 9999 := by
  apply Nat.le_of_not_lt
  intro hyear
  have hlow : daysBeforeYear d.year ≤ d.ordinal := by
    rw [← d.ymdToOrdinal_ymd, ymdToOrdinal]
    omega
  have hhigh : d.ordinal ≤ 3652059 := d.inRange.2
  have hday : 1 ≤ d.day := d.ymd_isValid.2.2.2.1
  have hordinal := d.ymdToOrdinal_ymd
  simp only [ymdToOrdinal, daysBeforeYear] at hordinal
  omega

theorem ofOrdinal_ordinal (d : Date) : ofOrdinal d.ordinal = some d := by
  have hrange : 1 ≤ (d.ordinal : ℤ).toNat ∧ (d.ordinal : ℤ).toNat ≤ maxOrdinal := d.inRange
  rw [ofOrdinal, dif_pos hrange]
  rfl

theorem addDays_eq_some_iff {d e : Date} {days : ℤ} :
    d.addDays days = some e ↔ (e.ordinal : ℤ) = d.ordinal + days := by
  constructor
  · intro h
    unfold addDays ofOrdinal at h
    split at h
    next hrange =>
      obtain rfl := Option.some.inj h
      exact Int.toNat_of_nonneg (by omega)
    next => cases h
  · intro h
    rw [addDays, ← h]
    exact e.ofOrdinal_ordinal

/-- The constructor takes a date's own year, month and day back to the date. -/
theorem ofYmd_ymd (d : Date) : ofYmd d.year d.month d.day = some d := by
  obtain ⟨hyear, hmonth, hmonth', hday, hday'⟩ := d.ymd_isValid
  rw [ofYmd, if_pos ⟨hyear, d.year_le, hmonth, hmonth', hday, hday'⟩, ymdToOrdinal_ymd]
  exact d.ofOrdinal_ordinal

/-- Every day that a month has can be constructed. -/
theorem exists_ofYmd (d : Date) (day : ℕ) (hlow : 1 ≤ day) (hhigh : day ≤ 28) :
    ∃ d', ofYmd d.year d.month day = some d' ∧ d'.ordinal + d.day = d.ordinal + day := by
  obtain ⟨hyear, hmonth, hmonth', hday, hday'⟩ := d.ymd_isValid
  have hlength : 28 ≤ daysInMonth (isLeap d.year) d.month := by
    simp only [daysInMonth, daysInMonthTable]
    split <;> omega
  have hordinal := d.ymdToOrdinal_ymd
  have hmonths : daysBeforeMonth (isLeap d.year) d.month ≤ 335 := by
    simp only [daysBeforeMonth, daysBeforeMonthTable]
    split <;> split <;> omega
  have hyear' := d.year_le
  have hyears : daysBeforeYear d.year ≤ 3651694 := by
    simp only [daysBeforeYear]
    omega
  have hrange : 1 ≤ ymdToOrdinal d.year d.month day ∧
      ymdToOrdinal d.year d.month day ≤ maxOrdinal := by
    simp only [ymdToOrdinal, maxOrdinal]
    omega
  refine ⟨⟨ymdToOrdinal d.year d.month day, hrange⟩, ?_, ?_⟩
  · rw [ofYmd, if_pos ⟨hyear, hyear', hmonth, hmonth', hlow, Nat.le_trans hhigh hlength⟩]
    exact ofOrdinal_ordinal ⟨_, hrange⟩
  · simp only [ymdToOrdinal] at *
    omega

end Date

example : (Date.ofYmd 2026 7 21).map Date.ordinal = some 739818 ∧
    ordinalToYmd 739818 = ⟨2026, 7, 21⟩ ∧ ordinalToYmd maxOrdinal = ⟨9999, 12, 31⟩ ∧
    ordinalToYmd 730179 = ⟨2000, 2, 29⟩ := by
  decide

/-! ## Times of day -/

/-- The unit of times is the microsecond. -/
def microsecondsPerSecond : ℕ := 1000000

/-- A minute, in microseconds. -/
def microsecondsPerMinute : ℕ := 60 * microsecondsPerSecond

/-- A day, in microseconds. -/
def microsecondsPerDay : ℕ := 24 * 60 * microsecondsPerMinute

/-- `datetime.time`, by its microseconds since midnight. -/
structure Time where
  microseconds : ℕ
  inRange : microseconds < microsecondsPerDay
  deriving DecidableEq, Repr

/-- The start of a day. -/
def Time.midnight : Time := ⟨0, by decide⟩

/-- The middle of a day. -/
def Time.noon : Time := ⟨12 * 60 * microsecondsPerMinute, by decide⟩

/-- `t.replace(microsecond=0)`. -/
def Time.truncate (t : Time) : Time :=
  ⟨t.microseconds / microsecondsPerSecond * microsecondsPerSecond,
    Nat.lt_of_le_of_lt (Nat.div_mul_le_self _ _) t.inRange⟩

/-- A whole number of minutes. -/
def Time.IsMinute (t : Time) : Prop :=
  t.microseconds % microsecondsPerMinute = 0

instance (t : Time) : Decidable t.IsMinute := inferInstanceAs (Decidable (_ = _))

/-- An aware `datetime` in UTC. -/
structure Datetime where
  date : Date
  time : Time
  deriving DecidableEq, Repr

/-- The instant, counted from the midnight before 0001-01-01. -/
def Datetime.instant (t : Datetime) : ℕ :=
  t.date.ordinal * microsecondsPerDay + t.time.microseconds

/-- At a whole second, the truncated time is late enough iff the time is. -/
theorem Time.le_truncate_iff {t fire : Time} (hfire : fire.IsMinute) :
    fire.microseconds ≤ t.truncate.microseconds ↔ fire.microseconds ≤ t.microseconds := by
  simp only [Time.truncate, Time.IsMinute, microsecondsPerMinute, microsecondsPerSecond] at *
  omega

end MomBot.Python
