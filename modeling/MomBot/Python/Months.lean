import MomBot.Python.Timestamp

/-!
# Months

Months are counted from January of the year 0, so that the month after month `i` is
month `i + 1`, and the months of a calendar from 0001-01 to 9999-12 are those from 12 to
119999.  Month `i` covers the ordinals from `firstOrdinal i` on, `monthLength i` of them.

Every date lies in one of these months (`Date.ordinal_eq`), the months follow each other
without a gap (`firstOrdinal_succ`), and so the month and the day that a date is built
from are those it shows (`Date.ofYmd_eq_some_iff`).
-/

namespace MomBot.Python

/-- Months, counted on through the years. -/
def monthIndex (year month : ℕ) : ℕ := 12 * year + (month - 1)

/-- The ordinal of the first day of a month. -/
def firstOrdinal (index : ℕ) : ℕ := ymdToOrdinal (index / 12) (index % 12 + 1) 1

/-- The days of a month, by its index. -/
def monthLength (index : ℕ) : ℕ := daysInMonth (isLeap (index / 12)) (index % 12 + 1)

/-- A day of the Gregorian calendar. -/
def IsDay (year month day : ℕ) : Prop :=
  1 ≤ year ∧ year ≤ 9999 ∧ 1 ≤ month ∧ month ≤ 12 ∧ 1 ≤ day ∧ day ≤ daysInMonth (isLeap year) month

/-! ## One month after the other -/

theorem monthLength_bounds (index : ℕ) : 28 ≤ monthLength index ∧ monthLength index ≤ 31 := by
  have hall : ∀ leap : Bool, ∀ m < 12, 28 ≤ daysInMonth leap (m + 1) ∧
      daysInMonth leap (m + 1) ≤ 31 := by
    decide
  exact hall _ _ (Nat.mod_lt _ (by omega))

/-- Within a year. -/
theorem daysBeforeMonth_succ (leap : Bool) {month : ℕ} (hlow : 1 ≤ month) (hhigh : month ≤ 11) :
    daysBeforeMonth leap (month + 1) = daysBeforeMonth leap month + daysInMonth leap month := by
  have hall : ∀ leap : Bool, ∀ month < 12, 1 ≤ month →
      daysBeforeMonth leap (month + 1) = daysBeforeMonth leap month + daysInMonth leap month := by
    decide
  exact hall leap month (by omega) hlow

theorem daysBeforeYear_succ {year : ℕ} (h : 1 ≤ year) :
    daysBeforeYear (year + 1) = daysBeforeYear year + 365 + (isLeap year).toNat := by
  have hnext := daysOfYears_eq (Nat.le_add_left 1 year)
  have hthis := daysOfYears_eq h
  have hsucc := daysOfYears_succ year
  omega

theorem firstOrdinal_succ {index : ℕ} (h : 12 ≤ index) :
    firstOrdinal (index + 1) = firstOrdinal index + monthLength index := by
  have hyear : 1 ≤ index / 12 := by omega
  simp only [firstOrdinal, monthLength, ymdToOrdinal]
  by_cases hdecember : index % 12 = 11
  · have hnext : (index + 1) / 12 = index / 12 + 1 := by omega
    have hjanuary : (index + 1) % 12 = 0 := by omega
    have hlast : ∀ leap : Bool, daysBeforeMonth leap (11 + 1) + daysInMonth leap (11 + 1) =
        365 + leap.toNat := by
      decide
    have hfirst : ∀ leap : Bool, daysBeforeMonth leap (0 + 1) = 0 := by decide
    have hdays := hlast (isLeap (index / 12))
    rw [hnext, hjanuary, hdecember, daysBeforeYear_succ hyear, hfirst]
    omega
  · have hsame : (index + 1) / 12 = index / 12 := by omega
    have hmonth : (index + 1) % 12 = index % 12 + 1 := by omega
    rw [hsame, hmonth, daysBeforeMonth_succ _ (by omega) (by omega)]
    omega

/-- A month ends before a later one starts. -/
theorem firstOrdinal_le {i j : ℕ} (hi : 12 ≤ i) (h : i < j) :
    firstOrdinal i + monthLength i ≤ firstOrdinal j := by
  rw [← firstOrdinal_succ hi]
  induction j, h using Nat.le_induction with
  | base => exact le_rfl
  | succ j hj ih =>
      rw [firstOrdinal_succ (by omega : 12 ≤ j)]
      omega

/-! ## The month of a date -/

namespace Date

variable (d : Date)

/-- The month of a date. -/
def monthIndex : ℕ := Python.monthIndex d.year d.month

theorem year_eq : d.monthIndex / 12 = d.year := by
  obtain ⟨-, hlow, hhigh, -⟩ := d.ymd_isValid
  have : d.month - 1 < 12 := by
    show d.ymd.month - 1 < 12
    omega
  rw [monthIndex, Python.monthIndex]
  omega

theorem month_eq : d.monthIndex % 12 + 1 = d.month := by
  obtain ⟨-, hlow, hhigh, -⟩ := d.ymd_isValid
  have hmonth : 1 ≤ d.month ∧ d.month ≤ 12 := ⟨hlow, hhigh⟩
  rw [monthIndex, Python.monthIndex]
  omega

theorem le_monthIndex : 12 ≤ d.monthIndex := by
  have hyear : 1 ≤ d.year := d.ymd_isValid.1
  rw [monthIndex, Python.monthIndex]
  omega

theorem monthIndex_lt : d.monthIndex < 120000 := by
  have hyear := d.year_le
  have := d.year_eq
  omega

theorem one_le_day : 1 ≤ d.day := d.ymd_isValid.2.2.2.1

theorem day_le : d.day ≤ monthLength d.monthIndex := by
  rw [monthLength, d.year_eq, d.month_eq]
  exact d.ymd_isValid.2.2.2.2

theorem ordinal_eq : d.ordinal + 1 = firstOrdinal d.monthIndex + d.day := by
  rw [firstOrdinal, d.year_eq, d.month_eq, ← d.ymdToOrdinal_ymd, ymdToOrdinal, ymdToOrdinal]
  omega

variable {d} {a b : Date} {index day : ℕ}

/-- A date in the range of a month is in the month. -/
theorem monthIndex_eq_of (hindex : 12 ≤ index) (hlow : firstOrdinal index ≤ d.ordinal)
    (hhigh : d.ordinal < firstOrdinal index + monthLength index) : d.monthIndex = index := by
  have hordinal := d.ordinal_eq
  have hday := d.one_le_day
  have hday' := d.day_le
  rcases Nat.lt_trichotomy d.monthIndex index with hlt | heq | hgt
  · have := firstOrdinal_le d.le_monthIndex hlt
    omega
  · exact heq
  · have := firstOrdinal_le hindex hgt
    omega

/-- An earlier month means an earlier date. -/
theorem ordinal_lt_of_monthIndex_lt (h : a.monthIndex < b.monthIndex) : a.ordinal < b.ordinal := by
  have hmonths := firstOrdinal_le a.le_monthIndex h
  have ha := a.ordinal_eq
  have hb := b.ordinal_eq
  have hday := a.day_le
  have hday' := b.one_le_day
  omega

/-- A date is determined by its month and its day. -/
theorem eq_of_monthIndex (hmonth : a.monthIndex = b.monthIndex) (hday : a.day = b.day) : a = b := by
  apply ext_ordinal
  have ha := a.ordinal_eq
  have hb := b.ordinal_eq
  rw [hmonth] at ha
  omega

/-- Every day of a month of the calendar is a date. -/
theorem exists_of_monthIndex (index day : ℕ) (hlow : 12 ≤ index) (hhigh : index < 120000)
    (hday : 1 ≤ day) (hday' : day ≤ monthLength index) :
    ∃ d : Date, d.monthIndex = index ∧ d.day = day := by
  have hlast : firstOrdinal index + monthLength index ≤ 3652060 := by
    have hend : firstOrdinal 120000 = 3652060 := by decide
    rw [← hend]
    exact firstOrdinal_le hlow hhigh
  have hfirst : 1 ≤ firstOrdinal index := by
    rw [firstOrdinal, ymdToOrdinal]
    omega
  have hrange : 1 ≤ firstOrdinal index + (day - 1) ∧
      firstOrdinal index + (day - 1) ≤ maxOrdinal := by
    rw [maxOrdinal]
    omega
  obtain ⟨d, hd⟩ : ∃ d : Date, d.ordinal = firstOrdinal index + (day - 1) := ⟨⟨_, hrange⟩, rfl⟩
  have hindex : d.monthIndex = index := monthIndex_eq_of hlow (by omega) (by omega)
  refine ⟨d, hindex, ?_⟩
  have hordinal := d.ordinal_eq
  rw [hindex] at hordinal
  omega

/-- Two dates in one month, by year and month. -/
theorem monthIndex_eq_iff {year month : ℕ} (hlow : 1 ≤ month) (hhigh : month ≤ 12) :
    d.monthIndex = Python.monthIndex year month ↔ d.year = year ∧ d.month = month := by
  constructor
  · intro h
    have hyear := d.year_eq
    have hmonth := d.month_eq
    rw [h, Python.monthIndex] at hyear hmonth
    omega
  · rintro ⟨rfl, rfl⟩
    rfl

theorem isDay (d : Date) : IsDay d.year d.month d.day := by
  obtain ⟨hyear, hmonth, hmonth', hday, hday'⟩ := d.ymd_isValid
  exact ⟨hyear, d.year_le, hmonth, hmonth', hday, hday'⟩

end Date

theorem IsDay.exists_date {year month day : ℕ} (h : IsDay year month day) :
    ∃ d : Date, d.year = year ∧ d.month = month ∧ d.day = day := by
  obtain ⟨hyear, hyear', hmonth, hmonth', hday, hday'⟩ := h
  have hindex : monthIndex year month / 12 = year ∧ monthIndex year month % 12 + 1 = month := by
    rw [monthIndex]
    omega
  obtain ⟨d, hd, hdd⟩ := Date.exists_of_monthIndex (monthIndex year month) day
    (by rw [monthIndex]; omega) (by rw [monthIndex]; omega) hday
    (by rw [monthLength, hindex.1, hindex.2]; exact hday')
  obtain ⟨heyear, hemonth⟩ := (Date.monthIndex_eq_iff hmonth hmonth').mp hd
  exact ⟨d, heyear, hemonth, hdd⟩

/-- The constructor builds the date that shows what it is built from. -/
theorem Date.ofYmd_eq_some_iff {d : Date} {year month day : ℕ} :
    ofYmd year month day = some d ↔ d.year = year ∧ d.month = month ∧ d.day = day := by
  constructor
  · intro h
    have hvalid : IsDay year month day := by
      unfold ofYmd at h
      split at h
      next hvalid => exact hvalid
      next => cases h
    obtain ⟨e, rfl, rfl, rfl⟩ := hvalid.exists_date
    rw [e.ofYmd_ymd] at h
    obtain rfl := Option.some.inj h
    exact ⟨rfl, rfl, rfl⟩
  · rintro ⟨rfl, rfl, rfl⟩
    exact d.ofYmd_ymd

end MomBot.Python
