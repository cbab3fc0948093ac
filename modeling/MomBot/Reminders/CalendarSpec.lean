import MomBot.Python.Months
import MomBot.Reminders.Seed

/-!
# What the calendar predicates mean

A month's tank week ends on its first Tuesday, and the heads-up comes seven days before
that, often in the month before.  The code goes from a date to the month and back:
`tankWeekEndingTuesday_eq_some_iff` says which date it finds in a month, and
`isTankWeekHeadsupDate_iff` that adding seven days, finding the Tuesday of that month and
taking seven days off again is no detour.

The seed stores a weekday beside each condition.  `weekday_of_conditionHolds` compares
the two: the tank-week conditions hold on Tuesdays, the Siege conditions on the Sundays
and the Mondays before every other Tuesday.
-/

namespace MomBot.Reminders

open Python

variable {d e : Date}

/-! ## First Tuesdays -/

/-- The first Tuesday of its month. -/
def IsFirstTuesday (d : Date) : Prop :=
  d.weekday = 1 ∧ ∀ e : Date, e.year = d.year → e.month = d.month → e.weekday = 1 →
    d.ordinal ≤ e.ordinal

theorem monthIndex_congr (hyear : e.year = d.year) (hmonth : e.month = d.month) :
    e.monthIndex = d.monthIndex := by
  rw [Date.monthIndex, Date.monthIndex, hyear, hmonth]

theorem isFirstTuesday_iff : IsFirstTuesday d ↔ d.weekday = 1 ∧ d.day ≤ 7 := by
  have hordinal := d.ordinal_eq
  constructor
  · rintro ⟨htuesday, hfirst⟩
    refine ⟨htuesday, ?_⟩
    by_contra hlate
    -- a week earlier it is a Tuesday of the same month
    obtain ⟨e, he, hday⟩ := d.exists_ofYmd (d.day - 7) (by omega) (by
      have := d.day_le
      have := monthLength_bounds d.monthIndex
      omega)
    obtain ⟨hyear, hmonth, -⟩ := Date.ofYmd_eq_some_iff.mp he
    have hweekday : e.weekday = 1 := by
      rw [Date.weekday] at *
      omega
    have := hfirst e hyear hmonth hweekday
    omega
  · rintro ⟨htuesday, hearly⟩
    refine ⟨htuesday, fun e hyear hmonth hweekday => ?_⟩
    have heordinal := e.ordinal_eq
    have heday := e.one_le_day
    rw [monthIndex_congr hyear hmonth] at heordinal
    rw [Date.weekday] at *
    omega

/-- The date that `tank_week_ending_tuesday` finds is the first Tuesday of the month. -/
theorem tankWeekEndingTuesday_eq_some_iff {year month : ℕ} :
    tankWeekEndingTuesday year month = some e ↔
      e.year = year ∧ e.month = month ∧ IsFirstTuesday e := by
  rw [isFirstTuesday_iff]
  constructor
  · intro h
    simp only [tankWeekEndingTuesday, Option.bind_eq_bind, Option.bind_eq_some_iff,
      Date.ofYmd_eq_some_iff] at h
    obtain ⟨first, ⟨rfl, rfl, hday⟩, hyear, hmonth, heday⟩ := h
    have hfirst := first.ordinal_eq
    have hordinal := e.ordinal_eq
    rw [monthIndex_congr hyear hmonth] at hordinal
    refine ⟨hyear, hmonth, ?_, ?_⟩
    · rw [Date.weekday] at *
      omega
    · omega
  · rintro ⟨rfl, rfl, htuesday, hearly⟩
    obtain ⟨first, hfirst, hfirstOrdinal⟩ := e.exists_ofYmd 1 (by omega) (by omega)
    have hday := e.one_le_day
    have hahead : 1 + (((1 : ℤ) - first.weekday) % 7).toNat = e.day := by
      rw [Date.weekday] at *
      omega
    simp only [tankWeekEndingTuesday, hfirst, Option.bind_eq_bind, Option.bind_some, hahead]
    exact e.ofYmd_ymd

theorem isEndOfTankDate_iff : isEndOfTankDate d = true ↔ IsFirstTuesday d := by
  simp only [isEndOfTankDate, Bool.and_eq_true, decide_eq_true_eq,
    tankWeekEndingTuesday_eq_some_iff, true_and]
  exact ⟨fun h => h.2, fun h => ⟨h.1, h⟩⟩

/-- A first Tuesday determines its month, and the month determines it. -/
theorem IsFirstTuesday.eq_of_month (hd : IsFirstTuesday d) (he : IsFirstTuesday e)
    (hyear : e.year = d.year) (hmonth : e.month = d.month) : e = d := by
  apply Date.ext_ordinal
  have hle := hd.2 e hyear hmonth he.1
  have hge := he.2 d hyear.symm hmonth.symm hd.1
  omega

/-! ## The heads-up -/

theorem isTankWeekHeadsupDate_iff :
    isTankWeekHeadsupDate d = some true ↔ ∃ e, d.addDays 7 = some e ∧ IsFirstTuesday e := by
  unfold isTankWeekHeadsupDate
  split
  next hother =>
    simp only [Option.some.injEq, Bool.false_eq_true, false_iff]
    rintro ⟨e, he, htuesday, -⟩
    rw [Date.addDays_eq_some_iff] at he
    rw [Date.weekday] at *
    omega
  next =>
    simp only [Option.bind_eq_bind, Option.bind_eq_some_iff, Option.pure_def, Option.some.injEq,
      decide_eq_true_eq, tankWeekEndingTuesday_eq_some_iff]
    constructor
    · rintro ⟨candidate, hcandidate, ending, ⟨-, -, hending⟩, headsup, hheadsup, rfl⟩
      rw [Date.addDays_eq_some_iff] at hcandidate hheadsup
      have heq : ending = candidate := Date.ext_ordinal (by omega)
      exact ⟨candidate, Date.addDays_eq_some_iff.mpr hcandidate, heq ▸ hending⟩
    · rintro ⟨e, he, hfirst⟩
      refine ⟨e, he, e, ⟨rfl, rfl, hfirst⟩, d, ?_, rfl⟩
      rw [Date.addDays_eq_some_iff] at *
      omega

/-- From 0001-02-01 on, with a week left. -/
def Specified (d : Date) : Prop :=
  ymdToOrdinal 1 2 1 ≤ d.ordinal ∧ d.ordinal + 7 ≤ maxOrdinal

instance (d : Date) : Decidable (Specified d) := inferInstanceAs (Decidable (_ ∧ _))

/-- No date arithmetic overflows on a date that the predicates are specified for. -/
theorem isTankWeekHeadsupDate_isSome (h : Specified d) : (isTankWeekHeadsupDate d).isSome := by
  have hlow : 32 ≤ d.ordinal := h.1
  have hhigh : d.ordinal + 7 ≤ maxOrdinal := h.2
  obtain ⟨candidate, hcandidate⟩ : ∃ candidate, d.addDays 7 = some candidate :=
    ⟨⟨d.ordinal + 7, by omega, hhigh⟩, Date.addDays_eq_some_iff.mpr (by simp)⟩
  obtain ⟨ending, hending, -, hnear⟩ := exists_tankWeekEndingTuesday candidate
  obtain ⟨hyear, hmonth, hfirst⟩ := tankWeekEndingTuesday_eq_some_iff.mp hending
  -- the first Tuesday is less than a month before the candidate
  have hrange : 1 ≤ ending.ordinal - 7 ∧ ending.ordinal - 7 ≤ maxOrdinal := by
    have hendingRange := ending.inRange
    have hordinal := ending.ordinal_eq
    have hcandidateOrdinal := candidate.ordinal_eq
    have hday := candidate.day_le
    have hlength := monthLength_bounds candidate.monthIndex
    have hendingDay := ending.one_le_day
    rw [monthIndex_congr hyear hmonth] at hordinal
    rw [Date.addDays_eq_some_iff] at hcandidate
    omega
  obtain ⟨headsup, hheadsup⟩ : ∃ headsup, ending.addDays (-7) = some headsup :=
    ⟨⟨ending.ordinal - 7, hrange⟩, Date.addDays_eq_some_iff.mpr (by
      show ((ending.ordinal - 7 : ℕ) : ℤ) = _
      omega)⟩
  unfold isTankWeekHeadsupDate
  split
  · rfl
  · simp [hcandidate, hending, hheadsup]

/-- A week after a first Tuesday comes the second one. -/
theorem not_isTankWeekHeadsupDate_of_isEndOfTankDate (h : isEndOfTankDate d = true) :
    isTankWeekHeadsupDate d ≠ some true := by
  intro hheadsup
  obtain ⟨-, hearly⟩ := isFirstTuesday_iff.mp (isEndOfTankDate_iff.mp h)
  obtain ⟨e, he, hfirst⟩ := isTankWeekHeadsupDate_iff.mp hheadsup
  obtain ⟨-, heearly⟩ := isFirstTuesday_iff.mp hfirst
  rw [Date.addDays_eq_some_iff] at he
  have hordinal := d.ordinal_eq
  have heordinal := e.ordinal_eq
  have hday := d.one_le_day
  have hlength := monthLength_bounds d.monthIndex
  have hmonth : e.monthIndex = d.monthIndex :=
    Date.monthIndex_eq_of d.le_monthIndex (by omega) (by omega)
  rw [hmonth] at heordinal
  omega

/-! ## Every month -/

/-- What the predicates say of a month: one end date in it, and one heads-up date that
belongs to it. -/
structure MonthOfTankWeek (year month : ℕ) : Prop where
  endDate : ∃ d, isEndOfTankDate d = true ∧ d.year = year ∧ d.month = month ∧
    ∀ e, isEndOfTankDate e = true → e.year = year → e.month = month → e = d
  headsupDate : ∃ d, isTankWeekHeadsupDate d = some true ∧
    (∃ ending, d.addDays 7 = some ending ∧ ending.year = year ∧ ending.month = month) ∧
    ∀ e ending, isTankWeekHeadsupDate e = some true → e.addDays 7 = some ending →
      ending.year = year → ending.month = month → e = d

theorem exists_firstTuesday {year month : ℕ} (hlow : 1 ≤ month) (hhigh : month ≤ 12)
    (hfrom : 1 < year ∨ year = 1 ∧ 2 ≤ month) (hyear : year ≤ 9999) :
    ∃ e : Date, IsFirstTuesday e ∧ e.year = year ∧ e.month = month ∧ 32 ≤ e.ordinal := by
  obtain ⟨first, hfirst, -⟩ := Date.exists_of_monthIndex (monthIndex year month) 1
    (by rw [monthIndex]; omega) (by rw [monthIndex]; omega) le_rfl
    (by have := monthLength_bounds (monthIndex year month); omega)
  obtain ⟨rfl, rfl⟩ := (Date.monthIndex_eq_iff hlow hhigh).mp hfirst
  obtain ⟨e, he, -⟩ := exists_tankWeekEndingTuesday first
  obtain ⟨heyear, hemonth, htuesday⟩ := tankWeekEndingTuesday_eq_some_iff.mp he
  refine ⟨e, htuesday, heyear, hemonth, ?_⟩
  have hjanuary : firstOrdinal 12 + monthLength 12 = 32 := by decide
  have hindex : 12 < e.monthIndex := by
    rw [Date.monthIndex, monthIndex, heyear, hemonth]
    omega
  have hstart := firstOrdinal_le (i := 12) le_rfl hindex
  have hordinal := e.ordinal_eq
  have hday := e.one_le_day
  omega

theorem monthOfTankWeek {year month : ℕ} (hlow : 1 ≤ month) (hhigh : month ≤ 12)
    (hfrom : 1 < year ∨ year = 1 ∧ 2 ≤ month) (hyear : year ≤ 9999) :
    MonthOfTankWeek year month := by
  obtain ⟨ending, hfirst, rfl, rfl, hordinal⟩ := exists_firstTuesday hlow hhigh hfrom hyear
  have hrange := ending.inRange
  obtain ⟨d, hd⟩ : ∃ d : Date, d.addDays 7 = some ending :=
    ⟨⟨ending.ordinal - 7, by omega, by omega⟩, Date.addDays_eq_some_iff.mpr (by
      show _ = ((ending.ordinal - 7 : ℕ) : ℤ) + 7
      omega)⟩
  refine ⟨⟨ending, isEndOfTankDate_iff.mpr hfirst, rfl, rfl, fun e he heyear hemonth => ?_⟩,
    ⟨d, isTankWeekHeadsupDate_iff.mpr ⟨ending, hd, hfirst⟩, ⟨ending, hd, rfl, rfl⟩,
      fun e ending' he hending' heyear hemonth => ?_⟩⟩
  · exact hfirst.eq_of_month (isEndOfTankDate_iff.mp he) heyear hemonth
  · obtain ⟨ending'', hending'', hfirst'⟩ := isTankWeekHeadsupDate_iff.mp he
    obtain rfl := Option.some.inj (hending'.symm.trans hending'')
    have heq := hfirst.eq_of_month hfirst' heyear hemonth
    apply Date.ext_ordinal
    rw [Date.addDays_eq_some_iff] at hd hending'
    rw [heq] at hending'
    omega

/-! ## Siege -/

/-- A whole number of periods from the anchor, in either direction. -/
def IsSiegeStart (d : Date) : Prop :=
  ∃ k : ℤ, (d.ordinal : ℤ) = siegeAnchorDate.ordinal + 14 * k

/-- The offset in the cycle counts the days to the next start. -/
theorem siegeOffset_eq_iff (days : ℤ) (hlow : 0 < days) (hhigh : days < 14)
    (hrange : d.ordinal + days ≤ maxOrdinal) :
    siegeOffset d = 14 - days ↔ ∃ e, d.addDays days = some e ∧ IsSiegeStart e := by
  rw [siegeOffset, Date.sub, siegePeriodDays]
  constructor
  · intro hoffset
    have hordinal := d.inRange
    refine ⟨⟨(d.ordinal + days).toNat, by omega, by omega⟩, Date.addDays_eq_some_iff.mpr ?_,
      ((d.ordinal : ℤ) - siegeAnchorDate.ordinal) / 14 + 1, ?_⟩
    · exact Int.toNat_of_nonneg (by omega)
    · show ((d.ordinal + days).toNat : ℤ) = _
      omega
  · rintro ⟨e, he, k, hk⟩
    rw [Date.addDays_eq_some_iff] at he
    omega

/-! ## The seeded weekdays -/

theorem siegeAnchorDate_ordinal : siegeAnchorDate.ordinal = 739818 := by decide

/-- The weekday of the dates on which a condition holds. -/
def conditionWeekday : MonthCondition → ℕ
  | .tankWeekHeadsup => 1
  | .tankWeekEnd => 1
  | .siege48hHeadsup => 6
  | .siege24hHeadsup => 0
  | .other _ => 0

theorem weekday_of_conditionHolds {condition : MonthCondition}
    (h : conditionHolds d (some condition) = .ok true) :
    d.weekday = conditionWeekday condition := by
  have hanchor := siegeAnchorDate_ordinal
  cases condition with
  | tankWeekHeadsup =>
      have hheadsup : isTankWeekHeadsupDate d = some true := by
        simp only [conditionHolds] at h
        split at h
        · cases h
        · next heq => rw [heq, Except.ok.inj h]
      obtain ⟨e, he, htuesday, -⟩ := isTankWeekHeadsupDate_iff.mp hheadsup
      rw [Date.addDays_eq_some_iff] at he
      rw [Date.weekday] at *
      rw [conditionWeekday]
      omega
  | tankWeekEnd => exact (isEndOfTankDate_iff.mp (Except.ok.inj h)).1
  | siege48hHeadsup =>
      have hoffset : siegeOffset d = 12 := of_decide_eq_true (Except.ok.inj h)
      rw [siegeOffset, Date.sub, siegePeriodDays] at hoffset
      rw [Date.weekday, conditionWeekday]
      omega
  | siege24hHeadsup =>
      have hoffset : siegeOffset d = 13 := of_decide_eq_true (Except.ok.inj h)
      rw [siegeOffset, Date.sub, siegePeriodDays] at hoffset
      rw [Date.weekday, conditionWeekday]
      omega
  | other text => exact absurd (Except.ok.inj h) (by simp)

/-- The weekday column of a row is that of every date on which its condition holds, and there is
such a date. -/
def Reachable (row : StoredReminder) : Prop :=
  (∀ d, conditionHolds d row.monthCondition = .ok true → d.weekday = row.weekday) ∧
    ∃ d, Specified d ∧ conditionHolds d row.monthCondition = .ok true

/-- Every condition that the source names holds on some date. -/
theorem exists_conditionHolds {condition : MonthCondition} (h : ∀ text, condition ≠ .other text) :
    ∃ d, Specified d ∧ conditionHolds d (some condition) = .ok true := by
  -- the first Tuesday of July 2026
  have hfirst : IsFirstTuesday ⟨739804, by decide⟩ := isFirstTuesday_iff.mpr (by decide)
  cases condition with
  | tankWeekHeadsup =>
      have hheadsup : isTankWeekHeadsupDate ⟨739797, by decide⟩ = some true :=
        isTankWeekHeadsupDate_iff.mpr ⟨_, by decide, hfirst⟩
      exact ⟨⟨739797, by decide⟩, by decide, by rw [conditionHolds, hheadsup]⟩
  | tankWeekEnd =>
      exact ⟨⟨739804, by decide⟩, by decide, by rw [conditionHolds, isEndOfTankDate_iff.mpr hfirst]⟩
  | siege48hHeadsup => exact ⟨⟨739816, by decide⟩, by decide, by decide⟩
  | siege24hHeadsup => exact ⟨⟨739817, by decide⟩, by decide, by decide⟩
  | other text => exact absurd rfl (h text)

theorem reachable_of_weekday {row : StoredReminder} (condition : MonthCondition)
    (hcondition : row.monthCondition = some condition) (hnamed : ∀ text, condition ≠ .other text)
    (hweekday : row.weekday = conditionWeekday condition) : Reachable row := by
  rw [Reachable, hcondition]
  refine ⟨fun d hd => ?_, exists_conditionHolds hnamed⟩
  rw [weekday_of_conditionHolds hd, hweekday]

theorem seedReminders_reachable {channelId roleMentionId : ℤ} {r : NewReminder}
    (hr : r ∈ seedReminders channelId roleMentionId) (hcondition : r.monthCondition ≠ none)
    (id : ℤ) : Reachable (r.load id) := by
  simp only [seedReminders, List.mem_cons, List.not_mem_nil, or_false] at hr
  rcases hr with rfl | rfl | rfl | rfl | rfl | rfl
  · exact absurd rfl hcondition
  · exact absurd rfl hcondition
  · exact reachable_of_weekday .tankWeekHeadsup rfl (by simp) rfl
  · exact reachable_of_weekday .tankWeekEnd rfl (by simp) rfl
  · exact reachable_of_weekday .siege48hHeadsup rfl (by simp) rfl
  · exact reachable_of_weekday .siege24hHeadsup rfl (by simp) rfl

/-! ## The predicates and the spec -/

/-- What the predicates answer on a date. -/
structure PredicatesMean (d : Date) : Prop where
  endOfTank : isEndOfTankDate d = true ↔ IsFirstTuesday d
  headsup : isTankWeekHeadsupDate d = some true ↔ ∃ e, d.addDays 7 = some e ∧ IsFirstTuesday e
  noOverflow : isTankWeekHeadsupDate d ≠ none
  notBoth : ¬ (isEndOfTankDate d = true ∧ isTankWeekHeadsupDate d = some true)
  siege48h : isSiege48hHeadsupDate d = true ↔ ∃ e, d.addDays 2 = some e ∧ IsSiegeStart e
  siege24h : isSiege24hHeadsupDate d = true ↔ ∃ e, d.addDays 1 = some e ∧ IsSiegeStart e

theorem predicatesMean (h : Specified d) : PredicatesMean d where
  endOfTank := isEndOfTankDate_iff
  headsup := isTankWeekHeadsupDate_iff
  noOverflow := Option.isSome_iff_ne_none.mp (isTankWeekHeadsupDate_isSome h)
  notBoth := fun ⟨hend, hheadsup⟩ => not_isTankWeekHeadsupDate_of_isEndOfTankDate hend hheadsup
  siege48h := by
    have hrange := h.2
    rw [isSiege48hHeadsupDate, decide_eq_true_eq]
    exact siegeOffset_eq_iff 2 (by decide) (by decide) (by omega)
  siege24h := by
    have hrange := h.2
    rw [isSiege24hHeadsupDate, decide_eq_true_eq]
    exact siegeOffset_eq_iff 1 (by decide) (by decide) (by omega)

/-- **The calendar.**  Each predicate means what it says, every month has its two dates, and every
conditional row of the seed can fire. -/
theorem calendar_agrees :
    (∀ d, Specified d → PredicatesMean d) ∧
    (∀ year month, 1 ≤ month → month ≤ 12 → (1 < year ∨ year = 1 ∧ 2 ≤ month) → year ≤ 9999 →
      MonthOfTankWeek year month) ∧
    (∀ channelId roleMentionId id, ∀ r ∈ seedReminders channelId roleMentionId,
      r.monthCondition ≠ none → Reachable (r.load id)) := by
  refine ⟨fun d h => predicatesMean h, fun year month hlow hhigh hfrom hyear => ?_,
    fun channelId roleMentionId id r hr hcondition => ?_⟩
  · exact monthOfTankWeek hlow hhigh hfrom hyear
  · exact seedReminders_reachable hr hcondition id

end MomBot.Reminders
