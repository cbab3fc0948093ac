import Mathlib.Data.Nat.Find
import MomBot.Reminders.HealthyTick

/-!
# Which slots a healthy run attempts

The scheduler sleeps 60 seconds after each tick, and a tick takes up to one second
more, so two ticks can be 61 seconds apart.  A slot can only be claimed by a tick of
its own date.  One whose fire time is 23:58 or earlier has at least 120 seconds left
and is always met; the last minute of the day is shorter than the longest gap, and
`driftingRun` passes over it.
-/

namespace MomBot.Reminders

open Cooperative Python MemberNotifications

/-- Ticks with nothing raised, and with the sleeps between them.  `I` is what the rest of
the world keeps. -/
structure HealthyRun (I : World → Prop) where
  last : ℕ
  now : ℕ → Datetime
  before : ℕ → World
  after : ℕ → World
  trace : ℕ → List (Exchange schedulerEffects)
  completed : ℕ → Bool
  performs : ∀ n ≤ last, Performs I
    (processTick true (now n).date.weekday (now n).time.truncate (now n).date)
    (before n) (trace n) (.ok (completed n)) (after n)
  healthy : ∀ n ≤ last, Healthy (trace n)
  sleeps : ∀ n < last, Meanwhile I (after n) (before (n + 1))
  /-- More than 60 and at most 61 seconds. -/
  gap : ∀ n < last, (now n).instant + 60 * microsecondsPerSecond < (now (n + 1)).instant ∧
    (now (n + 1)).instant ≤ (now n).instant + 61 * microsecondsPerSecond

/-- 23:59. -/
def lastMinute : ℕ := 1439 * microsecondsPerMinute

namespace HealthyRun

variable {I : World → Prop}

/-- The date lies wholly inside the run. -/
def Contains (run : HealthyRun I) (d : Date) : Prop :=
  (run.now 0).instant ≤ d.ordinal * microsecondsPerDay ∧
    (d.ordinal + 1) * microsecondsPerDay ≤ (run.now run.last).instant

/-- The tick claims the slot and attempts it. -/
def Attempts (run : HealthyRun I) (slot : DaySlot) (n : ℕ) : Prop :=
  ¬ (run.before n).Sent slot ∧ (run.after n).Sent slot ∧ Attempted slot (run.trace n)

/-- The tick comes on the date, and not before the time of the day. -/
def Covers (run : HealthyRun I) (d : Date) (microseconds : ℕ) (n : ℕ) : Prop :=
  (run.now n).date = d ∧ microseconds ≤ (run.now n).time.microseconds

end HealthyRun

/-! ## Instants and dates -/

/-- An instant of a day is on its date. -/
theorem Datetime.date_eq {t : Datetime} {d : Date} {microseconds : ℕ}
    (hlow : d.ordinal * microsecondsPerDay + microseconds ≤ t.instant)
    (hhigh : t.instant < (d.ordinal + 1) * microsecondsPerDay) :
    t.date = d ∧ microseconds ≤ t.time.microseconds := by
  have htime := t.time.inRange
  simp only [Datetime.instant, microsecondsPerDay, microsecondsPerMinute,
    microsecondsPerSecond] at *
  -- the instant lies inside the day
  have hordinal : t.date.ordinal = d.ordinal := by omega
  refine ⟨Date.ext_ordinal hordinal, ?_⟩
  rw [hordinal] at hlow
  omega

/-- A sequence that climbs in steps of at most `step` comes within `step` above every
value that it passes. -/
theorem exists_crossing (f : ℕ → ℕ) (last target step : ℕ) (hfirst : f 0 ≤ target)
    (hlast : target ≤ f last) (hstep : ∀ n < last, f (n + 1) ≤ f n + step) :
    ∃ n ≤ last, target ≤ f n ∧ f n ≤ target + step := by
  induction last with
  | zero => exact ⟨0, le_refl 0, hlast, by omega⟩
  | succ last ih =>
      -- the value is passed before the last step, or in it
      by_cases hpassed : target ≤ f last
      · obtain ⟨n, hn, hcross⟩ := ih hpassed fun n hn => hstep n (by omega)
        exact ⟨n, by omega, hcross⟩
      · have hnext := hstep last (by omega)
        exact ⟨last + 1, le_refl _, hlast, by omega⟩

/-! ## What is attempted -/

section Run

variable {e : Scheduled} {d : Date}

/-- Before its first tick of the day, and up to its fire time, a slot is free. -/
theorem not_sent_of_not_covers (run : HealthyRun (e.Kept d)) (hdue : e.DueOn d)
    (hminute : e.fireTimeUtc.IsMinute)
    (hrow : ∀ n ≤ run.last, (run.now n).date = d → e.Kept d (run.before n))
    (hfree : ¬ (run.before 0).Sent (e.slot d)) {n : ℕ} (hn : n ≤ run.last)
    (hnone : ∀ k < n, ¬ run.Covers d e.fireTimeUtc.microseconds k) :
    ¬ (run.before n).Sent (e.slot d) := by
  induction n with
  | zero => exact hfree
  | succ n ih =>
      have hbefore := ih (by omega) fun k hk => hnone k (by omega)
      have houtcome :=
        processTick_outcome (run.performs n (by omega)) (run.healthy n (by omega)) hdue
      rw [World.sent_congr (run.sleeps n (by omega)).sent]
      intro hsent
      -- a tick that filed the slot came for it, which `hnone` excludes
      have hdate := houtcome.dated hbefore hsent
      have hclaimed := houtcome.claimed (hrow n (by omega) hdate) hbefore hsent
      apply hnone n (by omega)
      exact ⟨hdate, (Time.le_truncate_iff hminute).mp hclaimed.1⟩

/-- **Run lemma.**  A slot is attempted iff a tick comes for it. -/
theorem attempts_iff_covers (run : HealthyRun (e.Kept d)) (hdue : e.DueOn d)
    (hminute : e.fireTimeUtc.IsMinute)
    (hrow : ∀ n ≤ run.last, (run.now n).date = d → e.Kept d (run.before n))
    (hfree : ¬ (run.before 0).Sent (e.slot d)) :
    (∃ n ≤ run.last, run.Attempts (e.slot d) n) ↔
      ∃ n ≤ run.last, run.Covers d e.fireTimeUtc.microseconds n := by
  constructor
  · rintro ⟨n, hn, hbefore, hafter, -⟩
    have houtcome := processTick_outcome (run.performs n hn) (run.healthy n hn) hdue
    have hdate := houtcome.dated hbefore hafter
    have hclaimed := houtcome.claimed (hrow n hn hdate) hbefore hafter
    exact ⟨n, hn, hdate, (Time.le_truncate_iff hminute).mp hclaimed.1⟩
  · intro hcovers
    -- the first tick that comes for it finds the slot free
    classical
    obtain ⟨n, ⟨hn, hdate, htime⟩, hfirst⟩ :
        ∃ n, (n ≤ run.last ∧ run.Covers d e.fireTimeUtc.microseconds n) ∧
          ∀ k < n, ¬ (k ≤ run.last ∧ run.Covers d e.fireTimeUtc.microseconds k) :=
      ⟨Nat.find hcovers, Nat.find_spec hcovers, fun k hk => Nat.find_min hcovers hk⟩
    have hbefore := not_sent_of_not_covers run hdue hminute hrow hfree hn
      fun k hk hcover => hfirst k hk ⟨by omega, hcover⟩
    have houtcome := processTick_outcome (run.performs n hn) (run.healthy n hn) hdue
    have hafter := houtcome.sent (hrow n hn hdate) hdate ((Time.le_truncate_iff hminute).mpr htime)
    exact ⟨n, hn, hbefore, hafter, (houtcome.claimed (hrow n hn hdate) hbefore hafter).2⟩

/-- Up to 23:58 a tick comes for every fire time. -/
theorem exists_covers {I : World → Prop} (run : HealthyRun I) (hcontains : run.Contains d)
    {microseconds : ℕ} (htime : microseconds + microsecondsPerMinute ≤ lastMinute) :
    ∃ n ≤ run.last, run.Covers d microseconds n := by
  obtain ⟨hstart, hend⟩ := hcontains
  have hday : microseconds + 61 * microsecondsPerSecond < microsecondsPerDay := by
    simp only [lastMinute, microsecondsPerDay, microsecondsPerMinute, microsecondsPerSecond] at *
    omega
  rw [Nat.add_mul, Nat.one_mul] at hend
  obtain ⟨n, hn, hlow, hhigh⟩ := exists_crossing (fun n => (run.now n).instant) run.last
    (d.ordinal * microsecondsPerDay + microseconds) (61 * microsecondsPerSecond)
    (by omega) (by omega) fun n hn => (run.gap n hn).2
  refine ⟨n, hn, Datetime.date_eq hlow ?_⟩
  rw [Nat.add_mul, Nat.one_mul]
  omega

/-- A time of day on a whole minute is 23:59 or leaves a minute before it. -/
theorem Time.eq_lastMinute {t : Time} (h : t.IsMinute) (hlate : lastMinute ≤ t.microseconds) :
    t.microseconds = lastMinute := by
  have hrange := t.inRange
  simp only [Time.IsMinute, lastMinute, microsecondsPerDay, microsecondsPerMinute,
    microsecondsPerSecond] at *
  omega

/-- In a healthy run that contains the date, something due on it is attempted iff its fire
time is before 23:59 or some tick of the date comes at 23:59. -/
theorem scheduled_attempted_iff (run : HealthyRun (e.Kept d)) (hcontains : run.Contains d)
    (hdue : e.DueOn d) (hminute : e.fireTimeUtc.IsMinute)
    (hrow : ∀ n ≤ run.last, (run.now n).date = d → e.Kept d (run.before n))
    (hfree : ¬ (run.before 0).Sent (e.slot d)) :
    (∃ n ≤ run.last, run.Attempts (e.slot d) n) ↔
      e.fireTimeUtc.microseconds < lastMinute ∨ ∃ n ≤ run.last, run.Covers d lastMinute n := by
  rw [attempts_iff_covers run hdue hminute hrow hfree]
  by_cases hearly : e.fireTimeUtc.microseconds < lastMinute
  -- up to 23:58 some tick comes before midnight
  · have hspare : e.fireTimeUtc.microseconds + microsecondsPerMinute ≤ lastMinute := by
      simp only [Time.IsMinute, lastMinute, microsecondsPerMinute, microsecondsPerSecond] at *
      omega
    exact ⟨fun _ => .inl hearly, fun _ => exists_covers run hcontains hspare⟩
  · have hlast := Time.eq_lastMinute hminute (Nat.le_of_not_lt hearly)
    rw [hlast]
    exact ⟨.inr, fun h => h.resolve_left (by omega)⟩

end Run

/-! ## A run that passes over 23:59 -/

/-- Due on Wednesdays in the last minute of the day. -/
def lateReminder : Reminder where
  id := 1
  channelId := 5
  weekday := 2
  fireTimeUtc := ⟨lastMinute, by decide⟩
  messageTemplate := "Reminder: post in clan chat."
  roleMentionId := none
  monthCondition := none

/-- The table of `lateReminder`. -/
def lateTable : ReminderTable := ⟨[lateReminder], by decide⟩

/-- Nothing else is scheduled. -/
def lateWorld : World := ⟨lateTable, noNotifications, emptyLog, []⟩

/-- 2026-07-15, a Wednesday. -/
def lateDate : Date := ⟨739812, by decide⟩

/-- The seconds at which the ticks come: 61 apart, from 23:59:23 of the day before. -/
def driftingSeconds (n : ℕ) : ℕ :=
  739811 * 86400 + 86363 + 61 * min n 1417

theorem driftingSeconds_inRange (n : ℕ) :
    1 ≤ driftingSeconds n / 86400 ∧ driftingSeconds n / 86400 ≤ maxOrdinal := by
  simp only [driftingSeconds, maxOrdinal]
  omega

theorem secondOfDay_inRange (seconds : ℕ) :
    seconds % 86400 * microsecondsPerSecond < microsecondsPerDay := by
  simp only [microsecondsPerDay, microsecondsPerMinute, microsecondsPerSecond]
  omega

/-- The clock at the `n`-th tick. -/
def driftingNow (n : ℕ) : Datetime where
  date := ⟨driftingSeconds n / 86400, driftingSeconds_inRange n⟩
  time := ⟨driftingSeconds n % 86400 * microsecondsPerSecond, secondOfDay_inRange _⟩

theorem instant_driftingNow (n : ℕ) :
    (driftingNow n).instant = driftingSeconds n * microsecondsPerSecond := by
  simp only [Datetime.instant, driftingNow, microsecondsPerDay, microsecondsPerMinute,
    microsecondsPerSecond]
  omega

/-- No tick comes on the Wednesday at 23:59: the last one before is at 23:58:59, the next
at midnight. -/
theorem driftingNow_misses (n : ℕ) (hdate : (driftingNow n).date.ordinal = lateDate.ordinal) :
    (driftingNow n).time.microseconds < lastMinute := by
  simp only [driftingNow, driftingSeconds, lateDate, lastMinute, microsecondsPerMinute,
    microsecondsPerSecond] at *
  omega

theorem selectEligible_lateWorld (n : ℕ) :
    lateWorld.selectEligible (driftingNow n).date.weekday (driftingNow n).time.truncate
      (driftingNow n).date = [] := by
  apply List.filter_eq_nil_iff.mpr
  intro r hr
  obtain rfl : r = lateReminder := List.mem_singleton.mp hr
  simp only [decide_eq_true_eq, not_and_or, Nat.not_le]
  -- the row is not due on another weekday, and too late on the Wednesday
  by_cases hweekday : (driftingNow n).date.weekday = 2
  · refine .inr (.inl ?_)
    have hdate : (driftingNow n).date.ordinal = lateDate.ordinal := by
      simp only [Date.weekday, driftingNow, driftingSeconds, lateDate] at *
      omega
    exact Nat.lt_of_le_of_lt (Nat.div_mul_le_self _ _) (driftingNow_misses n hdate)
  · exact .inl fun h => hweekday h.symm

/-- A tick with nothing to do. -/
theorem processTick_idle {w : World} {weekday : ℕ} {time : Time} {date : Date}
    (hreminders : w.selectEligible weekday time date = [])
    (htankEnd : w.selectSentTankEnd weekday date [] = [])
    (hnotifications : w.selectCandidates date = []) :
    (processTick true weekday time date).Runs schedulerMachine w [] (.ok true) w := by
  have hmembers : (dmBranch true date time).Runs schedulerMachine w [] (.ok true) w := by
    have hdue : dueRows date time (w.selectCandidates date) = .ok [] := by
      rw [hnotifications]
      rfl
    rw [dmBranch, if_pos rfl]
    apply Coroutine.runs_bind.mpr
    exact ⟨[], .ok [], w, [], rfl, ⟨rfl, hdue.symm, rfl⟩, rfl, rfl, rfl⟩
  change (afterEligible true weekday time date (w.selectEligible weekday time date)).Runs _ _ _ _ _
  rw [hreminders]
  unfold afterEligible
  cases hend : isEndOfTankDate date with
  | true =>
      change
        (afterSuppression true time date [] (w.selectSentTankEnd weekday date [])).Runs _ _ _ _ _
      rw [htankEnd]
      exact hmembers
  | false => exact hmembers

theorem driftingNow_gap {n : ℕ} (hn : n < 1417) :
    (driftingNow n).instant + 60 * microsecondsPerSecond < (driftingNow (n + 1)).instant ∧
      (driftingNow (n + 1)).instant ≤ (driftingNow n).instant + 61 * microsecondsPerSecond := by
  simp only [instant_driftingNow, driftingSeconds, microsecondsPerSecond]
  omega

/-- No tick has anything to do. -/
def driftingRun : HealthyRun ((Scheduled.reminder lateReminder).Kept lateDate) where
  last := 1417
  now := driftingNow
  before _ := lateWorld
  after _ := lateWorld
  trace _ := []
  completed _ := true
  performs n _ := (processTick_idle (selectEligible_lateWorld n) rfl rfl).amid fun _ => .refl
  healthy _ _ := .nil
  sleeps _ _ := .refl
  gap _ hn := driftingNow_gap hn

theorem driftingRun_contains : driftingRun.Contains lateDate := by
  simp only [HealthyRun.Contains, driftingRun, instant_driftingNow, driftingSeconds, lateDate,
    microsecondsPerDay, microsecondsPerMinute, microsecondsPerSecond]
  omega

theorem lateReminder_dueOn : (Scheduled.reminder lateReminder).DueOn lateDate :=
  ⟨rfl, by decide⟩

theorem lateReminder_kept : (Scheduled.reminder lateReminder).Kept lateDate lateWorld :=
  ⟨List.mem_singleton.mpr rfl, fun hend => absurd hend (by decide)⟩

/-- The slot is not attempted. -/
theorem driftingRun_not_attempted : ¬ ∃ n ≤ driftingRun.last,
    driftingRun.Attempts ((Scheduled.reminder lateReminder).slot lateDate) n := by
  intro hattempted
  have hcovers := (scheduled_attempted_iff driftingRun driftingRun_contains lateReminder_dueOn
    (by decide) (fun _ _ _ => lateReminder_kept) (by decide)).mp hattempted
  rcases hcovers with hearly | ⟨n, -, hdate, htime⟩
  · exact absurd hearly (by decide)
  · exact absurd htime (Nat.not_le_of_lt (driftingNow_misses n (congrArg Date.ordinal hdate)))

/-- Not every slot of a healthy run is attempted. -/
theorem slot_missed : ¬ ∀ (e : Scheduled) (d : Date) (run : HealthyRun (e.Kept d)),
    run.Contains d → e.DueOn d → e.fireTimeUtc.IsMinute →
    (∀ n ≤ run.last, (run.now n).date = d → e.Kept d (run.before n)) →
    ¬ (run.before 0).Sent (e.slot d) → ∃ n ≤ run.last, run.Attempts (e.slot d) n := by
  intro hall
  obtain ⟨n, -, hbefore, hafter, -⟩ := hall (.reminder lateReminder) lateDate driftingRun
    driftingRun_contains lateReminder_dueOn (by decide) (fun _ _ _ => lateReminder_kept) (by decide)
  exact hbefore hafter

end MomBot.Reminders
