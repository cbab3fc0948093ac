import Mathlib.Algebra.Order.Floor.Ring
import Mathlib.Data.Rat.Floor
import Mathlib.Logic.Function.Basic
import MomBot.History

/-!
# `health/progress.py`: the progress of the two schedulers

Each scheduler reports when it starts and stops and how its cycles end, and `snapshot` says
whether both make progress.  The module keeps three fields for a scheduler and no history.
`snapshot_healthy_iff` says what the three fields amount to: the report is a statement on the
events since the last start.

The events may come in any order.  The proof goes along the last start: before it, no event
makes a scheduler run (`not_running_of_noStart`); after it, `Reflects` is what the fields say
of the events so far.

## Floats

`time.monotonic` counts seconds in floats.  A float is a rational number here, and a
subtraction is rounded: `Rounding` is any monotone rounding, so the results hold for exact
arithmetic as well.
-/

namespace MomBot.Health

open History

/-! ## Time -/

/-- How the result of a float operation is rounded. -/
structure Rounding where
  nearest : ℚ → ℚ
  monotone : Monotone nearest

/-- No rounding. -/
def Rounding.exact : Rounding := ⟨id, monotone_id⟩

/-- `PROGRESS_THRESHOLD_SECONDS`. -/
def progressThresholdSeconds : ℚ := 180

/-- `max(0.0, now - last)` -/
def Rounding.age (R : Rounding) (now last : ℚ) : ℚ := max 0 (R.nearest (now - last))

/-- `round(x, 1)`: the nearest tenth, and of two the even one. -/
def Rounding.roundTenth (R : Rounding) (x : ℚ) : ℚ :=
  let below : ℤ := ⌊x * 10⌋
  let rest := x * 10 - below
  if rest < 1 / 2 ∨ (rest = 1 / 2 ∧ below % 2 = 0) then R.nearest (below / 10)
  else R.nearest ((below + 1) / 10)

/-- What succeeded later is younger. -/
theorem Rounding.age_anti (R : Rounding) {now earlier later : ℚ} (h : earlier ≤ later) :
    R.age now later ≤ R.age now earlier := by
  apply max_le_max_left
  apply R.monotone
  exact sub_le_sub_left h now

/-! ## The state -/

/-- The two tracked schedulers. -/
inductive SchedulerName where
  | reminders
  | autoKick
  deriving DecidableEq, Repr

/-- The state of one scheduler task. -/
structure Progress where
  running : Bool := false
  lastSuccess : Option ℚ := none
  failed : Bool := false
  deriving DecidableEq, Repr

/-- `_states`. -/
abbrev States := SchedulerName → Progress

/-- `_states` before any report. -/
def initialStates : States := fun _ => {}

/-- A new task begins; what the one before it achieved is forgotten. -/
def started (name : SchedulerName) (states : States) : States :=
  Function.update states name { running := true }

/-- `now` is what `time.monotonic` returns. -/
def succeeded (name : SchedulerName) (now : ℚ) (states : States) : States :=
  Function.update states name { states name with lastSuccess := some now, failed := false }

/-- A cycle has failed. -/
def failed (name : SchedulerName) (states : States) : States :=
  Function.update states name { states name with failed := true }

/-- The task has left its loop. -/
def stopped (name : SchedulerName) (states : States) : States :=
  Function.update states name { states name with running := false }

/-! ## The report -/

/-- The values of `status`. -/
inductive Status where
  | stopped
  | failed
  | starting
  | stale
  | healthy
  deriving DecidableEq, Repr

/-- What the snapshot says of one scheduler. -/
structure SchedulerReport where
  healthy : Bool
  status : Status
  lastSuccessAgeSeconds : Option ℚ
  deriving DecidableEq, Repr

/-- What `snapshot` returns. -/
structure Snapshot where
  schema : ℕ
  healthy : Bool
  schedulers : List (SchedulerName × SchedulerReport)
  deriving DecidableEq, Repr

/-- The keys of `_states`. -/
def trackedSchedulers : List SchedulerName := [.reminders, .autoKick]

/-- The status of a scheduler whose last success is `age` old. -/
def statusOf (state : Progress) (age : Option ℚ) : Status :=
  if !state.running then .stopped
  else if state.failed then .failed
  else
    match age with
    | none => .starting
    | some age => if age ≥ progressThresholdSeconds then .stale else .healthy

/-- One round of the loop of `snapshot`. -/
def report (R : Rounding) (now : ℚ) (state : Progress) : SchedulerReport :=
  let age := state.lastSuccess.map (R.age now)
  let status := statusOf state age
  ⟨status = .healthy, status, age.map R.roundTenth⟩

/-- `snapshot`, at the monotonic time `now`. -/
def snapshot (R : Rounding) (now : ℚ) (states : States) : Snapshot :=
  let schedulers := trackedSchedulers.map fun name => (name, report R now (states name))
  ⟨1, schedulers.all fun item => item.2.healthy, schedulers⟩

/-- `progress_handler`: the body and the status. -/
def progressHandler (R : Rounding) (now : ℚ) (states : States) : Snapshot × ℕ :=
  let result := snapshot R now states
  (result, if result.healthy then 200 else 503)

/-! ## Histories -/

/-- The four functions of the module that write. -/
inductive EventKind where
  | started
  | succeeded
  | failed
  | stopped
  deriving DecidableEq, Repr

/-- What a scheduler reports, and the monotonic time at which it does. -/
structure Event where
  scheduler : SchedulerName
  kind : EventKind
  time : ℚ
  deriving DecidableEq, Repr

/-- The states after a report. -/
def record (states : States) (e : Event) : States :=
  match e.kind with
  | .started => started e.scheduler states
  | .succeeded => succeeded e.scheduler e.time states
  | .failed => failed e.scheduler states
  | .stopped => stopped e.scheduler states

/-- The states after a history. -/
def run (history : List Event) : States :=
  history.foldl record initialStates

/-- The reports about one scheduler. -/
def eventsOf (name : SchedulerName) (history : List Event) : List Event :=
  history.filter fun e => e.scheduler = name

/-- The last start or stop is a start, and a success after it is younger than the threshold and
has no failure after it. -/
def Progressing (R : Rounding) (now : ℚ) (events : List Event) : Prop :=
  ∃ before start after, events = before ++ start :: after ∧ start.kind = .started ∧
    (∀ e ∈ after, e.kind ≠ .started ∧ e.kind ≠ .stopped) ∧
    ∃ earlier success later, after = earlier ++ success :: later ∧ success.kind = .succeeded ∧
      (∀ e ∈ later, e.kind ≠ .failed) ∧ R.age now success.time < progressThresholdSeconds

/-! ## One scheduler -/

/-- What an event does to the fields of its scheduler. -/
def Progress.record (state : Progress) (e : Event) : Progress :=
  match e.kind with
  | .started => { running := true }
  | .succeeded => { state with lastSuccess := some e.time, failed := false }
  | .failed => { state with failed := true }
  | .stopped => { state with running := false }

theorem record_self (states : States) (e : Event) :
    record states e e.scheduler = (states e.scheduler).record e := by
  obtain ⟨name, kind, time⟩ := e
  cases kind <;> exact Function.update_self name _ states

theorem record_of_ne {name : SchedulerName} {e : Event} (states : States)
    (h : name ≠ e.scheduler) : record states e name = states name := by
  obtain ⟨other, kind, time⟩ := e
  cases kind <;> exact Function.update_of_ne h _ states

/-- The state of a scheduler depends on its own events only. -/
theorem run_eq_foldl (name : SchedulerName) (history : List Event) :
    run history name = (eventsOf name history).foldl Progress.record {} := by
  have hfold : ∀ states : States, history.foldl record states name =
      (eventsOf name history).foldl Progress.record (states name) := by
    induction history with
    | nil => exact fun states => rfl
    | cons e rest ih =>
        intro states
        by_cases hname : name = e.scheduler
        · subst hname
          have hown : eventsOf e.scheduler (e :: rest) = e :: eventsOf e.scheduler rest := by
            simp [eventsOf]
          rw [List.foldl_cons, ih, record_self, hown, List.foldl_cons]
        · have hother : eventsOf name (e :: rest) = eventsOf name rest := by
            simp [eventsOf, Ne.symm hname]
          rw [List.foldl_cons, ih, record_of_ne states hname, hother]
  exact hfold initialStates

/-- Without a start a scheduler does not run. -/
theorem not_running_of_noStart {events : List Event} (h : ∀ e ∈ events, e.kind ≠ .started) :
    (events.foldl Progress.record {}).running = false := by
  induction events using List.reverseRecOn with
  | nil => rfl
  | append_singleton events e ih =>
      have hold := ih fun other hother => h other (List.mem_append_left _ hother)
      have hnew : e.kind ≠ .started := h e (by simp)
      rw [List.foldl_append]
      show ((events.foldl Progress.record {}).record e).running = false
      unfold Progress.record
      split
      next hkind => exact absurd hkind hnew
      next => exact hold
      next => exact hold
      next => rfl

/-! ## After the last start -/

/-- An event that tells how a cycle ended. -/
def IsOutcome (e : Event) : Prop := e.kind = .succeeded ∨ e.kind = .failed

/-- What the fields say of the events since the last start. -/
structure Reflects (state : Progress) (events : List Event) : Prop where
  running : state.running = true ↔ ∀ e ∈ events, e.kind ≠ .stopped
  lastSuccess : ∀ time, state.failed = false ∧ state.lastSuccess = some time ↔
    ∃ e, IsLast IsOutcome events e ∧ e.kind = .succeeded ∧ e.time = time

theorem reflects_started : Reflects { running := true } [] where
  running := by simp
  lastSuccess time := by simp [isLast_nil]

/-- **Step lemma.**  Every event but a start keeps the fields in line with the events. -/
theorem Reflects.record {state : Progress} {events : List Event} {e : Event}
    (h : Reflects state events) (he : e.kind ≠ .started) :
    Reflects (state.record e) (events ++ [e]) := by
  unfold Progress.record
  split
  next hkind => exact absurd hkind he
  next hkind =>
    have houtcome : IsOutcome e := .inl hkind
    constructor
    · rw [List.forall_mem_append, ← h.running]
      simp [hkind]
    · intro time
      simp [isLast_concat houtcome, hkind]
  next hkind =>
    have houtcome : IsOutcome e := .inr hkind
    constructor
    · rw [List.forall_mem_append, ← h.running]
      simp [hkind]
    · intro time
      simp [isLast_concat houtcome, hkind]
  next hkind =>
    have hother : ¬ IsOutcome e := by simp [IsOutcome, hkind]
    constructor
    · simp [hkind]
    · intro time
      simpa only [isLast_concat_of_not hother] using h.lastSuccess time

/-- **Run lemma.** -/
theorem reflects_foldl {events : List Event} (h : ∀ e ∈ events, e.kind ≠ .started) :
    Reflects (events.foldl Progress.record { running := true }) events := by
  induction events using List.reverseRecOn with
  | nil => exact reflects_started
  | append_singleton events e ih =>
      have hold := ih fun other hother => h other (List.mem_append_left _ hother)
      rw [List.foldl_append]
      exact hold.record (h e (by simp))

/-- A start forgets what was before it. -/
theorem foldl_start {before after : List Event} {start : Event} (h : start.kind = .started) :
    (before ++ start :: after).foldl Progress.record {} =
      after.foldl Progress.record { running := true } := by
  rw [List.foldl_append, List.foldl_cons]
  congr 1
  unfold Progress.record
  rw [h]

/-! ## The report against the history -/

theorem report_healthy_iff (R : Rounding) (now : ℚ) (state : Progress) :
    (report R now state).healthy = true ↔
      state.running = true ∧ ∃ time, (state.failed = false ∧ state.lastSuccess = some time) ∧
        R.age now time < progressThresholdSeconds := by
  obtain ⟨running, lastSuccess, failed⟩ := state
  cases running <;> cases failed <;> cases lastSuccess <;> simp [report, statusOf]

/-- Of the outcomes after a success without a failure the last one is a success, and no older. -/
theorem exists_last_success {earlier later : List Event} {success : Event}
    (hkind : success.kind = .succeeded) (hlater : ∀ e ∈ later, e.kind ≠ .failed)
    (horder : (earlier ++ success :: later).Pairwise fun e e' => e.time ≤ e'.time) :
    ∃ e, IsLast IsOutcome (earlier ++ success :: later) e ∧ e.kind = .succeeded ∧
      success.time ≤ e.time := by
  obtain ⟨e, hlast⟩ : ∃ e, IsLast IsOutcome (success :: later) e :=
    exists_isLast ⟨success, List.mem_cons_self, .inl hkind⟩
  refine ⟨e, hlast.append earlier, ?_⟩
  obtain ⟨hmem, houtcome⟩ := hlast.mem
  rcases List.mem_cons.mp hmem with rfl | hin
  · exact ⟨hkind, le_refl _⟩
  · have hsuffix := (List.pairwise_append.mp horder).2.1
    exact ⟨houtcome.resolve_right (hlater e hin), (List.pairwise_cons.mp hsuffix).1 e hin⟩

theorem report_foldl_healthy_iff (R : Rounding) (now : ℚ) {events : List Event}
    (horder : events.Pairwise fun e e' => e.time ≤ e'.time) :
    (report R now (events.foldl Progress.record {})).healthy = true ↔ Progressing R now events := by
  rw [report_healthy_iff]
  constructor
  · intro h
    obtain ⟨hrunning, time, hsuccess, hage⟩ := h
    -- a scheduler that runs was started
    obtain ⟨start, before, after, rfl, hstart, hafter⟩ :
        ∃ start, IsLast (fun e => e.kind = .started) events start := by
      by_contra hnone
      have hstarts : ∀ e ∈ events, e.kind ≠ .started := fun e he hkind =>
        hnone (exists_isLast ⟨e, he, hkind⟩)
      exact absurd hrunning (by simp [not_running_of_noStart hstarts])
    rw [foldl_start hstart] at hrunning hsuccess
    have hreflects := reflects_foldl hafter
    obtain ⟨e, ⟨earlier, later, rfl, -, hlater⟩, hkind, rfl⟩ :=
      (hreflects.lastSuccess time).mp hsuccess
    refine ⟨before, start, _, rfl, hstart, ?_, earlier, e, later, rfl, hkind, ?_, hage⟩
    · intro other hother
      exact ⟨hafter other hother, hreflects.running.mp hrunning other hother⟩
    · intro other hother hfailed
      exact hlater other hother (.inr hfailed)
  · intro h
    obtain ⟨before, start, after, rfl, hstart, hafter, earlier, success, later, rfl, hkind, hlater,
      hage⟩ := h
    have hreflects := reflects_foldl fun e he => (hafter e he).1
    have hsuffix := (List.pairwise_cons.mp (List.pairwise_append.mp horder).2.1).2
    obtain ⟨e, hlast, hsucceeded, hle⟩ := exists_last_success hkind hlater hsuffix
    rw [foldl_start hstart]
    refine ⟨hreflects.running.mpr fun other hother => (hafter other hother).2, e.time, ?_, ?_⟩
    · exact (hreflects.lastSuccess e.time).mpr ⟨e, hlast, hsucceeded, rfl⟩
    · exact lt_of_le_of_lt (R.age_anti hle) hage

theorem healthy_iff_reports (R : Rounding) (now : ℚ) (states : States) :
    (snapshot R now states).healthy = true ↔
      ∀ name, (report R now (states name)).healthy = true := by
  constructor
  · intro h name
    have hboth := List.all_eq_true.mp h
    apply hboth (name, report R now (states name))
    cases name <;> simp [trackedSchedulers]
  · intro h
    apply List.all_eq_true.mpr
    intro item hitem
    obtain ⟨name, -, rfl⟩ := List.mem_map.mp hitem
    exact h name

/-- The endpoint answers 200 exactly if both are healthy. -/
theorem progressHandler_ok_iff (R : Rounding) (now : ℚ) (states : States) :
    (progressHandler R now states).2 = 200 ↔
      ∀ name, (report R now (states name)).healthy = true := by
  rw [← healthy_iff_reports, progressHandler]
  cases (snapshot R now states).healthy <;> simp

/-- After any history the snapshot is healthy exactly if both schedulers make progress. -/
theorem snapshot_healthy_iff (R : Rounding) {history : List Event}
    (horder : history.Pairwise fun e e' => e.time ≤ e'.time) (now : ℚ) :
    (snapshot R now (run history)).healthy = true ↔
      ∀ name, Progressing R now (eventsOf name history) := by
  rw [healthy_iff_reports]
  apply forall_congr'
  intro name
  rw [run_eq_foldl]
  exact report_foldl_healthy_iff R now (horder.filter _)

/-- Both loops start, the reminders recover from a failure, and the sweeps are restarted. -/
def restartedHistory : List Event :=
  [⟨.reminders, .started, 0⟩, ⟨.autoKick, .started, 0⟩, ⟨.autoKick, .succeeded, 10⟩,
    ⟨.reminders, .failed, 20⟩, ⟨.autoKick, .stopped, 30⟩, ⟨.reminders, .succeeded, 80⟩,
    ⟨.autoKick, .started, 90⟩]

/-- The success of the sweeps from before their restart does not count. -/
theorem snapshot_healthy_iff_restarted :
    (snapshot .exact 100 (run restartedHistory)).healthy = true ↔
      ∀ name, Progressing .exact 100 (eventsOf name restartedHistory) :=
  snapshot_healthy_iff .exact (by decide) 100

example : (snapshot .exact 100 (run restartedHistory)).schedulers.map (fun item => item.2.status) =
    [.healthy, .starting] := by
  decide +kernel

end MomBot.Health
