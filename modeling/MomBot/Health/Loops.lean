import MomBot.Cooperative.Abort
import MomBot.Cooperative.Begun
import MomBot.Discord
import MomBot.Health.Progress

/-!
# Loops that report their progress

`Progress.lean` reads the reports of the schedulers and does not ask where they come from.  Here the
loops send them.  Both have one form: a cycle that comes to whether it was complete, the report, the
sleep, and around it all a `finally` that reports the end.

`Course` lists what a loop can have done so far, with the cycles it has finished, and
`course_of_begins` says that every beginning of the loop is such a course.  So the report on a loop
is healthy exactly while the loop runs and the last cycle that it has finished was complete and is
recent (`report_healthy_iff_fresh`).
-/

namespace MomBot.Health

open Cooperative Coroutine

/-! ## Loops -/

/-- What a loop asks besides what its cycle asks: it reports, which reads the monotonic clock, and
it sleeps. -/
inductive LoopOp (E : Effects) where
  | own (o : E.Op)
  | report (kind : EventKind)

/-- What answers each operation: a report reads the clock. -/
def LoopOp.Res {E : Effects} : LoopOp E → Type
  | own o => E.Res o
  | report _ => ℚ

/-- What a loop awaits: the calls of its cycle, and its sleep. -/
inductive LoopCall (E : Effects) where
  | own (call : E.Call)
  | sleep

/-- What answers each call: a sleep ends, or is cancelled. -/
def LoopCall.Ans {E : Effects} : LoopCall E → Type
  | own call => E.Ans call
  | sleep => Outcome

/-- Everything that a loop asks. -/
abbrev loopEffects (E : Effects) : Effects :=
  ⟨LoopOp E, LoopOp.Res, LoopCall E, LoopCall.Ans⟩

/-- The cycle in its loop. -/
def ownEffects (E : Effects) : Embedding E (loopEffects E) where
  op := .own
  res _ r := r
  call := .own
  ans _ a := a

/-- A scheduler: its cycle, and how an exception that ends a sleep leaves the loop. -/
structure Scheduler (E : Effects) (ε : Type) where
  cycle : ExceptT ε (Coroutine E) Bool
  ofRaised : Raised → ε

variable {E : Effects} {ε : Type}

/-- A loop, or a part of one, that may raise. -/
abbrev LoopM (E : Effects) (ε : Type) := ExceptT ε (Coroutine (loopEffects E))

/-- A report to the progress module. -/
def sendReport (kind : EventKind) : LoopM E ε Unit :=
  ExceptT.mk (.op (E := loopEffects E) (.report kind) fun _ => .done (.ok ()))

namespace Scheduler

variable (S : Scheduler E ε)

/-- One cycle, asked through the loop. -/
def ownCycle : LoopM E ε Bool :=
  ExceptT.mk (S.cycle.run.embed (ownEffects E))

/-- `asyncio.sleep(self._tick_seconds)` -/
def sleep : LoopM E ε Unit :=
  ExceptT.mk (.await (E := loopEffects E) .sleep fun slept => .done (slept.mapError S.ofRaised))

/-- One round of `_run_loop`: whatever the branch, it reports how the cycle ended and sleeps. -/
def round : LoopM E ε Unit := do
  let completed ← S.ownCycle
  sendReport (if completed then .succeeded else .failed)
  S.sleep

/-- The first rounds of `_run_loop`. -/
def runLoop : ℕ → LoopM E ε Unit
  | 0 => return ()
  | rounds + 1 => do
      S.round
      runLoop rounds

/-- `run`. -/
def run (rounds : ℕ) : LoopM E ε Unit := do
  sendReport .started
  tryCatch (S.runLoop rounds) fun exc => do
    sendReport .stopped
    throw exc

end Scheduler

/-! ## Courses -/

/-- A turn of a loop. -/
abbrev LoopTurn (E : Effects) := Turn (loopEffects E)

/-- The turn of a report, with the time that it was made at. -/
def reported (kind : EventKind) (time : ℚ) : LoopTurn E :=
  .op (.report kind) time

/-- The turn of a sleep. -/
def slept (outcome : Outcome) : LoopTurn E :=
  .await .sleep outcome

/-- How a cycle ended, and when it was reported. -/
structure CycleEnd where
  completed : Bool
  time : ℚ
  deriving DecidableEq, Repr

/-- What is reported at the end of a cycle. -/
def CycleEnd.kind (e : CycleEnd) : EventKind :=
  if e.completed then .succeeded else .failed

/-- Where a loop is. -/
inductive Phase where
  | resting
  | working
  | sleeping
  /-- The exception is on its way out. -/
  | leaving
  | ended
  deriving DecidableEq, Repr

/-- Where a sleep or a round leaves the loop. -/
def Phase.after {ε' α : Type} : Except ε' α → Phase
  | .ok _ => resting
  | .error _ => leaving

variable (S : Scheduler E ε)

/-- `Course S turns ends phase`: what the loop has done from its start, the cycles it has finished,
and where it is now. -/
inductive Course : List (LoopTurn E) → List CycleEnd → Phase → Prop
  | started (time : ℚ) : Course [reported .started time] [] .resting
  | working {turns body : List (LoopTurn E)} {ends : List CycleEnd} : Course turns ends .resting →
      S.ownCycle.run.Begins body → Course (turns ++ body) ends .working
  | finished {turns body : List (LoopTurn E)} {ends : List CycleEnd} (e : CycleEnd) :
      Course turns ends .resting → S.ownCycle.run.Dialogue body (.ok e.completed) →
      Course (turns ++ body ++ [reported e.kind e.time]) (ends ++ [e]) .sleeping
  | slept {turns : List (LoopTurn E)} {ends : List CycleEnd} (outcome : Outcome) :
      Course turns ends .sleeping → Course (turns ++ [slept outcome]) ends (.after outcome)
  | raised {turns body : List (LoopTurn E)} {ends : List CycleEnd} {exc : ε} :
      Course turns ends .resting → S.ownCycle.run.Dialogue body (.error exc) →
      Course (turns ++ body) ends .leaving
  | ended {turns : List (LoopTurn E)} {ends : List CycleEnd} (time : ℚ) :
      Course turns ends .leaving → Course (turns ++ [reported .stopped time]) ends .ended

variable {S} {turns before body : List (LoopTurn E)} {ends : List CycleEnd}

theorem Course.reported {completed : Bool} (h : Course S before ends .resting) (time : ℚ)
    (hcycle : S.ownCycle.run.Dialogue body (.ok completed)) :
    Course S (before ++ (body ++ [reported (if completed then .succeeded else .failed) time]))
      (ends ++ [⟨completed, time⟩]) .sleeping := by
  rw [← List.append_assoc]
  exact h.finished ⟨completed, time⟩ hcycle

theorem Course.rested {kind : EventKind} {time : ℚ} (outcome : Outcome)
    (h : Course S (before ++ (body ++ [Health.reported kind time])) ends .sleeping) :
    Course S (before ++ (body ++ [Health.reported kind time, Health.slept outcome])) ends
      (.after outcome) := by
  have hslept := h.slept outcome
  rwa [List.append_assoc, List.append_assoc] at hslept

/-- A round that has begun. -/
theorem course_of_round_begins (hbefore : Course S before ends .resting)
    (h : S.round.run.Begins turns) : ∃ ends phase, Course S (before ++ turns) ends phase := by
  obtain hcycle | ⟨body, completed, rest, rfl, hcycle, hrest⟩ := begins_bind_raising h
  · exact ⟨ends, .working, hbefore.working hcycle⟩
  obtain rfl | ⟨time, rest, rfl, hrest⟩ := hrest
  · rw [List.append_nil]
    exact ⟨ends, .working, hbefore.working hcycle.begins⟩
  obtain rfl | ⟨outcome, rest, rfl, hrest⟩ := hrest
  · exact ⟨_, .sleeping, hbefore.reported time hcycle⟩
  · obtain rfl : rest = [] := hrest
    exact ⟨_, .after outcome, (hbefore.reported time hcycle).rested outcome⟩

/-- A round that is over. -/
theorem course_of_round {result : Except ε Unit} (hbefore : Course S before ends .resting)
    (h : S.round.run.Dialogue turns result) :
    ∃ ends, Course S (before ++ turns) ends (.after result) := by
  obtain ⟨exc, hcycle, rfl⟩ | ⟨body, completed, rest, rfl, hcycle, time, rest, rfl, outcome, rest,
    rfl, rfl, rfl⟩ := dialogue_bind_raising.mp h
  · exact ⟨ends, hbefore.raised hcycle⟩
  · refine ⟨ends ++ [⟨completed, time⟩], ?_⟩
    have hrested := (hbefore.reported time hcycle).rested outcome
    cases outcome with
    | ok _ => exact hrested
    | error exc => exact hrested

/-- **Step lemma.** -/
theorem course_of_runLoop_begins {rounds : ℕ} (hbefore : Course S before ends .resting)
    (h : (S.runLoop rounds).run.Begins turns) :
    ∃ ends phase, Course S (before ++ turns) ends phase := by
  induction rounds generalizing before ends turns with
  | zero =>
      obtain rfl : turns = [] := h
      rw [List.append_nil]
      exact ⟨ends, .resting, hbefore⟩
  | succ rounds ih =>
      obtain hround | ⟨first, _, second, rfl, hround, hrest⟩ := begins_bind_raising h
      · exact course_of_round_begins hbefore hround
      · obtain ⟨ends, hfirst⟩ := course_of_round hbefore hround
        rw [← List.append_assoc]
        exact ih hfirst hrest

theorem course_of_runLoop {rounds : ℕ} {exc : ε} (hbefore : Course S before ends .resting)
    (h : (S.runLoop rounds).run.Dialogue turns (.error exc)) :
    ∃ ends, Course S (before ++ turns) ends .leaving := by
  induction rounds generalizing before ends turns with
  | zero => cases h.2
  | succ rounds ih =>
      obtain ⟨exc, hround, -⟩ | ⟨first, _, second, rfl, hround, hrest⟩ :=
        dialogue_bind_raising.mp h
      · exact course_of_round hbefore hround
      · obtain ⟨ends, hfirst⟩ := course_of_round hbefore hround
        rw [← List.append_assoc]
        exact ih hfirst hrest

/-- **Run lemma.**  Whatever the scheduler has done since it was started is a course. -/
theorem course_of_begins {rounds : ℕ} (h : (S.run rounds).run.Begins turns) :
    turns = [] ∨ ∃ ends phase, Course S turns ends phase := by
  obtain rfl | ⟨time, rest, rfl, h⟩ := h
  · exact .inl rfl
  refine .inr ?_
  have hstart : Course S [reported .started time] [] .resting := .started time
  obtain hloop | ⟨first, exc, second, rfl, hloop, hend⟩ := begins_tryCatch h
  · exact course_of_runLoop_begins hstart hloop
  obtain ⟨ends, hleaving⟩ := course_of_runLoop hstart hloop
  obtain rfl | ⟨time', rest, rfl, hrest⟩ := hend
  · rw [List.append_nil]
    exact ⟨ends, .leaving, hleaving⟩
  · obtain rfl : rest = [] := hrest
    have hended := hleaving.ended time'
    rw [List.append_assoc] at hended
    exact ⟨ends, .ended, hended⟩

/-! ## Reports -/

/-- The report that is sent in a turn. -/
def reportOf (name : SchedulerName) : LoopTurn E → Option Event
  | .op (.report kind) time => some ⟨name, kind, time⟩
  | _ => none

/-- The reports of a dialogue, as events of the scheduler. -/
def reportsOf (name : SchedulerName) (turns : List (LoopTurn E)) : List Event :=
  turns.filterMap (reportOf name)

/-- The report at the end of a cycle. -/
def CycleEnd.event (name : SchedulerName) (e : CycleEnd) : Event :=
  ⟨name, e.kind, e.time⟩

variable {name : SchedulerName} {phase : Phase}

theorem reportsOf_append (turns turns' : List (LoopTurn E)) :
    reportsOf name (turns ++ turns') = reportsOf name turns ++ reportsOf name turns' :=
  List.filterMap_append

/-- A cycle itself reports nothing. -/
theorem reportsOf_ownCycle (h : S.ownCycle.run.Begins body) : reportsOf name body = [] := by
  have huses : (S.cycle.run.embed (ownEffects E)).Uses
      (fun o => ∃ o', True ∧ (ownEffects E).op o' = o)
      fun call => ∃ call', True ∧ (ownEffects E).call call' = call :=
    (uses_true S.cycle.run).embed
  apply List.filterMap_eq_nil_iff.mpr
  intro turn hturn
  have hpermitted := h.permitted huses turn hturn
  cases turn with
  | await call answer => rfl
  | op o answer =>
      obtain ⟨o', -, rfl⟩ := hpermitted
      rfl

/-- The reports of a loop: its start, the ends of its cycles, and its end. -/
theorem reportsOf_course (name : SchedulerName) (h : Course S turns ends phase) :
    ∃ time stops, reportsOf name turns = ⟨name, .started, time⟩ ::
        (ends.map (CycleEnd.event name) ++ stops.map fun stop => ⟨name, .stopped, stop⟩) ∧
      (stops = [] ↔ phase ≠ .ended) := by
  induction h with
  | started time => exact ⟨time, [], rfl, by simp⟩
  | working _ hcycle ih =>
      obtain ⟨time, stops, hreports, hstops⟩ := ih
      refine ⟨time, stops, ?_, by simpa using hstops⟩
      rw [reportsOf_append, reportsOf_ownCycle hcycle, List.append_nil, hreports]
  | finished e _ hcycle ih =>
      obtain ⟨time, stops, hreports, hstops⟩ := ih
      obtain rfl := hstops.mpr (by simp)
      refine ⟨time, [], ?_, by simp⟩
      rw [reportsOf_append, reportsOf_append, reportsOf_ownCycle hcycle.begins, hreports]
      simp [reportsOf, reportOf, reported, CycleEnd.event]
  | slept outcome _ ih =>
      obtain ⟨time, stops, hreports, hstops⟩ := ih
      obtain rfl := hstops.mpr (by simp)
      refine ⟨time, [], ?_, by cases outcome <;> simp [Phase.after]⟩
      rw [reportsOf_append, hreports]
      exact List.append_nil _
  | raised _ hcycle ih =>
      obtain ⟨time, stops, hreports, hstops⟩ := ih
      refine ⟨time, stops, ?_, by simpa using hstops⟩
      rw [reportsOf_append, reportsOf_ownCycle hcycle.begins, List.append_nil, hreports]
  | ended time' _ ih =>
      obtain ⟨time, stops, hreports, hstops⟩ := ih
      obtain rfl := hstops.mpr (by simp)
      refine ⟨time, [time'], ?_, by simp⟩
      rw [reportsOf_append, hreports]
      simp [reportsOf, reportOf, reported]

/-! ## The endpoint -/

variable {R : Rounding} {now : ℚ}

/-- The loop runs, and the last cycle it has finished was complete and is recent. -/
def Fresh (S : Scheduler E ε) (R : Rounding) (now : ℚ) (turns : List (LoopTurn E)) : Prop :=
  ∃ ends e phase, Course S turns (ends ++ [e]) phase ∧ phase ≠ .ended ∧ e.completed = true ∧
    R.age now e.time < progressThresholdSeconds

theorem CycleEnd.isOutcome (name : SchedulerName) (e : CycleEnd) : IsOutcome (e.event name) := by
  obtain ⟨completed, time⟩ := e
  cases completed with
  | false => exact .inr rfl
  | true => exact .inl rfl

theorem CycleEnd.kind_eq_succeeded (e : CycleEnd) :
    (e.event name).kind = .succeeded ↔ e.completed = true := by
  obtain ⟨completed, time⟩ := e
  cases completed <;> simp [CycleEnd.event, CycleEnd.kind]

/-- What a loop reports after its start. -/
def afterStart (name : SchedulerName) (ends : List CycleEnd) (stops : List ℚ) : List Event :=
  ends.map (CycleEnd.event name) ++ stops.map fun stop => ⟨name, .stopped, stop⟩

theorem afterStart_ne_started (name : SchedulerName) (ends : List CycleEnd) (stops : List ℚ) :
    ∀ e ∈ afterStart name ends stops, e.kind ≠ .started := by
  intro e he
  rcases List.mem_append.mp he with he | he
  · obtain ⟨e', -, rfl⟩ := List.mem_map.mp he
    rcases e'.isOutcome name with hkind | hkind
    · simp [hkind]
    · simp [hkind]
  · obtain ⟨stop, -, rfl⟩ := List.mem_map.mp he
    simp

/-- A loop that has reported no end runs. -/
theorem afterStart_ne_stopped {stops : List ℚ} :
    (∀ e ∈ afterStart name ends stops, e.kind ≠ .stopped) ↔ stops = [] := by
  constructor
  · intro h
    cases stops with
    | nil => rfl
    | cons stop stops =>
        exact absurd rfl (h ⟨name, .stopped, stop⟩ (List.mem_append_right _ List.mem_cons_self))
  · intro h
    subst h
    intro e he
    have hends : e ∈ ends.map (CycleEnd.event name) := by
      simpa [afterStart] using he
    obtain ⟨e', -, rfl⟩ := List.mem_map.mp hends
    rcases e'.isOutcome name with hkind | hkind
    · simp [hkind]
    · simp [hkind]

/-- The last outcome that was reported is that of the last finished cycle. -/
theorem isLast_afterStart {event : Event} :
    History.IsLast IsOutcome (afterStart name ends []) event ↔
      ∃ before e, ends = before ++ [e] ∧ event = e.event name := by
  cases ends using List.reverseRecOn with
  | nil => exact iff_of_false History.isLast_nil (by simp)
  | append_singleton before e =>
      have hsplit : afterStart name (before ++ [e]) [] =
          before.map (CycleEnd.event name) ++ [e.event name] := by
        simp [afterStart]
      rw [hsplit, History.isLast_concat (e.isOutcome name)]
      constructor
      · intro h
        exact ⟨before, e, rfl, h⟩
      · intro h
        obtain ⟨before', e', hends, rfl⟩ := h
        obtain rfl := (List.cons.inj (List.append_inj' hends rfl).2).1
        rfl

/-- The last finished cycle, with its report.  A loop that runs has reported nothing since. -/
theorem Course.exists_last (name : SchedulerName) {ends' : List CycleEnd}
    (h : Course S turns ends' phase) (hphase : phase ≠ .ended) {e : CycleEnd}
    (hends : ends' = ends ++ [e]) :
    ∃ before body after, turns = before ++ (body ++ Health.reported e.kind e.time :: after) ∧
      S.ownCycle.run.Dialogue body (.ok e.completed) ∧ reportsOf name after = [] := by
  -- what a loop does between two reports reports nothing
  have hmore : ∀ {turns later : List (LoopTurn E)}, reportsOf name later = [] →
      (∃ before body after, turns = before ++ (body ++ Health.reported e.kind e.time :: after) ∧
        S.ownCycle.run.Dialogue body (.ok e.completed) ∧ reportsOf name after = []) →
      ∃ before body after,
        turns ++ later = before ++ (body ++ Health.reported e.kind e.time :: after) ∧
          S.ownCycle.run.Dialogue body (.ok e.completed) ∧ reportsOf name after = [] := by
    intro turns later hlater hlast
    obtain ⟨before, body, after, rfl, hcycle, hafter⟩ := hlast
    refine ⟨before, body, after ++ later, by simp, hcycle, ?_⟩
    rw [reportsOf_append, hafter, hlater, List.append_nil]
  induction h generalizing ends with
  | started time => exact absurd hends (by simp)
  | @finished turns body ends' e' _ hcycle ih =>
      obtain rfl : e' = e := (List.cons.inj (List.append_inj' hends rfl).2).1
      exact ⟨turns, body, [], List.append_assoc _ _ _, hcycle, rfl⟩
  | working _ hcycle ih => exact hmore (reportsOf_ownCycle hcycle) (ih (by simp) hends)
  | slept _ _ ih => exact hmore rfl (ih (by simp) hends)
  | raised _ hcycle ih => exact hmore (reportsOf_ownCycle hcycle.begins) (ih (by simp) hends)
  | ended => exact absurd rfl hphase

/-- The state after the reports of a course. -/
theorem report_healthy_iff_of_course (name : SchedulerName) (h : Course S turns ends phase) :
    (report R now ((reportsOf name turns).foldl Progress.record {})).healthy = true ↔
      phase ≠ .ended ∧ ∃ before e, ends = before ++ [e] ∧ e.completed = true ∧
        R.age now e.time < progressThresholdSeconds := by
  obtain ⟨time, stops, hreports, hstops⟩ := reportsOf_course name h
  have hstarted : (reportsOf name turns).foldl Progress.record {} =
      (afterStart name ends stops).foldl Progress.record { running := true } := by
    rw [hreports]
    rfl
  have hreflects := reflects_foldl (afterStart_ne_started name ends stops)
  rw [hstarted, report_healthy_iff, hreflects.running, afterStart_ne_stopped, ← hstops]
  apply and_congr_right
  intro hrunning
  subst hrunning
  constructor
  · intro hfresh
    obtain ⟨time', hsuccess, hage⟩ := hfresh
    obtain ⟨event, hlast, hkind, rfl⟩ := (hreflects.lastSuccess time').mp hsuccess
    obtain ⟨before, e, hends, rfl⟩ := isLast_afterStart.mp hlast
    exact ⟨before, e, hends, e.kind_eq_succeeded.mp hkind, hage⟩
  · intro hfresh
    obtain ⟨before, e, hends, hcompleted, hage⟩ := hfresh
    refine ⟨e.time, (hreflects.lastSuccess e.time).mpr ?_, hage⟩
    exact ⟨e.event name, isLast_afterStart.mpr ⟨before, e, hends, rfl⟩,
      e.kind_eq_succeeded.mpr hcompleted, rfl⟩

/-- The report on one loop, at any point of its run. -/
theorem report_healthy_iff_fresh {rounds : ℕ} (name : SchedulerName)
    (h : (S.run rounds).run.Begins turns) :
    (report R now ((reportsOf name turns).foldl Progress.record {})).healthy = true ↔
      Fresh S R now turns := by
  constructor
  · intro hhealthy
    obtain rfl | ⟨ends, phase, hcourse⟩ := course_of_begins h
    · simp [reportsOf, report, statusOf] at hhealthy
    · obtain ⟨hphase, before, e, rfl, hcompleted, hage⟩ :=
        (report_healthy_iff_of_course name hcourse).mp hhealthy
      exact ⟨before, e, phase, hcourse, hphase, hcompleted, hage⟩
  · intro hfresh
    obtain ⟨before, e, phase, hcourse, hphase, hcompleted, hage⟩ := hfresh
    exact (report_healthy_iff_of_course name hcourse).mpr
      ⟨hphase, before, e, rfl, hcompleted, hage⟩

end MomBot.Health
