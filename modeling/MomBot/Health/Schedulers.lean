import MomBot.Health.Loops
import MomBot.MemberActivity.Isolation
import MomBot.Reminders.Scheduler

/-!
# The two schedulers behind the endpoint

The cycle of the reminders is complete where the gateway is there and `_process_tick` says so, the
cycle of the sweeps where the stale members could be listed.  The endpoint answers 200 exactly while
both loops run and the last finished cycle of each was complete and is recent
(`progressHandler_ok_iff_fresh`), in whatever order the reports of the two came in.

Of the sweeps this says more than it seems to: a complete sweep has handled every member it listed,
whatever failed on the way, so while the endpoint answers 200 the last sweep that was reported has
(`swept_of_progressHandler_ok`).
-/

namespace MomBot.Health

open Cooperative Coroutine MemberActivity.Fallible Python
open MemberActivity (Activity ActivityCall stateChanged)
open Reminders (Failure SchedulerOp TickEnd schedulerEffects)

/-! ## Reminders -/

/-- What a round asks before its tick.  `touchSentinel` is false where the file cannot be
touched. -/
inductive ReminderOp where
  | own (o : SchedulerOp)
  | recordHeartbeat
  | touchSentinel
  | isReady
  | utcNow

/-- What `own` asks is answered as in `Store.lean`. -/
def ReminderOp.Res : ReminderOp → Type
  | own o => o.Res
  | recordHeartbeat => Unit
  | touchSentinel | isReady => Bool
  | utcNow => Datetime

/-- Everything that a round of the reminder loop asks. -/
abbrev reminderEffects : Effects :=
  ⟨ReminderOp, ReminderOp.Res, schedulerEffects.Call, schedulerEffects.Ans⟩

/-- A tick asks its questions through the round. -/
def ticks : Embedding schedulerEffects reminderEffects where
  op := .own
  res _ r := r
  call := id
  ans _ a := a

/-- A round, or a part of one, that may raise. -/
abbrev ReminderM := ExceptT Failure (Coroutine reminderEffects)

/-- An operation of a round. -/
def askReminder (o : ReminderOp) : ReminderM o.Res :=
  ExceptT.lift (perform (E := reminderEffects) o)

/-- How a tick is reported; only a cancellation leaves the loop. -/
def reportTick : TickEnd → ReminderM Bool
  | .succeeded => return true
  | .failed => return false
  | .cancelled => throw (.raised .cancelled)

/-- A round of `_run_loop` up to its report. -/
def reminderCycle (guild : Bool) : ReminderM Bool := do
  let _ ← askReminder .recordHeartbeat
  let _ ← askReminder .touchSentinel
  let ready : Bool ← askReminder .isReady
  if ready then do
    let nowUtc ← askReminder .utcNow
    let ended ← ExceptT.lift ((Reminders.tick ⟨true, nowUtc, guild⟩).embed ticks)
    reportTick ended
  else return false

/-- `ReminderScheduler`. -/
def reminders (guild : Bool) : Scheduler reminderEffects Failure :=
  ⟨reminderCycle guild, .raised⟩

/-! ## Sweeps -/

/-- A round of `_run_loop` up to its report. -/
def sweepCycle : TickM Bool := do
  if ← isReady then do
    let now ← utcNow
    match ← queryStale now with
    | none => return false
    | some stale => do
        processMembers stale
        return true
  else return false

/-- `AutoKickScheduler`. -/
def autoKick : Scheduler tickEffects Raised :=
  ⟨sweepCycle, id⟩

/-! ## The endpoint -/

variable {R : Rounding} {now : ℚ} {guild : Bool} {rounds rounds' : ℕ}
  {reminderTurns : List (LoopTurn reminderEffects)} {sweepTurns : List (LoopTurn tickEffects)}
  {history : List Event}

/-- Whatever the two loops have done so far, and in whatever order they have reported it. -/
theorem progressHandler_ok_iff_fresh
    (hreminders : ((reminders guild).run rounds).run.Begins reminderTurns)
    (hsweeps : (autoKick.run rounds').run.Begins sweepTurns)
    (hhistory : eventsOf .reminders history = reportsOf .reminders reminderTurns)
    (hhistory' : eventsOf .autoKick history = reportsOf .autoKick sweepTurns) :
    (progressHandler R now (run history)).2 = 200 ↔
      Fresh (reminders guild) R now reminderTurns ∧ Fresh autoKick R now sweepTurns := by
  rw [progressHandler_ok_iff, ← report_healthy_iff_fresh .reminders hreminders,
    ← report_healthy_iff_fresh .autoKick hsweeps, ← hhistory, ← hhistory', ← run_eq_foldl,
    ← run_eq_foldl]
  constructor
  · intro h
    exact ⟨h .reminders, h .autoKick⟩
  · intro h name
    cases name with
    | reminders => exact h.1
    | autoKick => exact h.2

/-! ## Complete sweeps -/

/-- A cancellation passes: it is what the program comes to. -/
def Transparent {α : Type} (p : TickM α) : Prop :=
  ∀ turns result, p.run.Dialogue turns result → Uncancelled turns ∨ result = .error .cancelled

section Transparent

variable {α β : Type}

theorem transparent_pure (value : α) : Transparent (pure value : TickM α) := by
  intro turns result h
  obtain ⟨rfl, -⟩ := dialogue_pure_raising.mp h
  exact .inl uncancelled_nil

theorem transparent_throw (exc : Raised) : Transparent (throw exc : TickM α) := by
  intro turns result h
  obtain ⟨rfl, -⟩ := dialogue_throw.mp h
  exact .inl uncancelled_nil

theorem Transparent.bind {p : TickM α} {f : α → TickM β} (hp : Transparent p)
    (hf : ∀ value, Transparent (f value)) : Transparent (p >>= f) := by
  intro turns result h
  obtain ⟨exc, hfirst, rfl⟩ | ⟨first, v, second, rfl, hfirst, hsecond⟩ :=
    dialogue_bind_raising.mp h
  · rcases hp turns _ hfirst with hturns | herror
    · exact .inl hturns
    · exact .inr (congrArg _ (Except.error.inj herror))
  · rcases hp first _ hfirst with hturns | herror
    · rcases hf v second result hsecond with hturns' | herror
      · exact .inl (uncancelled_append.mpr ⟨hturns, hturns'⟩)
      · exact .inr herror
    · cases herror

/-- No handler of the loop is for cancellations. -/
theorem Transparent.isException {body : TickM α} {handle : Raised → TickM α}
    (hbody : Transparent body) (hhandle : ∀ exc, Transparent (handle exc)) :
    Transparent (catching Raised.isException body handle) := by
  intro turns result h
  obtain ⟨v, hok, rfl⟩ | ⟨first, exc, second, rfl, hraised, hrest⟩ := dialogue_tryCatch.mp h
  · rcases hbody turns _ hok with hturns | herror
    · exact .inl hturns
    · cases herror
  · rcases hbody first _ hraised with hturns | herror
    · split at hrest
      next =>
        rcases hhandle exc second result hrest with hturns' | herror
        · exact .inl (uncancelled_append.mpr ⟨hturns, hturns'⟩)
        · exact .inr herror
      next =>
        obtain ⟨rfl, -⟩ := dialogue_throw.mp hrest
        exact .inl (by rwa [List.append_nil])
    · obtain rfl := Except.error.inj herror
      obtain ⟨rfl, rfl⟩ := dialogue_throw.mp hrest
      exact .inr rfl

/-- A question by itself. -/
theorem transparent_of_single {p : TickM α} (turn : Except Raised α → TickTurn)
    (hturn : ∀ turns answer, p.run.Dialogue turns answer → turns = [turn answer])
    (hraised : ∀ answer, raised (turn answer) = exceptionOf answer) : Transparent p := by
  intro turns answer h
  obtain rfl := hturn turns answer h
  cases answer with
  | ok v => exact .inl (uncancelled_cons.mpr ⟨by simp [hraised, exceptionOf], uncancelled_nil⟩)
  | error exc =>
      by_cases hexc : exc = .cancelled
      · exact .inr (congrArg _ hexc)
      · exact .inl (uncancelled_cons.mpr ⟨by simp [hraised, exceptionOf, hexc], uncancelled_nil⟩)

theorem transparent_discord (call : ActivityCall) : Transparent (discord call) :=
  transparent_of_single (fun outcome => .await (.discord call) outcome)
    (fun _ _ h => dialogue_discord.mp h) fun _ => rfl

theorem transparent_listStale (now : ℤ) : Transparent (listStale now) :=
  transparent_of_single (fun answer => .op (.listStale now) answer)
    (fun _ _ h => dialogue_listStale.mp h) fun _ => rfl

theorem transparent_getTracking (guildId memberId : ℤ) :
    Transparent (getTracking guildId memberId) :=
  transparent_of_single (fun answer => .op (.getTracking guildId memberId) answer)
    (fun _ _ h => dialogue_getTracking.mp h) fun _ => rfl

theorem transparent_removeTracking (guildId memberId : ℤ) :
    Transparent (removeTracking guildId memberId) :=
  transparent_of_single (fun answer => .op (.removeTracking guildId memberId) answer)
    (fun _ _ h => dialogue_removeTracking.mp h) fun _ => rfl

theorem transparent_safeRemoveTracking (guildId memberId : ℤ) :
    Transparent (safeRemoveTracking guildId memberId) :=
  (transparent_removeTracking guildId memberId).isException fun _ => transparent_pure ()

/-- What is answered by the process itself cannot be a cancellation. -/
theorem transparent_lift {o : TickOp} {f : o.Res → TickM β}
    (hraised : ∀ answer, raised (E := tickEffects) (.op o answer) = none)
    (hf : ∀ answer, Transparent (f answer)) :
    Transparent (ExceptT.lift (perform (E := tickEffects) o) >>= f) := by
  intro turns result h
  obtain ⟨answer, rest, rfl, hrest⟩ := h
  rcases hf answer rest result hrest with hturns | herror
  · exact .inl (uncancelled_cons.mpr ⟨by simp [hraised], hturns⟩)
  · exact .inr herror

theorem transparent_fetchFailed (activity : Activity) (exc : Raised) :
    Transparent (fetchFailed activity exc) := by
  unfold fetchFailed
  split
  next => exact (transparent_safeRemoveTracking _ _).bind fun _ => transparent_pure false
  next =>
    split
    next => exact transparent_pure false
    next => exact transparent_throw exc

theorem transparent_resolveMember (activity : Activity) : Transparent (resolveMember activity) := by
  refine transparent_lift (fun _ => rfl) fun found => ?_
  cases found with
  | true => exact transparent_pure true
  | false =>
      exact ((transparent_discord _).bind fun _ => transparent_pure true).isException
        (transparent_fetchFailed activity)

theorem transparent_notifyAndKick (activity : Activity) :
    Transparent (notifyAndKick activity) := by
  apply ((transparent_discord _).isException fun _ => transparent_pure ()).bind
  intro _
  apply (transparent_getTracking _ _).bind
  intro current
  cases stateChanged activity current with
  | true => exact transparent_pure ()
  | false => exact (transparent_discord _).bind fun _ => transparent_safeRemoveTracking _ _

theorem transparent_processMember (activity : Activity) : Transparent (processMember activity) := by
  apply (transparent_resolveMember activity).bind
  intro found
  cases found with
  | true =>
      exact (transparent_notifyAndKick activity).isException fun _ =>
        transparent_safeRemoveTracking _ _
  | false => exact transparent_pure ()

theorem transparent_processMembers (stale : List Activity) :
    Transparent (processMembers stale) := by
  induction stale with
  | nil => exact transparent_pure ()
  | cons activity rest ih => exact (transparent_processMember activity).bind fun _ => ih

end Transparent

/-- A sweep that is complete has listed the stale members and handled each of them once. -/
theorem swept_of_completed {turns : List TickTurn}
    (h : sweepCycle.run.Dialogue turns (.ok true)) :
    ∃ listedAt stale members, Swept stale members ∧
      turns = .op .isReady true :: .op .utcNow listedAt ::
        .op (.listStale listedAt) (.ok stale) :: members := by
  obtain ⟨ready, rest, rfl, hready⟩ := dialogue_isReady.mp h
  cases ready with
  | false =>
      obtain ⟨-, hok⟩ := dialogue_pure_raising.mp hready
      cases hok
  | true =>
      obtain ⟨listedAt, rest, rfl, hnow⟩ := dialogue_utcNow.mp hready
      obtain ⟨_, -, hok⟩ | ⟨first, found, members, rfl, hquery, hfound⟩ :=
        dialogue_bind_raising.mp hnow
      · cases hok
      cases found with
      | none =>
          obtain ⟨-, hok⟩ := dialogue_pure_raising.mp hfound
          cases hok
      | some stale =>
          have hlisted : first = [.op (.listStale listedAt) (.ok stale)] := by
            have htransparent : Transparent (queryStale listedAt) :=
              ((transparent_listStale listedAt).bind fun stale =>
                transparent_pure (some stale)).isException fun _ => transparent_pure none
            obtain ⟨listed, rfl, hok⟩ := queryStale_cases hquery
              ((htransparent first _ hquery).resolve_right (by simp))
            cases listed with
            | error exc => cases hok
            | ok stale' =>
                have hstale : some stale = some stale' := Except.ok.inj hok
                obtain rfl := Option.some.inj hstale
                rfl
          subst hlisted
          have hmembers : (processMembers stale).run.Dialogue members (.ok ()) := by
            obtain ⟨_, -, hok⟩ | ⟨first, _, second, rfl, hmembers, hend⟩ :=
              dialogue_bind_raising.mp hfound
            · cases hok
            · obtain ⟨rfl, -⟩ := dialogue_pure_raising.mp hend
              rwa [List.append_nil]
          have huncancelled : Uncancelled members :=
            (transparent_processMembers stale members _ hmembers).resolve_right (by simp)
          obtain ⟨-, hswept⟩ | ⟨⟨_, herror⟩, -⟩ := processMembers_cases hmembers huncancelled
          · exact ⟨listedAt, stale, members, hswept, rfl⟩
          · cases herror

/-- While the endpoint answers 200, the last sweep that was reported is recent, and it has handled
each member that it listed once: since its report there was no other. -/
theorem swept_of_progressHandler_ok (hsweeps : (autoKick.run rounds').run.Begins sweepTurns)
    (hhistory' : eventsOf .autoKick history = reportsOf .autoKick sweepTurns)
    (hok : (progressHandler R now (run history)).2 = 200) :
    ∃ before body after time listedAt stale members,
      sweepTurns = before ++ (body ++ reported .succeeded time :: after) ∧
        reportsOf .autoKick after = [] ∧
        R.age now time < progressThresholdSeconds ∧ Swept stale members ∧
        List.Forall₂ (ownEffects tickEffects).Same (.op .isReady true :: .op .utcNow listedAt ::
          .op (.listStale listedAt) (.ok stale) :: members) body := by
  have hhealthy := (progressHandler_ok_iff R now (run history)).mp hok .autoKick
  rw [run_eq_foldl, hhistory', report_healthy_iff_fresh .autoKick hsweeps] at hhealthy
  obtain ⟨ends, e, phase, hcourse, hphase, hcompleted, hage⟩ := hhealthy
  obtain ⟨before, body, after, rfl, hcycle, hafter⟩ := hcourse.exists_last .autoKick hphase rfl
  rw [hcompleted] at hcycle
  obtain ⟨turns, hsame, hdialogue⟩ := dialogue_embed hcycle
  obtain ⟨listedAt, stale, members, hswept, rfl⟩ := swept_of_completed hdialogue
  have hkind : e.kind = .succeeded := if_pos hcompleted
  rw [hkind]
  exact ⟨before, body, after, e.time, listedAt, stale, members, rfl, hafter, hage, hswept, hsame⟩

/-! ### Two quiet loops -/

/-- Noon on 2 June 2027. -/
def quietNoon : Datetime :=
  ⟨⟨740134, by decide, by decide⟩, ⟨12 * 3600 * 1000000, by decide⟩⟩

/-- The reminder loop on a noon with nothing to remind of. -/
def quietReminders : List (LoopTurn reminderEffects) :=
  [reported .started 0, .op (.own .recordHeartbeat) (), .op (.own .touchSentinel) true,
    .op (.own .isReady) true, .op (.own .utcNow) quietNoon,
    .op (.own (.own
      (.selectEligible quietNoon.date.weekday quietNoon.time.truncate quietNoon.date))) [],
    .op (.own (.own (.selectCandidates quietNoon.date))) [], reported .succeeded 1]

/-- The kick loop with nobody to remove. -/
def quietSweeps : List (LoopTurn tickEffects) :=
  [reported .started 2, .op (.own .isReady) true, .op (.own .utcNow) (0 : ℤ),
    .op (.own (.listStale 0)) (.ok []), reported .succeeded 3, slept (.ok ())]

theorem quietSweeps_begins : (autoKick.run 1).run.Begins quietSweeps :=
  .inr ⟨_, _, rfl, .inr ⟨_, _, rfl, .inr ⟨_, _, rfl, .inr ⟨_, _, rfl,
    .inr ⟨_, _, rfl, .inr ⟨_, _, rfl, rfl⟩⟩⟩⟩⟩⟩

theorem quietReminders_begins : ((reminders true).run 1).run.Begins quietReminders :=
  .inr ⟨_, _, rfl, .inr ⟨_, _, rfl, .inr ⟨_, _, rfl, .inr ⟨_, _, rfl, .inr ⟨_, _, rfl,
    .inr ⟨_, _, rfl, .inr ⟨_, _, rfl, .inr ⟨_, _, rfl, .inl rfl⟩⟩⟩⟩⟩⟩⟩⟩

/-- What both loops have reported. -/
def quietHistory : List Event :=
  reportsOf .reminders quietReminders ++ reportsOf .autoKick quietSweeps

theorem progressHandler_ok_iff_fresh_quiet :
    (progressHandler .exact 100 (run quietHistory)).2 = 200 ↔
      Fresh (reminders true) .exact 100 quietReminders ∧ Fresh autoKick .exact 100 quietSweeps :=
  progressHandler_ok_iff_fresh quietReminders_begins quietSweeps_begins rfl rfl

theorem swept_of_progressHandler_ok_quiet : ∃ before body after time listedAt stale members,
    quietSweeps = before ++ (body ++ reported .succeeded time :: after) ∧
      reportsOf .autoKick after = [] ∧
      Rounding.exact.age 100 time < progressThresholdSeconds ∧ Swept stale members ∧
      List.Forall₂ (ownEffects tickEffects).Same (.op .isReady true :: .op .utcNow listedAt ::
        .op (.listStale listedAt) (.ok stale) :: members) body := by
  have hok : (progressHandler .exact 100 (run quietHistory)).2 = 200 := by
    decide +kernel
  exact swept_of_progressHandler_ok quietSweeps_begins rfl hok

end MomBot.Health
