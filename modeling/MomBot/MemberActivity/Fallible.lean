import MomBot.Cooperative.Handlers
import MomBot.MemberActivity.Scheduler

/-!
# The auto-kick loop over a database that can fail

`Scheduler.lean` follows the rows of one database, which answers every statement.  Here a
statement may raise as well, and so may every call: this is `_run_loop` with all of its
handlers, each around what it is around in the source.  `sweep_mirrors` connects the two: the
sweep of `Scheduler.lean` is this one over a database that does not fail.
-/

namespace MomBot.MemberActivity.Fallible

open Cooperative Coroutine

/-! ## Effects -/

/-- `utcNow` is the clock and `getMember` the lookup in the guild's cache, which cannot fail. -/
inductive TickOp where
  | isReady
  | utcNow
  | listStale (now : ℤ)
  | getMember (memberId : ℤ)
  | getTracking (guildId memberId : ℤ)
  | removeTracking (guildId memberId : ℤ)

/-- What answers each operation: the database may raise. -/
def TickOp.Res : TickOp → Type
  | isReady | getMember _ => Bool
  | utcNow => ℤ
  | listStale _ => Except Raised (List Activity)
  | getTracking _ _ => Except Raised (Option Activity)
  | removeTracking _ _ => Except Raised Unit

/-- What a tick awaits: Discord, and the sleep after it. -/
inductive TickCall where
  | discord (call : ActivityCall)
  | sleep

/-- Only a cancellation ends a sleep early. -/
inductive Slept where
  | elapsed
  | cancelled

/-- Discord answers by an outcome, the clock by how the sleep ended. -/
def TickCall.Ans : TickCall → Type
  | discord _ => Outcome
  | sleep => Slept

/-- Everything that the loop asks. -/
abbrev tickEffects : Effects :=
  ⟨TickOp, TickOp.Res, TickCall, TickCall.Ans⟩

/-- The loop, or a part of it, that may raise. -/
abbrev TickM := ExceptT Raised (Coroutine tickEffects)

/-- `self.bot.is_ready()`. -/
def isReady : TickM Bool :=
  ExceptT.lift (perform (E := tickEffects) .isReady)

/-- `datetime.now(UTC)`. -/
def utcNow : TickM ℤ :=
  ExceptT.lift (perform (E := tickEffects) .utcNow)

/-- `list_stale`, synchronously. -/
def listStale (now : ℤ) : TickM (List Activity) :=
  ExceptT.mk (perform (E := tickEffects) (.listStale now))

/-- `guild.get_member`: whether the member is in the cache. -/
def getMember (memberId : ℤ) : TickM Bool :=
  ExceptT.lift (perform (E := tickEffects) (.getMember memberId))

/-- `get_tracking`, synchronously. -/
def getTracking (guildId memberId : ℤ) : TickM (Option Activity) :=
  ExceptT.mk (perform (E := tickEffects) (.getTracking guildId memberId))

/-- `remove_tracking`, synchronously. -/
def removeTracking (guildId memberId : ℤ) : TickM Unit :=
  ExceptT.mk (perform (E := tickEffects) (.removeTracking guildId memberId))

/-- A call of Discord, which raises what it was answered. -/
def discord (call : ActivityCall) : TickM Unit :=
  ExceptT.mk (request (E := tickEffects) (.discord call))

/-- `asyncio.sleep(self._tick_seconds)` -/
def sleep : TickM Unit := do
  match ← ExceptT.lift (request (E := tickEffects) .sleep) with
  | .elapsed => return ()
  | .cancelled => throw .cancelled

/-! ## The scheduler -/

/-- A cancellation is raised again, as by the other handlers for `Exception`. -/
def safeRemoveTracking (guildId memberId : ℤ) : TickM Unit :=
  catching Raised.isException (removeTracking guildId memberId) fun _ => return ()

/-- The handlers around `fetch_member`; the result says whether there is a member to go on
with. -/
def fetchFailed (activity : Activity) (exc : Raised) : TickM Bool :=
  if exc = .notFound then do
    safeRemoveTracking activity.guildId activity.memberId
    return false
  else if exc.isHttpException then return false
  -- no handler is left
  else throw exc

/-- The first part of `_process_member`: whether the member was found. -/
def resolveMember (activity : Activity) : TickM Bool := do
  if ← getMember activity.memberId then return true
  else
    catching Raised.isException
      (do
        discord (.fetchMember activity.memberId)
        return true)
      (fetchFailed activity)

/-- The body of the outer `try` of `_process_member`. -/
def notifyAndKick (activity : Activity) : TickM Unit := do
  catching Raised.isException (discord (.send activity.memberId dmMessage)) fun _ => return ()
  let current ← getTracking activity.guildId activity.memberId
  if stateChanged activity current then return ()
  else do
    discord (.kick activity.memberId kickReason)
    safeRemoveTracking activity.guildId activity.memberId

/-- `_process_member`. -/
def processMember (activity : Activity) : TickM Unit := do
  if ← resolveMember activity then
    catching Raised.isException (notifyAndKick activity) fun _ =>
      safeRemoveTracking activity.guildId activity.memberId
  else return ()

/-- The loop over the stale rows. -/
def processMembers : List Activity → TickM Unit
  | [] => return ()
  | activity :: rest => do
      processMember activity
      processMembers rest

/-- `none` when the query fails. -/
def queryStale (now : ℤ) : TickM (Option (List Activity)) :=
  catching Raised.isException
    (do
      let stale ← listStale now
      return some stale)
    fun _ => return none

/-- The sweep of one tick, before it sleeps. -/
def sweepOnce : TickM Unit := do
  if ← isReady then do
    let now ← utcNow
    match ← queryStale now with
    | none => return ()
    | some stale => processMembers stale
  else return ()

/-- One round of the loop: whatever the branch, it ends with the sleep. -/
def tick : TickM Unit := do
  sweepOnce
  sleep

/-- The first rounds of `_run_loop`. -/
def runLoop : ℕ → TickM Unit
  | 0 => return ()
  | ticks + 1 => do
      tick
      runLoop ticks

/-! ## The scheduler over a database that answers -/

/-- The same question, and an answer that is no failure of the database. -/
inductive Unfailing : Turn activityEffects → Turn tickEffects → Prop
  | listStale (now : ℤ) (stale : List Activity) :
      Unfailing (.op (.listStale now) stale) (.op (.listStale now) (.ok stale))
  | getMember (memberId : ℤ) (found : Bool) :
      Unfailing (.op (.getMember memberId) found) (.op (.getMember memberId) found)
  | getTracking (guildId memberId : ℤ) (row : Option Activity) :
      Unfailing (.op (.getTracking guildId memberId) row)
        (.op (.getTracking guildId memberId) (.ok row))
  | removeTracking (guildId memberId : ℤ) :
      Unfailing (.op (.removeTracking guildId memberId) ())
        (.op (.removeTracking guildId memberId) (.ok ()))
  | call (call : ActivityCall) (outcome : Outcome) :
      Unfailing (.await call outcome) (.await (.discord call) outcome)

section Mirrors

variable {activity : Activity}

/-- What is left to do after the kick, in both. -/
theorem afterKick_mirrors (outcome : Outcome) :
    (afterKick activity outcome).Mirrors Unfailing
      (catching Raised.isException (do
        ExceptT.mk (.done outcome)
        safeRemoveTracking activity.guildId activity.memberId) fun _ =>
        safeRemoveTracking activity.guildId activity.memberId).run := by
  have hremove : ∀ _ : Unit, Unfailing
      (.op (.removeTracking activity.guildId activity.memberId) ())
      (.op (.removeTracking activity.guildId activity.memberId) (.ok ())) :=
    fun _ => .removeTracking _ _
  cases outcome with
  | ok _ => exact .op (fun _ => .ok ()) hremove fun _ => .done _
  | error exc =>
      cases exc with
      | cancelled => exact .done _
      | _ => exact .op (fun _ => .ok ()) hremove fun _ => .done _

theorem kickUnless_mirrors (changed : Bool) :
    (kickUnless changed activity).Mirrors Unfailing
      (catching Raised.isException (do
        if changed then return ()
        else do
          discord (.kick activity.memberId kickReason)
          safeRemoveTracking activity.guildId activity.memberId) fun _ =>
        safeRemoveTracking activity.guildId activity.memberId).run := by
  cases changed with
  | true => exact .done _
  | false => exact .await id (fun outcome => .call _ outcome) afterKick_mirrors

theorem afterSend_mirrors (outcome : Outcome) :
    (afterSend activity outcome).Mirrors Unfailing
      (catching Raised.isException (do
        catching Raised.isException (ExceptT.mk (.done outcome)) fun _ => return ()
        let current ← getTracking activity.guildId activity.memberId
        if stateChanged activity current then return ()
        else do
          discord (.kick activity.memberId kickReason)
          safeRemoveTracking activity.guildId activity.memberId) fun _ =>
        safeRemoveTracking activity.guildId activity.memberId).run := by
  have hget : ∀ row, Unfailing (.op (.getTracking activity.guildId activity.memberId) row)
      (.op (.getTracking activity.guildId activity.memberId) (.ok row)) :=
    fun row => .getTracking _ _ row
  cases outcome with
  | ok _ =>
      exact .op (fun row => .ok row) hget fun row =>
        kickUnless_mirrors (stateChanged activity row)
  | error exc =>
      cases exc with
      | cancelled => exact .done _
      | _ =>
          exact .op (fun row => .ok row) hget fun row =>
            kickUnless_mirrors (stateChanged activity row)

theorem notifyAndKick_mirrors :
    (MemberActivity.notifyAndKick activity).Mirrors Unfailing
      (catching Raised.isException (notifyAndKick activity) fun _ =>
        safeRemoveTracking activity.guildId activity.memberId).run :=
  .await id (fun outcome => .call _ outcome) afterSend_mirrors

theorem afterFetch_mirrors (outcome : Outcome) :
    (afterFetch activity outcome).Mirrors Unfailing
      (do
        let found ← catching Raised.isException
          (do
            ExceptT.mk (.done outcome)
            return true)
          (fetchFailed activity)
        if found then
          catching Raised.isException (notifyAndKick activity) fun _ =>
            safeRemoveTracking activity.guildId activity.memberId
        else return () : TickM Unit).run := by
  cases outcome with
  | ok _ => exact notifyAndKick_mirrors
  | error exc =>
      cases exc with
      | notFound =>
          exact .op (fun _ => .ok ()) (fun _ => .removeTracking _ _) fun _ => .done _
      | _ => exact .done _

theorem processMember_mirrors (activity : Activity) :
    (MemberActivity.processMember activity).Mirrors Unfailing (processMember activity).run := by
  refine .op id (fun found => .getMember _ found) fun found => ?_
  cases found with
  | true => exact notifyAndKick_mirrors
  | false => exact .await id (fun outcome => .call _ outcome) afterFetch_mirrors

theorem processMembers_mirrors (stale : List Activity) :
    (MemberActivity.processMembers stale).Mirrors Unfailing (processMembers stale).run := by
  induction stale with
  | nil => exact .done _
  | cons activity rest ih =>
      refine (processMember_mirrors activity).bind fun result => ?_
      cases result with
      | error exc => exact .done _
      | ok _ => exact ih

/-- A sweep of the scheduler, on whichever machine, is a sweep here in which no statement
fails. -/
theorem sweep_mirrors {σ : Type} {M : Machine activityEffects σ} {s s' : σ} {now : ℤ}
    {trace : List (Exchange activityEffects)} {result : Except Raised Unit}
    (h : (MemberActivity.sweep true now).Runs M s trace result s') :
    ∃ turns asked, turns.filterMap Turn.exchange = trace ∧ List.Forall₂ Unfailing turns asked ∧
      sweepOnce.run.Dialogue (.op .isReady true :: .op .utcNow now :: asked) result := by
  have hsweep : (MemberActivity.sweep true now).Mirrors Unfailing (do
      match ← queryStale now with
      | none => return ()
      | some stale => processMembers stale : TickM Unit).run :=
    .op (fun stale => .ok stale) (fun stale => .listStale now stale) processMembers_mirrors
  obtain ⟨turns, hturns, htrace⟩ := h.exists_dialogue
  obtain ⟨asked, hasked, hdialogue⟩ := hsweep.dialogue hturns
  exact ⟨turns, asked, htrace, hasked, true, _, rfl, now, asked, rfl, hdialogue⟩

end Mirrors

end MomBot.MemberActivity.Fallible
