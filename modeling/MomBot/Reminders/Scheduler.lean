import MomBot.Reminders.Calendar
import MomBot.Reminders.Store
import MomBot.Python.Int

/-!
# One tick of `ReminderScheduler`

The functions of the scheduler as coroutines, under the source's names.  An
exception that leaves a function is an `.error` of its result.  `tick` is one round
of `_run_loop`, started with what `is_ready()` and `now()` answered; an instance of
the scheduler performs one tick after the other.
-/

namespace MomBot.Reminders

open Cooperative Python MemberNotifications

/-- A tick, or a part of one. -/
abbrev SchedulerM := Coroutine schedulerEffects

/-- What can leave a function of the scheduler.  `objectDeleted` is a reload whose row is
gone, `overflow` comes from date arithmetic and `valueError` from a cadence or a
Discord id that cannot be read. -/
inductive Failure where
  | raised (exc : Raised)
  | objectDeleted
  | overflow
  | valueError
  deriving DecidableEq, Repr

/-- `except asyncio.CancelledError`. -/
def Failure.isCancelled : Failure → Bool
  | raised exc => exc.isCancelled
  | _ => false

/-- The query for the reminders that are due. -/
def selectEligible (todayWeekday : ℕ) (nowTime : Time) (todayDate : Date) :
    SchedulerM (List Reminder) :=
  .op (.selectEligible todayWeekday nowTime todayDate) .done

/-- The query for the `tank_week_end` reminders that were sent today. -/
def selectSentTankEnd (todayWeekday : ℕ) (todayDate : Date) (loaded : List Reminder) :
    SchedulerM (List Reminder) :=
  .op (.selectSentTankEnd todayWeekday todayDate loaded) .done

/-- `session.refresh(reminder)`. -/
def refresh (reminderId : ℤ) : SchedulerM (Option Reminder) :=
  .op (.refresh reminderId) .done

/-- The query for the notifications that may be due. -/
def selectCandidates (today : Date) : SchedulerM (List MemberNotification) :=
  .op (.selectCandidates today) .done

/-- `self._bot.get_channel`: whether the channel is in the cache. -/
def getChannel (slot : DaySlot) (channelId : ℤ) : SchedulerM Bool :=
  .await (.getChannel slot channelId) .done

/-- `channel.send`. -/
def channelSend (slot : DaySlot) (channelId : ℤ) (message : String) (mentionRoles : Bool) :
    SchedulerM Outcome :=
  .await (.channelSend slot channelId message mentionRoles) .done

/-- `guild.get_member`: whether the member is in the cache. -/
def getMember (slot : DaySlot) (discordId : ℤ) : SchedulerM Bool :=
  .await (.getMember slot discordId) .done

/-- `guild.fetch_member`. -/
def fetchMember (slot : DaySlot) (discordId : ℤ) : SchedulerM Outcome :=
  .await (.fetchMember slot discordId) .done

/-- `member.send`. -/
def memberSend (slot : DaySlot) (discordId : ℤ) (message : String) : SchedulerM Outcome :=
  .await (.memberSend slot discordId message) .done

/-! ## The sent stores -/

/-- `mark_sent` of either store. -/
def markSent (slot : DaySlot) : SchedulerM Bool :=
  .op (.insertSent slot) .done

/-- `unmark` of either store: find the row by its slot, then delete it by its id. -/
def unmark (slot : DaySlot) : SchedulerM Unit :=
  .op (.firstSent slot) fun deleted =>
    match deleted with
    | none => .done ()
    | some row => .op (.deleteSent slot.store row.id) .done

namespace ReminderSentStore

/-- `ReminderSentStore.mark_sent`. -/
def markSent (reminderId : ℤ) (fireDateUtc : Date) : SchedulerM Bool :=
  Reminders.markSent ⟨.reminder, reminderId, fireDateUtc⟩

/-- `ReminderSentStore.unmark`. -/
def unmark (reminderId : ℤ) (fireDateUtc : Date) : SchedulerM Unit :=
  Reminders.unmark ⟨.reminder, reminderId, fireDateUtc⟩

end ReminderSentStore

namespace MemberNotificationSentStore

/-- `MemberNotificationSentStore.mark_sent`. -/
def markSent (memberNotificationId : ℤ) (occurrenceDateUtc : Date) : SchedulerM Bool :=
  Reminders.markSent ⟨.memberNotification, memberNotificationId, occurrenceDateUtc⟩

/-- `MemberNotificationSentStore.unmark`. -/
def unmark (memberNotificationId : ℤ) (occurrenceDateUtc : Date) : SchedulerM Unit :=
  Reminders.unmark ⟨.memberNotification, memberNotificationId, occurrenceDateUtc⟩

end MemberNotificationSentStore

/-! ## Sends -/

/-- The failures after which the row is deleted, so that the next tick retries. -/
def isTransient : Raised → Bool
  | .timeout | .rateLimited | .clientError => true
  | .httpException status => 500 ≤ status
  | _ => false

/-- The handlers around a send, which are the same for channels and members: a transient
failure deletes the row and is raised again, any other `Exception` is dropped. -/
def afterSend (unmark : SchedulerM Unit) : Outcome → SchedulerM (Except Failure Unit)
  | .ok () => return .ok ()
  | .error exc =>
      if isTransient exc then do
        unmark
        return .error (.raised exc)
      -- a cancellation is no `Exception`, so no handler sees it
      else if exc.isCancelled then return .error (.raised exc)
      else return .ok ()

/-- The text of a channel message, with the mention of a role. -/
def messageOf (r : Reminder) : String :=
  match r.roleMentionId with
  | none => r.messageTemplate
  | some role => "<@&" ++ toString role ++ "> " ++ r.messageTemplate

/-- `_handle_reminder` once the slot is claimed. -/
def sendReminder (reminder : Reminder) (todayDate : Date) : SchedulerM (Except Failure Unit) := do
  let slot : DaySlot := ⟨.reminder, reminder.id, todayDate⟩
  if ← getChannel slot reminder.channelId then
    let outcome ← channelSend slot reminder.channelId (messageOf reminder)
      reminder.roleMentionId.isSome
    afterSend (ReminderSentStore.unmark reminder.id todayDate) outcome
  else
    return .ok ()

/-- `_handle_reminder` once its own row is loaded.  The commit or the rollback of
`mark_sent` expires the row, so what follows reads it again. -/
def claimReminder (reminder : Reminder) (todayDate : Date) :
    SchedulerM (Except Failure Unit) := do
  let inserted ← ReminderSentStore.markSent reminder.id todayDate
  match ← refresh reminder.id with
  | none => return .error .objectDeleted
  | some reminder => if inserted then sendReminder reminder todayDate else return .ok ()

/-- `_handle_reminder`.  `expired` tells whether the session has committed or rolled
back since the row was loaded, so that reading `reminder.id` loads it again. -/
def handleReminder (reminder : Reminder) (expired : Bool) (todayDate : Date) :
    SchedulerM (Except Failure Unit) :=
  if expired then do
    match ← refresh reminder.id with
    | none => return .error .objectDeleted
    | some reminder => claimReminder reminder todayDate
  else claimReminder reminder todayDate

/-- The DM of `_handle_member_notification`, once the member is there. -/
def sendNotification (notif : MemberNotification) (discordId : ℤ) (todayDate : Date) :
    SchedulerM (Except Failure Unit) := do
  let outcome ← memberSend ⟨.memberNotification, notif.id, todayDate⟩ discordId
    notif.messageTemplate
  afterSend (MemberNotificationSentStore.unmark notif.id todayDate) outcome

/-- The handlers around `fetch_member`.  Unlike those around a send they do not catch an
unexpected exception. -/
def afterFetch (notif : MemberNotification) (discordId : ℤ) (todayDate : Date) :
    Outcome → SchedulerM (Except Failure Unit)
  | .ok () => sendNotification notif discordId todayDate
  | .error exc =>
      if isTransient exc then do
        MemberNotificationSentStore.unmark notif.id todayDate
        return .error (.raised exc)
      -- the member is not found or not to be fetched: the slot stays claimed
      else if exc.isHttpException then return .ok ()
      else return .error (.raised exc)

/-- `_handle_member_notification` once the slot is claimed. -/
def resolveMember (notif : MemberNotification) (todayDate : Date) :
    SchedulerM (Except Failure Unit) :=
  match int notif.targetDiscordId with
  -- raised after the claim, so the slot stays claimed
  | none => return .error .valueError
  | some discordId => do
      let slot : DaySlot := ⟨.memberNotification, notif.id, todayDate⟩
      if ← getMember slot discordId then
        sendNotification notif discordId todayDate
      else
        let outcome ← fetchMember slot discordId
        afterFetch notif discordId todayDate outcome

/-- `_handle_member_notification`. -/
def handleMemberNotification (notif : MemberNotification) (todayDate : Date) :
    SchedulerM (Except Failure Unit) := do
  if ← MemberNotificationSentStore.markSent notif.id todayDate then
    resolveMember notif todayDate
  else
    return .ok ()

/-! ## The channel branch -/

/-- The calendar condition of a row; rows with an unknown condition never fire. -/
def conditionHolds (todayDate : Date) : Option MonthCondition → Except Failure Bool
  | none => .ok true
  | some .tankWeekHeadsup =>
      match isTankWeekHeadsupDate todayDate with
      | none => .error .overflow
      | some holds => .ok holds
  | some .tankWeekEnd => .ok (isEndOfTankDate todayDate)
  | some .siege48hHeadsup => .ok (isSiege48hHeadsupDate todayDate)
  | some .siege24hHeadsup => .ok (isSiege24hHeadsupDate todayDate)
  | some (.other _) => .ok false

/-- Step 2 of `_process_tick`, the rows whose calendar condition holds. -/
def keptRows (todayDate : Date) : List Reminder → Except Failure (List Reminder)
  | [] => .ok []
  | r :: rest =>
      match conditionHolds todayDate r.monthCondition with
      | .error failure => .error failure
      | .ok holds =>
          match keptRows todayDate rest with
          | .error failure => .error failure
          | .ok kept => .ok (if holds then r :: kept else kept)

/-- `tank_end_slots`: the slots of the tank-week-end rows that are kept, and of those that
are sent already. -/
def tankEndSlots (kept alreadySent : List Reminder) : List (ℤ × ℕ × Time) :=
  (kept.filter fun r => r.monthCondition = some .tankWeekEnd).map Reminder.slot ++
    alreadySent.map Reminder.slot

/-- Step 3 of `_process_tick`, the rows that no tank-week-end row replaces. -/
def survivors (kept alreadySent : List Reminder) : List Reminder :=
  if (tankEndSlots kept alreadySent).isEmpty then kept
  else kept.filter fun r =>
    ¬ (r.monthCondition = none ∧ r.slot ∈ tankEndSlots kept alreadySent)

theorem mem_keptRows {todayDate : Date} {rows kept : List Reminder} {r : Reminder}
    (h : keptRows todayDate rows = .ok kept) :
    r ∈ kept ↔ r ∈ rows ∧ conditionHolds todayDate r.monthCondition = .ok true := by
  induction rows generalizing kept with
  | nil =>
      obtain rfl := Except.ok.inj h
      simp
  | cons first rest ih =>
      simp only [keptRows] at h
      split at h
      next => cases h
      next holds hholds =>
        split at h
        next => cases h
        next kept' hkept =>
          obtain rfl := Except.ok.inj h
          have hrest := ih hkept
          by_cases hr : r = first
          · subst hr
            cases holds <;> simp [hholds, hrest]
          · cases holds <;> simp [hr, hrest]

theorem mem_survivors {kept alreadySent : List Reminder} {r : Reminder} :
    r ∈ survivors kept alreadySent ↔
      r ∈ kept ∧ ¬ (r.monthCondition = none ∧ r.slot ∈ tankEndSlots kept alreadySent) := by
  unfold survivors
  split
  next hempty => simp [List.isEmpty_iff.mp hempty]
  next => simp only [List.mem_filter, decide_eq_true_eq]

theorem mem_tankEndSlots {kept alreadySent : List Reminder} {slot : ℤ × ℕ × Time} :
    slot ∈ tankEndSlots kept alreadySent ↔
      (∃ r ∈ kept, r.monthCondition = some .tankWeekEnd ∧ r.slot = slot) ∨
        ∃ r ∈ alreadySent, r.slot = slot := by
  simp [tankEndSlots, and_assoc]

/-- Step 4 of `_process_tick`.  The first failure ends the loop. -/
def handleReminders (todayDate : Date) (expired : Bool) :
    List Reminder → SchedulerM (Except Failure Unit)
  | [] => return .ok ()
  | r :: rest => do
      match ← handleReminder r expired todayDate with
      -- the rows after it wait for the next tick
      | .error failure => return .error failure
      | .ok () => handleReminders todayDate true rest

/-! ## The DM branch -/

/-- The loop of `list_due` over the candidate rows. -/
def dueRows (today : Date) (nowTime : Time) :
    List MemberNotification → Except Failure (List MemberNotification)
  | [] => .ok []
  | row :: rest =>
      -- the time of day comes first: a row whose time is ahead cannot raise
      if nowTime.microseconds < row.fireTimeUtc.microseconds then dueRows today nowTime rest
      else
        match isOccurrenceDate row.anchorDateUtc row.cadence today with
        | none => .error .valueError
        | some occurs =>
            match dueRows today nowTime rest with
            | .error failure => .error failure
            | .ok due => .ok (if occurs then row :: due else due)

theorem mem_dueRows {today : Date} {nowTime : Time} {rows due : List MemberNotification}
    {n : MemberNotification} (h : dueRows today nowTime rows = .ok due) :
    n ∈ due ↔ n ∈ rows ∧ n.fireTimeUtc.microseconds ≤ nowTime.microseconds ∧
      isOccurrenceDate n.anchorDateUtc n.cadence today = some true := by
  induction rows generalizing due with
  | nil =>
      obtain rfl := Except.ok.inj h
      simp
  | cons first rest ih =>
      simp only [dueRows] at h
      split at h
      next hlate =>
        have hrest := ih h
        by_cases hn : n = first
        · subst hn
          simp only [hrest, List.mem_cons, true_or, true_and]
          constructor
          · exact fun hdue => hdue.2
          · exact fun hdue => absurd hdue.1 (by omega)
        · simp [hn, hrest]
      next hdue =>
        split at h
        next => cases h
        next occurs hoccurs =>
          split at h
          next => cases h
          next due' hrows =>
            obtain rfl := Except.ok.inj h
            have hrest := ih hrows
            have htime : first.fireTimeUtc.microseconds ≤ nowTime.microseconds := by omega
            by_cases hn : n = first
            · subst hn
              cases occurs <;> simp [hoccurs, hrest, htime]
            · cases occurs <;> simp [hn, hrest]

/-- `list_due`. -/
def listDue (today : Date) (nowTime : Time) :
    SchedulerM (Except Failure (List MemberNotification)) := do
  let candidates ← selectCandidates today
  return dueRows today nowTime candidates

/-- The loop of step 5.  A failure is remembered in `completed` and the loop goes on;
only a cancellation ends it. -/
def handleNotifications (todayDate : Date) (completed : Bool) :
    List MemberNotification → SchedulerM (Except Failure Bool)
  | [] => return .ok completed
  | notif :: rest => do
      match ← handleMemberNotification notif todayDate with
      | .ok () => handleNotifications todayDate completed rest
      | .error failure =>
          if failure.isCancelled then return .error failure
          else handleNotifications todayDate false rest

/-- Step 5 of `_process_tick`; `guild` tells whether the instance has a guild. -/
def dmBranch (guild : Bool) (todayDate : Date) (nowTime : Time) :
    SchedulerM (Except Failure Bool) :=
  if guild then do
    match ← listDue todayDate nowTime with
    | .error failure => return .error failure
    | .ok due => handleNotifications todayDate true due
  else return .ok true

/-! ## The tick -/

/-- `_process_tick` once the suppressing rows are known. -/
def afterSuppression (guild : Bool) (nowTime : Time) (todayDate : Date)
    (kept alreadySent : List Reminder) : SchedulerM (Except Failure Bool) := do
  match ← handleReminders todayDate false (survivors kept alreadySent) with
  | .error failure => return .error failure
  | .ok () => dmBranch guild todayDate nowTime

/-- `_process_tick` once its first query is answered. -/
def afterEligible (guild : Bool) (todayWeekday : ℕ) (nowTime : Time) (todayDate : Date)
    (eligible : List Reminder) : SchedulerM (Except Failure Bool) :=
  match keptRows todayDate eligible with
  | .error failure => return .error failure
  | .ok kept =>
      if isEndOfTankDate todayDate then do
        let alreadySentTankEnd ← selectSentTankEnd todayWeekday todayDate eligible
        afterSuppression guild nowTime todayDate kept alreadySentTankEnd
      else afterSuppression guild nowTime todayDate kept []

/-- `_process_tick`. -/
def processTick (guild : Bool) (todayWeekday : ℕ) (nowTime : Time) (todayDate : Date) :
    SchedulerM (Except Failure Bool) := do
  let eligible ← selectEligible todayWeekday nowTime todayDate
  afterEligible guild todayWeekday nowTime todayDate eligible

/-- What one round of `_run_loop` starts with.  `guild` tells whether the instance has
a guild. -/
structure Tick where
  ready : Bool
  nowUtc : Datetime
  guild : Bool
  deriving DecidableEq, Repr

/-- What one round of `_run_loop` reports. -/
inductive TickEnd where
  | succeeded
  | failed
  | cancelled
  deriving DecidableEq, Repr

/-- The handlers around `_process_tick`. -/
def tickEnd : Except Failure Bool → TickEnd
  | .ok true => .succeeded
  | .ok false => .failed
  | .error failure => if failure.isCancelled then .cancelled else .failed

/-- One round of `_run_loop`, from the readiness guard to the sleep. -/
def tick (t : Tick) : SchedulerM TickEnd :=
  if t.ready then do
    let completed ← processTick t.guild t.nowUtc.date.weekday t.nowUtc.time.truncate t.nowUtc.date
    return tickEnd completed
  else return .failed

end MomBot.Reminders
