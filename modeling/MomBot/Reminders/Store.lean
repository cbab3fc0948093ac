import Mathlib.Data.List.Nodup
import Mathlib.Logic.Function.Basic
import MomBot.Cooperative.Coroutine
import MomBot.Discord
import MomBot.MemberNotifications.Schedule

/-!
# What the reminder scheduler reads, writes and calls

The two schedule tables, the two idempotency logs with their UNIQUE clauses, and the
Discord lookups and sends.  `schedulerMachine` says what each statement does to a
`World`; a statement commits on its own, so it sees what every instance has committed
before.  A session keeps the objects it has loaded, so the second query of a tick is
told which ones these are, and a commit makes the session reload them (`refresh`).

The column `name` and the audit columns are left out: the scheduler only logs them.
-/

namespace MomBot.Reminders

open Cooperative Python MemberNotifications

/-! ## Rows -/

/-- The column `month_condition`.  Its CHECK clause admits no `other` text. -/
inductive MonthCondition where
  | tankWeekHeadsup
  | tankWeekEnd
  | siege48hHeadsup
  | siege24hHeadsup
  | other (text : String)
  deriving DecidableEq, Repr

/-- A row of `reminders`, as the scheduler reads it. -/
structure Reminder where
  id : ℤ
  channelId : ℤ
  weekday : ℕ
  fireTimeUtc : Time
  messageTemplate : String
  roleMentionId : Option ℤ
  monthCondition : Option MonthCondition
  deriving DecidableEq, Repr

/-- What a tank-week reminder has to share with a regular one to replace it. -/
def Reminder.slot (r : Reminder) : ℤ × ℕ × Time := (r.channelId, r.weekday, r.fireTimeUtc)

/-- The table `reminders`; its primary key is a field. -/
structure ReminderTable where
  rows : List Reminder
  primaryKey : (rows.map Reminder.id).Nodup

/-- A row of `member_notifications`, as the scheduler reads it. -/
structure MemberNotification where
  id : ℤ
  targetDiscordId : String
  anchorDateUtc : Date
  fireTimeUtc : Time
  cadence : Cadence
  messageTemplate : String
  enabled : Bool
  deriving DecidableEq, Repr

/-- The table `member_notifications`; its primary key is a field. -/
structure NotificationTable where
  rows : List MemberNotification
  primaryKey : (rows.map MemberNotification.id).Nodup

/-! ## Idempotency logs -/

/-- A row of `reminder_sent` or of `member_notification_sent`. -/
structure SentRow where
  id : ℕ
  owner : ℤ
  date : Date
  deriving DecidableEq, Repr

/-- What the unique constraint of a log is on. -/
def SentRow.key (row : SentRow) : ℤ × Date := (row.owner, row.date)

/-- One of the two logs, with its keys.  `nextId` is the sequence that the ids come
from. -/
structure SentTable where
  rows : List SentRow
  nextId : ℕ
  primaryKey : (rows.map SentRow.id).Nodup
  unique : (rows.map SentRow.key).Nodup
  fresh : ∀ row ∈ rows, row.id < nextId

namespace SentTable

/-- The keys that are taken. -/
def keys (t : SentTable) : List (ℤ × Date) := t.rows.map SentRow.key

/-- INSERT and COMMIT.  `false` is `IntegrityError`: the key is taken, or the row it
refers to does not exist.  Either way the sequence has moved on. -/
def insert (t : SentTable) (ownerExists : Bool) (owner : ℤ) (date : Date) : Bool × SentTable :=
  if h : ownerExists ∧ (owner, date) ∉ t.keys then
    (true,
      { rows := t.rows ++ [⟨t.nextId, owner, date⟩]
        nextId := t.nextId + 1
        primaryKey := by
          rw [List.map_append]
          refine t.primaryKey.append (List.nodup_singleton _) ?_
          intro id hid hnew
          obtain rfl := List.mem_singleton.mp hnew
          obtain ⟨row, hrow, heq⟩ := List.mem_map.mp hid
          exact absurd heq (Nat.ne_of_lt (t.fresh row hrow))
        unique := by
          rw [List.map_append]
          refine t.unique.append (List.nodup_singleton _) ?_
          intro key hkey hnew
          obtain rfl := List.mem_singleton.mp hnew
          exact h.2 hkey
        fresh := by
          intro row hrow
          rcases List.mem_append.mp hrow with hrow | hrow
          · exact Nat.lt_succ_of_lt (t.fresh row hrow)
          · obtain rfl := List.mem_singleton.mp hrow
            exact Nat.lt_succ_self _ })
  else
    (false, { t with
      nextId := t.nextId + 1
      fresh := fun row hrow => Nat.lt_succ_of_lt (t.fresh row hrow) })

/-- The row that `filter_by(…).first()` finds. -/
def first (t : SentTable) (owner : ℤ) (date : Date) : Option SentRow :=
  t.rows.find? fun row => row.key = (owner, date)

/-- DELETE of the row with the id. -/
def delete (t : SentTable) (rowId : ℕ) : SentTable where
  rows := t.rows.filter fun row => row.id ≠ rowId
  nextId := t.nextId
  primaryKey := t.primaryKey.sublist (List.filter_sublist.map SentRow.id)
  unique := t.unique.sublist (List.filter_sublist.map SentRow.key)
  fresh row hrow := t.fresh row (List.mem_of_mem_filter hrow)

/-- ON DELETE CASCADE. -/
def deleteOwner (t : SentTable) (owner : ℤ) : SentTable where
  rows := t.rows.filter fun row => row.owner ≠ owner
  nextId := t.nextId
  primaryKey := t.primaryKey.sublist (List.filter_sublist.map SentRow.id)
  unique := t.unique.sublist (List.filter_sublist.map SentRow.key)
  fresh row hrow := t.fresh row (List.mem_of_mem_filter hrow)

variable {t : SentTable} {ownerExists : Bool} {owner : ℤ} {date : Date} {key : ℤ × Date}
  {row : SentRow} {rowId : ℕ}

theorem insert_fst :
    (t.insert ownerExists owner date).1 = true ↔ ownerExists ∧ (owner, date) ∉ t.keys := by
  unfold insert
  split
  next h => simp [h]
  next h => simpa using h

theorem mem_keys_insert : key ∈ (t.insert ownerExists owner date).2.keys ↔
    key ∈ t.keys ∨ ((t.insert ownerExists owner date).1 = true ∧ key = (owner, date)) := by
  unfold insert
  split
  · simp [keys, SentRow.key]
  · simp [keys]

theorem mem_rows_insert (h : row ∈ t.rows) : row ∈ (t.insert ownerExists owner date).2.rows := by
  unfold insert
  split
  · exact List.mem_append_left _ h
  · exact h

/-- An insert adds a row of an owner that exists, or none. -/
theorem mem_rows_of_mem_insert (h : row ∈ (t.insert ownerExists owner date).2.rows) :
    row ∈ t.rows ∨ (ownerExists = true ∧ row.owner = owner) := by
  unfold insert at h
  split at h
  next hfree =>
    rcases List.mem_append.mp h with hold | hnew
    · exact .inl hold
    · obtain rfl := List.mem_singleton.mp hnew
      exact .inr ⟨hfree.1, rfl⟩
  next => exact .inl h

theorem mem_of_first (h : t.first owner date = some row) :
    row ∈ t.rows ∧ row.key = (owner, date) :=
  ⟨List.mem_of_find?_eq_some h, by simpa using List.find?_some h⟩

theorem mem_rows_delete : row ∈ (t.delete rowId).rows ↔ row ∈ t.rows ∧ row.id ≠ rowId := by
  simp [delete]

theorem mem_keys_of_mem_rows (h : row ∈ t.rows) : row.key ∈ t.keys :=
  List.mem_map_of_mem h

/-- Only the key of the deleted row goes. -/
theorem mem_keys_delete (hrow : row ∈ t.rows) :
    key ∈ (t.delete row.id).keys ↔ key ∈ t.keys ∧ key ≠ row.key := by
  constructor
  · intro h
    obtain ⟨other, hother, rfl⟩ := List.mem_map.mp h
    obtain ⟨hother, hid⟩ := mem_rows_delete.mp hother
    refine ⟨mem_keys_of_mem_rows hother, ?_⟩
    intro heq
    exact hid (congrArg SentRow.id (List.inj_on_of_nodup_map t.unique hother hrow heq))
  · rintro ⟨h, hne⟩
    obtain ⟨other, hother, rfl⟩ := List.mem_map.mp h
    refine mem_keys_of_mem_rows (mem_rows_delete.mpr ⟨hother, ?_⟩)
    intro heq
    exact hne (congrArg SentRow.key (List.inj_on_of_nodup_map t.primaryKey hother hrow heq))

end SentTable

/-! ## The world -/

/-- `ReminderSentStore` or `MemberNotificationSentStore`. -/
inductive SentStore where
  | reminder
  | memberNotification
  deriving DecidableEq, Repr

/-- A reminder or a notification on one date. -/
structure DaySlot where
  store : SentStore
  owner : ℤ
  date : Date
  deriving DecidableEq, Repr

/-- A send that was started, or one whose outcome was reported. -/
inductive Delivery where
  | started (slot : DaySlot)
  | reported (slot : DaySlot) (outcome : Outcome)
  deriving DecidableEq

/-- `deliveries` is only recorded, the newest first. -/
structure World where
  reminders : ReminderTable
  memberNotifications : NotificationTable
  sent : SentStore → SentTable
  deliveries : List Delivery

namespace World

/-- The ids that a log can refer to. -/
def owners (w : World) : SentStore → List ℤ
  | .reminder => w.reminders.rows.map Reminder.id
  | .memberNotification => w.memberNotifications.rows.map MemberNotification.id

/-- The log holds a row for the slot. -/
def Sent (w : World) (slot : DaySlot) : Prop :=
  (slot.owner, slot.date) ∈ (w.sent slot.store).keys

instance (w : World) (slot : DaySlot) : Decidable (w.Sent slot) :=
  inferInstanceAs (Decidable (_ ∈ _))

/-- One of the logs is replaced. -/
def setSent (w : World) (store : SentStore) (table : SentTable) : World :=
  { w with sent := Function.update w.sent store table }

/-- A delivery is recorded. -/
def record (w : World) (delivery : Delivery) : World :=
  { w with deliveries := delivery :: w.deliveries }

end World

/-! ## Operations and calls -/

/-- The queries of a tick and its writes to the logs. -/
inductive SchedulerOp where
  | selectEligible (todayWeekday : ℕ) (nowTime : Time) (todayDate : Date)
  | selectSentTankEnd (todayWeekday : ℕ) (todayDate : Date) (loaded : List Reminder)
  | refresh (reminderId : ℤ)
  | insertSent (slot : DaySlot)
  | firstSent (slot : DaySlot)
  | deleteSent (store : SentStore) (rowId : ℕ)
  | selectCandidates (today : Date)
  deriving DecidableEq

/-- The slot of a lookup or a send is only recorded. -/
inductive SchedulerCall where
  | getChannel (slot : DaySlot) (channelId : ℤ)
  | channelSend (slot : DaySlot) (channelId : ℤ) (message : String) (mentionRoles : Bool)
  | getMember (slot : DaySlot) (discordId : ℤ)
  | fetchMember (slot : DaySlot) (discordId : ℤ)
  | memberSend (slot : DaySlot) (discordId : ℤ) (message : String)
  deriving DecidableEq, Repr

/-- `insertSent` says whether the slot was free, `firstSent` which row holds it. -/
def SchedulerOp.Res : SchedulerOp → Type
  | selectEligible _ _ _ | selectSentTankEnd _ _ _ => List Reminder
  | refresh _ => Option Reminder
  | insertSent _ => Bool
  | firstSent _ => Option SentRow
  | deleteSent _ _ => Unit
  | selectCandidates _ => List MemberNotification

/-- The cache lookups answer whether the channel or the member is there. -/
def SchedulerCall.Ans : SchedulerCall → Type
  | getChannel _ _ | getMember _ _ => Bool
  | channelSend _ _ _ _ | fetchMember _ _ | memberSend _ _ _ => Outcome

/-- Everything that a tick asks. -/
abbrev schedulerEffects : Effects :=
  ⟨SchedulerOp, SchedulerOp.Res, SchedulerCall, SchedulerCall.Ans⟩

/-! ## The machine -/

namespace World

/-- The reminders of the weekday whose time has come and that were not sent today. -/
def selectEligible (w : World) (todayWeekday : ℕ) (nowTime : Time) (todayDate : Date) :
    List Reminder :=
  w.reminders.rows.filter fun r =>
    r.weekday = todayWeekday ∧ r.fireTimeUtc.microseconds ≤ nowTime.microseconds ∧
      ¬ w.Sent ⟨.reminder, r.id, todayDate⟩

/-- An object that the session holds already is not loaded again. -/
def selectSentTankEnd (w : World) (todayWeekday : ℕ) (todayDate : Date) (loaded : List Reminder) :
    List Reminder :=
  (w.reminders.rows.filter fun r =>
    w.Sent ⟨.reminder, r.id, todayDate⟩ ∧ r.monthCondition = some .tankWeekEnd ∧
      r.weekday = todayWeekday).map fun r => (loaded.find? fun l => l.id = r.id).getD r

/-- The insert of `mark_sent`. -/
def insertSent (w : World) (slot : DaySlot) : Bool × World :=
  let result := (w.sent slot.store).insert (slot.owner ∈ w.owners slot.store) slot.owner slot.date
  (result.1, w.setSent slot.store result.2)

/-- The row that `unmark` finds. -/
def firstSent (w : World) (slot : DaySlot) : Option SentRow :=
  (w.sent slot.store).first slot.owner slot.date

/-- The delete of `unmark`. -/
def deleteSent (w : World) (store : SentStore) (rowId : ℕ) : World :=
  w.setSent store ((w.sent store).delete rowId)

/-- The enabled notifications without a row in the log for `today`. -/
def selectCandidates (w : World) (today : Date) : List MemberNotification :=
  w.memberNotifications.rows.filter fun n =>
    n.enabled ∧ ¬ w.Sent ⟨.memberNotification, n.id, today⟩

/-- The operations on the tables. -/
def exec : (o : SchedulerOp) → World → o.Res × World
  | .selectEligible weekday nowTime date, w => (w.selectEligible weekday nowTime date, w)
  | .selectSentTankEnd weekday date loaded, w => (w.selectSentTankEnd weekday date loaded, w)
  | .refresh reminderId, w => (w.reminders.rows.find? fun r => r.id = reminderId, w)
  | .insertSent slot, w => w.insertSent slot
  | .firstSent slot, w => (w.firstSent slot, w)
  | .deleteSent store rowId, w => ((), w.deleteSent store rowId)
  | .selectCandidates today, w => (w.selectCandidates today, w)

/-- The start of a send is recorded. -/
def issue : SchedulerCall → World → World
  | .channelSend slot _ _ _, w | .memberSend slot _ _, w => w.record (.started slot)
  | _, w => w

/-- How a send ended is recorded. -/
def complete : (call : SchedulerCall) → call.Ans → World → World
  | .channelSend slot _ _ _, outcome, w => w.record (.reported slot outcome)
  | .memberSend slot _ _, outcome, w => w.record (.reported slot outcome)
  | .getChannel _ _, _, w | .getMember _ _, _, w | .fetchMember _ _, _, w => w

end World

/-- The database, and the record of the sends. -/
def schedulerMachine : Machine schedulerEffects World where
  exec := World.exec
  issue := World.issue
  complete := World.complete

namespace World

variable {w : World} {slot slot' : DaySlot} {store : SentStore} {table : SentTable}

theorem sent_congr {w' : World} (h : w'.sent = w.sent) : w'.Sent slot ↔ w.Sent slot := by
  simp [Sent, h]

@[simp] theorem issue_reminders (call : SchedulerCall) (w : World) :
    (w.issue call).reminders = w.reminders := by
  cases call <;> rfl

@[simp] theorem issue_sent (call : SchedulerCall) (w : World) : (w.issue call).sent = w.sent := by
  cases call <;> rfl

@[simp] theorem complete_reminders (call : SchedulerCall) (answer : call.Ans) (w : World) :
    (w.complete call answer).reminders = w.reminders := by
  cases call <;> rfl

@[simp] theorem complete_sent (call : SchedulerCall) (answer : call.Ans) (w : World) :
    (w.complete call answer).sent = w.sent := by
  cases call <;> rfl

/-- The insert succeeds iff the slot is free and its owner exists. -/
theorem insertSent_fst :
    (w.insertSent slot).1 = true ↔ slot.owner ∈ w.owners slot.store ∧ ¬ w.Sent slot := by
  simp [insertSent, SentTable.insert_fst, Sent]

theorem sent_insertSent :
    (w.insertSent slot).2.Sent slot' ↔
      w.Sent slot' ∨ ((w.insertSent slot).1 = true ∧ slot' = slot) := by
  obtain ⟨store, owner, date⟩ := slot
  obtain ⟨store', owner', date'⟩ := slot'
  by_cases hstore : store' = store
  · subst hstore
    simp [Sent, insertSent, setSent, SentTable.mem_keys_insert]
  · simp [Sent, insertSent, setSent, hstore]

theorem mem_rows_insertSent {row : SentRow} (h : row ∈ (w.sent store).rows) :
    row ∈ ((w.insertSent slot).2.sent store).rows := by
  by_cases hstore : store = slot.store
  · subst hstore
    simpa [insertSent, setSent] using SentTable.mem_rows_insert h
  · simpa [insertSent, setSent, hstore] using h

theorem sent_deleteSent {row : SentRow} (hrow : row ∈ (w.sent store).rows) :
    (w.deleteSent store row.id).Sent slot ↔
      w.Sent slot ∧ slot ≠ ⟨store, row.owner, row.date⟩ := by
  obtain ⟨store', owner, date⟩ := slot
  by_cases hstore : store' = store
  · subst hstore
    simp [Sent, deleteSent, setSent, SentTable.mem_keys_delete hrow, SentRow.key]
  · simp [Sent, deleteSent, setSent, hstore]

theorem mem_rows_deleteSent {store' : SentStore} {row : SentRow} {rowId : ℕ} :
    row ∈ ((w.deleteSent store rowId).sent store').rows ↔
      row ∈ (w.sent store').rows ∧ (store' = store → row.id ≠ rowId) := by
  by_cases hstore : store' = store
  · subst hstore
    simp [deleteSent, setSent, SentTable.mem_rows_delete]
  · simp [deleteSent, setSent, hstore]

/-- Two rows of one log with one id are one row. -/
theorem row_unique {row row' : SentRow} (hrow : row ∈ (w.sent store).rows)
    (hrow' : row' ∈ (w.sent store).rows) (h : row'.id = row.id) : row' = row :=
  List.inj_on_of_nodup_map (w.sent store).primaryKey hrow' hrow h

end World

end MomBot.Reminders
