import MomBot.Reminders.AtMostOnce

/-!
# Which rows a tick may claim

A tick claims a reminder row only where weekday, time and calendar condition fit and
no tank-week-end row replaces it.  The replacing rows come from two queries, those
still to be sent and those sent already.  A row that another instance un-marks
between the two is in neither result, and `Missed` is the second query that comes
too late for it.  In every run without such an event each claim is rightful;
`wrongful_claim` is a run with one in which a claim is not.
-/

namespace MomBot.Reminders

open Cooperative Python MemberNotifications

/-- On the last day of Tank Week, `replacing` is sent in place of `r`. -/
structure Replaces (table : ReminderTable) (replacing r : Reminder) : Prop where
  mem : replacing ∈ table.rows
  condition : replacing.monthCondition = some .tankWeekEnd
  slot : replacing.slot = r.slot

/-- What a claim of `r` in the tick has to satisfy. -/
structure Rightful (table : ReminderTable) (t : Tick) (r : Reminder) : Prop where
  weekday : t.nowUtc.date.weekday = r.weekday
  due : r.fireTimeUtc.microseconds ≤ t.nowUtc.time.microseconds
  condition : conditionHolds t.nowUtc.date r.monthCondition = .ok true
  unreplaced : r.monthCondition = none → isEndOfTankDate t.nowUtc.date = true →
    ∀ replacing, ¬ Replaces table replacing r

/-- Nothing but the schedulers writes reminders and logs. -/
structure World.SameReminders (w w' : World) : Prop where
  reminders : w'.reminders = w.reminders
  sent : w'.sent = w.sent

/-- Any number of scheduler instances over an unchanged reminder table. -/
def reminderScheduler : Concurrent schedulerEffects World Tick TickEnd :=
  { scheduler with outside := World.SameReminders }

/-- The tick and the slot of a task whose next step is an INSERT. -/
def nextInsert? : Progress schedulerEffects Tick TickEnd → Option (Tick × DaySlot)
  | .ready t (.op (.insertSent slot) _) => some (t, slot)
  | _ => none

theorem of_nextInsert? {progress : Progress schedulerEffects Tick TickEnd} {t : Tick}
    {slot : DaySlot} (h : nextInsert? progress = some (t, slot)) :
    ∃ next, progress = .ready t (.op (.insertSent slot) next) := by
  unfold nextInsert? at h
  split at h
  next t' slot' next =>
    cases h
    exact ⟨next, rfl⟩
  next => cases h

/-- The tick has run its first query, and the second is its next step. -/
def BetweenQueries (date : Date) (loaded : List Reminder)
    (progress : Progress schedulerEffects Tick TickEnd) : Prop :=
  ∃ t weekday next, progress = .ready t (.op (.selectSentTankEnd weekday date loaded) next)

/-- The first query has shown a row that is to be replaced, and the second is run when
each row that replaces it was not due then and is not sent now. -/
def Missed {ι : Type} (c : Config schedulerEffects World ι Tick TickEnd)
    (event : Event schedulerEffects World ι Tick) : Prop :=
  ∃ i date loaded, event = .op i ∧ BetweenQueries date loaded (c.task i) ∧
    ∃ r ∈ loaded, r.monthCondition = none ∧
      (∃ replacing, Replaces c.shared.reminders replacing r) ∧
      ∀ replacing, Replaces c.shared.reminders replacing r →
        replacing ∉ loaded ∧ ¬ c.shared.Sent ⟨.reminder, replacing.id, date⟩

/-! ## The protocol of a tick -/

/-- How far a tick has come. -/
inductive Stage where
  | rest
  | begun (t : Tick)
  | between (t : Tick) (loaded : List Reminder)
  | claiming

namespace Stage

theorem rest_ne_between (t : Tick) (loaded : List Reminder) : rest ≠ between t loaded := by
  simp

theorem begun_ne_between (t t' : Tick) (loaded : List Reminder) : begun t ≠ between t' loaded := by
  simp

theorem claiming_ne_between (t : Tick) (loaded : List Reminder) : claiming ≠ between t loaded := by
  simp

end Stage

/-- The slot may be claimed in the tick. -/
def MayClaim (table : ReminderTable) (t : Tick) (slot : DaySlot) : Prop :=
  slot.store = .reminder → slot.date = t.nowUtc.date ∧
    ∀ r ∈ table.rows, r.id = slot.owner → Rightful table t r

/-- The stage after the first query. -/
def Stage.afterFirst (t : Tick) (rows : List Reminder) : Stage :=
  match keptRows t.nowUtc.date rows with
  | .error _ => .claiming
  | .ok _ => if isEndOfTankDate t.nowUtc.date then .between t rows else .claiming

theorem Stage.of_afterFirst {t t' : Tick} {rows loaded : List Reminder}
    (h : afterFirst t rows = .between t' loaded) : t' = t ∧ loaded = rows := by
  unfold afterFirst at h
  split at h
  next => cases h
  next =>
    split at h
    next =>
      cases h
      exact ⟨rfl, rfl⟩
    next => cases h

/-- What the first query gives. -/
def AreDue (table : ReminderTable) (weekday : ℕ) (time : Time) (rows : List Reminder) : Prop :=
  ∀ r ∈ rows, r ∈ table.rows ∧ r.weekday = weekday ∧
    r.fireTimeUtc.microseconds ≤ time.microseconds

/-- What the second query gives: the slots of the replacing rows, unless the first has
shown one. -/
def Covers (table : ReminderTable) (loaded rows : List Reminder) : Prop :=
  ∀ r ∈ loaded, r.monthCondition = none → ∀ replacing, Replaces table replacing r →
    (∃ shown ∈ loaded, Replaces table shown r) ∨ ∃ row ∈ rows, row.slot = r.slot

/-- The first query, the second where there is one, then claims. -/
def claims (table : ReminderTable) : Protocol schedulerEffects Tick Stage where
  rest := .rest
  start := .begun
  opOk
    | _, .begun t, .selectEligible weekday time date =>
        weekday = t.nowUtc.date.weekday ∧ time = t.nowUtc.time.truncate ∧ date = t.nowUtc.date
    | _, .between t loaded, .selectSentTankEnd weekday date loaded' =>
        weekday = t.nowUtc.date.weekday ∧ date = t.nowUtc.date ∧ loaded' = loaded
    | t, .claiming, .insertSent slot => MayClaim table t slot
    | _, .claiming, .selectEligible _ _ _ | _, .claiming, .selectSentTankEnd _ _ _ => False
    | _, .claiming, _ => True
    | _, _, _ => False
  gives
    | _, .selectEligible weekday time _, rows => AreDue table weekday time rows
    | _, .selectSentTankEnd _ _ loaded, rows => Covers table loaded rows
    | _, .refresh reminderId, row => ∀ r, row = some r → r.id = reminderId
    | _, _, _ => True
  afterOp
    | .begun t, .selectEligible _ _ _, rows => .afterFirst t rows
    | .between _ _, .selectSentTankEnd _ _ _, _ => .claiming
    | stage, _, _ => stage
  callOk _ stage _ := stage = .claiming
  atCall stage _ := stage
  afterCall stage _ _ := stage

/-- A tick does not end between its queries. -/
def Ended (_ : TickEnd) (stage : Stage) : Prop :=
  ∀ t loaded, stage ≠ .between t loaded

/-- A part of the tick that starts and ends among the claims. -/
def Claiming {α : Type} (table : ReminderTable) (t : Tick) (p : SchedulerM α) : Prop :=
  p.Follows (claims table) t (fun _ stage => stage = .claiming) (.claiming)

section Follows

variable {table : ReminderTable} {t : Tick}

theorem Claiming.done {α : Type} (value : α) :
    Claiming table t (.done value : SchedulerM α) := by
  rfl

/-- What `unmark` and the sends do is always in order. -/
theorem claiming_unmark {slot : DaySlot} : Claiming table t (unmark slot) := by
  refine ⟨trivial, fun deleted _ => ?_⟩
  cases deleted with
  | none => rfl
  | some row => exact ⟨trivial, fun _ _ => rfl⟩

theorem claiming_afterSend {slot : DaySlot} (outcome : Outcome) :
    Claiming table t (afterSend (unmark slot) outcome) :=
  follows_afterSend_of rfl fun _ _ _ => claiming_unmark

theorem claiming_sendReminder {r : Reminder} {date : Date} :
    Claiming table t (sendReminder r date) := by
  refine ⟨rfl, fun found => ?_⟩
  cases found with
  | false => rfl
  | true => exact ⟨rfl, fun outcome => claiming_afterSend outcome⟩

theorem claiming_claimReminder {r : Reminder}
    (h : ∀ other ∈ table.rows, other.id = r.id → Rightful table t other) :
    Claiming table t (claimReminder r t.nowUtc.date) := by
  refine ⟨fun _ => ⟨rfl, h⟩, fun inserted _ => ⟨trivial, fun row _ => ?_⟩⟩
  cases row with
  | none => rfl
  | some row =>
      cases inserted with
      | false => rfl
      | true => exact claiming_sendReminder

theorem claiming_handleReminder {r : Reminder} {expired : Bool}
    (h : ∀ other ∈ table.rows, other.id = r.id → Rightful table t other) :
    Claiming table t (handleReminder r expired t.nowUtc.date) := by
  cases expired with
  | false => exact claiming_claimReminder h
  | true =>
      refine ⟨trivial, fun row hrow => ?_⟩
      cases row with
      | none => rfl
      | some row =>
          have hid : row.id = r.id := hrow row rfl
          apply claiming_claimReminder
          rw [hid]
          exact h

theorem claiming_handleReminders {rows : List Reminder} {expired : Bool}
    (h : ∀ r ∈ rows, ∀ other ∈ table.rows, other.id = r.id → Rightful table t other) :
    Claiming table t (handleReminders t.nowUtc.date expired rows) := by
  refine follows_handleReminders_of rfl fun r hr expired stage hstage => ?_
  rw [hstage]
  exact claiming_handleReminder (h r hr)

theorem claiming_sendNotification {n : MemberNotification} {discordId : ℤ} {date : Date} :
    Claiming table t (sendNotification n discordId date) :=
  ⟨rfl, fun outcome => claiming_afterSend outcome⟩

theorem claiming_afterFetch {n : MemberNotification} {discordId : ℤ} {date : Date}
    (outcome : Outcome) : Claiming table t (afterFetch n discordId date outcome) :=
  follows_afterFetch_of claiming_sendNotification rfl claiming_unmark

theorem claiming_handleMemberNotification {n : MemberNotification} {date : Date} :
    Claiming table t (handleMemberNotification n date) := by
  refine ⟨fun h => absurd h (by simp), fun inserted _ => ?_⟩
  cases inserted with
  | false => rfl
  | true =>
      show Claiming table t (resolveMember n date)
      simp only [resolveMember]
      split
      next => exact .done _
      next discordId _ =>
        refine ⟨rfl, fun found => ?_⟩
        cases found with
        | true => exact claiming_sendNotification
        | false => exact ⟨rfl, fun outcome => claiming_afterFetch outcome⟩

theorem claiming_handleNotifications {rows : List MemberNotification} {completed : Bool}
    {date : Date} : Claiming table t (handleNotifications date completed rows) := by
  refine follows_handleNotifications_of rfl fun n _ stage hstage => ?_
  rw [hstage]
  exact claiming_handleMemberNotification

theorem claiming_dmBranch {guild : Bool} {date : Date} {time : Time} :
    Claiming table t (dmBranch guild date time) :=
  follows_dmBranch_of rfl
    ⟨trivial, fun _ _ => ⟨rfl, fun _ _ => claiming_handleNotifications⟩⟩

theorem claiming_afterSuppression {guild : Bool} {time : Time} {kept alreadySent : List Reminder}
    (h : ∀ r ∈ survivors kept alreadySent, ∀ other ∈ table.rows, other.id = r.id →
      Rightful table t other) :
    Claiming table t (afterSuppression guild time t.nowUtc.date kept alreadySent) := by
  refine follows_afterSuppression_of (claiming_handleReminders h) fun stage hstage => ?_
  rw [hstage]
  exact claiming_dmBranch

/-! ## What is left after the suppression is rightful -/

/-- The rows of a table are known by their ids. -/
theorem ReminderTable.eq_of_id {r other : Reminder} (hr : r ∈ table.rows)
    (hother : other ∈ table.rows) (h : other.id = r.id) : other = r :=
  List.inj_on_of_nodup_map table.primaryKey hother hr h

/-- **Step lemma, suppression.**  The survivors of the two queries are rightful, where the
second one covers what the first does not show. -/
theorem rightful_of_survivor {eligible kept alreadySent : List Reminder} {r : Reminder}
    (hdue : AreDue table t.nowUtc.date.weekday t.nowUtc.time.truncate eligible)
    (hkept : keptRows t.nowUtc.date eligible = .ok kept)
    (hcovers : isEndOfTankDate t.nowUtc.date = true → Covers table eligible alreadySent)
    (hr : r ∈ survivors kept alreadySent) : Rightful table t r := by
  obtain ⟨hr, hfree⟩ := mem_survivors.mp hr
  obtain ⟨heligible, hcondition⟩ := (mem_keptRows hkept).mp hr
  obtain ⟨-, hweekday, htime⟩ := hdue r heligible
  refine ⟨hweekday.symm, ?_, hcondition, ?_⟩
  · exact htime.trans (Nat.div_mul_le_self _ _)
  · intro hnone hend replacing hreplaces
    apply hfree
    refine ⟨hnone, mem_tankEndSlots.mpr ?_⟩
    rcases hcovers hend r heligible hnone replacing hreplaces with ⟨shown, hshown, h⟩ | hsent
    · -- the first query shows it, and its condition holds today
      have hholds : conditionHolds t.nowUtc.date shown.monthCondition = .ok true := by
        rw [h.condition]
        exact congrArg Except.ok hend
      exact .inl ⟨shown, (mem_keptRows hkept).mpr ⟨hshown, hholds⟩, h.condition, h.slot⟩
    · exact .inr hsent

/-- The second query, where the row of a slot is sent. -/
theorem slot_mem_selectSentTankEnd {w : World} {loaded : List Reminder} {r replacing : Reminder}
    {weekday : ℕ} {date : Date} (htable : w.reminders = table)
    (hloaded : ∀ l ∈ loaded, l ∈ table.rows) (hweekday : r.weekday = weekday)
    (h : Replaces table replacing r) (hsent : w.Sent ⟨.reminder, replacing.id, date⟩) :
    ∃ row ∈ w.selectSentTankEnd weekday date loaded, row.slot = r.slot := by
  -- the query joins by owner, so it shows the row as it was loaded where it was
  have hslot := h.slot
  simp only [Reminder.slot, Prod.mk.injEq] at hslot
  refine ⟨(loaded.find? fun l => l.id = replacing.id).getD replacing, List.mem_map.mpr
    ⟨replacing, List.mem_filter.mpr ⟨htable.symm ▸ h.mem, ?_⟩, rfl⟩, ?_⟩
  · exact decide_eq_true ⟨hsent, h.condition, hslot.2.1.trans hweekday⟩
  · cases hfind : loaded.find? fun l => l.id = replacing.id with
    | none => exact h.slot
    | some l =>
        have hid : l.id = replacing.id := by simpa using List.find?_some hfind
        have hmem : l ∈ table.rows := hloaded l (List.mem_of_find?_eq_some hfind)
        obtain rfl := ReminderTable.eq_of_id h.mem hmem hid
        exact h.slot

/-- What the second query shows is sent and replaces. -/
theorem replaces_of_mem_selectSentTankEnd {w : World} {loaded : List Reminder}
    {r row : Reminder} {weekday : ℕ} {date : Date} (htable : w.reminders = table)
    (hloaded : ∀ l ∈ loaded, l ∈ table.rows)
    (hrow : row ∈ w.selectSentTankEnd weekday date loaded) (hslot : row.slot = r.slot) :
    Replaces table row r ∧ w.Sent ⟨.reminder, row.id, date⟩ := by
  obtain ⟨replacing, hreplacing, rfl⟩ := List.mem_map.mp hrow
  obtain ⟨hmem, h⟩ := List.mem_filter.mp hreplacing
  obtain ⟨hsent, htank, -⟩ := of_decide_eq_true h
  rw [htable] at hmem
  cases hfind : loaded.find? fun l => l.id = replacing.id with
  | none =>
      rw [hfind] at hslot
      exact ⟨⟨hmem, htank, hslot⟩, hsent⟩
  | some l =>
      have hid : l.id = replacing.id := by simpa using List.find?_some hfind
      obtain rfl := ReminderTable.eq_of_id hmem (hloaded l (List.mem_of_find?_eq_some hfind)) hid
      rw [hfind] at hslot
      exact ⟨⟨hmem, htank, hslot⟩, hsent⟩

/-- After a missed row, the tick does go on to claim what it replaces. -/
theorem survivor_of_missed {w : World} {loaded kept : List Reminder} {r : Reminder}
    {weekday : ℕ} {date : Date} (htable : w.reminders = table)
    (hloaded : ∀ l ∈ loaded, l ∈ table.rows) (hkept : keptRows date loaded = .ok kept)
    (hr : r ∈ loaded) (hnone : r.monthCondition = none)
    (hmissed : ∀ replacing, Replaces table replacing r →
      replacing ∉ loaded ∧ ¬ w.Sent ⟨.reminder, replacing.id, date⟩) :
    r ∈ survivors kept (w.selectSentTankEnd weekday date loaded) := by
  have hholds : conditionHolds date r.monthCondition = .ok true := by rw [hnone]; rfl
  refine mem_survivors.mpr ⟨(mem_keptRows hkept).mpr ⟨hr, hholds⟩, ?_⟩
  rintro ⟨-, hslot⟩
  rcases mem_tankEndSlots.mp hslot with ⟨shown, hshown, htank, hslot⟩ | ⟨row, hrow, hslot⟩
  · have hshown := ((mem_keptRows hkept).mp hshown).1
    exact (hmissed shown ⟨hloaded shown hshown, htank, hslot⟩).1 hshown
  · obtain ⟨hreplaces, hsent⟩ := replaces_of_mem_selectSentTankEnd htable hloaded hrow hslot
    exact (hmissed row hreplaces).2 hsent

theorem follows_afterEligible_claims {guild : Bool} {eligible : List Reminder}
    (hdue : AreDue table t.nowUtc.date.weekday t.nowUtc.time.truncate eligible) :
    (afterEligible guild t.nowUtc.date.weekday t.nowUtc.time.truncate t.nowUtc.date
      eligible).Follows (claims table) t (fun _ stage => stage = .claiming)
        (.afterFirst t eligible) := by
  simp only [afterEligible, Stage.afterFirst]
  cases hkept : keptRows t.nowUtc.date eligible with
  | error failure => rfl
  | ok kept =>
      -- every survivor is due, kept by its condition, and free of a replacing row
      have hrightful : ∀ alreadySent,
          (isEndOfTankDate t.nowUtc.date = true → Covers table eligible alreadySent) →
          ∀ r ∈ survivors kept alreadySent, ∀ other ∈ table.rows, other.id = r.id →
            Rightful table t other := by
        intro alreadySent hcovers r hr other hother hid
        have hmem : r ∈ table.rows :=
          (hdue r ((mem_keptRows hkept).mp (mem_survivors.mp hr).1).1).1
        obtain rfl := ReminderTable.eq_of_id hmem hother hid
        exact rightful_of_survivor hdue hkept hcovers hr
      cases hend : isEndOfTankDate t.nowUtc.date with
      | true =>
          refine ⟨⟨rfl, rfl, rfl⟩, fun alreadySent hcovers => ?_⟩
          exact claiming_afterSuppression (hrightful _ fun _ => hcovers)
      | false =>
          exact claiming_afterSuppression (hrightful _ fun h => absurd h (by simp [hend]))

theorem follows_tick_claims (now : Tick) :
    (tick now).Follows (claims table) now Ended (.begun now) := by
  simp only [tick]
  split
  next =>
    have hprocess : (processTick now.guild now.nowUtc.date.weekday now.nowUtc.time.truncate
        now.nowUtc.date).Follows (claims table) now (fun _ stage => stage = .claiming)
          (.begun now) :=
      ⟨⟨rfl, rfl, rfl⟩, fun eligible hdue => follows_afterEligible_claims hdue⟩
    apply hprocess.bind
    rintro _ _ rfl _ _
    simp
  next => exact fun _ _ => by simp

end Follows

/-! ## The invariant -/

section Watched

set_option linter.unusedSectionVars false

variable {ι : Type} [DecidableEq ι]

/-- The table is the one of the run, and what a tick has loaded is due. -/
structure Watched (table : ReminderTable) (mode : ι → Stage) (w : World) : Prop where
  reminders : w.reminders = table
  due : ∀ {i : ι} {t : Tick} {loaded : List Reminder}, mode i = .between t loaded →
    AreDue table t.nowUtc.date.weekday t.nowUtc.time.truncate loaded

variable {table : ReminderTable} {mode : ι → Stage} {w w' : World} {i j : ι} {stage : Stage}
  {t : Tick} {loaded : List Reminder}

theorem Watched.setMode (h : Watched table mode w) (hreminders : w'.reminders = w.reminders)
    (hdue : ∀ t loaded, stage = .between t loaded →
      AreDue table t.nowUtc.date.weekday t.nowUtc.time.truncate loaded) :
    Watched table (Function.update mode i stage) w' where
  reminders := hreminders.trans h.reminders
  due {j t loaded} hj := by
    by_cases hji : j = i
    · subst hji
      rw [Function.update_self] at hj
      exact hdue t loaded hj
    · rw [Function.update_of_ne hji] at hj
      exact h.due hj

/-- A stage that is not between the queries asks for nothing. -/
theorem Watched.advance (h : Watched table mode w) (hreminders : w'.reminders = w.reminders)
    (hstage : ∀ t loaded, stage ≠ .between t loaded) :
    Watched table (Function.update mode i stage) w' :=
  h.setMode hreminders fun t loaded heq => absurd heq (hstage t loaded)

/-- What the first query selects is due. -/
theorem Watched.areDue (h : Watched table mode w) (weekday : ℕ) (time : Time) (date : Date) :
    AreDue table weekday time (w.selectEligible weekday time date) := by
  intro r hr
  obtain ⟨hmem, hr⟩ := List.mem_filter.mp hr
  obtain ⟨hweekday, htime, -⟩ := of_decide_eq_true hr
  exact ⟨h.reminders ▸ hmem, hweekday, htime⟩

/-- **Step lemma, second query.**  Unless a row is missed, the two queries cover all. -/
theorem Watched.covers (h : Watched table mode w) (hi : mode i = .between t loaded)
    (hshown : ∀ r ∈ loaded, r.monthCondition = none → ∀ replacing, Replaces table replacing r →
      ∃ shown, Replaces table shown r ∧
        (shown ∈ loaded ∨ w.Sent ⟨.reminder, shown.id, t.nowUtc.date⟩)) :
    Covers table loaded (w.selectSentTankEnd t.nowUtc.date.weekday t.nowUtc.date loaded) := by
  intro r hr hnone replacing hreplaces
  obtain ⟨-, hweekday, -⟩ := h.due hi r hr
  obtain ⟨shown, hshows, hmem | hsent⟩ := hshown r hr hnone replacing hreplaces
  · exact .inl ⟨shown, hmem, hshows⟩
  · exact .inr (slot_mem_selectSentTankEnd h.reminders (fun l hl => (h.due hi l hl).1) hweekday
      hshows hsent)

/-- **Step lemma, operations.** -/
theorem Watched.exec {o : SchedulerOp} {x : Tick} (h : Watched table mode w)
    (ho : (claims table).opOk x (mode i) o)
    (hcovers : ∀ t loaded, mode i = .between t loaded →
      o = .selectSentTankEnd t.nowUtc.date.weekday t.nowUtc.date loaded →
      Covers table loaded (w.selectSentTankEnd t.nowUtc.date.weekday t.nowUtc.date loaded)) :
    (claims table).gives (mode i) o (w.exec o).1 ∧
      Watched table (Function.update mode i
        ((claims table).afterOp (mode i) o (w.exec o).1)) (w.exec o).2 := by
  generalize hi : mode i = stage at ho hcovers ⊢
  cases stage with
  | rest => cases o <;> exact ho.elim
  | begun t =>
      cases o with
      | selectEligible weekday time date =>
          obtain ⟨rfl, rfl, rfl⟩ := ho
          have hdue := h.areDue t.nowUtc.date.weekday t.nowUtc.time.truncate t.nowUtc.date
          refine ⟨hdue, h.setMode rfl fun t' loaded heq => ?_⟩
          obtain ⟨rfl, rfl⟩ := Stage.of_afterFirst heq
          exact hdue
      | _ => exact ho.elim
  | between t loaded =>
      cases o with
      | selectSentTankEnd weekday date loaded' =>
          obtain ⟨rfl, rfl, rfl⟩ := ho
          exact ⟨hcovers t _ rfl rfl, h.advance rfl Stage.claiming_ne_between⟩
      | _ => exact ho.elim
  | claiming =>
      cases o with
      | selectEligible _ _ _ => exact ho.elim
      | selectSentTankEnd _ _ _ => exact ho.elim
      | refresh reminderId =>
          refine ⟨fun r hr => by simpa using List.find?_some hr, ?_⟩
          exact h.advance rfl Stage.claiming_ne_between
      | insertSent slot => exact ⟨trivial, h.advance rfl Stage.claiming_ne_between⟩
      | firstSent slot => exact ⟨trivial, h.advance rfl Stage.claiming_ne_between⟩
      | deleteSent store rowId => exact ⟨trivial, h.advance rfl Stage.claiming_ne_between⟩
      | selectCandidates today => exact ⟨trivial, h.advance rfl Stage.claiming_ne_between⟩

/-- Calls are made among the claims. -/
theorem Watched.call {x : Tick} {call : SchedulerCall} (h : Watched table mode w)
    (hreminders : w'.reminders = w.reminders) (hi : (claims table).callOk x stage call) :
    Watched table (Function.update mode i stage) w' := by
  obtain rfl : stage = .claiming := hi
  exact h.advance hreminders Stage.claiming_ne_between

/-- Every event but a missed row keeps to the protocol. -/
theorem claims_sound (table : ReminderTable) :
    (claims table).Sound Ended (Watched table (ι := ι)) reminderScheduler
      fun c event => ¬ Missed c event where
  program := follows_tick_claims
  spawn h _ _ _ := h.holds.advance rfl (Stage.begun_ne_between _)
  op {mode c i x o next} h hallowed htask ho := by
    refine h.holds.exec ho fun t loaded hi heq => h.holds.covers hi ?_
    subst heq
    intro r hr hnone replacing hreplaces
    by_contra hnot
    apply hallowed
    rw [← h.holds.reminders] at hreplaces hnot
    -- a row that neither query shows makes this event the missed one
    refine ⟨i, t.nowUtc.date, loaded, rfl, ⟨x, _, next, htask⟩, r, hr, hnone,
      ⟨replacing, hreplaces⟩, fun shown hshows => ?_⟩
    exact ⟨fun hmem => hnot ⟨shown, hshows, .inl hmem⟩,
      fun hsent => hnot ⟨shown, hshows, .inr hsent⟩⟩
  issue h _ _ hcall := h.holds.call (World.issue_reminders _ _) hcall
  answer h _ _ _ hcall := h.holds.call (World.complete_reminders _ _ _) hcall
  finish h _ _ _ := h.holds.advance rfl Stage.rest_ne_between
  outside h _ houtside := ⟨houtside.reminders.trans h.holds.reminders, h.holds.due⟩

theorem Watched.start {w : World} : Watched w.reminders (fun _ : ι => .rest) w where
  reminders := rfl
  due h := absurd h (by simp)

/-- Only a tick among its claims inserts. -/
theorem mayClaim_of_opOk {slot : DaySlot} (h : (claims table).opOk t stage (.insertSent slot)) :
    MayClaim table t slot := by
  cases stage with
  | claiming => exact h
  | rest => exact h.elim
  | begun _ => exact h.elim
  | between _ _ => exact h.elim

/-- In every run without a missed row, an instance that is about to insert the sent row of
a reminder does so rightfully, and for the date of its tick. -/
theorem claim_rightful {w : World} {c : Config schedulerEffects World ι Tick TickEnd}
    (h : reminderScheduler.Reachable (fun c event => ¬ Missed c event) w c)
    {slot : DaySlot} (hinsert : nextInsert? (c.task i) = some (t, slot))
    (hstore : slot.store = .reminder) :
    slot.date = t.nowUtc.date ∧
      ∀ r ∈ w.reminders.rows, r.id = slot.owner → Rightful w.reminders t r := by
  obtain ⟨mode, hgoverns⟩ := Protocol.governed (claims_sound w.reminders) Watched.start h
  obtain ⟨next, htask⟩ := of_nextInsert? hinsert
  exact mayClaim_of_opOk (hgoverns.opOk htask) hstore

end Watched

/-! ## A run in which a row is missed -/

/-- The regular reminder of a Tuesday, at midnight. -/
def hydra : Reminder where
  id := 2
  channelId := 5
  weekday := 1
  fireTimeUtc := .midnight
  messageTemplate := "Hydra"
  roleMentionId := none
  monthCondition := none

/-- The reminder that replaces it on the last day of Tank Week. -/
def tankEnd : Reminder := { hydra with id := 1, monthCondition := some .tankWeekEnd }

/-- Both are in the table, and nothing was sent yet. -/
def tankWorld : World where
  reminders := ⟨[tankEnd, hydra], by decide⟩
  memberNotifications := noNotifications
  sent := emptyLog
  deliveries := []

/-- 2026-07-07, the first Tuesday of its month, 12:00. -/
def tuesdayTick : Tick where
  ready := true
  nowUtc := ⟨⟨739804, by decide⟩, Time.noon⟩
  guild := false

/-- Every lookup finds, and every send times out. -/
def allTimeOut : (call : SchedulerCall) → call.Ans
  | .getChannel _ _ | .getMember _ _ => true
  | .channelSend _ _ _ _ | .fetchMember _ _ | .memberSend _ _ _ => (.error .timeout : Outcome)

/-- `false` claims the replacing row and starts to send.  Then `true` runs its first query,
`false` un-marks the row, and `true` runs its second query. -/
def reappearance : List (Event schedulerEffects World Bool Tick) :=
  [.spawn false tuesdayTick, .op false, .op false, .op false, .op false, .issue false,
    .answer false allTimeOut, .issue false, .spawn true tuesdayTick, .op true,
    .answer false allTimeOut, .op false, .op false, .op true]

/-- With a missed row, an instance is about to claim the regular reminder on the date on
which the other one replaces it, and its INSERT succeeds. -/
theorem wrongful_claim : ∃ c, reminderScheduler.Reachable (ι := Bool) (fun _ _ => True)
      tankWorld c ∧
    nextInsert? (c.task true) = some (tuesdayTick, ⟨.reminder, hydra.id, tuesdayTick.nowUtc.date⟩) ∧
    (c.shared.insertSent ⟨.reminder, hydra.id, tuesdayTick.nowUtc.date⟩).1 = true ∧
    ¬ Rightful tankWorld.reminders tuesdayTick hydra := by
  have hrun : (reminderScheduler.run (.start tankWorld) reappearance).map (fun c =>
      (nextInsert? (c.task true),
        (c.shared.insertSent ⟨.reminder, hydra.id, tuesdayTick.nowUtc.date⟩).1)) =
      some (some (tuesdayTick, ⟨.reminder, hydra.id, tuesdayTick.nowUtc.date⟩), true) := by
    decide +kernel
  obtain ⟨c, hrun, hresult⟩ := Option.map_eq_some_iff.mp hrun
  obtain ⟨hinsert, hinserted⟩ := Prod.mk.inj hresult
  refine ⟨c, Concurrent.Reachable.start.run (fun _ _ => trivial) rfl hrun, hinsert, hinserted, ?_⟩
  intro hrightful
  exact hrightful.unreplaced rfl (by decide) tankEnd ⟨by decide, rfl, rfl⟩

end MomBot.Reminders
