import MomBot.Reminders.TickRules

/-!
# At most one delivery for a reminder and a date

Any number of scheduler instances share the database.  `unmark` deletes by slot and
not by row, so what keeps a slot from being delivered twice is ownership: the
instance whose INSERT made the current row is the only one that sends for the slot
and the only one that may delete the row.  `ownership` is that discipline as a
protocol of a tick, `Owned` says what it means for the database, and a slot whose
send was settled has a row and no owner, for good.
-/

namespace MomBot.Reminders

open Cooperative Python MemberNotifications

/-! ## The system -/

/-- What else happens to the database: the schedule tables are edited, but no row of
them is deleted, and nothing else writes the logs. -/
structure World.Edited (w w' : World) : Prop where
  sent : w'.sent = w.sent
  deliveries : w'.deliveries = w.deliveries
  owners : ∀ store, ∀ owner ∈ w.owners store, owner ∈ w'.owners store

/-- Any number of scheduler instances. -/
def scheduler : Concurrent schedulerEffects World Tick TickEnd where
  machine := schedulerMachine
  program := tick
  outside := World.Edited

/-- The slot that a call sends for. -/
def SchedulerCall.slot? : SchedulerCall → Option DaySlot
  | channelSend slot _ _ _ => some slot
  | memberSend slot _ _ => some slot
  | _ => none

/-- The instance awaits a send for the slot. -/
def InFlight (slot : DaySlot) (progress : Progress schedulerEffects Tick TickEnd) : Prop :=
  ∃ t call next, progress = .awaiting t call next ∧ call.slot? = some slot

/-- A send that succeeded or failed for good. -/
def Settled : Outcome → Prop
  | .ok _ => True
  | .error exc => isTransient exc = false

instance : DecidablePred Settled
  | .ok _ => isTrue trivial
  | .error exc => inferInstanceAs (Decidable (isTransient exc = false))

/-- The slot that a delivery is about. -/
def Delivery.slot : Delivery → DaySlot
  | started slot => slot
  | reported slot _ => slot

/-- The delivery reports that a send for the slot is settled. -/
def Delivery.Settles (slot : DaySlot) : Delivery → Prop
  | started _ => False
  | reported slot' outcome => slot' = slot ∧ Settled outcome

/-! ## Ownership -/

/-- What an instance owns. -/
inductive Ownership where
  | free
  | owns (slot : DaySlot)
  | deleting (slot : DaySlot) (rowId : ℕ)
  deriving DecidableEq

/-- The slot that is owned, if one is. -/
def Ownership.slot? : Ownership → Option DaySlot
  | free => none
  | owns slot | deleting slot _ => some slot

/-- What is left to the owner of a slot after a send. -/
def Ownership.afterOutcome (t : Ownership) (outcome : Outcome) : Ownership :=
  if Settled outcome then .free else t

/-- Sends and deletions are the owner's.  A successful INSERT gives ownership, a settled
send and a deletion end it. -/
def ownership : Protocol schedulerEffects Tick Ownership where
  rest := .free
  start _ := .free
  opOk
    | _, t, .firstSent slot => t = .owns slot
    | _, t, .deleteSent store rowId => ∃ slot, t = .deleting slot rowId ∧ slot.store = store
    | _, _, _ => True
  gives
    | _, .refresh reminderId, row => ∀ r, row = some r → r.id = reminderId
    | _, _, _ => True
  afterOp
    | _, .insertSent slot, inserted => bif inserted then .owns slot else .free
    | _, .firstSent slot, deleted => (deleted.map fun row => .deleting slot row.id).getD .free
    | _, .deleteSent _ _, _ => .free
    | t, _, _ => t
  callOk
    | _, t, call => ∀ slot, call.slot? = some slot → t = .owns slot
  atCall t _ := t
  afterCall
    | t, .channelSend _ _ _ _, outcome => t.afterOutcome outcome
    | t, .memberSend _ _ _, outcome => t.afterOutcome outcome
    | t, _, _ => t

/-! ## A tick keeps to the protocol -/

section Follows

variable {now : Tick} {t : Ownership}

/-- A call that has no slot needs no owner. -/
theorem callOk_of_slot?_eq_none {call : SchedulerCall} (hnone : call.slot? = none) :
    ownership.callOk now t call := by
  intro slot hslot
  rw [hnone] at hslot
  cases hslot

/-- `unmark` is the owner's, and afterwards the slot is free. -/
theorem follows_unmark {slot : DaySlot} :
    (unmark slot).Follows ownership now (fun _ _ => True) (.owns slot) := by
  refine ⟨rfl, fun deleted _ => ?_⟩
  cases deleted with
  | none => trivial
  | some row => exact ⟨⟨slot, rfl, rfl⟩, fun _ _ => trivial⟩

/-- The row is deleted only where the slot is still owned. -/
theorem follows_afterSend {slot : DaySlot} (outcome : Outcome) :
    (afterSend (unmark slot) outcome).Follows ownership now (fun _ _ => True)
      ((Ownership.owns slot).afterOutcome outcome) := by
  apply follows_afterSend_of trivial
  rintro exc rfl htransient
  simp only [Ownership.afterOutcome, Settled, htransient]
  exact follows_unmark

theorem follows_sendReminder {r : Reminder} {date : Date} :
    (sendReminder r date).Follows ownership now (fun _ _ => True)
      (.owns ⟨.reminder, r.id, date⟩) := by
  refine ⟨callOk_of_slot?_eq_none rfl, fun found => ?_⟩
  cases found with
  | false => trivial
  | true =>
      refine ⟨?_, fun outcome => follows_afterSend outcome⟩
      intro slot hslot
      exact congrArg Ownership.owns (Option.some.inj hslot)

theorem follows_claimReminder {r : Reminder} {date : Date} :
    (claimReminder r date).Follows ownership now (fun _ _ => True) t := by
  refine ⟨trivial, fun inserted _ => ⟨trivial, fun row hrow => ?_⟩⟩
  cases row with
  | none => trivial
  | some row =>
      have hid : row.id = r.id := hrow row rfl
      cases inserted with
      | false => trivial
      | true =>
          show (sendReminder row date).Follows ownership now _ (.owns ⟨.reminder, r.id, date⟩)
          rw [← hid]
          exact follows_sendReminder

theorem follows_handleReminder {r : Reminder} {expired : Bool} {date : Date} :
    (handleReminder r expired date).Follows ownership now (fun _ _ => True) t := by
  cases expired with
  | false => exact follows_claimReminder
  | true =>
      refine ⟨trivial, fun row _ => ?_⟩
      cases row with
      | none => trivial
      | some row => exact follows_claimReminder

theorem follows_handleReminders {rows : List Reminder} {expired : Bool} {date : Date} :
    (handleReminders date expired rows).Follows ownership now (fun _ _ => True) t :=
  follows_handleReminders_of trivial fun _ _ _ _ _ => follows_handleReminder

theorem follows_sendNotification {n : MemberNotification} {discordId : ℤ} {date : Date} :
    (sendNotification n discordId date).Follows ownership now (fun _ _ => True)
      (.owns ⟨.memberNotification, n.id, date⟩) := by
  refine ⟨?_, fun outcome => follows_afterSend outcome⟩
  intro slot hslot
  exact congrArg Ownership.owns (Option.some.inj hslot)

theorem follows_afterFetch {n : MemberNotification} {discordId : ℤ} {date : Date}
    (outcome : Outcome) :
    (afterFetch n discordId date outcome).Follows ownership now (fun _ _ => True)
      (.owns ⟨.memberNotification, n.id, date⟩) :=
  follows_afterFetch_of follows_sendNotification trivial follows_unmark

theorem follows_resolveMember {n : MemberNotification} {date : Date} :
    (resolveMember n date).Follows ownership now (fun _ _ => True)
      (.owns ⟨.memberNotification, n.id, date⟩) := by
  simp only [resolveMember]
  split
  next => trivial
  next discordId _ =>
    refine ⟨callOk_of_slot?_eq_none rfl, fun found => ?_⟩
    cases found with
    | true => exact follows_sendNotification
    | false =>
        exact ⟨callOk_of_slot?_eq_none rfl, fun outcome => follows_afterFetch outcome⟩

theorem follows_handleMemberNotification {n : MemberNotification} {date : Date} :
    (handleMemberNotification n date).Follows ownership now (fun _ _ => True) t := by
  refine ⟨trivial, fun inserted _ => ?_⟩
  cases inserted with
  | false => trivial
  | true => exact follows_resolveMember

theorem follows_dmBranch {guild : Bool} {date : Date} {time : Time} :
    (dmBranch guild date time).Follows ownership now (fun _ _ => True) t := by
  apply follows_dmBranch_of trivial
  refine ⟨trivial, fun _ _ => ⟨trivial, fun due _ => ?_⟩⟩
  exact follows_handleNotifications_of trivial fun _ _ _ _ => follows_handleMemberNotification

theorem follows_afterSuppression {guild : Bool} {date : Date} {time : Time}
    {kept alreadySent : List Reminder} :
    (afterSuppression guild time date kept alreadySent).Follows ownership now (fun _ _ => True) t :=
  follows_afterSuppression_of follows_handleReminders fun _ _ => follows_dmBranch

theorem follows_afterEligible {guild : Bool} {weekday : ℕ} {date : Date} {time : Time}
    {eligible : List Reminder} :
    (afterEligible guild weekday time date eligible).Follows ownership now (fun _ _ => True) t := by
  simp only [afterEligible]
  split
  next => trivial
  next kept _ =>
    split
    · exact ⟨trivial, fun alreadySent _ => follows_afterSuppression⟩
    · exact follows_afterSuppression

theorem follows_tick (now : Tick) : (tick now).Follows ownership now (fun _ _ => True) .free := by
  simp only [tick]
  split
  next =>
    have hprocess : (processTick now.guild now.nowUtc.date.weekday now.nowUtc.time.truncate
        now.nowUtc.date).Follows ownership now (fun _ _ => True) .free :=
      ⟨trivial, fun eligible _ => follows_afterEligible⟩
    exact hprocess.bind fun _ _ _ => trivial
  next => trivial

end Follows

/-! ## What ownership means for the database -/

section Owned

set_option linter.unusedSectionVars false

variable {ι : Type} [DecidableEq ι]

/-- What the table and the sends are while each instance owns what its mode says. -/
structure Owned (mode : ι → Ownership) (w : World) : Prop where
  /-- A slot has one owner. -/
  unique : ∀ {i j : ι} {slot : DaySlot}, (mode i).slot? = some slot →
    (mode j).slot? = some slot → i = j
  /-- An owned slot has a row. -/
  present : ∀ {i : ι} {slot : DaySlot}, (mode i).slot? = some slot → w.Sent slot
  /-- The row that is to be deleted is the row of the slot. -/
  row : ∀ {i : ι} {slot : DaySlot} {rowId : ℕ}, mode i = .deleting slot rowId →
    ∃ row ∈ (w.sent slot.store).rows, row.id = rowId ∧ row.key = (slot.owner, slot.date)
  /-- A settled slot has a row and no owner. -/
  settled : ∀ {slot : DaySlot}, (∃ d ∈ w.deliveries, d.Settles slot) →
    w.Sent slot ∧ ∀ i, (mode i).slot? ≠ some slot
  /-- Nothing follows a settled send. -/
  history : w.deliveries.Pairwise fun later earlier =>
    ∀ slot, earlier.Settles slot → later.slot ≠ slot

variable {mode : ι → Ownership} {w w' : World} {i j : ι} {slot : DaySlot} {t : Ownership}
  {now : Tick}

/-- After a change of the mode of `i`, a slot is owned by `i` or by its owner before. -/
theorem owner_of_update (hj : (Function.update mode i t j).slot? = some slot) :
    (j = i ∧ t.slot? = some slot) ∨ (j ≠ i ∧ (mode j).slot? = some slot) := by
  by_cases hji : j = i
  · subst hji
    rw [Function.update_self] at hj
    exact .inl ⟨rfl, hj⟩
  · rw [Function.update_of_ne hji] at hj
    exact .inr ⟨hji, hj⟩

/-- A mode that owns no more than before, or what nobody owned. -/
theorem Owned.setMode (h : Owned mode w)
    (hslot : ∀ slot, t.slot? = some slot → w.Sent slot ∧ (¬ ∃ d ∈ w.deliveries, d.Settles slot) ∧
      ∀ j, (mode j).slot? = some slot → j = i)
    (hrow : ∀ slot rowId, t = .deleting slot rowId →
      ∃ row ∈ (w.sent slot.store).rows, row.id = rowId ∧ row.key = (slot.owner, slot.date)) :
    Owned (Function.update mode i t) w where
  unique {j k slot} hj hk := by
    rcases owner_of_update hj with ⟨hji, howned⟩ | ⟨-, hbefore⟩
    · rcases owner_of_update hk with ⟨hki, -⟩ | ⟨-, hbefore⟩
      · exact hji.trans hki.symm
      · exact hji.trans ((hslot slot howned).2.2 k hbefore).symm
    · rcases owner_of_update hk with ⟨hki, howned⟩ | ⟨-, hbefore'⟩
      · exact ((hslot slot howned).2.2 j hbefore).trans hki.symm
      · exact h.unique hbefore hbefore'
  present {j slot} hj := by
    rcases owner_of_update hj with ⟨-, hj⟩ | ⟨-, hj⟩
    · exact (hslot slot hj).1
    · exact h.present hj
  row {j slot rowId} hj := by
    by_cases hji : j = i
    · subst hji
      rw [Function.update_self] at hj
      exact hrow slot rowId hj
    · rw [Function.update_of_ne hji] at hj
      exact h.row hj
  settled {slot} hsettled := by
    refine ⟨(h.settled hsettled).1, fun j hj => ?_⟩
    rcases owner_of_update hj with ⟨-, hj⟩ | ⟨-, hj⟩
    · exact (hslot slot hj).2.1 hsettled
    · exact (h.settled hsettled).2 j hj
  history := h.history

theorem Owned.release (h : Owned mode w) : Owned (Function.update mode i .free) w :=
  h.setMode (fun _ hslot => absurd hslot (by simp [Ownership.slot?]))
    (fun _ _ ht => absurd ht (by simp))

/-- An owner that goes on owning its slot. -/
theorem Owned.keep (h : Owned mode w) (ht : t.slot? = (mode i).slot?)
    (hrow : ∀ slot rowId, t = .deleting slot rowId →
      ∃ row ∈ (w.sent slot.store).rows, row.id = rowId ∧ row.key = (slot.owner, slot.date)) :
    Owned (Function.update mode i t) w := by
  refine h.setMode (fun slot hslot => ?_) hrow
  rw [ht] at hslot
  exact ⟨h.present hslot, fun hsettled => (h.settled hsettled).2 i hslot,
    fun j hj => h.unique hj hslot⟩

/-- The logs are the same. -/
theorem Owned.congr (h : Owned mode w) (hsent : w'.sent = w.sent)
    (hdeliveries : w'.deliveries = w.deliveries) : Owned mode w' where
  unique := h.unique
  present hi := (World.sent_congr hsent).mpr (h.present hi)
  row hi := by
    rw [hsent]
    exact h.row hi
  settled hsettled := by
    rw [hdeliveries] at hsettled
    exact ⟨(World.sent_congr hsent).mpr (h.settled hsettled).1, (h.settled hsettled).2⟩
  history := by
    rw [hdeliveries]
    exact h.history

/-- More rows do no harm. -/
theorem Owned.insertSent (h : Owned mode w) : Owned mode (w.insertSent slot).2 where
  unique := h.unique
  present hi := World.sent_insertSent.mpr (.inl (h.present hi))
  row hi := by
    obtain ⟨row, hrow, hid, hkey⟩ := h.row hi
    exact ⟨row, World.mem_rows_insertSent hrow, hid, hkey⟩
  settled hsettled :=
    ⟨World.sent_insertSent.mpr (.inl (h.settled hsettled).1), (h.settled hsettled).2⟩
  history := h.history

/-- **Step lemma, INSERT.**  Whoever made the row owns the slot. -/
theorem Owned.claim (h : Owned mode w) (hinserted : (w.insertSent slot).1 = true) :
    Owned (Function.update mode i (.owns slot)) (w.insertSent slot).2 := by
  -- the constraint on the slot lets one instance in only
  have hfree : ¬ w.Sent slot := (World.insertSent_fst.mp hinserted).2
  refine h.insertSent.setMode (fun slot' hslot => ?_) (fun _ _ ht => absurd ht (by simp))
  obtain rfl := Option.some.inj hslot
  refine ⟨World.sent_insertSent.mpr (.inr ⟨hinserted, rfl⟩), ?_, ?_⟩
  · intro hsettled
    exact hfree (h.settled hsettled).1
  · intro j hj
    exact absurd (h.present hj) hfree

/-- A slot that is given up has no owner left. -/
theorem Owned.ne_of_update_free (h : Owned mode w) (hi : (mode i).slot? = some slot)
    {slot' : DaySlot} (hj : (Function.update mode i .free j).slot? = some slot') :
    slot' ≠ slot := by
  rintro rfl
  rcases owner_of_update hj with ⟨-, hfree⟩ | ⟨hji, hj⟩
  · exact absurd hfree (by simp [Ownership.slot?])
  · exact hji (h.unique hj hi)

/-- **Step lemma, DELETE.**  The owner's own row goes, and no other. -/
theorem Owned.deleteSent (h : Owned mode w) {rowId : ℕ} (hi : mode i = .deleting slot rowId) :
    Owned (Function.update mode i .free) (w.deleteSent slot.store rowId) := by
  obtain ⟨row, hrow, rfl, hkey⟩ := h.row hi
  obtain ⟨howner, hdate⟩ := Prod.mk.inj hkey
  have hmine : (mode i).slot? = some slot := by rw [hi]; rfl
  have hsent : ∀ slot', w.Sent slot' → slot' ≠ slot →
      (w.deleteSent slot.store row.id).Sent slot' := by
    intro slot' hsent hne
    refine (World.sent_deleteSent hrow).mpr ⟨hsent, ?_⟩
    rw [howner, hdate]
    exact hne
  have hfree : Owned (Function.update mode i .free) w := h.release
  exact {
    unique := hfree.unique
    present := fun hj => hsent _ (hfree.present hj) (h.ne_of_update_free hmine hj)
    row := by
      intro j slot' rowId' hj
      obtain ⟨row', hrow', hid', hkey'⟩ := hfree.row hj
      refine ⟨row', World.mem_rows_deleteSent.mpr ⟨hrow', fun hstore hid => ?_⟩, hid', hkey'⟩
      rw [hstore] at hrow'
      obtain rfl := World.row_unique hrow hrow' hid
      obtain ⟨howner', hdate'⟩ := Prod.mk.inj hkey'
      -- one row for two slots: they are the same slot
      have howned : (Function.update mode i .free j).slot? = some slot' := by rw [hj]; rfl
      refine h.ne_of_update_free hmine howned ?_
      cases slot
      cases slot'
      simp_all
    settled := fun hsettled =>
      ⟨hsent _ (hfree.settled hsettled).1
        (fun heq => (h.settled hsettled).2 i (by rw [heq]; exact hmine)),
        (hfree.settled hsettled).2⟩
    history := hfree.history }

theorem Delivery.Settles.slot_eq {d : Delivery} (h : d.Settles slot) : slot = d.slot := by
  cases d with
  | started _ => exact absurd h (by simp [Delivery.Settles])
  | reported slot' outcome => exact h.1.symm

/-- **Step lemma, send.**  Only the owner of a slot is heard of it. -/
theorem Owned.record (h : Owned mode w) {d : Delivery} (hi : (mode i).slot? = some d.slot)
    (ht : t.slot? = some d.slot → ¬ d.Settles d.slot) (hfree : t.slot? = some d.slot ∨ t = .free)
    (hrow : ∀ slot rowId, t ≠ .deleting slot rowId) :
    Owned (Function.update mode i t) (w.record d) := by
  -- first the mode, then the record of the send
  have hbefore : Owned (Function.update mode i t) w := by
    refine h.setMode (fun slot hslot => ?_) (fun slot rowId heq => absurd heq (hrow slot rowId))
    have heq : (mode i).slot? = some slot := by
      rcases hfree with hkept | rfl
      · rw [hi, ← hkept, hslot]
      · exact absurd hslot (by simp [Ownership.slot?])
    exact ⟨h.present heq, fun hsettled => (h.settled hsettled).2 i heq,
      fun j hj => h.unique hj heq⟩
  exact {
    unique := hbefore.unique
    present := hbefore.present
    row := hbefore.row
    settled := by
      rintro slot ⟨d', hmem, hsettles⟩
      rcases List.mem_cons.mp hmem with rfl | hmem
      · obtain rfl := hsettles.slot_eq
        refine ⟨h.present hi, fun j hj => ?_⟩
        rcases owner_of_update hj with ⟨-, hj⟩ | ⟨hji, hj⟩
        · exact ht hj hsettles
        · exact hji (h.unique hj hi)
      · exact hbefore.settled ⟨d', hmem, hsettles⟩
    history := by
      refine List.pairwise_cons.mpr ⟨fun earlier hmem slot hsettles heq => ?_, h.history⟩
      rw [heq] at hi
      exact (h.settled ⟨earlier, hmem, hsettles⟩).2 i hi }

theorem Owned.start {reminders : ReminderTable} {memberNotifications : NotificationTable}
    {sent : SentStore → SentTable} :
    Owned (fun _ : ι => .free) ⟨reminders, memberNotifications, sent, []⟩ where
  unique h := absurd h (by simp [Ownership.slot?])
  present h := absurd h (by simp [Ownership.slot?])
  row h := absurd h (by simp)
  settled h := absurd h (by simp)
  history := .nil

/-- **Step lemma, operations.** -/
theorem Owned.exec (h : Owned mode w) (o : SchedulerOp) (ho : ownership.opOk now (mode i) o) :
    Owned (Function.update mode i (ownership.afterOp (mode i) o (w.exec o).1)) (w.exec o).2 := by
  cases o with
  | selectEligible _ _ _ => exact h.keep rfl fun _ _ => h.row
  | selectSentTankEnd _ _ _ => exact h.keep rfl fun _ _ => h.row
  | refresh _ => exact h.keep rfl fun _ _ => h.row
  | selectCandidates _ => exact h.keep rfl fun _ _ => h.row
  | insertSent slot =>
      cases hinserted : (w.insertSent slot).1 with
      | true =>
          simp only [ownership, World.exec, hinserted]
          exact h.claim hinserted
      | false =>
          simp only [ownership, World.exec, hinserted]
          exact h.insertSent.release
  | firstSent slot =>
      have hmine : mode i = .owns slot := ho
      simp only [ownership, World.exec]
      cases hfirst : w.firstSent slot with
      | none => exact h.release
      | some row =>
          obtain ⟨hrow, hkey⟩ := SentTable.mem_of_first hfirst
          refine h.keep (by rw [hmine]; rfl) ?_
          rintro _ _ heq
          obtain ⟨rfl, rfl⟩ := Ownership.deleting.inj heq
          exact ⟨row, hrow, rfl, hkey⟩
  | deleteSent store rowId =>
      obtain ⟨slot, hmine, rfl⟩ := ho
      exact h.deleteSent hmine

/-- **Step lemma, calls.**  A send is recorded when it starts. -/
theorem Owned.issue (h : Owned mode w) (call : SchedulerCall)
    (hcall : ownership.callOk now (mode i) call) : Owned mode (w.issue call) := by
  have hstart : ∀ slot, call.slot? = some slot → Owned mode (w.record (.started slot)) := by
    intro slot hslot
    have hmine : mode i = .owns slot := hcall slot hslot
    have hrecord : Owned (Function.update mode i (mode i)) (w.record (.started slot)) := by
      refine h.record (by rw [hmine]; rfl) (fun _ => id) (.inl (by rw [hmine]; rfl)) ?_
      intro _ _ heq
      rw [hmine] at heq
      exact absurd heq (by simp)
    rwa [Function.update_eq_self] at hrecord
  cases call with
  | channelSend slot _ _ _ => exact hstart slot rfl
  | memberSend slot _ _ => exact hstart slot rfl
  | getChannel _ _ => exact h
  | getMember _ _ => exact h
  | fetchMember _ _ => exact h

/-- **Step lemma, answers.**  A settled send ends ownership, a transient failure leaves
it to the one who is going to delete the row. -/
theorem Owned.complete (h : Owned mode w) (call : SchedulerCall) (answer : call.Ans)
    (hcall : ownership.callOk now (mode i) call) :
    Owned (Function.update mode i (ownership.afterCall (mode i) call answer))
      (w.complete call answer) := by
  have hreport : ∀ slot (outcome : Outcome), call.slot? = some slot →
      Owned (Function.update mode i ((mode i).afterOutcome outcome))
        (w.record (.reported slot outcome)) := by
    intro slot outcome hslot
    have hmine : mode i = .owns slot := hcall slot hslot
    rw [hmine]
    refine h.record (by rw [hmine]; rfl) ?_ ?_ ?_
    · rintro hkept ⟨-, hsettled⟩
      exact absurd hkept (by simp [Ownership.afterOutcome, hsettled, Ownership.slot?])
    · by_cases hsettled : Settled outcome
      · exact .inr (by simp [Ownership.afterOutcome, hsettled])
      · exact .inl (by simp [Ownership.afterOutcome, hsettled, Ownership.slot?, Delivery.slot])
    · intro _ _ heq
      by_cases hsettled : Settled outcome <;> simp [Ownership.afterOutcome, hsettled] at heq
  cases call with
  | channelSend slot _ _ _ => exact hreport slot answer rfl
  | memberSend slot _ _ => exact hreport slot answer rfl
  | getChannel _ _ => exact h.keep rfl fun _ _ => h.row
  | getMember _ _ => exact h.keep rfl fun _ _ => h.row
  | fetchMember _ _ => exact h.keep rfl fun _ _ => h.row

/-- A reload gives the row of its id. -/
theorem ownership_gives (t : Ownership) (o : SchedulerOp) (w : World) :
    ownership.gives t o (w.exec o).1 := by
  cases o with
  | refresh reminderId =>
      intro r hr
      simpa using List.find?_some hr
  | _ => trivial

/-- Every event of the schedulers keeps to ownership. -/
theorem ownership_sound :
    ownership.Sound (fun _ _ => True) (Owned (ι := ι)) scheduler fun _ _ => True where
  program := follows_tick
  spawn h _ _ _ := h.holds.release
  op h _ _ ho :=
    ⟨ownership_gives _ _ _, h.holds.exec _ ho⟩
  issue h _ _ hcall := by
    show Owned (Function.update _ _ _) _
    rw [show ownership.atCall = fun t _ => t from rfl, Function.update_eq_self]
    exact h.holds.issue _ hcall
  answer h _ _ hmode hcall := by
    have hmine : _ = _ := hmode
    subst hmine
    exact h.holds.complete _ _ hcall
  finish h _ _ _ := h.holds.release
  outside h _ hedited := h.holds.congr hedited.sent hedited.deliveries

/-- **Run lemma.**  In every reachable configuration the tasks own what `Owned` says. -/
theorem exists_owned {reminders : ReminderTable} {memberNotifications : NotificationTable}
    {sent : SentStore → SentTable} {c : Config schedulerEffects World ι Tick TickEnd}
    (h : scheduler.Reachable (fun _ _ => True) ⟨reminders, memberNotifications, sent, []⟩ c) :
    ∃ mode, ownership.Governs (fun _ _ => True) Owned mode c :=
  Protocol.governed ownership_sound Owned.start h

/-- A send in flight is its slot's owner's. -/
theorem slot_of_inFlight {c : Config schedulerEffects World ι Tick TickEnd}
    (h : ownership.Governs (fun _ _ => True) Owned mode c) (hi : InFlight slot (c.task i)) :
    (mode i).slot? = some slot := by
  obtain ⟨t, call, next, htask, hslot⟩ := hi
  obtain ⟨before, hmode, hcall⟩ := h.atCall htask
  have hmine : mode i = before := hmode
  rw [hmine, hcall slot hslot]
  rfl

/-- Where nothing follows a settled send, only one can have succeeded. -/
theorem count_succeeded_le_one {deliveries : List Delivery}
    (h : deliveries.Pairwise fun later earlier =>
      ∀ slot, earlier.Settles slot → later.slot ≠ slot) :
    deliveries.count (.reported slot (.ok ())) ≤ 1 := by
  induction h with
  | nil => simp
  | @cons d earlier hfirst _ ih =>
      by_cases hd : d = .reported slot (.ok ())
      · subst hd
        have hnone : .reported slot (.ok ()) ∉ earlier := by
          intro hmem
          exact hfirst _ hmem slot ⟨rfl, trivial⟩ rfl
        rw [List.count_cons_self, List.count_eq_zero.mpr hnone]
      · rw [List.count_cons_of_ne hd]
        exact ih

/-- Any number of scheduler instances, in any order of their steps and whatever the sends
and the lookups report: for every slot at most one send succeeds and at most one is in
flight, and once a send is settled its row is there, nothing is in flight and nothing
was started since. -/
theorem scheduler_at_most_once {reminders : ReminderTable}
    {memberNotifications : NotificationTable} {sent : SentStore → SentTable}
    {c : Config schedulerEffects World ι Tick TickEnd}
    (h : scheduler.Reachable (fun _ _ => True) ⟨reminders, memberNotifications, sent, []⟩ c)
    (slot : DaySlot) :
    c.shared.deliveries.count (.reported slot (.ok ())) ≤ 1 ∧
      (∀ i j, InFlight slot (c.task i) → InFlight slot (c.task j) → i = j) ∧
      ∀ later earlier outcome, c.shared.deliveries = later ++ .reported slot outcome :: earlier →
        Settled outcome →
        c.shared.Sent slot ∧ (∀ i, ¬ InFlight slot (c.task i)) ∧
          ∀ d ∈ later, d.slot ≠ slot := by
  obtain ⟨mode, hgoverns⟩ := exists_owned h
  have howned := hgoverns.holds
  refine ⟨count_succeeded_le_one howned.history, ?_, ?_⟩
  · intro i j hi hj
    exact howned.unique (slot_of_inFlight hgoverns hi) (slot_of_inFlight hgoverns hj)
  · intro later earlier outcome hsplit hsettled
    have hmem : .reported slot outcome ∈ c.shared.deliveries := by simp [hsplit]
    obtain ⟨hsent, hnone⟩ := howned.settled ⟨_, hmem, rfl, hsettled⟩
    refine ⟨hsent, fun i hi => hnone i (slot_of_inFlight hgoverns hi), fun d hd => ?_⟩
    have hhistory := howned.history
    rw [hsplit, List.pairwise_append] at hhistory
    exact hhistory.2.2 d hd (.reported slot outcome) (by simp) slot ⟨rfl, hsettled⟩

end Owned

/-- A Wednesday reminder at midnight, and nothing else. -/
def wednesdayReminder : Reminder where
  id := 1
  channelId := 5
  weekday := 2
  fireTimeUtc := .midnight
  messageTemplate := "Chimera"
  roleMentionId := none
  monthCondition := none

/-- The table of `wednesdayReminder`. -/
def wednesdayTable : ReminderTable := ⟨[wednesdayReminder], by decide⟩

/-- A table without notifications. -/
def noNotifications : NotificationTable := ⟨[], by decide⟩

/-- Nothing was sent yet. -/
def emptyLog (_ : SentStore) : SentTable := ⟨[], 0, by decide, by decide, by simp⟩

/-- Wednesday, 2026-07-08, 12:00. -/
def wednesdayTick : Tick where
  ready := true
  nowUtc := ⟨⟨739805, by decide⟩, Time.noon⟩
  guild := false

/-- Every lookup finds, and every send succeeds. -/
def allSucceed : (call : SchedulerCall) → call.Ans
  | .getChannel _ _ | .getMember _ _ => true
  | .channelSend _ _ _ _ | .fetchMember _ _ | .memberSend _ _ _ => (.ok () : Outcome)

/-- Both instances see the reminder due; `true` wins the race and sends. -/
def raceSchedule : List (Event schedulerEffects World Bool Tick) :=
  [.spawn true wednesdayTick, .spawn false wednesdayTick, .op true, .op false, .op true, .op false,
    .op false, .op true, .issue true, .answer true allSucceed, .issue true,
    .answer true allSucceed]

theorem scheduler_at_most_once_race : ∃ c, scheduler.Reachable (ι := Bool) (fun _ _ => True)
      ⟨wednesdayTable, noNotifications, emptyLog, []⟩ c ∧
    c.shared.deliveries = [.reported ⟨.reminder, 1, ⟨739805, by decide⟩⟩ (.ok ()),
      .started ⟨.reminder, 1, ⟨739805, by decide⟩⟩] ∧
    c.shared.Sent ⟨.reminder, 1, ⟨739805, by decide⟩⟩ := by
  have hrun : (scheduler.run (.start ⟨wednesdayTable, noNotifications, emptyLog, []⟩)
      raceSchedule).map (·.shared.deliveries) =
      some [.reported ⟨.reminder, 1, ⟨739805, by decide⟩⟩ (.ok ()),
        .started ⟨.reminder, 1, ⟨739805, by decide⟩⟩] := by
    decide +kernel
  obtain ⟨c, hrun, hdeliveries⟩ := Option.map_eq_some_iff.mp hrun
  have hreachable : scheduler.Reachable (fun _ _ => True) _ c :=
    Concurrent.Reachable.start.run (fun _ _ => trivial) rfl hrun
  exact ⟨c, hreachable, hdeliveries,
    ((scheduler_at_most_once hreachable ⟨.reminder, 1, ⟨739805, by decide⟩⟩).2.2 [] _ _ hdeliveries
      trivial).1⟩

end MomBot.Reminders
