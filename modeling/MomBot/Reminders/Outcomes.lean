import MomBot.Cooperative.Abort
import MomBot.Reminders.AtMostOnce

/-!
# What becomes of a claimed slot

A handler claims the row of its slot, looks the channel or the member up and
sends.  Run alone, it leaves the row unless one of its calls raised a transient
error, and it touches no other row (`Filing`).  The same holds of both handlers:
each is a claim, perhaps a lookup, and `afterSend` (`runs_afterSend`).

The loop over the due notifications goes on whatever an entry did.  `Attempts`
records it as a list of handler runs, one an entry, and `Attempts.sent_iff` adds
up what they leave.  A tick reads its due list once, the channel branch before
touches no row of a notification (`channelPhase_keeps`), so every claim of the
loop succeeds.
-/

namespace MomBot.Reminders

open Cooperative Python MemberNotifications

/-! ## Outcomes -/

/-- What a call raised; the cache lookups raise nothing. -/
def raisedBy : (call : SchedulerCall) → call.Ans → Option Raised
  | .channelSend _ _ _ _, .error exc | .fetchMember _ _, .error exc
  | .memberSend _ _ _, .error exc => some exc
  | .channelSend _ _ _ _, .ok () | .fetchMember _ _, .ok () | .memberSend _ _ _, .ok () => none
  | .getChannel _ _, _ | .getMember _ _, _ => none

/-- The status that a `discord.HTTPException` carries. -/
def httpStatus : Raised → Option ℕ
  | .forbidden => some 403
  | .notFound => some 404
  | .httpException status => some status
  | _ => none

/-- `TimeoutError`, `discord.RateLimited`, `aiohttp.ClientError`, or an HTTP error of
the server. -/
def TransientError (exc : Raised) : Prop :=
  exc = .timeout ∨ exc = .rateLimited ∨ exc = .clientError ∨
    ∃ status, httpStatus exc = some status ∧ 500 ≤ status

/-- The order of the `except` clauses classifies every exception as it should. -/
theorem isTransient_iff {exc : Raised} : isTransient exc = true ↔ TransientError exc := by
  cases exc <;> simp [isTransient, TransientError, httpStatus]

theorem isCancelled_iff {exc : Raised} : exc.isCancelled = true ↔ exc = .cancelled := by
  cases exc <;> simp [Raised.isCancelled]

theorem isCancelled_of_transient {exc : Raised} (h : isTransient exc = true) :
    exc.isCancelled = false := by
  cases exc <;> simp_all [isTransient, Raised.isCancelled]

/-- One of the calls raised a transient error. -/
def Transient (trace : List (Exchange schedulerEffects)) : Prop :=
  ∃ exchange ∈ trace, ∃ exc, raisedBy exchange.1 exchange.2 = some exc ∧ TransientError exc

/-- No call was cancelled. -/
def NotCancelled (trace : List (Exchange schedulerEffects)) : Prop :=
  ∀ exchange ∈ trace, raisedBy exchange.1 exchange.2 ≠ some .cancelled

@[simp] theorem not_transient_nil : ¬Transient [] := by
  simp [Transient]

theorem transient_cons {exchange : Exchange schedulerEffects}
    {rest : List (Exchange schedulerEffects)} :
    Transient (exchange :: rest) ↔
      (∃ exc, raisedBy exchange.1 exchange.2 = some exc ∧ TransientError exc) ∨ Transient rest := by
  simp [Transient]

theorem NotCancelled.tail {exchange : Exchange schedulerEffects}
    {rest : List (Exchange schedulerEffects)} (h : NotCancelled (exchange :: rest)) :
    NotCancelled rest :=
  fun other hmem => h other (List.mem_cons_of_mem _ hmem)

/-! ## The rows of the logs -/

variable {w w₁ w' : World} {slot : DaySlot} {trace : List (Exchange schedulerEffects)}
  {date : Date}

/-- The slot that a row of a log is for. -/
def rowSlot (store : SentStore) (row : SentRow) : DaySlot := ⟨store, row.owner, row.date⟩

/-- The rows of all other slots are the same. -/
def SameElsewhere (slot : DaySlot) (w w' : World) : Prop :=
  ∀ store row, rowSlot store row ≠ slot →
    (row ∈ (w'.sent store).rows ↔ row ∈ (w.sent store).rows)

theorem SameElsewhere.trans (h : SameElsewhere slot w w₁) (h' : SameElsewhere slot w₁ w') :
    SameElsewhere slot w w' :=
  fun store row hne => (h' store row hne).trans (h store row hne)

theorem sameElsewhere_of_sent (h : w'.sent = w.sent) : SameElsewhere slot w w' :=
  fun _ _ _ => by rw [h]

/-- Whether a slot is sent is a matter of its own rows. -/
theorem sent_iff_of_rows
    (h : ∀ row, rowSlot slot.store row = slot →
      (row ∈ (w'.sent slot.store).rows ↔ row ∈ (w.sent slot.store).rows)) :
    w'.Sent slot ↔ w.Sent slot := by
  have hkey : ∀ {v : World}, v.Sent slot ↔
      ∃ row ∈ (v.sent slot.store).rows, rowSlot slot.store row = slot := by
    intro v
    obtain ⟨store, owner, d⟩ := slot
    simp [World.Sent, SentTable.keys, SentRow.key, rowSlot]
  rw [hkey, hkey]
  constructor
  · rintro ⟨row, hrow, hslot⟩
    exact ⟨row, (h row hslot).mp hrow, hslot⟩
  · rintro ⟨row, hrow, hslot⟩
    exact ⟨row, (h row hslot).mpr hrow, hslot⟩

theorem SameElsewhere.sent {slot' : DaySlot} (h : SameElsewhere slot w w') (hne : slot' ≠ slot) :
    w'.Sent slot' ↔ w.Sent slot' :=
  sent_iff_of_rows fun row hslot => h slot'.store row (hslot ▸ hne)

theorem mem_rows_insert_of_ne {t : SentTable} {ownerExists : Bool} {owner : ℤ} {row : SentRow}
    (hne : row.key ≠ (owner, date)) :
    row ∈ (t.insert ownerExists owner date).2.rows ↔ row ∈ t.rows := by
  unfold SentTable.insert
  split
  · rw [List.mem_append, List.mem_singleton]
    refine or_iff_left ?_
    rintro rfl
    exact hne rfl
  · rfl

theorem sameElsewhere_insertSent : SameElsewhere slot w (w.insertSent slot).2 := by
  intro store row hne
  by_cases hstore : store = slot.store
  · subst hstore
    have hkey : row.key ≠ (slot.owner, slot.date) := by
      intro heq
      obtain ⟨howner, hdate⟩ := Prod.mk.inj heq
      exact hne (by rw [rowSlot, howner, hdate])
    simpa [World.insertSent, World.setSent] using mem_rows_insert_of_ne hkey
  · simp [World.insertSent, World.setSent, hstore]

/-- `unmark` deletes the row of its slot. -/
theorem runs_unmark {value : Unit}
    (h : (unmark slot).Runs schedulerMachine w trace value w') :
    trace = [] ∧ ¬w'.Sent slot ∧ SameElsewhere slot w w' := by
  have hexec : schedulerMachine.exec (.firstSent slot) w = (w.firstSent slot, w) := rfl
  rw [unmark, Coroutine.runs_op, hexec] at h
  cases hfirst : w.firstSent slot with
  | none =>
      simp only [hfirst] at h
      obtain ⟨rfl, -, rfl⟩ := h
      refine ⟨rfl, ?_, sameElsewhere_of_sent rfl⟩
      intro hsent
      obtain ⟨row, hrow, hkey⟩ := List.mem_map.mp hsent
      have hnot := List.find?_eq_none.mp hfirst row hrow
      exact hnot (by simpa using hkey)
  | some row =>
      simp only [hfirst] at h
      obtain ⟨rfl, -, rfl⟩ := h
      obtain ⟨hrow, hkey⟩ := SentTable.mem_of_first hfirst
      obtain ⟨howner, hdate⟩ := Prod.mk.inj hkey
      have hslot : rowSlot slot.store row = slot := by rw [rowSlot, howner, hdate]
      refine ⟨rfl, ?_, ?_⟩
      · intro hsent
        exact ((World.sent_deleteSent hrow).mp hsent).2 hslot.symm
      · intro store other hne
        refine World.mem_rows_deleteSent.trans (and_iff_left_of_imp fun hother => ?_)
        rintro rfl hid
        obtain rfl := World.row_unique hrow hother hid
        exact hne hslot

/-! ## What a handler leaves -/

/-- A handler that claimed its slot has ended: its row is gone exactly after a
transient error, and no other row differs. -/
structure Filing (slot : DaySlot) (w : World) (trace : List (Exchange schedulerEffects))
    (value : Except Failure Unit) (w' : World) : Prop where
  absent_iff : ¬w'.Sent slot ↔ Transient trace
  elsewhere : SameElsewhere slot w w'
  notCancelled : NotCancelled trace → ∀ failure, value = .error failure →
    failure.isCancelled = false

/-- A handler that ends without another call keeps its row. -/
theorem Filing.kept {value : Except Failure Unit} (hsent : w.Sent slot)
    (hvalue : ∀ failure, value = .error failure → failure.isCancelled = false) :
    Filing slot w [] value w where
  absent_iff := iff_of_false (not_not.mpr hsent) not_transient_nil
  elsewhere := sameElsewhere_of_sent rfl
  notCancelled _ := hvalue

section Raised

variable {call : SchedulerCall} {answer : call.Ans} {exc : Raised} {value : Except Failure Unit}

/-- A transient error deletes the row, and is raised again. -/
theorem Filing.transient (hsame : w₁.sent = w.sent) (hraised : raisedBy call answer = some exc)
    (htransient : isTransient exc = true)
    (h : (do unmark slot; return .error (.raised exc) : SchedulerM _).Runs schedulerMachine w₁ trace
      value w') : Filing slot w (⟨call, answer⟩ :: trace) value w' := by
  obtain ⟨first, _, w₂, second, rfl, hunmark, rfl, rfl, rfl⟩ := Coroutine.runs_bind.mp h
  obtain ⟨rfl, hgone, helsewhere⟩ := runs_unmark hunmark
  refine ⟨iff_of_true hgone ?_, (sameElsewhere_of_sent hsame).trans helsewhere, ?_⟩
  · exact transient_cons.mpr (.inl ⟨exc, hraised, isTransient_iff.mp htransient⟩)
  · rintro - failure ⟨⟩
    exact isCancelled_of_transient htransient

/-- After any other exception the row stays, whether the exception is raised again or
dropped. -/
theorem Filing.permanent (hsent : w.Sent slot) (hsame : w'.sent = w.sent)
    (hraised : raisedBy call answer = some exc) (hpermanent : ¬isTransient exc = true)
    (hvalue : ∀ failure, value = .error failure → failure = .raised exc) :
    Filing slot w [⟨call, answer⟩] value w' := by
  -- the handler makes this one call, so nothing else can have been transient
  have hnot : ¬Transient [⟨call, answer⟩] := by
    rintro ⟨exchange, hmem, exc', hraised', htransient⟩
    obtain rfl := List.mem_singleton.mp hmem
    obtain rfl := Option.some.inj (hraised.symm.trans hraised')
    exact hpermanent (isTransient_iff.mpr htransient)
  refine ⟨iff_of_false (not_not.mpr ((World.sent_congr hsame).mpr hsent)) hnot,
    sameElsewhere_of_sent hsame, fun hnone failure hfailure => ?_⟩
  obtain rfl := hvalue failure hfailure
  by_contra hcancelled
  obtain rfl := isCancelled_iff.mp (by simpa [Failure.isCancelled] using hcancelled)
  exact hnone _ (List.mem_singleton_self _) hraised

/-- What the handlers around a send do with its outcome. -/
theorem runs_afterSend {outcome : Outcome} (hsent : w.Sent slot)
    (houtcome : ∀ exc, raisedBy call answer = some exc ↔ outcome = .error exc)
    (h : (afterSend (unmark slot) outcome).Runs schedulerMachine w₁ trace value w')
    (hsame : w₁.sent = w.sent) : Filing slot w (⟨call, answer⟩ :: trace) value w' := by
  cases outcome with
  | ok =>
      obtain ⟨rfl, rfl, rfl⟩ := h
      have hsent' : w'.Sent slot := (World.sent_congr hsame).mpr hsent
      refine ⟨iff_of_false (not_not.mpr hsent') ?_, sameElsewhere_of_sent hsame, by simp⟩
      simp [transient_cons, houtcome]
  | error exc =>
      have hraised : raisedBy call answer = some exc := (houtcome exc).mpr rfl
      simp only [afterSend] at h
      split at h
      next htransient => exact .transient hsame hraised htransient h
      next hpermanent =>
        split at h
        next =>
          obtain ⟨rfl, rfl, rfl⟩ := h
          exact .permanent hsent hsame hraised hpermanent fun _ heq => (Except.error.inj heq).symm
        next =>
          obtain ⟨rfl, rfl, rfl⟩ := h
          exact .permanent hsent hsame hraised hpermanent (by simp)

end Raised

/-- What a call before the rest of a handler did, when it raised nothing. -/
theorem Filing.cons {call : SchedulerCall} {answer : call.Ans} {value : Except Failure Unit}
    (hsent : w₁.sent = w.sent) (hnone : raisedBy call answer = none)
    (h : Filing slot w₁ trace value w') : Filing slot w (⟨call, answer⟩ :: trace) value w' where
  absent_iff := h.absent_iff.trans (by simp [transient_cons, hnone])
  elsewhere := (sameElsewhere_of_sent hsent).trans h.elsewhere
  notCancelled hnot := h.notCancelled hnot.tail

theorem raisedBy_memberSend {discordId : ℤ} {message : String} {outcome : Outcome} (exc : Raised) :
    raisedBy (.memberSend slot discordId message) outcome = some exc ↔ outcome = .error exc := by
  cases outcome <;> simp [raisedBy]

theorem raisedBy_channelSend {channelId : ℤ} {message : String} {mention : Bool} {outcome : Outcome}
    (exc : Raised) :
    raisedBy (.channelSend slot channelId message mention) outcome = some exc ↔
      outcome = .error exc := by
  cases outcome <;> simp [raisedBy]

/-! ## The two handlers -/

section Handlers

theorem runs_markSent {α : Type} {f : Bool → SchedulerM α} {returned : α} :
    (markSent slot >>= f).Runs schedulerMachine w trace returned w' ↔
      (f (w.insertSent slot).1).Runs schedulerMachine (w.insertSent slot).2 trace returned w' :=
  Iff.rfl

theorem runs_refresh {α : Type} {reminderId : ℤ} {f : Option Reminder → SchedulerM α}
    {returned : α} :
    (refresh reminderId >>= f).Runs schedulerMachine w trace returned w' ↔
      (f (w.reminders.rows.find? fun r => r.id = reminderId)).Runs schedulerMachine w trace returned
        w' :=
  Iff.rfl

variable {value : Except Failure Unit} {reminder : Reminder} {notif : MemberNotification}
  {discordId : ℤ}

theorem runs_sendReminder (hsent : w.Sent ⟨.reminder, reminder.id, date⟩)
    (h : (sendReminder reminder date).Runs schedulerMachine w trace value w') :
    Filing ⟨.reminder, reminder.id, date⟩ w trace value w' := by
  obtain ⟨found, rest, rfl, hrest⟩ := h
  have hnone : raisedBy (.getChannel ⟨.reminder, reminder.id, date⟩ reminder.channelId) found =
      none := rfl
  refine Filing.cons rfl hnone ?_
  cases found with
  | false =>
      obtain ⟨rfl, rfl, rfl⟩ := hrest
      exact .kept hsent (by simp)
  | true =>
      obtain ⟨outcome, rest, rfl, hrest⟩ := hrest
      exact runs_afterSend hsent raisedBy_channelSend hrest rfl

theorem runs_sendNotification (hsent : w.Sent ⟨.memberNotification, notif.id, date⟩)
    (h : (sendNotification notif discordId date).Runs schedulerMachine w trace value w') :
    Filing ⟨.memberNotification, notif.id, date⟩ w trace value w' := by
  obtain ⟨outcome, rest, rfl, hrest⟩ := h
  exact runs_afterSend hsent raisedBy_memberSend hrest rfl

/-- The handlers around `fetch_member`. -/
theorem runs_afterFetch {outcome : Outcome} (hsent : w.Sent ⟨.memberNotification, notif.id, date⟩)
    (h : (afterFetch notif discordId date outcome).Runs schedulerMachine w trace value w') :
    Filing ⟨.memberNotification, notif.id, date⟩ w
      (⟨.fetchMember ⟨.memberNotification, notif.id, date⟩ discordId, outcome⟩ :: trace)
      value w' := by
  cases outcome with
  | ok =>
      exact Filing.cons rfl rfl (runs_sendNotification hsent h)
  | error exc =>
      have hraised : raisedBy (.fetchMember ⟨.memberNotification, notif.id, date⟩ discordId)
          (.error exc) = some exc := rfl
      simp only [afterFetch] at h
      split at h
      next htransient => exact .transient rfl hraised htransient h
      next hpermanent =>
        split at h
        next =>
          obtain ⟨rfl, rfl, rfl⟩ := h
          exact .permanent hsent rfl hraised hpermanent (by simp)
        next =>
          obtain ⟨rfl, rfl, rfl⟩ := h
          exact .permanent hsent rfl hraised hpermanent fun _ heq => (Except.error.inj heq).symm

theorem runs_resolveMember (hsent : w.Sent ⟨.memberNotification, notif.id, date⟩)
    (h : (resolveMember notif date).Runs schedulerMachine w trace value w') :
    Filing ⟨.memberNotification, notif.id, date⟩ w trace value w' := by
  unfold resolveMember at h
  split at h
  next =>
    obtain ⟨rfl, rfl, rfl⟩ := h
    exact .kept hsent (by rintro failure ⟨⟩; rfl)
  next discordId hint =>
    obtain ⟨cached, rest, rfl, hrest⟩ := h
    have hnone : raisedBy (.getMember ⟨.memberNotification, notif.id, date⟩ discordId) cached =
        none := rfl
    refine Filing.cons rfl hnone ?_
    cases cached with
    | true => exact runs_sendNotification hsent hrest
    | false =>
        obtain ⟨outcome, rest, rfl, hrest⟩ := hrest
        exact runs_afterFetch hsent hrest

/-- The claim changes no other row. -/
theorem Filing.of_claim (h : Filing slot (w.insertSent slot).2 trace value w') :
    Filing slot w trace value w' where
  absent_iff := h.absent_iff
  elsewhere := sameElsewhere_insertSent.trans h.elsewhere
  notCancelled := h.notCancelled

/-- **Notifications.**  A handler whose claim succeeded. -/
theorem handleMemberNotification_filing
    (hclaim : (w.insertSent ⟨.memberNotification, notif.id, date⟩).1 = true)
    (h : (handleMemberNotification notif date).Runs schedulerMachine w trace value w') :
    Filing ⟨.memberNotification, notif.id, date⟩ w trace value w' := by
  rw [handleMemberNotification, MemberNotificationSentStore.markSent, runs_markSent,
    if_pos hclaim] at h
  exact .of_claim (runs_resolveMember (World.sent_insertSent.mpr (.inr ⟨hclaim, rfl⟩)) h)

/-- The row of a claimed reminder is there to be loaded again. -/
theorem find_of_claim (hclaim : (w.insertSent ⟨.reminder, reminder.id, date⟩).1 = true) :
    ∃ loaded, w.reminders.rows.find? (fun r => r.id = reminder.id) = some loaded ∧
      loaded.id = reminder.id := by
  obtain ⟨howner, -⟩ := World.insertSent_fst.mp hclaim
  obtain ⟨r, hr, hid⟩ := List.mem_map.mp howner
  cases hfind : w.reminders.rows.find? (fun r => r.id = reminder.id) with
  | none => exact absurd hid (by simpa using List.find?_eq_none.mp hfind r hr)
  | some loaded => exact ⟨loaded, rfl, by simpa using List.find?_some hfind⟩

theorem claimReminder_filing (hclaim : (w.insertSent ⟨.reminder, reminder.id, date⟩).1 = true)
    (h : (claimReminder reminder date).Runs schedulerMachine w trace value w') :
    Filing ⟨.reminder, reminder.id, date⟩ w trace value w' := by
  obtain ⟨loaded, hfind, hid⟩ := find_of_claim hclaim
  have hsent :
      (w.insertSent ⟨.reminder, reminder.id, date⟩).2.Sent ⟨.reminder, reminder.id, date⟩ :=
    World.sent_insertSent.mpr (.inr ⟨hclaim, rfl⟩)
  have hfind₁ : (w.insertSent ⟨.reminder, reminder.id, date⟩).2.reminders.rows.find?
      (fun r => r.id = reminder.id) = some loaded := hfind
  rw [claimReminder, ReminderSentStore.markSent, runs_markSent, runs_refresh, hfind₁] at h
  simp only [hclaim, if_true] at h
  refine .of_claim ?_
  rw [← hid] at hsent h ⊢
  exact runs_sendReminder hsent h

/-- **Reminders.**  A handler whose claim succeeded. -/
theorem handleReminder_filing {expired : Bool}
    (hclaim : (w.insertSent ⟨.reminder, reminder.id, date⟩).1 = true)
    (h : (handleReminder reminder expired date).Runs schedulerMachine w trace value w') :
    Filing ⟨.reminder, reminder.id, date⟩ w trace value w' := by
  cases expired with
  | false => exact claimReminder_filing hclaim h
  | true =>
      obtain ⟨loaded, hfind, hid⟩ := find_of_claim hclaim
      rw [handleReminder, if_pos rfl, runs_refresh, hfind] at h
      rw [← hid] at hclaim ⊢
      exact claimReminder_filing hclaim h

end Handlers

/-! ## The loop over the due notifications -/

/-- One entry of the loop: the notification, the calls of its handler, and how the
handler ended. -/
structure Attempt where
  notif : MemberNotification
  trace : List (Exchange schedulerEffects)
  value : Except Failure Unit

/-- The slot of an entry. -/
def Attempt.daySlot (date : Date) (attempt : Attempt) : DaySlot :=
  ⟨.memberNotification, attempt.notif.id, date⟩

/-- The handlers of the entries run one after the other. -/
inductive Attempts (date : Date) : World → List Attempt → World → Prop
  | nil {w : World} : Attempts date w [] w
  | cons {w w₁ w' : World} {attempt : Attempt} {rest : List Attempt} :
      (handleMemberNotification attempt.notif date).Runs schedulerMachine w attempt.trace
        attempt.value w₁ → Attempts date w₁ rest w' → Attempts date w (attempt :: rest) w'

/-- A handler is cancelled only by a call. -/
theorem handleMemberNotification_notCancelled {notif : MemberNotification}
    {value : Except Failure Unit} {failure : Failure}
    (h : (handleMemberNotification notif date).Runs schedulerMachine w trace value w')
    (hnot : NotCancelled trace) (hvalue : value = .error failure) :
    failure.isCancelled = false := by
  by_cases hclaim : (w.insertSent ⟨.memberNotification, notif.id, date⟩).1 = true
  · exact (handleMemberNotification_filing hclaim h).notCancelled hnot failure hvalue
  · rw [handleMemberNotification, MemberNotificationSentStore.markSent, runs_markSent,
      if_neg hclaim] at h
    obtain ⟨-, hok, -⟩ := h
    exact absurd (hok.symm.trans hvalue) (by simp)

theorem NotCancelled.of_append {first second : List (Exchange schedulerEffects)}
    (h : NotCancelled (first ++ second)) : NotCancelled first ∧ NotCancelled second :=
  ⟨fun exchange hmem => h exchange (List.mem_append_left _ hmem),
    fun exchange hmem => h exchange (List.mem_append_right _ hmem)⟩

/-- The loop attempts every entry, in the order of the list, and remembers whether
one raised. -/
theorem runs_handleNotifications {due : List MemberNotification} {completed : Bool}
    {value : Except Failure Bool}
    (h : (handleNotifications date completed due).Runs schedulerMachine w trace value w')
    (hnot : NotCancelled trace) :
    ∃ log, log.map Attempt.notif = due ∧ trace = log.flatMap Attempt.trace ∧
      Attempts date w log w' ∧
      value = .ok (completed && log.all fun attempt => attempt.value.isOk) := by
  induction due generalizing completed w trace with
  | nil =>
      obtain ⟨rfl, rfl, rfl⟩ := h
      exact ⟨[], rfl, rfl, .nil, by simp⟩
  | cons notif rest ih =>
      obtain ⟨first, mid, w₁, second, rfl, hhead, hrest⟩ := Coroutine.runs_bind.mp h
      obtain ⟨hnotFirst, hnotSecond⟩ := hnot.of_append
      cases mid with
      | ok =>
          obtain ⟨log, hlog, rfl, hattempts, rfl⟩ := ih hrest hnotSecond
          exact ⟨⟨notif, first, .ok ()⟩ :: log, by simp [hlog], rfl, .cons hhead hattempts,
            by simp [Except.isOk, Except.toBool]⟩
      | error failure =>
          -- only a cancellation leaves the loop, any other failure is recorded and passed over
          have hcancelled := handleMemberNotification_notCancelled hhead hnotFirst rfl
          simp only [hcancelled, Bool.false_eq_true, if_false] at hrest
          obtain ⟨log, hlog, rfl, hattempts, rfl⟩ := ih hrest hnotSecond
          exact ⟨⟨notif, first, .error failure⟩ :: log, by simp [hlog], rfl, .cons hhead hattempts,
            by simp [Except.isOk, Except.toBool]⟩

theorem exec_memberNotifications (o : SchedulerOp) (w : World) :
    (w.exec o).2.memberNotifications = w.memberNotifications := by
  cases o <;> rfl

theorem issue_memberNotifications (call : SchedulerCall) (w : World) :
    (w.issue call).memberNotifications = w.memberNotifications := by
  cases call <;> rfl

theorem complete_memberNotifications (call : SchedulerCall) (answer : call.Ans) (w : World) :
    (w.complete call answer).memberNotifications = w.memberNotifications := by
  cases call <;> rfl

/-- A run changes no schedule. -/
theorem runs_memberNotifications {α : Type} {p : SchedulerM α} {value : α}
    (h : p.Runs schedulerMachine w trace value w') :
    w'.memberNotifications = w.memberNotifications := by
  refine h.keeps (fun v => v.memberNotifications = w.memberNotifications) p.uses_true ?_ ?_ rfl
  · intro o v _ hsame
    exact (exec_memberNotifications o v).trans hsame
  · intro call answer v _ hsame
    calc ((v.issue call).complete call answer).memberNotifications
        = (v.issue call).memberNotifications := complete_memberNotifications call answer _
      _ = v.memberNotifications := issue_memberNotifications call v
      _ = w.memberNotifications := hsame

/-- **What the loop leaves.**  The slots of distinct notifications that exist and
are not sent: each is sent afterwards unless its outcome was transient, and no
other row differs. -/
theorem Attempts.filed {log : List Attempt} (h : Attempts date w log w')
    (honce : (log.map fun attempt => attempt.notif.id).Nodup)
    (hfresh : ∀ attempt ∈ log, attempt.notif.id ∈ w.owners .memberNotification ∧
      ¬w.Sent (attempt.daySlot date)) :
    (∀ store row, (∀ attempt ∈ log, rowSlot store row ≠ attempt.daySlot date) →
      (row ∈ (w'.sent store).rows ↔ row ∈ (w.sent store).rows)) ∧
    ∀ attempt ∈ log, (w'.Sent (attempt.daySlot date) ↔ ¬Transient attempt.trace) := by
  induction h with
  | nil => exact ⟨fun _ _ _ => Iff.rfl, by simp⟩
  | @cons w w₁ w' attempt rest hhead _ ih =>
      obtain ⟨hnew, honceRest⟩ := List.nodup_cons.mp honce
      have hclaim : (w.insertSent (attempt.daySlot date)).1 = true :=
        World.insertSent_fst.mpr (hfresh attempt List.mem_cons_self)
      have hfiling := handleMemberNotification_filing hclaim hhead
      -- the entries are about different notifications, so about different slots
      have hdistinct : ∀ other ∈ rest, other.daySlot date ≠ attempt.daySlot date := by
        intro other hother heq
        refine hnew (List.mem_map.mpr ⟨other, hother, ?_⟩)
        exact congrArg DaySlot.owner heq
      -- the first handler files no slot of the others
      have hfresh₁ : ∀ other ∈ rest, other.notif.id ∈ w₁.owners .memberNotification ∧
          ¬w₁.Sent (other.daySlot date) := by
        intro other hother
        obtain ⟨howner, hunsent⟩ := hfresh other (List.mem_cons_of_mem _ hother)
        refine ⟨?_, mt (hfiling.elsewhere.sent (hdistinct other hother)).mp hunsent⟩
        rw [World.owners, runs_memberNotifications hhead]
        exact howner
      obtain ⟨hrows, hsent⟩ := ih honceRest hfresh₁
      -- nor do the others file that of the first
      have hhead' : w'.Sent (attempt.daySlot date) ↔ w₁.Sent (attempt.daySlot date) :=
        sent_iff_of_rows fun row hslot => hrows _ row fun other hother heq =>
          hdistinct other hother (heq.symm.trans hslot)
      constructor
      · intro store row hnone
        obtain ⟨hnone, hnoneRest⟩ := List.forall_mem_cons.mp hnone
        exact (hrows store row hnoneRest).trans (hfiling.elsewhere store row hnone)
      · intro other hother
        rcases List.mem_cons.mp hother with rfl | hother
        · rw [hhead', ← hfiling.absent_iff, not_not]
          rfl
        · exact hsent other hother

theorem Attempts.sent_iff {log : List Attempt} (h : Attempts date w log w')
    (honce : (log.map fun attempt => attempt.notif.id).Nodup)
    (hfresh : ∀ attempt ∈ log, attempt.notif.id ∈ w.owners .memberNotification ∧
      ¬w.Sent (attempt.daySlot date)) :
    w'.Sent slot ↔
      w.Sent slot ∨ ∃ attempt ∈ log, slot = attempt.daySlot date ∧ ¬Transient attempt.trace := by
  obtain ⟨hrows, hsent⟩ := h.filed honce hfresh
  by_cases hslot : ∃ attempt ∈ log, slot = attempt.daySlot date
  · obtain ⟨attempt, hattempt, rfl⟩ := hslot
    rw [hsent attempt hattempt, or_iff_right (hfresh attempt hattempt).2]
    constructor
    · exact fun hnot => ⟨attempt, hattempt, rfl, hnot⟩
    · rintro ⟨other, hother, heq, hnot⟩
      -- slots of one date determine the notification
      have hid : attempt.notif.id = other.notif.id := congrArg DaySlot.owner heq
      obtain rfl := List.inj_on_of_nodup_map honce hattempt hother hid
      exact hnot
  · have hsame : w'.Sent slot ↔ w.Sent slot :=
      sent_iff_of_rows fun row hrow => hrows _ row fun attempt hattempt heq =>
        hslot ⟨attempt, hattempt, hrow.symm.trans heq⟩
    rw [hsame, or_iff_left]
    rintro ⟨attempt, hattempt, heq, -⟩
    exact hslot ⟨attempt, hattempt, heq⟩

/-! ## The channel branch -/

section Channels

variable {nowTime : Time} {todayWeekday : ℕ} {guild : Bool}

/-- Steps 2 to 4 of `_process_tick`. -/
def eligiblePhase (todayWeekday : ℕ) (todayDate : Date) (eligible : List Reminder) :
    SchedulerM (Except Failure Unit) :=
  match keptRows todayDate eligible with
  | .error failure => return .error failure
  | .ok kept =>
      if isEndOfTankDate todayDate then do
        let alreadySentTankEnd ← selectSentTankEnd todayWeekday todayDate eligible
        handleReminders todayDate false (survivors kept alreadySentTankEnd)
      else handleReminders todayDate false (survivors kept [])

/-- Steps 1 to 4 of `_process_tick`. -/
def channelPhase (todayWeekday : ℕ) (nowTime : Time) (todayDate : Date) :
    SchedulerM (Except Failure Unit) := do
  let eligible ← selectEligible todayWeekday nowTime todayDate
  eligiblePhase todayWeekday todayDate eligible

/-- `_process_tick` after its channel branch. -/
def afterChannels (guild : Bool) (nowTime : Time) (todayDate : Date) :
    Except Failure Unit → SchedulerM (Except Failure Bool)
  | .error failure => return .error failure
  | .ok () => dmBranch guild todayDate nowTime

theorem afterSuppression_eq {kept alreadySent : List Reminder} :
    afterSuppression guild nowTime date kept alreadySent =
      handleReminders date false (survivors kept alreadySent) >>=
        afterChannels guild nowTime date := by
  refine congrArg (Coroutine.bind _) (funext fun value => ?_)
  cases value with
  | error failure => rfl
  | ok => rfl

theorem afterEligible_eq {eligible : List Reminder} :
    afterEligible guild todayWeekday nowTime date eligible =
      eligiblePhase todayWeekday date eligible >>= afterChannels guild nowTime date := by
  unfold afterEligible eligiblePhase
  cases keptRows date eligible with
  | error failure => rfl
  | ok kept =>
      simp only [afterSuppression_eq]
      split
      · rfl
      · rfl

theorem processTick_eq : processTick guild todayWeekday nowTime date =
    channelPhase todayWeekday nowTime date >>= afterChannels guild nowTime date :=
  congrArg (Coroutine.op _) (funext fun _ => afterEligible_eq)

/-- The channel branch reads no notification and writes the log of the reminders only. -/
def ChannelOp : SchedulerOp → Prop
  | .insertSent slot => slot.store = .reminder
  | .deleteSent store _ => store = .reminder
  | .selectCandidates _ => False
  | _ => True

/-- The channel branch writes to no member. -/
def ChannelCall : SchedulerCall → Prop
  | .getChannel _ _ | .channelSend _ _ _ _ => True
  | _ => False

theorem uses_unmark (hslot : slot.store = .reminder) :
    (unmark slot).Uses ChannelOp ChannelCall := by
  refine ⟨trivial, fun found => ?_⟩
  cases found with
  | none => trivial
  | some row => exact ⟨hslot, fun _ => trivial⟩

theorem uses_afterSend {deletion : SchedulerM Unit} {outcome : Outcome}
    (h : deletion.Uses ChannelOp ChannelCall) :
    (afterSend deletion outcome).Uses ChannelOp ChannelCall := by
  cases outcome with
  | ok => trivial
  | error exc =>
      simp only [afterSend]
      split
      · exact h.bind fun _ => trivial
      · split
        · trivial
        · trivial

theorem uses_sendReminder {reminder : Reminder} :
    (sendReminder reminder date).Uses ChannelOp ChannelCall := by
  refine ⟨trivial, fun found => ?_⟩
  cases found with
  | false => trivial
  | true => exact ⟨trivial, fun outcome => uses_afterSend (uses_unmark rfl)⟩

theorem uses_claimReminder {reminder : Reminder} :
    (claimReminder reminder date).Uses ChannelOp ChannelCall := by
  refine ⟨rfl, fun inserted => ⟨trivial, fun found => ?_⟩⟩
  cases found with
  | none => trivial
  | some loaded =>
      cases inserted with
      | false => trivial
      | true => exact uses_sendReminder

theorem uses_handleReminder {reminder : Reminder} {expired : Bool} :
    (handleReminder reminder expired date).Uses ChannelOp ChannelCall := by
  cases expired with
  | false => exact uses_claimReminder
  | true =>
      refine ⟨trivial, fun found => ?_⟩
      cases found with
      | none => trivial
      | some loaded => exact uses_claimReminder

theorem uses_handleReminders {expired : Bool} {reminders : List Reminder} :
    (handleReminders date expired reminders).Uses ChannelOp ChannelCall := by
  induction reminders generalizing expired with
  | nil => trivial
  | cons reminder rest ih =>
      refine uses_handleReminder.bind fun value => ?_
      cases value with
      | error failure => trivial
      | ok => exact ih

theorem uses_channelPhase :
    (channelPhase todayWeekday nowTime date).Uses ChannelOp ChannelCall := by
  refine ⟨trivial, fun eligible => ?_⟩
  show (eligiblePhase todayWeekday date eligible).Uses ChannelOp ChannelCall
  unfold eligiblePhase
  split
  · trivial
  · split
    · exact ⟨trivial, fun alreadySent => uses_handleReminders⟩
    · exact uses_handleReminders

/-- **Run lemma.**  The channel branch leaves the log of the notifications alone. -/
theorem channelPhase_keeps {value : Except Failure Unit}
    (h : (channelPhase todayWeekday nowTime date).Runs schedulerMachine w trace value w') :
    w'.sent .memberNotification = w.sent .memberNotification := by
  -- `ChannelOp` lets only the log of the reminders be written
  refine h.keeps (fun v => v.sent .memberNotification = w.sent .memberNotification)
    uses_channelPhase ?_ ?_ rfl
  · intro o v hallowed hsame
    cases o with
    | insertSent slot =>
        have hstore : slot.store = .reminder := hallowed
        simpa [schedulerMachine, World.exec, World.insertSent, World.setSent, hstore] using hsame
    | deleteSent store rowId =>
        have hstore : store = .reminder := hallowed
        simpa [schedulerMachine, World.exec, World.deleteSent, World.setSent, hstore] using hsame
    | _ => exact hsame
  · intro call answer v _ hsame
    show ((v.issue call).complete call answer).sent .memberNotification = _
    rw [World.complete_sent, World.issue_sent, hsame]

/-! ## The DM branch -/

/-- What `list_due` answers in `w`; without a guild nothing is due. -/
def dueList (guild : Bool) (todayDate : Date) (nowTime : Time) (w : World) :
    Except Failure (List MemberNotification) :=
  if guild then dueRows todayDate nowTime (w.selectCandidates todayDate) else .ok []

theorem dueRows_sublist {rows due : List MemberNotification}
    (h : dueRows date nowTime rows = .ok due) : due.Sublist rows := by
  induction rows generalizing due with
  | nil =>
      obtain rfl := Except.ok.inj h
      exact .refl _
  | cons row rest ih =>
      simp only [dueRows] at h
      split at h
      next => exact (ih h).cons row
      next =>
        split at h
        next => cases h
        next occurs _ =>
          split at h
          next => cases h
          next due' hrows =>
            obtain rfl := Except.ok.inj h
            cases occurs with
            | false => exact (ih hrows).cons row
            | true => exact (ih hrows).cons_cons row

/-- The due list holds stored notifications without a row for the date, each once. -/
theorem dueList_spec {due : List MemberNotification} (h : dueList guild date nowTime w = .ok due) :
    (due.map MemberNotification.id).Nodup ∧
      ∀ notif ∈ due, notif.id ∈ w.owners .memberNotification ∧
        ¬w.Sent ⟨.memberNotification, notif.id, date⟩ := by
  cases guild with
  | false =>
      obtain rfl := Except.ok.inj h
      simp
  | true =>
      have hsublist : due.Sublist (w.selectCandidates date) := dueRows_sublist h
      refine ⟨?_, fun notif hnotif => ?_⟩
      · exact w.memberNotifications.primaryKey.sublist
          ((hsublist.trans List.filter_sublist).map MemberNotification.id)
      · obtain ⟨hrow, hselected⟩ := List.mem_filter.mp (hsublist.subset hnotif)
        have hunsent := (of_decide_eq_true hselected).2
        exact ⟨List.mem_map_of_mem hrow, hunsent⟩

theorem runs_dmBranch {due : List MemberNotification} {value : Except Failure Bool}
    (hdue : dueList guild date nowTime w = .ok due)
    (h : (dmBranch guild date nowTime).Runs schedulerMachine w trace value w') :
    (handleNotifications date true due).Runs schedulerMachine w trace value w' := by
  cases guild with
  | false =>
      obtain rfl := Except.ok.inj hdue
      exact h
  | true =>
      have hrows : dueRows date nowTime (w.selectCandidates date) = .ok due := hdue
      obtain ⟨first, found, w₁, second, rfl, hlist, hrest⟩ := Coroutine.runs_bind.mp h
      obtain ⟨rfl, rfl, rfl⟩ : first = [] ∧
          found = dueRows date nowTime (w.selectCandidates date) ∧ w₁ = w := hlist
      rw [hrows] at hrest
      exact hrest

/-- What the DM branch of a tick did.  `w` is the database when the tick began and
`w₁` when the branch did; `log` has an entry for each notification of the due list. -/
structure DmReport (date : Date) (due : List MemberNotification) (w w₁ : World)
    (trace : List (Exchange schedulerEffects)) (value : Except Failure Bool) (w' : World)
    (log : List Attempt) : Prop where
  attempted : log.map Attempt.notif = due
  once : (due.map MemberNotification.id).Nodup
  attempts : Attempts date w₁ log w'
  calls : trace = log.flatMap Attempt.trace
  sent_iff : ∀ slot : DaySlot, slot.store = .memberNotification →
    (w'.Sent slot ↔ w.Sent slot ∨
      ∃ attempt ∈ log, slot = attempt.daySlot date ∧ ¬Transient attempt.trace)
  kept : ∀ row ∈ (w.sent .memberNotification).rows, row ∈ (w'.sent .memberNotification).rows
  reminders : ∀ row, row ∈ (w'.sent .reminder).rows ↔ row ∈ (w₁.sent .reminder).rows
  completed : ∃ completed, value = .ok completed ∧
    (completed = false ↔ ∃ attempt ∈ log, ∃ failure, attempt.value = .error failure)

theorem all_isOk_eq_false {log : List Attempt} :
    (log.all fun attempt => attempt.value.isOk) = false ↔
      ∃ attempt ∈ log, ∃ failure, attempt.value = .error failure := by
  rw [List.all_eq_false]
  refine exists_congr fun attempt => and_congr_right fun _ => ?_
  cases attempt.value with
  | ok => simp [Except.isOk, Except.toBool]
  | error failure => simp [Except.isOk, Except.toBool]

/-- **Tick lemma.**  A tick whose channel branch did not raise. -/
theorem exists_dmReport {due : List MemberNotification} {value : Except Failure Bool}
    {second : List (Exchange schedulerEffects)}
    (hchannels : (channelPhase todayWeekday nowTime date).Runs schedulerMachine w trace (.ok ()) w₁)
    (htick : (processTick guild todayWeekday nowTime date).Runs schedulerMachine w
      (trace ++ second) value w')
    (hdue : dueList guild date nowTime w₁ = .ok due) (hnot : NotCancelled second) :
    ∃ log, DmReport date due w w₁ second value w' log := by
  rw [processTick_eq] at htick
  have hbranch := runs_dmBranch hdue (hchannels.of_bind htick)
  obtain ⟨log, rfl, rfl, hattempts, rfl⟩ := runs_handleNotifications hbranch hnot
  obtain ⟨honce, hstored⟩ := dueList_spec hdue
  -- the list was read after the channel branch, and what is due has no row yet
  have honceLog : (log.map fun attempt => attempt.notif.id).Nodup := by
    rw [List.map_map] at honce
    exact honce
  have hfresh : ∀ attempt ∈ log, attempt.notif.id ∈ w₁.owners .memberNotification ∧
      ¬w₁.Sent (attempt.daySlot date) :=
    fun attempt hattempt => hstored attempt.notif (List.mem_map_of_mem hattempt)
  have hlog := channelPhase_keeps hchannels
  obtain ⟨hrows, -⟩ := hattempts.filed honceLog hfresh
  refine ⟨log, ⟨rfl, honce, hattempts, rfl, ?_, ?_, ?_, ?_⟩⟩
  · intro slot hstore
    -- the channel branch filed no notification
    have hbefore : w₁.Sent slot ↔ w.Sent slot :=
      sent_iff_of_rows fun row _ => by rw [hstore, hlog]
    rw [hattempts.sent_iff honceLog hfresh, hbefore]
  · intro row hrow
    rw [← hlog] at hrow
    refine (hrows .memberNotification row fun attempt hattempt heq => ?_).mpr hrow
    apply (hfresh attempt hattempt).2
    rw [← heq]
    exact SentTable.mem_keys_of_mem_rows hrow
  · intro row
    apply hrows
    -- the slots of the log are none of reminders
    intro attempt _ heq
    exact absurd (congrArg DaySlot.store heq) (by simp [rowSlot, Attempt.daySlot])
  · exact ⟨_, by rw [Bool.true_and], all_isOk_eq_false⟩

end Channels

/-! ## The law -/

/-- **Send outcomes.**  A handler that claimed its slot leaves its row unless one of its
calls raised a transient error, and touches no other row.  A tick attempts every due
notification once, whatever became of the ones before. -/
theorem sendOutcome_taxonomy :
    (∀ (reminder : Reminder) (expired : Bool) (date : Date) (w w' : World)
      (trace : List (Exchange schedulerEffects)) (value : Except Failure Unit),
      (w.insertSent ⟨.reminder, reminder.id, date⟩).1 = true →
      (handleReminder reminder expired date).Runs schedulerMachine w trace value w' →
      Filing ⟨.reminder, reminder.id, date⟩ w trace value w') ∧
    (∀ (notif : MemberNotification) (date : Date) (w w' : World)
      (trace : List (Exchange schedulerEffects)) (value : Except Failure Unit),
      (w.insertSent ⟨.memberNotification, notif.id, date⟩).1 = true →
      (handleMemberNotification notif date).Runs schedulerMachine w trace value w' →
      Filing ⟨.memberNotification, notif.id, date⟩ w trace value w') ∧
    ∀ (guild : Bool) (todayWeekday : ℕ) (nowTime : Time) (date : Date) (w w₁ w' : World)
      (first second : List (Exchange schedulerEffects)) (value : Except Failure Bool)
      (due : List MemberNotification),
      (channelPhase todayWeekday nowTime date).Runs schedulerMachine w first (.ok ()) w₁ →
      (processTick guild todayWeekday nowTime date).Runs schedulerMachine w (first ++ second) value
        w' →
      dueList guild date nowTime w₁ = .ok due → NotCancelled second →
      ∃ log, DmReport date due w w₁ second value w' log :=
  ⟨fun _ _ _ _ _ _ _ => handleReminder_filing,
    fun _ _ _ _ _ _ => handleMemberNotification_filing,
    fun _ _ _ _ _ _ _ _ _ _ _ => exists_dmReport⟩

/-- A weekly notification that is due at noon on 2026-07-08. -/
def weeklyDm (id : ℤ) (targetDiscordId : String) : MemberNotification where
  id := id
  targetDiscordId := targetDiscordId
  anchorDateUtc := wednesdayTick.nowUtc.date
  fireTimeUtc := .midnight
  cadence := .weekly
  messageTemplate := "Clan boss"
  enabled := true

/-- Two of them, under the ids 1 and 2. -/
def twoDms : NotificationTable := ⟨[weeklyDm 1 "7", weeklyDm 2 "8"], by decide⟩

/-- A table without reminders. -/
def noReminders : ReminderTable := ⟨[], by decide⟩

/-- The calls of the tick: the first DM times out. -/
def twoDmCalls : List (Exchange schedulerEffects) :=
  [⟨.getMember ⟨.memberNotification, 1, wednesdayTick.nowUtc.date⟩ 7, true⟩,
    ⟨.memberSend ⟨.memberNotification, 1, wednesdayTick.nowUtc.date⟩ 7 "Clan boss",
      (.error .timeout : Outcome)⟩,
    ⟨.getMember ⟨.memberNotification, 2, wednesdayTick.nowUtc.date⟩ 8, true⟩,
    ⟨.memberSend ⟨.memberNotification, 2, wednesdayTick.nowUtc.date⟩ 8 "Clan boss",
      (.ok () : Outcome)⟩]

theorem sendOutcome_taxonomy_twoDms :
    ∃ w' log, DmReport wednesdayTick.nowUtc.date twoDms.rows
      ⟨noReminders, twoDms, emptyLog, []⟩ ⟨noReminders, twoDms, emptyLog, []⟩ twoDmCalls
      (.ok false) w' log := by
  refine ⟨_, sendOutcome_taxonomy.2.2 true 2 .noon _ _ _ _ [] _ _ _ ⟨rfl, rfl, rfl⟩
    ⟨_, _, rfl, _, _, rfl, _, _, rfl, _, _, rfl, rfl, rfl, rfl⟩ rfl ?_⟩
  intro exchange hmem
  simp only [twoDmCalls, List.mem_cons, List.not_mem_nil, or_false] at hmem
  rcases hmem with rfl | rfl | rfl | rfl <;> simp [raisedBy]

end MomBot.Reminders
